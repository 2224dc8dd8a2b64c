/-
What is sent is one request.

A reader of HTTP takes the blob for one request, with the target, the headers and the body
that were meant, exactly when the arguments are `Frameable` (`framed_iff`).  The functions
reject line breaks, and colons in the names; what they let through is a space in the path
or the query, which makes a request line of four parts, the parameters of a path, which
are left out, a header name that is no token, a NUL, and a Transfer-Encoding, which says
that the body is chunked when it is not.
-/
import GraphPilot.SafeHttp.Blob
import GraphPilot.SafeHttp.Calls
import Mathlib.Data.Bool.AllAny

namespace GraphPilot.SafeHttp

open Python Concurrency
open Http (Bytes isToken)

/-! ### What is meant -/

/-- The path and the query of the URL. -/
def target (host : Host) (call : Call) (parsed : Url) : String :=
  withQuery parsed.path (call.query host parsed)

/-- The header that says how long the body is. -/
def lengthHeader (bodyBytes : Bytes) : List (String × String) :=
  if bodyBytes = [] then [] else [("Content-Length", toString bodyBytes.length)]

/-- The headers that are set here and those of the caller, which count where both are given. -/
def meantHeaders (host : Host) (call : Call) (parsed : Url) (port : Option ℕ) (headers : Headers) :
    List (String × String) :=
  (call.builtIn host parsed port).filter
      (fun x => x.1 ∉ (texts host (kept host headers.items)).map Prod.fst) ++
    texts host (kept host headers.items) ++ lengthHeader (call.bodyBytes host)

/-- The blob is read as exactly one request, the one that is meant. -/
def Frames (host : Host) (call : Call) (method : String) (parsed : Url) (port : Option ℕ)
    (headers : Headers) (blob : Bytes) : Prop :=
  ∃ request, Http.readRequest blob = some (request, []) ∧
    request.method = encode (host.upper method) ∧
    request.target = encode (target host call parsed) ∧
    request.fields.Perm ((meantHeaders host call parsed port headers).map field) ∧
    (Http.named Http.contentLength request.fields).length =
      (if call.bodyBytes host = [] then 0 else 1) ∧
    request.body = call.bodyBytes host

/-- The arguments of which a request can be made. -/
structure Frameable (host : Host) (call : Call) (parsed : Url) (headers : Headers) : Prop where
  noParams : parsed.parsedPath = parsed.path
  noSpace : ' ' ∉ (target host call parsed).toList
  noNul : '\x00' ∉ (parsed.hostname.getD "").toList
  fields : ∀ x ∈ texts host (kept host headers.items), IsField x
  noCoding : ∀ x ∈ texts host (kept host headers.items),
    Http.lower (encode x.1) ≠ Http.transferEncoding

/-! ### The headers that are set here -/

/-- Those that are the same in every request. -/
def constants : List (String × String) :=
  [("User-Agent", "GraphPilot/1.0"), ("Accept", "*/*"), ("Connection", "close"),
   ("Content-Type", "application/json")]

section Framing

variable {host : Host} {call : Call} {parsed : Url} {port : Option ℕ} {headers : Headers}

theorem builtIn_eq (host : Host) (call : Call) (parsed : Url) (port : Option ℕ) :
    ∃ number default rest, call.builtIn host parsed port =
        ("Host", hostHeader (parsed.hostname.getD "") number default) :: rest ∧
      rest.Sublist constants := by
  cases call with
  | safe body =>
    refine ⟨_, _, _, rfl, ?_⟩
    show [("User-Agent", "GraphPilot/1.0"), ("Connection", "close")].Sublist constants
    decide
  | pinned params jsonBody body allowHttp maxBytes =>
    cases jsonBody with
    | null =>
      refine ⟨_, _, _, rfl, ?_⟩
      show [("User-Agent", "GraphPilot/1.0"), ("Accept", "*/*"),
        ("Connection", "close")].Sublist constants
      decide
    | _ => exact ⟨_, _, _, rfl, List.Sublist.refl constants⟩

theorem builtIn_nodup : ((call.builtIn host parsed port).map Prod.fst).Nodup := by
  obtain ⟨number, default, rest, heq, hsub⟩ := builtIn_eq host call parsed port
  rw [heq, List.map_cons, List.nodup_cons]
  have hconstants : "Host" ∉ constants.map Prod.fst ∧ (constants.map Prod.fst).Nodup := by decide
  have hkeys := hsub.map Prod.fst
  exact ⟨fun h => hconstants.1 (hkeys.mem h), hconstants.2.sublist hkeys⟩

theorem not_mem_toString {c : Char} (hc : c.isDigit = false) (n : ℕ) :
    c ∉ (toString n).toList := by
  intro hmem
  rw [Nat.toString_eq_repr, Nat.toList_repr] at hmem
  rw [Nat.isDigit_of_mem_toDigits (by decide) (by decide) hmem] at hc
  cases hc

/-- The characters of the `Host` header. -/
theorem mem_hostHeader {name : String} {number default : ℕ} {c : Char} (hdigit : c.isDigit = false)
    (hcolon : c ≠ ':') : c ∈ (hostHeader name number default).toList ↔ c ∈ name.toList := by
  unfold hostHeader
  split
  · exact Iff.rfl
  · have hnumber : c ∉ (toString number).toList := not_mem_toString hdigit number
    have hsep : c ∉ (":" : String).toList := by
      intro hmem
      exact hcolon (List.mem_singleton.mp hmem)
    rw [String.toList_append, String.toList_append, List.mem_append, List.mem_append]
    simp only [hnumber, hsep, or_false]

theorem hostname_plain : '\r' ∉ (parsed.hostname.getD "").toList ∧
    '\n' ∉ (parsed.hostname.getD "").toList := by
  cases hname : parsed.hostname with
  | none => exact ⟨by decide, by decide⟩
  | some name =>
    refine parsed.plain name ?_
    rw [hname]
    simp

theorem constants_plain : ∀ x ∈ constants, Plain x ∧ IsField x ∧ x.1 ≠ "Host" := by
  have h : ∀ x ∈ constants, ('\r' ∉ x.1.toList ∧ '\n' ∉ x.1.toList ∧ ':' ∉ x.1.toList ∧
      '\r' ∉ x.2.toList ∧ '\n' ∉ x.2.toList) ∧
      (isToken (encode x.1) = true ∧ '\x00' ∉ x.2.toList) ∧ x.1 ≠ "Host" := by decide
  intro x hx
  obtain ⟨⟨h₁, h₂, h₃, h₄, h₅⟩, hfield, hne⟩ := h x hx
  exact ⟨⟨h₁, h₂, h₃, h₄, h₅⟩, hfield, hne⟩

/-- A header that is set here. -/
theorem builtIn_cases {x : String × String} (h : x ∈ call.builtIn host parsed port) :
    Plain x ∧ (IsField x ↔ (x.1 = "Host" → '\x00' ∉ (parsed.hostname.getD "").toList)) ∧
      Http.lower (encode x.1) ≠ Http.transferEncoding ∧
      Http.lower (encode x.1) ≠ Http.contentLength := by
  obtain ⟨number, default, rest, heq, hsub⟩ := builtIn_eq host call parsed port
  rw [heq] at h
  rcases List.mem_cons.mp h with rfl | hmem
  · obtain ⟨hcr, hlf⟩ : '\r' ∉ (parsed.hostname.getD "").toList ∧
        '\n' ∉ (parsed.hostname.getD "").toList := hostname_plain
    have hname : '\r' ∉ ("Host" : String).toList ∧ '\n' ∉ ("Host" : String).toList ∧
        ':' ∉ ("Host" : String).toList := by decide
    have htoken : isToken (encode "Host") = true := by decide
    have hlower : Http.lower (encode "Host") ≠ Http.transferEncoding ∧
        Http.lower (encode "Host") ≠ Http.contentLength := by decide
    refine ⟨⟨hname.1, hname.2.1, hname.2.2, ?_, ?_⟩, ?_, hlower⟩
    · rwa [mem_hostHeader (by decide) (by decide)]
    · rwa [mem_hostHeader (by decide) (by decide)]
    · unfold IsField
      rw [mem_hostHeader (by decide) (by decide)]
      constructor
      · exact fun hboth _ => hboth.2
      · exact fun hnul => ⟨htoken, hnul rfl⟩
  · have hconstant := hsub.mem hmem
    obtain ⟨hplain, hfield, hne⟩ := constants_plain x hconstant
    refine ⟨hplain, iff_of_true hfield fun hhost => absurd hhost hne, ?_⟩
    have hnames : ∀ y ∈ constants, Http.lower (encode y.1) ≠ Http.transferEncoding ∧
        Http.lower (encode y.1) ≠ Http.contentLength := by decide
    exact hnames x hconstant

/-! ### The headers of the caller -/

/-- A token has no other characters than those of ASCII. -/
theorem ascii_of_token {s : String} (h : isToken (encode s) = true) :
    ∀ c ∈ s.toList, c.toNat < 128 := by
  refine ascii_of_encode fun b hb => ?_
  have htchar := Http.isTchar_of_mem h hb
  have hbytes : ∀ n : Fin 256, Http.isTchar (UInt8.ofNat n) = true → n.val < 0x80 := by
    decide +kernel
  have hn := hbytes ⟨b.toNat, b.toNat_lt⟩
  rw [UInt8.ofNat_toNat] at hn
  exact hn htchar

/-- A text of ASCII in lower case, as bytes. -/
theorem encode_lower {s : String} (h : ∀ c ∈ s.toList, c.toNat < 128) :
    encode (host.lower s) = Http.lower (encode s) := by
  have hchar : ∀ n : Fin 128, (Char.ofNat n).toLower.toNat < 0x80 ∧
      UInt8.ofNat (Char.ofNat n).toLower.toNat = Http.lowerByte (UInt8.ofNat n) := by
    decide +kernel
  rw [host.lower_ascii s h]
  unfold encode
  rw [String.toList_ofList]
  generalize s.toList = cs at h
  induction cs with
  | nil => rfl
  | cons c cs ih =>
    have hc : c.toNat < 128 := h c List.mem_cons_self
    obtain ⟨hlt, heq⟩ := hchar ⟨c.toNat, hc⟩
    rw [Char.ofNat_toNat] at hlt heq
    rw [List.map_cons, encodeChars_cons, encodeChars_cons, encodeChar_ascii hlt,
      encodeChar_ascii hc, ih fun d hd => h d (List.mem_cons_of_mem _ hd), heq]
    rfl

theorem lower_reserved : host.lower "Host" = "host" ∧
    host.lower "Content-Length" = "content-length" := by
  constructor
  · rw [host.lower_ascii _ (List.all_iff_forall_prop.mp (by decide))]
    decide
  · rw [host.lower_ascii _ (List.all_iff_forall_prop.mp (by decide))]
    decide

variable {x : String × String}

/-- The names that are set here are not those of the caller. -/
theorem not_reserved (h : x ∈ texts host (kept host headers.items)) :
    host.lower x.1 ∉ reserved := by
  obtain ⟨y, hy, rfl⟩ := List.mem_map.mp h
  exact of_decide_eq_true (List.mem_filter.mp hy).2

/-- A name that is a token is no other spelling of Content-Length. -/
theorem not_contentLength (h : x ∈ texts host (kept host headers.items)) (hx : IsField x) :
    Http.lower (encode x.1) ≠ Http.contentLength := by
  intro heq
  have hname : encode (host.lower x.1) = encode "content-length" := by
    rw [encode_lower (ascii_of_token hx.1), heq]
    decide
  refine not_reserved h ?_
  rw [encode_injective hname]
  decide

/-! ### All headers -/

variable {requestHeaders : List (String × String)} {bodyBytes : Bytes}

theorem lengthHeader_cases (h : x ∈ lengthHeader bodyBytes) :
    Plain x ∧ IsField x ∧ Http.lower (encode x.1) = Http.contentLength := by
  have hname : '\r' ∉ ("Content-Length" : String).toList ∧
      '\n' ∉ ("Content-Length" : String).toList ∧ ':' ∉ ("Content-Length" : String).toList := by
    decide
  have htoken : isToken (encode "Content-Length") = true := by decide
  have hlower : Http.lower (encode "Content-Length") = Http.contentLength := by decide
  unfold lengthHeader at h
  split at h
  · cases h
  · rw [List.mem_singleton.mp h]
    refine ⟨⟨hname.1, hname.2.1, hname.2.2, ?_, ?_⟩, ⟨htoken, ?_⟩, hlower⟩
    · exact not_mem_toString (by decide) _
    · exact not_mem_toString (by decide) _
    · exact not_mem_toString (by decide) _

theorem texts_nodup : ((texts host (kept host headers.items)).map Prod.fst).Nodup := by
  have hkeys : (texts host (kept host headers.items)).map Prod.fst =
      (kept host headers.items).map Prod.fst := by
    unfold texts
    rw [List.map_map]
    rfl
  rw [hkeys]
  exact headers.distinct.sublist (List.filter_sublist.map _)

section Added

variable (hadded : headers.items.foldlM (addHeader host) (call.builtIn host parsed port) =
  .ok requestHeaders)

include hadded

/-- The headers before the length are those that are set here and those of the caller. -/
theorem requestHeaders_perm : requestHeaders.Perm
    ((call.builtIn host parsed port).filter
        (fun x => x.1 ∉ (texts host (kept host headers.items)).map Prod.fst) ++
      texts host (kept host headers.items)) := by
  rw [(added_eq hadded).1]
  exact update_perm builtIn_nodup texts_nodup

theorem requestHeaders_cases (hx : x ∈ requestHeaders) :
    x ∈ call.builtIn host parsed port ∨ x ∈ texts host (kept host headers.items) := by
  have hmem := (requestHeaders_perm hadded).mem_iff.mp hx
  exact (List.mem_append.mp hmem).imp_left List.mem_of_mem_filter

theorem withContentLength_eq :
    withContentLength bodyBytes requestHeaders = requestHeaders ++ lengthHeader bodyBytes := by
  unfold withContentLength lengthHeader
  split
  · rw [List.append_nil]
  · refine setItem_of_notMem fun hmem => ?_
    obtain ⟨x, hx, hname⟩ := List.mem_map.mp hmem
    rcases requestHeaders_cases hadded hx with hx | hx
    · obtain ⟨-, -, -, hne⟩ := builtIn_cases hx
      rw [hname] at hne
      exact hne (by decide)
    · refine not_reserved hx ?_
      rw [hname, lower_reserved.2]
      decide

theorem withContentLength_perm : (withContentLength (call.bodyBytes host) requestHeaders).Perm
    (meantHeaders host call parsed port headers) := by
  rw [withContentLength_eq hadded]
  exact (requestHeaders_perm hadded).append_right _

theorem plain_all (hx : x ∈ withContentLength bodyBytes requestHeaders) : Plain x := by
  rw [withContentLength_eq hadded, List.mem_append] at hx
  rcases hx with hx | hx
  · rcases requestHeaders_cases hadded hx with hx | hx
    · exact (builtIn_cases hx).1
    · exact (added_eq hadded).2 x hx
  · exact (lengthHeader_cases hx).1

/-- The `Host` header is always the one that is set here. -/
theorem host_mem : ∃ value, ("Host", value) ∈ requestHeaders ∧
    ("Host", value) ∈ call.builtIn host parsed port := by
  obtain ⟨number, default, rest, heq, -⟩ := builtIn_eq host call parsed port
  refine ⟨hostHeader (parsed.hostname.getD "") number default, ?_, ?_⟩
  · rw [(requestHeaders_perm hadded).mem_iff, List.mem_append]
    refine .inl (List.mem_filter.mpr ⟨?_, decide_eq_true fun hmem => ?_⟩)
    · rw [heq]
      exact List.mem_cons_self
    · obtain ⟨x, hx, hname⟩ := List.mem_map.mp hmem
      refine not_reserved hx ?_
      rw [hname, lower_reserved.1]
      decide
  · rw [heq]
    exact List.mem_cons_self

/-- All headers are fields when those of the caller are, and the host has no NUL. -/
theorem isField_all : (∀ x ∈ withContentLength bodyBytes requestHeaders, IsField x) ↔
    (∀ x ∈ texts host (kept host headers.items), IsField x) ∧
      '\x00' ∉ (parsed.hostname.getD "").toList := by
  rw [withContentLength_eq hadded]
  constructor
  · intro hall
    constructor
    · intro x hx
      refine hall x (List.mem_append_left _ ?_)
      rw [(requestHeaders_perm hadded).mem_iff]
      exact List.mem_append_right _ hx
    · obtain ⟨value, hmem, hbuilt⟩ := host_mem hadded
      exact (builtIn_cases hbuilt).2.1.mp (hall _ (List.mem_append_left _ hmem)) rfl
  · rintro ⟨htexts, hnul⟩ x hx
    rcases List.mem_append.mp hx with hx | hx
    · rcases requestHeaders_cases hadded hx with hx | hx
      · exact (builtIn_cases hx).2.1.mpr fun _ => hnul
      · exact htexts x hx
    · exact (lengthHeader_cases hx).2.1

end Added

/-! ### The body -/

theorem named_map (name : Bytes) (d : List (String × String)) : Http.named name (d.map field) =
    (d.filter fun x => Http.lower (encode x.1) = name).map fun x => Http.trim (encode x.2) := by
  unfold Http.named
  rw [List.filter_map, List.map_map]
  rfl

/-- Digits, as bytes. -/
theorem encodeChars_digits {cs : List Char} (h : ∀ c ∈ cs, c.isDigit = true) :
    encodeChars cs = cs.map fun c => UInt8.ofNat c.toNat := by
  induction cs with
  | nil => rfl
  | cons c cs ih =>
    have hc := (Char.isDigit_iff_toNat.mp (h c List.mem_cons_self)).2
    have hlt : c.toNat < 0x80 := Nat.lt_of_le_of_lt hc (by decide)
    rw [encodeChars_cons, encodeChar_ascii hlt, ih fun d hd => h d (List.mem_cons_of_mem _ hd)]
    rfl

theorem foldl_digits {cs : List Char} (h : ∀ c ∈ cs, c.isDigit = true) (n : ℕ) :
    (cs.map fun c => UInt8.ofNat c.toNat).foldl (fun n b => n * 10 + (b.toNat - 48)) n =
      Nat.ofDigitChars 10 cs n := by
  induction cs generalizing n with
  | nil => simp
  | cons c cs ih =>
    have hc := (Char.isDigit_iff_toNat.mp (h c List.mem_cons_self)).2
    have hlt : c.toNat < 256 := Nat.lt_of_le_of_lt hc (by decide)
    rw [List.map_cons, List.foldl_cons, toNat_ofNat hlt, ih fun d hd => h d (List.mem_cons_of_mem _ hd),
      Nat.ofDigitChars_cons, Nat.mul_comm]
    rfl

theorem digit_byte {c : Char} (h : c.isDigit = true) :
    48 ≤ UInt8.ofNat c.toNat ∧ UInt8.ofNat c.toNat ≤ 57 ∧ Http.isOws (UInt8.ofNat c.toNat) = false := by
  obtain ⟨hlo, hhi⟩ := Char.isDigit_iff_toNat.mp h
  have hbytes : ∀ n : Fin 58, 48 ≤ n.val → 48 ≤ UInt8.ofNat n ∧ UInt8.ofNat n ≤ 57 ∧
      Http.isOws (UInt8.ofNat n) = false := by decide
  exact hbytes ⟨c.toNat, Nat.lt_succ_of_le hhi⟩ hlo

theorem trim_of_not_ows {value : Bytes} (h : ∀ b ∈ value, Http.isOws b = false) :
    Http.trim value = value := by
  have hkeep : ∀ bs : Bytes, (∀ b ∈ bs, Http.isOws b = false) → bs.dropWhile Http.isOws = bs := by
    intro bs hbs
    cases bs with
    | nil => rfl
    | cons b bs =>
      refine List.dropWhile_cons_of_neg ?_
      rw [hbs b List.mem_cons_self]
      exact Bool.false_ne_true
  unfold Http.trim
  rw [hkeep value h, hkeep _ fun b hb => h b (List.mem_reverse.mp hb), List.reverse_reverse]

/-- A length that has been written is read again. -/
theorem decimal_toString (n : ℕ) : Http.decimal (Http.trim (encode (toString n))) = some n := by
  have hdigits : ∀ c ∈ Nat.toDigits 10 n, c.isDigit = true := fun c hc =>
    Nat.isDigit_of_mem_toDigits (by decide) (by decide) hc
  have hbytes : encode (toString n) = (Nat.toDigits 10 n).map fun c => UInt8.ofNat c.toNat := by
    unfold encode
    rw [Nat.toString_eq_repr, Nat.toList_repr, encodeChars_digits hdigits]
  have hbyte : ∀ b ∈ encode (toString n), 48 ≤ b ∧ b ≤ 57 ∧ Http.isOws b = false := by
    intro b hb
    rw [hbytes] at hb
    obtain ⟨c, hc, rfl⟩ := List.mem_map.mp hb
    exact digit_byte (hdigits c hc)
  have hne : encode (toString n) ≠ [] := by
    rw [hbytes]
    exact fun h => Nat.toDigits_ne_nil (List.map_eq_nil_iff.mp h)
  rw [trim_of_not_ows fun b hb => (hbyte b hb).2.2]
  unfold Http.decimal
  have hall : (encode (toString n)).all (fun b => 48 ≤ b && b ≤ 57) = true := by
    rw [List.all_eq_true]
    intro b hb
    obtain ⟨hlo, hhi, -⟩ := hbyte b hb
    simp [hlo, hhi]
  rw [if_pos ⟨hne, hall⟩, hbytes, foldl_digits hdigits, Nat.ofDigitChars_ten_toDigits]

/-- The length that is read is the one that was given. -/
theorem framing_lengthHeader (bodyBytes : Bytes) (fields : List (String × String))
    (hcoding : ∀ x ∈ fields, Http.lower (encode x.1) ≠ Http.transferEncoding)
    (hlength : ∀ x ∈ fields, Http.lower (encode x.1) ≠ Http.contentLength) :
    Http.framing ((fields ++ lengthHeader bodyBytes).map field) =
        some (if bodyBytes = [] then .unspecified else .length bodyBytes.length) ∧
      (Http.named Http.contentLength ((fields ++ lengthHeader bodyBytes).map field)).length =
        if bodyBytes = [] then 0 else 1 := by
  have hnone : fields.filter (fun x => Http.lower (encode x.1) = Http.contentLength) = [] :=
    List.filter_eq_nil_iff.mpr fun x hx => by simpa using hlength x hx
  have hlengths : Http.named Http.contentLength ((fields ++ lengthHeader bodyBytes).map field) =
      if bodyBytes = [] then [] else [Http.trim (encode (toString bodyBytes.length))] := by
    rw [named_map, List.filter_append, hnone, List.nil_append]
    unfold lengthHeader
    split
    · rfl
    · have hlower : Http.lower (encode "Content-Length") = Http.contentLength := by decide
      simp [hlower]
  have hcodings : Http.named Http.transferEncoding ((fields ++ lengthHeader bodyBytes).map field) =
      [] := by
    rw [named_map, List.map_eq_nil_iff, List.filter_eq_nil_iff]
    intro x hx
    rw [decide_eq_true_eq]
    rcases List.mem_append.mp hx with hx | hx
    · exact hcoding x hx
    · rw [(lengthHeader_cases hx).2.2]
      decide
  unfold Http.framing
  rw [hcodings, hlengths]
  by_cases hbody : bodyBytes = []
  · rw [if_pos hbody, if_pos hbody, if_pos hbody]
    exact ⟨rfl, rfl⟩
  · rw [if_neg hbody, if_neg hbody, if_neg hbody]
    dsimp only
    rw [decimal_toString]
    exact ⟨rfl, rfl⟩

/-- A transfer coding is one that the body does not have. -/
theorem not_framed_of_coding {fields : List Http.Field} {how : Http.Framing}
    (h : Http.named Http.transferEncoding fields ≠ []) (hframing : Http.framing fields = some how)
    : Http.readBody bodyBytes how ≠ some (bodyBytes, []) := by
  intro hread
  have hchunked : how = .chunked := by
    unfold Http.framing at hframing
    split at hframing
    · rename_i heq
      exact absurd heq h
    · split at hframing
      · exact (Option.some.inj hframing).symm
      · cases hframing
  rw [hchunked] at hread
  have hcount := Http.count_of_readChunks hread
  omega

/-! ### The target -/

theorem mem_splitparams {cs : List Char} {c : Char} (h : c ∈ splitparams cs) : c ∈ cs := by
  rcases List.mem_append.mp h with h | h
  · exact List.mem_of_mem_take h
  · have hsegment := (List.takeWhile_sublist _).mem h
    exact List.mem_reverse.mp ((List.takeWhile_sublist _).mem (List.mem_reverse.mp hsegment))

theorem mem_parsedPath {c : Char} (h : c ∈ parsed.parsedPath.toList) : c ∈ parsed.path.toList := by
  unfold Url.parsedPath at h
  split at h
  · rw [String.toList_ofList] at h
    exact mem_splitparams h
  · exact h

theorem mem_withQuery {c : Char} {path query : String} (h : c ∈ (withQuery path query).toList)
    (hslash : c ≠ '/') (hmark : c ≠ '?') : c ∈ path.toList ∨ c ∈ query.toList := by
  have hpath : c ∈ (if path = "" then "/" else path).toList → c ∈ path.toList := by
    split
    · intro hmem
      exact absurd (List.mem_singleton.mp hmem) hslash
    · exact id
  unfold withQuery at h
  dsimp only at h
  split at h
  · exact .inl (hpath h)
  · rw [String.toList_append, String.toList_append, List.mem_append, List.mem_append] at h
    rcases h with (h | h) | h
    · exact .inl (hpath h)
    · exact absurd (List.mem_singleton.mp h) hmark
    · exact .inr h

/-- Neither the query of the URL nor what is made of `params` has a CR. -/
theorem query_plain : '\r' ∉ (call.query host parsed).toList := by
  have hquery : '\r' ∉ parsed.query.toList := (parsed.plain parsed.query (by simp)).1
  cases call with
  | safe body => exact hquery
  | pinned params jsonBody body allowHttp maxBytes =>
    show '\r' ∉ (queryWith host parsed.query params).toList
    have hextra := (host.urlencode_plain params).1
    unfold queryWith
    split
    · exact hquery
    dsimp only
    split
    · exact hextra
    · rw [String.toList_append, String.toList_append, List.mem_append, List.mem_append]
      rintro ((h | h) | h)
      · exact hquery h
      · exact absurd (List.mem_singleton.mp h) (by decide)
      · exact hextra h

theorem path_plain : '\r' ∉ (withQuery parsed.parsedPath (call.query host parsed)).toList := by
  intro hmem
  rcases mem_withQuery hmem (by decide) (by decide) with h | h
  · exact (parsed.plain parsed.path (by simp)).1 (mem_parsedPath h)
  · exact query_plain h

theorem withQuery_ne_empty (path query : String) : withQuery path query ≠ "" := by
  have hpath : (if path = "" then "/" else path) ≠ "" := by
    split
    · decide
    · assumption
  unfold withQuery
  dsimp only
  split
  · exact hpath
  · intro h
    have hlist := congrArg String.toList h
    rw [String.toList_append, String.toList_append] at hlist
    have hempty := (List.append_eq_nil_iff.mp (List.append_eq_nil_iff.mp hlist).1).1
    exact hpath (String.toList_inj.mp hempty)

/-- The target is the one that is meant when the path has no parameters. -/
theorem withQuery_parsedPath (query : String) :
    withQuery parsed.parsedPath query = withQuery parsed.path query ↔
      parsed.parsedPath = parsed.path := by
  constructor
  · intro h
    have hpath : (if parsed.parsedPath = "" then "/" else parsed.parsedPath) =
        if parsed.path = "" then "/" else parsed.path := by
      unfold withQuery at h
      dsimp only at h
      by_cases hquery : query = ""
      · rwa [if_pos hquery, if_pos hquery] at h
      · rw [if_neg hquery, if_neg hquery] at h
        have hlist := congrArg String.toList h
        rw [String.toList_append, String.toList_append, String.toList_append,
          String.toList_append] at hlist
        exact String.toList_inj.mp (List.append_cancel_right (List.append_cancel_right hlist))
    by_cases hempty : parsed.path = ""
    · unfold Url.parsedPath
      rw [hempty]
      split
      · decide
      · rfl
    · rw [if_neg hempty] at hpath
      split at hpath
      · -- the path is `/`, of which nothing is left out
        rename_i hparsed
        unfold Url.parsedPath at hparsed ⊢
        rw [← hpath] at hparsed ⊢
        split at hparsed
        · exact absurd hparsed (by decide)
        · exact absurd hparsed (by decide)
      · exact hpath
  · intro h
    rw [h]

/-! ### The blob -/

variable {method url : String} {blob : Bytes}

theorem method_token (h : host.upper method ∈ ["GET", "POST", "PUT", "PATCH", "DELETE"]) :
    isToken (encode (host.upper method)) = true := by
  have hall : ∀ m ∈ ["GET", "POST", "PUT", "PATCH", "DELETE"], isToken (encode m) = true := by decide
  exact hall _ h

/-- What a blob is read as. -/
theorem readRequest_prepared
    (h : Prepared host call method url headers parsed port requestHeaders blob) :
    Http.readRequest blob =
      (Http.readParts (requestLine (host.upper method)
          (withQuery parsed.parsedPath (call.query host parsed)))).bind fun parts =>
        (((withContentLength (call.bodyBytes host) requestHeaders).map headerLine).mapM
            Http.readField).bind fun fields =>
          (Http.framing fields).bind fun how =>
            (Http.readBody (call.bodyBytes host) how).map fun x =>
              (⟨parts.1, parts.2, fields, x.1⟩, x.2) := by
  rw [h.eq]
  exact readRequest_blob (method_token h.allowed) path_plain fun x hx => plain_all h.added hx

theorem frames_of_frameable
    (h : Prepared host call method url headers parsed port requestHeaders blob)
    (hok : Frameable host call parsed headers) :
    Frames host call method parsed port headers blob := by
  have htarget : withQuery parsed.parsedPath (call.query host parsed) = target host call parsed :=
    (withQuery_parsedPath _).mpr hok.noParams
  have hparts : Http.readParts (requestLine (host.upper method) (target host call parsed)) =
      some (encode (host.upper method), encode (target host call parsed)) :=
    (readParts_line (method_token h.allowed) (withQuery_ne_empty _ _)).1 hok.noSpace
  have hfields : ∀ x ∈ withContentLength (call.bodyBytes host) requestHeaders, IsField x :=
    (isField_all h.added).mpr ⟨hok.fields, hok.noNul⟩
  have hcoding : ∀ x ∈ requestHeaders, Http.lower (encode x.1) ≠ Http.transferEncoding := by
    intro x hx
    rcases requestHeaders_cases h.added hx with hx | hx
    · exact (builtIn_cases hx).2.2.1
    · exact hok.noCoding x hx
  have hlength : ∀ x ∈ requestHeaders, Http.lower (encode x.1) ≠ Http.contentLength := by
    intro x hx
    rcases requestHeaders_cases h.added hx with hx | hx
    · exact (builtIn_cases hx).2.2.2
    · exact not_contentLength hx (hok.fields x hx)
  obtain ⟨hframing, hcount⟩ :=
    framing_lengthHeader (call.bodyBytes host) requestHeaders hcoding hlength
  have hbody : Http.readBody (call.bodyBytes host)
      (if call.bodyBytes host = [] then .unspecified else .length (call.bodyBytes host).length) =
        some (call.bodyBytes host, []) := by
    split
    · rename_i hempty
      rw [hempty]
      rfl
    · simp [Http.readBody]
  have hperm := (withContentLength_perm h.added).map field
  have hread := readRequest_prepared h
  rw [htarget, hparts, Option.bind_some,
    (mapM_readField fun x hx => plain_all h.added hx).1 hfields, Option.bind_some] at hread
  rw [withContentLength_eq h.added] at hread hperm
  rw [hframing, Option.bind_some, hbody] at hread
  exact ⟨_, hread, rfl, rfl, hperm, hcount, rfl⟩

theorem frameable_of_frames
    (h : Prepared host call method url headers parsed port requestHeaders blob)
    (hframes : Frames host call method parsed port headers blob) :
    Frameable host call parsed headers := by
  obtain ⟨request, hrequest, -, htarget, -, -, hbody⟩ := hframes
  rw [readRequest_prepared h] at hrequest
  obtain ⟨parts, hparts, hrequest⟩ := Option.bind_eq_some_iff.mp hrequest
  obtain ⟨fields, hmapM, hrequest⟩ := Option.bind_eq_some_iff.mp hrequest
  obtain ⟨how, hframing, hrequest⟩ := Option.bind_eq_some_iff.mp hrequest
  obtain ⟨⟨body, rest⟩, hread, heq⟩ := Option.map_eq_some_iff.mp hrequest
  cases heq
  -- the request line has three parts, the second of which is the target
  have hline := readParts_line (method_token h.allowed)
    (withQuery_ne_empty parsed.parsedPath (call.query host parsed))
  have hspace : ' ' ∉ (withQuery parsed.parsedPath (call.query host parsed)).toList := by
    intro hmem
    rw [hline.2 hmem] at hparts
    cases hparts
  rw [hline.1 hspace] at hparts
  cases hparts
  have hpath : withQuery parsed.parsedPath (call.query host parsed) = target host call parsed :=
    encode_injective htarget
  -- every header is a field
  obtain ⟨hall, hnone⟩ := mapM_readField (d := withContentLength (call.bodyBytes host) requestHeaders)
    fun x hx => plain_all h.added hx
  have hfields : ∀ x ∈ withContentLength (call.bodyBytes host) requestHeaders, IsField x := by
    by_contra hnot
    rw [hnone hnot] at hmapM
    cases hmapM
  rw [hall hfields] at hmapM
  cases hmapM
  obtain ⟨htexts, hnul⟩ := (isField_all h.added).mp hfields
  refine ⟨(withQuery_parsedPath _).mp hpath, ?_, hnul, htexts, fun x hx hcoding => ?_⟩
  · rw [← hpath]
    exact hspace
  · -- a transfer coding would be taken off the body
    have hmem : x ∈ withContentLength (call.bodyBytes host) requestHeaders := by
      rw [withContentLength_eq h.added]
      refine List.mem_append_left _ ((requestHeaders_perm h.added).mem_iff.mpr ?_)
      exact List.mem_append_right _ hx
    have hnamed : Http.named Http.transferEncoding
        ((withContentLength (call.bodyBytes host) requestHeaders).map field) ≠ [] := by
      rw [named_map]
      intro hnil
      have hnone := List.filter_eq_nil_iff.mp (List.map_eq_nil_iff.mp hnil) x hmem
      exact hnone (decide_eq_true hcoding)
    dsimp only at hbody
    rw [hbody] at hread
    exact not_framed_of_coding hnamed hframing hread

/-- **A blob that is sent is exactly one request when its arguments are such, and only
then.** -/
theorem framed_iff (host : Host) (call : Call) (method url : String) (headers : Headers)
    (tr : Trace Ans Exn) (r : Except Exn Reply) (blob : Bytes)
    (answer : Except Exn (Ans (.write blob)))
    (h : (call.request host method url headers).Gives tr r)
    (hsent : (⟨.write blob, answer⟩ : (o : Op) × Except Exn (Ans o)) ∈ tr) :
    ∃ parsed port, host.urlsplit url = .ok parsed ∧ parsed.port = .ok port ∧
      (Frames host call method parsed port headers blob ↔ Frameable host call parsed headers) := by
  obtain ⟨parsed, port, requestHeaders, hprepared⟩ := sent_of_gives h hsent
  exact ⟨parsed, port, hprepared.split, hprepared.number, frameable_of_frames hprepared,
    frames_of_frameable hprepared⟩

end Framing

/-! ### A space in the path -/

namespace Sample

def publicAddress (s : String) : Except String IpAddress :=
  if s = "8.8.8.8" then .ok (.v4 (BitVec.ofNat 32 (quad 8 8 8 8))) else .error "no address"

theorem plain_space : ∀ s ∈ "/a b" :: "" :: (some "api.example").toList,
    '\r' ∉ s.toList ∧ '\n' ∉ s.toList := by decide

/-- `https://api.example/a b` -/
def urlWithSpace : Url :=
  ⟨"https", none, none, some "api.example", .ok none, "/a b", "", plain_space⟩

def noHeaders : Headers := ⟨[], List.nodup_nil⟩

def blob (url : Url) : Bytes :=
  requestBlob "GET" (withQuery url.parsedPath url.query)
    [("Host", "api.example"), ("User-Agent", "GraphPilot/1.0"), ("Connection", "close")] []

/-- A connection that breaks when the blob is written. -/
def trace (url : Url) : Trace Ans Exn :=
  [⟨.getaddrinfo "api.example" none, .ok ["8.8.8.8"]⟩,
   ⟨.getaddrinfo "api.example" (some 443), .ok ["8.8.8.8"]⟩,
   ⟨.openConnection "8.8.8.8" 443 (some "api.example"), .ok ()⟩,
   ⟨.write (blob url), .error .other⟩,
   ⟨.close, .ok ()⟩,
   ⟨.waitClosed, .ok ()⟩]

theorem gives_trace {parsed : Url} (h : parsed = url ∨ parsed = urlWithSpace) :
    ((Call.safe .none).request (host publicAddress parsed) "GET" "" noHeaders).Gives (trace parsed)
      (.error .other) := by
  rcases h with rfl | rfl
  · exact ⟨_, _, rfl, _, _, rfl, _, _, rfl, _, _, rfl, _, _, rfl, _, _, rfl, rfl, rfl⟩
  · exact ⟨_, _, rfl, _, _, rfl, _, _, rfl, _, _, rfl, _, _, rfl, _, _, rfl, rfl, rfl⟩

theorem mem_trace (parsed : Url) : (⟨.write (blob parsed), .error .other⟩ :
    (o : Op) × Except Exn (Ans o)) ∈ trace parsed := by
  simp [trace]

end Sample

theorem framed_url : ∃ parsed port,
    (Sample.host Sample.publicAddress Sample.url).urlsplit "" = .ok parsed ∧
      parsed.port = .ok port ∧
      (Frames (Sample.host Sample.publicAddress Sample.url) (.safe .none) "GET" parsed port
          Sample.noHeaders (Sample.blob Sample.url) ↔
        Frameable (Sample.host Sample.publicAddress Sample.url) (.safe .none) parsed
          Sample.noHeaders) :=
  framed_iff (Sample.host Sample.publicAddress Sample.url) (.safe .none) "GET" "" Sample.noHeaders
    (Sample.trace Sample.url) (.error .other) (Sample.blob Sample.url) (.error .other)
    (@Sample.gives_trace Sample.url (.inl rfl)) (Sample.mem_trace Sample.url)

/-- `GET /a b HTTP/1.1` is no request line. -/
theorem space_not_framed : ¬ ∀ (host : Host) (call : Call) (method url : String)
    (headers : Headers) (tr : Trace Ans Exn) (r : Except Exn Reply) (blob : Bytes)
    (answer : Except Exn (Ans (.write blob))),
    (call.request host method url headers).Gives tr r →
    (⟨.write blob, answer⟩ : (o : Op) × Except Exn (Ans o)) ∈ tr →
    ∃ parsed port, host.urlsplit url = .ok parsed ∧ parsed.port = .ok port ∧
      Frames host call method parsed port headers blob := by
  intro h
  have hgives := @Sample.gives_trace Sample.urlWithSpace (.inr rfl)
  have hmem := Sample.mem_trace Sample.urlWithSpace
  obtain ⟨parsed, port, hsplit, hport, hframes⟩ :=
    h (Sample.host Sample.publicAddress Sample.urlWithSpace) (.safe .none) "GET" "" Sample.noHeaders
      (Sample.trace Sample.urlWithSpace) (.error .other) (Sample.blob Sample.urlWithSpace)
      (.error .other) hgives hmem
  obtain ⟨parsed', port', requestHeaders, hprepared⟩ := sent_of_gives hgives hmem
  cases hsplit
  cases hprepared.split
  cases hport
  cases hprepared.number
  exact (frameable_of_frames hprepared hframes).noSpace (by decide)

end GraphPilot.SafeHttp
