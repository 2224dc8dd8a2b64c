/-
How a request blob is read.

The blob is a request line, the lines of the headers and the body, and a reader of HTTP
finds exactly these lines (`readRequest_blob`), since no part of them has a line break in
it.  What is left to chance is what the parts themselves are:

* `added_eq` — the headers that are added, and what has been checked of them;
* `readParts_line` — the target, unless there is a space in it;
* `readField_line`, `mapM_readField` — a header, when its name is a token and its value
  has no NUL.
-/
import GraphPilot.SafeHttp.Client

namespace GraphPilot.SafeHttp

open Python
open Http (Bytes crlf joined readField isToken isFieldByte)

variable {host : Host} {d requestHeaders : List (String × String)} {items : List (String × Json)}

/-! ### The headers -/

/-- The headers of a caller that are not set here. -/
def kept (host : Host) (items : List (String × Json)) : List (String × Json) :=
  items.filter fun x => host.lower x.1 ∉ reserved

def texts (host : Host) (items : List (String × Json)) : List (String × String) :=
  items.map fun x => (x.1, host.str x.2)

/-- No line breaks, and no colon in the name. -/
structure Plain (x : String × String) : Prop where
  name_cr : '\r' ∉ x.1.toList
  name_lf : '\n' ∉ x.1.toList
  name_colon : ':' ∉ x.1.toList
  value_cr : '\r' ∉ x.2.toList
  value_lf : '\n' ∉ x.2.toList

theorem kept_cons (x : String × Json) (items : List (String × Json)) :
    kept host (x :: items) =
      if host.lower x.1 ∈ reserved then kept host items else x :: kept host items := by
  unfold kept
  split
  · rename_i h
    rw [List.filter_cons_of_neg (by simpa using h)]
  · rename_i h
    rw [List.filter_cons_of_pos (by simpa using h)]

/-- What the loop over the headers adds. -/
theorem added_eq (h : items.foldlM (addHeader host) d = .ok requestHeaders) :
    requestHeaders = update d (texts host (kept host items)) ∧
      ∀ x ∈ texts host (kept host items), Plain x := by
  induction items generalizing d with
  | nil =>
    cases h
    exact ⟨rfl, fun x hx => absurd hx List.not_mem_nil⟩
  | cons x items ih =>
    rw [List.foldlM_cons] at h
    rw [kept_cons]
    unfold addHeader at h
    by_cases hreserved : host.lower x.1 ∈ reserved
    · rw [if_pos hreserved] at h ⊢
      exact ih h
    · rw [if_neg hreserved] at h ⊢
      by_cases hname : '\r' ∈ x.1.toList ∨ '\n' ∈ x.1.toList ∨ ':' ∈ x.1.toList
      · rw [if_pos hname] at h
        cases h
      · rw [if_neg hname] at h
        unfold cleanHeaderValue at h
        by_cases hvalue : '\r' ∈ (host.str x.2).toList ∨ '\n' ∈ (host.str x.2).toList
        · rw [if_pos hvalue] at h
          cases h
        · rw [if_neg hvalue] at h
          obtain ⟨hrest, hplain⟩ := ih h
          refine ⟨hrest, fun y hy => ?_⟩
          rcases List.mem_cons.mp hy with rfl | hy
          · rw [not_or, not_or] at hname
            rw [not_or] at hvalue
            exact ⟨hname.1, hname.2.1, hname.2.2, hvalue.1, hvalue.2⟩
          · exact hplain y hy

/-! ### The lines -/

/-- The line of a header. -/
def headerLine (x : String × String) : Bytes := encode x.1 ++ 58 :: 32 :: encode x.2

def requestLine (method path : String) : Bytes :=
  encode method ++ 32 :: (encode path ++ 32 :: Http.version)

theorem encode_join (ss : List String) : encode (String.join ss) = ss.flatMap encode := by
  have hfold : ∀ s, encode (ss.foldl (· ++ ·) s) = encode s ++ ss.flatMap encode := by
    induction ss with
    | nil =>
      intro s
      rw [List.flatMap_nil, List.append_nil]
      rfl
    | cons t ss ih =>
      intro s
      rw [List.foldl_cons, ih, encode_append, List.flatMap_cons, List.append_assoc]
  exact hfold ""

theorem encode_headerBlob : encode (headerBlob d) = joined (d.map headerLine) := by
  unfold headerBlob joined
  rw [encode_join, List.flatMap_map, List.flatMap_map]
  refine List.flatMap_congr fun x _ => ?_
  have hcolon : encode ": " = [58, 32] := by decide
  have hcrlf : encode "\r\n" = crlf := by decide
  rw [encode_append, encode_append, encode_append, hcolon, hcrlf]
  unfold headerLine
  simp only [List.append_assoc, List.cons_append, List.nil_append]

/-- The lines of a blob. -/
theorem requestBlob_eq (method path : String) (bodyBytes : Bytes) :
    requestBlob method path d bodyBytes =
      requestLine method path ++ (crlf ++ (joined (d.map headerLine) ++ (crlf ++ bodyBytes))) := by
  have hspace : encode " " = [32] := by decide
  have hversion : encode " HTTP/1.1\r\n" = 32 :: Http.version ++ crlf := by decide
  have hcrlf : encode "\r\n" = crlf := by decide
  unfold requestBlob requestLine
  rw [encode_append, encode_append, encode_append, encode_append, encode_append, hspace, hversion,
    hcrlf, encode_headerBlob]
  simp only [List.append_assoc, List.cons_append, List.nil_append]

/-! ### A header that is read -/

/-- The field of a header. -/
def field (x : String × String) : Http.Field := ⟨encode x.1, Http.trim (encode x.2)⟩

/-- A header that is a field. -/
def IsField (x : String × String) : Prop :=
  isToken (encode x.1) = true ∧ '\x00' ∉ x.2.toList

theorem not_mem_encode {s : String} {c : Char} (hc : c.toNat < 0x80) (h : c ∉ s.toList) :
    UInt8.ofNat c.toNat ∉ encode s := fun hmem => h ((mem_encode hc).mp hmem)

theorem all_isFieldByte {x : String × String} (h : Plain x) :
    (encode x.2).all isFieldByte = true ↔ '\x00' ∉ x.2.toList := by
  have hnul : (0 : UInt8) ∈ encode x.2 ↔ '\x00' ∈ x.2.toList :=
    mem_encode (c := '\x00') (by decide)
  have hcr : (13 : UInt8) ∉ encode x.2 := not_mem_encode (by decide) h.value_cr
  have hlf : (10 : UInt8) ∉ encode x.2 := not_mem_encode (by decide) h.value_lf
  rw [← hnul, List.all_eq_true]
  constructor
  · intro hall hmem
    exact absurd (hall 0 hmem) (by decide)
  · intro hnot b hb
    unfold isFieldByte
    simp only [Bool.and_eq_true, decide_eq_true_eq]
    refine ⟨⟨?_, ?_⟩, ?_⟩
    · rintro rfl
      exact hnot hb
    · rintro rfl
      exact hlf hb
    · rintro rfl
      exact hcr hb

theorem readField_line {x : String × String} (h : Plain x) : (IsField x →
    readField (headerLine x) = some (field x)) ∧ (¬ IsField x → readField (headerLine x) = none) := by
  have hcolon : (58 : UInt8) ∉ encode x.1 := not_mem_encode (by decide) h.name_colon
  have hall : (32 :: encode x.2).all isFieldByte = (encode x.2).all isFieldByte := rfl
  unfold headerLine
  rw [Http.readField_colon hcolon, hall, Http.trim_cons rfl]
  constructor
  · rintro ⟨htoken, hnul⟩
    rw [htoken, (all_isFieldByte h).mpr hnul]
    rfl
  · intro hnot
    refine if_neg fun hboth => hnot ?_
    obtain ⟨htoken, hvalue⟩ := Bool.and_eq_true_iff.mp hboth
    exact ⟨htoken, (all_isFieldByte h).mp hvalue⟩

theorem headerLine_plain {x : String × String} (h : Plain x) :
    headerLine x ≠ [] ∧ 13 ∉ headerLine x := by
  have hname : (13 : UInt8) ∉ encode x.1 := not_mem_encode (by decide) h.name_cr
  have hvalue : (13 : UInt8) ∉ encode x.2 := not_mem_encode (by decide) h.value_cr
  refine ⟨List.append_ne_nil_of_right_ne_nil _ (List.cons_ne_nil _ _), fun hmem => ?_⟩
  rcases List.mem_append.mp hmem with hmem | hmem
  · exact hname hmem
  · simp only [List.mem_cons] at hmem
    rcases hmem with heq | heq | hmem
    · cases heq
    · cases heq
    · exact hvalue hmem

/-- All headers are read, or none. -/
theorem mapM_readField (hplain : ∀ x ∈ d, Plain x) :
    ((∀ x ∈ d, IsField x) → (d.map headerLine).mapM readField = some (d.map field)) ∧
      (¬ (∀ x ∈ d, IsField x) → (d.map headerLine).mapM readField = none) := by
  induction d with
  | nil => exact ⟨fun _ => rfl, fun h => absurd (fun x hx => absurd hx List.not_mem_nil) h⟩
  | cons x d ih =>
    obtain ⟨hyes, hno⟩ := ih fun y hy => hplain y (List.mem_cons_of_mem _ hy)
    obtain ⟨hfield, hnone⟩ := readField_line (hplain x List.mem_cons_self)
    rw [List.map_cons, List.mapM_cons, List.map_cons]
    constructor
    · intro h
      rw [hfield (h x List.mem_cons_self), hyes fun y hy => h y (List.mem_cons_of_mem _ hy)]
      rfl
    · intro h
      by_cases hx : IsField x
      · have hrest : ¬ ∀ y ∈ d, IsField y := fun hall => h (List.forall_mem_cons.mpr ⟨hx, hall⟩)
        rw [hfield hx, hno hrest]
        rfl
      · rw [hnone hx]
        rfl

/-! ### The request -/

theorem readParts_line {method path : String} (hmethod : isToken (encode method) = true)
    (hpath : path ≠ "") : (' ' ∉ path.toList →
      Http.readParts (requestLine method path) = some (encode method, encode path)) ∧
    (' ' ∈ path.toList → Http.readParts (requestLine method path) = none) := by
  have hspace : (32 : UInt8) ∈ encode path ↔ ' ' ∈ path.toList :=
    mem_encode (c := ' ') (by decide)
  have hne : encode path ≠ [] := fun h => hpath (encode_injective h)
  constructor
  · intro h
    exact Http.readParts_of_notMem hmethod hne fun hmem => h (hspace.mp hmem)
  · intro h
    exact Http.readParts_of_mem (hspace.mpr h)

/-- What is read of a blob. -/
theorem readRequest_blob {method path : String} {bodyBytes : Bytes}
    (hmethod : isToken (encode method) = true) (hpath : '\r' ∉ path.toList)
    (hplain : ∀ x ∈ d, Plain x) :
    Http.readRequest (requestBlob method path d bodyBytes) =
      (Http.readParts (requestLine method path)).bind fun parts =>
        ((d.map headerLine).mapM readField).bind fun fields =>
          (Http.framing fields).bind fun how => (Http.readBody bodyBytes how).map fun x =>
            (⟨parts.1, parts.2, fields, x.1⟩, x.2) := by
  have hline : (13 : UInt8) ∉ requestLine method path := by
    intro hmem
    unfold requestLine at hmem
    simp only [List.mem_append, List.mem_cons] at hmem
    rcases hmem with hmem | heq | hmem | heq | hmem
    · exact absurd (Http.isTchar_of_mem hmethod hmem) (by decide)
    · cases heq
    · exact not_mem_encode (by decide) hpath hmem
    · cases heq
    · exact absurd hmem (by decide)
  have hlines : ∀ line ∈ d.map headerLine, line ≠ [] ∧ 13 ∉ line := by
    intro line hmem
    obtain ⟨x, hx, rfl⟩ := List.mem_map.mp hmem
    exact headerLine_plain (hplain x hx)
  unfold Http.readRequest
  rw [requestBlob_eq, Http.cut_line hline]
  show (Http.readParts _).bind _ = _
  congr 1
  funext parts
  show (Http.readFields _).bind _ = _
  rw [Http.readFields_joined hlines, Option.bind_map]
  congr 1
  funext fields
  show (Http.framing fields).bind _ = _
  congr 1
  funext how
  cases Http.readBody bodyBytes how with
  | none => rfl
  | some x => rfl

end GraphPilot.SafeHttp
