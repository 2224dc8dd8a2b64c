/-
A token on its way through the WebSocket subprotocol.

A browser cannot send an `Authorization` header with a WebSocket.  The hook
`useExecution.js` puts the token into a name of a subprotocol: it turns the UTF-8 bytes of
the token into base64, with `-` and `_` and without padding.  `execution_stream` of
`api/v1/executions.py` takes the header apart, restores the padding and decodes.

* `unescape_encodeURIComponent` — the two steps in front of `btoa` give the UTF-8 bytes;
* `bearerToken_encoded` — the entry is decoded to the token;
* `streamToken_encodeTokenForProtocol` — the token arrives.
-/
import GraphPilot.Python.Utf8
import GraphPilot.Python.Base64

namespace GraphPilot.Transport

open Python

/-! ### The hook -/

/-- What `encodeURIComponent` leaves: letters, digits and `-_.!~*()` with the apostrophe. -/
def isUnreserved (c : Char) : Bool :=
  let n := c.toNat
  (65 ≤ n && n ≤ 90) || (97 ≤ n && n ≤ 122) || (48 ≤ n && n ≤ 57) ||
    n ∈ [45, 95, 46, 33, 126, 42, 39, 40, 41]

def hexDigit (n : ℕ) : Char := if n < 10 then .ofNat (48 + n) else .ofNat (55 + n)

/-- The value of a character of `[0-9A-F]`. -/
def hexValue (c : Char) : Option ℕ :=
  let n := c.toNat
  if 48 ≤ n && n ≤ 57 then some (n - 48) else if 65 ≤ n && n ≤ 70 then some (n - 55) else none

/-- `%XX` -/
def escape (b : UInt8) : List Char := ['%', hexDigit (b.toNat / 16), hexDigit (b.toNat % 16)]

def encodeURIComponent (cs : List Char) : List Char :=
  cs.flatMap fun c => if isUnreserved c then [c] else (String.utf8EncodeChar c).flatMap escape

/-- `text.replace(/%([0-9A-F]{2})/g, …)`: each escape becomes the character with its number. -/
def unescape : List Char → List Char
  | c :: h :: l :: rest =>
    if c = '%' then
      match hexValue h, hexValue l with
      | some m, some n => .ofNat (16 * m + n) :: unescape rest
      | _, _ => c :: unescape (h :: l :: rest)
    else c :: unescape (h :: l :: rest)
  | c :: rest => c :: unescape rest
  | [] => []

/-- `btoa`, which throws for a character that is not a byte. -/
def btoa (cs : List Char) : Except String (List Char) :=
  if cs.all (·.toNat < 256) then .ok (Base64.encode (cs.map fun c => .ofNat c.toNat))
  else .error "InvalidCharacterError"

/-- `.replace(/\+/g, '-').replace(/\//g, '_')` -/
def toUrlSafe (c : Char) : Char := if c = '+' then '-' else if c = '/' then '_' else c

/-- `encodeTokenForProtocol` -/
def encodeTokenForProtocol (token : String) : Except String (Option String) :=
  if token = "" then .ok none
  else
    match btoa (unescape (encodeURIComponent token.toList)) with
    | .error e => .error e
    | .ok text => .ok (some (String.ofList ((text.map toUrlSafe).rdropWhile (· = '='))))

/-- The subprotocols of `getExecutionStreamUrlWithAuth`. -/
def protocols (encodedAccessToken : Option String) : List String :=
  match encodedAccessToken with
  | some encoded =>
    if encoded = "" then ["graphpilot.v1"] else ["graphpilot.v1", "bearer." ++ encoded]
  | none => ["graphpilot.v1"]

/-- `Sec-WebSocket-Protocol`, as the browser writes it. -/
def protocolHeader (names : List String) : String := ", ".intercalate names

/-! ### The endpoint -/

/-- The white space of `str.strip`. -/
def isSpace (c : Char) : Bool :=
  c.toNat ∈ [0x9, 0xA, 0xB, 0xC, 0xD, 0x1C, 0x1D, 0x1E, 0x1F, 0x20, 0x85, 0xA0, 0x1680, 0x2000,
    0x2001, 0x2002, 0x2003, 0x2004, 0x2005, 0x2006, 0x2007, 0x2008, 0x2009, 0x200A, 0x2028,
    0x2029, 0x202F, 0x205F, 0x3000]

def strip (cs : List Char) : List Char := (cs.dropWhile isSpace).rdropWhile isSpace

/-- `[p.strip() for p in protocol_header.split(",") if p.strip()]` -/
def entries (header : String) : List (List Char) :=
  ((header.toList.splitOn ',').filter fun p => strip p ≠ []).map strip

/-- `bytes.maketrans(b"-_", b"+/")` -/
def fromUrlSafe (c : Char) : Char := if c = '-' then '+' else if c = '_' then '/' else c

/-- `base64.urlsafe_b64decode(text)`, which fails for a text that is not ASCII. -/
def urlsafeB64decode (text : List Char) : Option (List UInt8) :=
  if text.all (·.toNat < 128) then Base64.decode (text.map fromUrlSafe) else none

/-- `bs.decode("utf-8")`, which fails for bytes that are no encoding of a text. -/
def decodeUtf8 (bs : List UInt8) : Option String :=
  if encode (decode bs) = bs then some (decode bs) else none

/-- The token of a `bearer.` entry, `None` where it cannot be decoded. -/
def bearerToken (entry : List Char) : Option String :=
  let encoded := entry.drop "bearer.".toList.length
  let padding := List.replicate ((-(encoded.length : ℤ)) % 4).toNat '='
  (urlsafeB64decode (encoded ++ padding)).bind decodeUtf8

/-- The token that `execution_stream` checks, from its two headers. -/
def streamToken (authHeader protocolHeader : String) : Option String :=
  let token :=
    if "Bearer ".toList.isPrefixOf authHeader.toList then
      some (String.ofList (authHeader.toList.drop 7))
    else none
  if token = none ∨ token = some "" then
    match (entries protocolHeader).find? ("bearer.".toList.isPrefixOf ·) with
    | some entry => bearerToken entry
    | none => token
  else token

/-! ### The bytes of the token -/

theorem hexValue_hexDigit {n : ℕ} (h : n < 16) : hexValue (hexDigit n) = some n := by
  revert n
  decide

theorem unescape_escape (b : UInt8) (rest : List Char) :
    unescape (escape b ++ rest) = .ofNat b.toNat :: unescape rest := by
  have hb := b.toNat_lt
  have hsum : 16 * (b.toNat / 16) + b.toNat % 16 = b.toNat := Nat.div_add_mod _ _
  simp only [escape, List.cons_append, List.nil_append]
  rw [unescape, if_pos rfl, hexValue_hexDigit (by omega), hexValue_hexDigit (by omega)]
  dsimp only
  rw [hsum]

theorem unescape_cons {c : Char} (h : c ≠ '%') (rest : List Char) :
    unescape (c :: rest) = c :: unescape rest := by
  rcases rest with - | ⟨a, - | ⟨b, rest⟩⟩
  · rfl
  · rfl
  · rw [unescape, if_neg h]

theorem unescape_escapes (bs : List UInt8) (rest : List Char) :
    unescape (bs.flatMap escape ++ rest) =
      (bs.map fun b => Char.ofNat b.toNat) ++ unescape rest := by
  induction bs with
  | nil => rfl
  | cons b bs ih =>
    rw [List.flatMap_cons, List.append_assoc, unescape_escape, ih]
    rfl

theorem isUnreserved_ascii {c : Char} (h : isUnreserved c = true) :
    c.toNat < 0x80 ∧ c ≠ '%' := by
  constructor
  · simp only [isUnreserved, Bool.or_eq_true, Bool.and_eq_true, decide_eq_true_eq,
      List.mem_cons, List.not_mem_nil, or_false] at h
    omega
  · rintro rfl
    exact absurd h (by decide)

/-- Each character has the number of one UTF-8 byte of the text. -/
theorem unescape_encodeURIComponent (cs : List Char) :
    unescape (encodeURIComponent cs) = (encodeChars cs).map fun b => Char.ofNat b.toNat := by
  induction cs with
  | nil => rfl
  | cons c cs ih =>
    rw [encodeChars_cons, List.map_append, ← ih]
    unfold encodeURIComponent
    rw [List.flatMap_cons]
    split
    · rename_i hc
      obtain ⟨hascii, hpercent⟩ := isUnreserved_ascii hc
      rw [encodeChar_ascii hascii, List.singleton_append, unescape_cons hpercent,
        List.map_singleton, toNat_ofNat (by omega), Char.ofNat_toNat]
      rfl
    · exact unescape_escapes _ _

theorem btoa_bytes (bs : List UInt8) :
    btoa (bs.map fun b => Char.ofNat b.toNat) = .ok (Base64.encode bs) := by
  have hchar : ∀ b : UInt8, (Char.ofNat b.toNat).toNat = b.toNat := by
    intro b
    have hb := b.toNat_lt
    exact charOfNat_toNat (by omega)
  have hall : (bs.map fun b => Char.ofNat b.toNat).all (·.toNat < 256) = true := by
    rw [List.all_map, List.all_eq_true]
    intro b _
    rw [Function.comp_apply, hchar]
    exact decide_eq_true b.toNat_lt
  have hback : ((bs.map fun b => Char.ofNat b.toNat).map fun c => UInt8.ofNat c.toNat) = bs := by
    rw [List.map_map]
    conv_rhs => rw [← List.map_id bs]
    refine List.map_congr_left fun b _ => ?_
    show UInt8.ofNat (Char.ofNat b.toNat).toNat = b
    rw [hchar, UInt8.ofNat_toNat]
  unfold btoa
  rw [if_pos hall, hback]

/-! ### The digits on their way -/

/-- What a digit becomes is none of the characters at which the header is taken apart, and
becomes the digit again. -/
theorem toUrlSafe_digit {n : ℕ} (h : n < 64) :
    (toUrlSafe (Base64.digit n) ≠ ',' ∧ isSpace (toUrlSafe (Base64.digit n)) = false) ∧
      (toUrlSafe (Base64.digit n)).toNat < 128 ∧
      fromUrlSafe (toUrlSafe (Base64.digit n)) = Base64.digit n := by
  revert n
  decide

/-- The text for the bytes of a token. -/
def urlDigits (bs : List UInt8) : List Char := (Base64.digits bs).map toUrlSafe

/-- Without its padding. -/
theorem rdropWhile_toUrlSafe (bs : List UInt8) :
    ((Base64.encode bs).map toUrlSafe).rdropWhile (· = '=') = urlDigits bs := by
  have hpad : ((fun c => decide (c = '=')) ∘ toUrlSafe) = fun c => decide (c = '=') := by
    funext c
    unfold toUrlSafe
    by_cases hplus : c = '+'
    · subst hplus
      rfl
    · by_cases hslash : c = '/'
      · subst hslash
        rfl
      · simp [hplus, hslash]
  unfold urlDigits
  rw [← Base64.rdropWhile_encode]
  unfold List.rdropWhile
  rw [← List.map_reverse, List.dropWhile_map, hpad, List.map_reverse]

theorem encodeTokenForProtocol_eq {token : String} (h : token ≠ "") :
    encodeTokenForProtocol token = .ok (some (String.ofList (urlDigits (encode token)))) := by
  unfold encodeTokenForProtocol
  rw [if_neg h, unescape_encodeURIComponent, btoa_bytes]
  dsimp only
  rw [rdropWhile_toUrlSafe]
  rfl

theorem mem_urlDigits {bs : List UInt8} {c : Char} (h : c ∈ urlDigits bs) :
    ∃ n < 64, c = toUrlSafe (Base64.digit n) := by
  obtain ⟨d, hd, rfl⟩ := List.mem_map.mp h
  obtain ⟨n, hn, rfl⟩ := Base64.exists_digit hd
  exact ⟨n, hn, rfl⟩

/-- The alphabet is that of base64 again. -/
theorem map_fromUrlSafe (bs : List UInt8) :
    (urlDigits bs).map fromUrlSafe = Base64.digits bs := by
  unfold urlDigits
  rw [List.map_map]
  conv_rhs => rw [← List.map_id (Base64.digits bs)]
  refine List.map_congr_left fun c hc => ?_
  obtain ⟨n, hn, rfl⟩ := Base64.exists_digit hc
  exact (toUrlSafe_digit hn).2.2

/-- With the padding that its length asks for, the text is decoded to the bytes. -/
theorem urlsafeB64decode_urlDigits (bs : List UInt8) :
    urlsafeB64decode (urlDigits bs ++
      List.replicate (Base64.padding (urlDigits bs).length) '=') = some bs := by
  have hlen : (urlDigits bs).length = (Base64.digits bs).length := List.length_map _
  have hall : (urlDigits bs ++
      List.replicate (Base64.padding (urlDigits bs).length) '=').all (·.toNat < 128) = true := by
    rw [List.all_append, Bool.and_eq_true, List.all_eq_true, List.all_eq_true]
    refine ⟨fun c hc => ?_, fun c hc => ?_⟩
    · obtain ⟨n, hn, rfl⟩ := mem_urlDigits hc
      exact decide_eq_true (toUrlSafe_digit hn).2.1
    · rw [List.eq_of_mem_replicate hc]
      decide
  unfold urlsafeB64decode
  rw [if_pos hall, List.map_append, map_fromUrlSafe, List.map_replicate, hlen]
  show Base64.decode (Base64.digits bs ++
    List.replicate (Base64.padding (Base64.digits bs).length) '=') = some bs
  rw [← Base64.encode_eq_digits, Base64.decode_encode]

theorem decodeUtf8_encode (s : String) : decodeUtf8 (encode s) = some s := by
  unfold decodeUtf8
  rw [decode_encode, if_pos rfl]

/-- The entry of the token. -/
def bearerEntry (token : String) : List Char :=
  "bearer.".toList ++ urlDigits (encode token)

theorem bearerToken_encoded (token : String) : bearerToken (bearerEntry token) = some token := by
  have hdrop : (bearerEntry token).drop "bearer.".toList.length = urlDigits (encode token) :=
    List.drop_left
  unfold bearerToken
  dsimp only
  rw [hdrop]
  show (urlsafeB64decode (urlDigits (encode token) ++ List.replicate
    (Base64.padding (urlDigits (encode token)).length) '=')).bind decodeUtf8 = some token
  rw [urlsafeB64decode_urlDigits, Option.bind_some, decodeUtf8_encode]

/-! ### The header -/

/-- A text without white space is not stripped. -/
theorem strip_of_no_space {cs : List Char} (h : ∀ c ∈ cs, isSpace c = false) : strip cs = cs := by
  unfold strip
  have hdrop : cs.dropWhile isSpace = cs := by
    cases cs with
    | nil => rfl
    | cons c cs => exact List.dropWhile_cons_of_neg (by simp [h c List.mem_cons_self])
  rw [hdrop, List.rdropWhile_eq_self_iff]
  intro hne
  rw [h _ (List.getLast_mem hne)]
  decide

theorem bearerEntry_visible {token : String} {c : Char} (h : c ∈ bearerEntry token) :
    c ≠ ',' ∧ isSpace c = false := by
  rcases List.mem_append.mp h with h | h
  · have hall : ("bearer.".toList.all fun c => c ≠ ',' && !isSpace c) = true := by decide
    simpa using List.all_eq_true.mp hall c h
  · obtain ⟨n, hn, rfl⟩ := mem_urlDigits h
    exact (toUrlSafe_digit hn).1

/-- The header that the browser writes is taken apart into its two names. -/
theorem entries_protocolHeader (token : String) :
    entries (protocolHeader ["graphpilot.v1", String.ofList (bearerEntry token)]) =
      ["graphpilot.v1".toList, bearerEntry token] := by
  have hheader : (protocolHeader ["graphpilot.v1", String.ofList (bearerEntry token)]).toList =
      "graphpilot.v1".toList ++ ',' :: ' ' :: bearerEntry token := by
    show ("graphpilot.v1" ++ ", " ++ String.ofList (bearerEntry token)).toList = _
    have hback : (String.ofList (bearerEntry token)).toList = bearerEntry token :=
      String.toList_ofList
    rw [String.toList_append, String.toList_append, hback, List.append_assoc]
    rfl
  have hsplit : ("graphpilot.v1".toList ++ ',' :: ' ' :: bearerEntry token).splitOn ',' =
      ["graphpilot.v1".toList, ' ' :: bearerEntry token] := by
    rw [List.splitOn_append_cons_self_of_not_mem (by decide), List.splitOn_eq_singleton]
    intro hmem
    rcases List.mem_cons.mp hmem with hmem | hmem
    · exact absurd hmem (by decide)
    · exact (bearerEntry_visible hmem).1 rfl
  have hstrip : strip (' ' :: bearerEntry token) = bearerEntry token := by
    have hspace : strip (' ' :: bearerEntry token) = strip (bearerEntry token) := rfl
    rw [hspace]
    exact strip_of_no_space fun c hc => (bearerEntry_visible hc).2
  have hversion : strip "graphpilot.v1".toList = "graphpilot.v1".toList := by decide
  have hkept : ["graphpilot.v1".toList, ' ' :: bearerEntry token].filter (fun p => strip p ≠ []) =
      ["graphpilot.v1".toList, ' ' :: bearerEntry token] := by
    rw [List.filter_eq_self]
    intro p hp
    rcases List.mem_pair.mp hp with rfl | rfl
    · decide
    · rw [hstrip]
      rfl
  unfold entries
  rw [hheader, hsplit, hkept, List.map_cons, List.map_cons, List.map_nil, hversion, hstrip]

theorem urlDigits_ne_nil {token : String} (h : token ≠ "") : urlDigits (encode token) ≠ [] := by
  intro hnil
  have hdigits : Base64.digits (encode token) = [] := List.map_eq_nil_iff.mp hnil
  have hbytes : Base64.encode (encode token) = [] := by
    rw [Base64.encode_eq_digits, hdigits]
    rfl
  have hdecode := Base64.decode_encode (encode token)
  rw [hbytes] at hdecode
  have hempty : encode token = encode "" := (Option.some.inj hdecode).symm
  exact h (encode_injective hempty)

/-- The token arrives: its text consists of characters at which the header is not taken
apart, and the endpoint decodes it. -/
theorem streamToken_encodeTokenForProtocol (token : String) (h : token ≠ "") :
    ∃ encoded, encodeTokenForProtocol token = .ok (some encoded) ∧
      (∀ c ∈ encoded.toList, c ≠ ',' ∧ isSpace c = false) ∧
      bearerToken ("bearer." ++ encoded).toList = some token ∧
      streamToken "" (protocolHeader (protocols (some encoded))) = some token := by
  have hentry : "bearer." ++ String.ofList (urlDigits (encode token)) =
      String.ofList (bearerEntry token) := by
    unfold bearerEntry
    rw [String.ofList_append, String.ofList_toList]
  have hvisible : ∀ c ∈ urlDigits (encode token), c ≠ ',' ∧ isSpace c = false :=
    fun c hc => bearerEntry_visible (List.mem_append_right _ hc)
  refine ⟨_, encodeTokenForProtocol_eq h, ?_, ?_, ?_⟩
  · rw [String.toList_ofList]
    exact hvisible
  · rw [hentry, String.toList_ofList]
    exact bearerToken_encoded token
  · have hnames : protocols (some (String.ofList (urlDigits (encode token)))) =
        ["graphpilot.v1", String.ofList (bearerEntry token)] := by
      unfold protocols
      dsimp only
      rw [if_neg, hentry]
      intro hempty
      have hnil := congrArg String.toList hempty
      rw [String.toList_ofList] at hnil
      exact urlDigits_ne_nil h hnil
    -- the first name is not an entry with a token, and the second is
    have hfind : ["graphpilot.v1".toList, bearerEntry token].find?
        ("bearer.".toList.isPrefixOf ·) = some (bearerEntry token) := by
      rw [List.find?_cons_of_neg (by decide), List.find?_cons_of_pos]
      exact List.isPrefixOf_iff_prefix.mpr (List.prefix_append _ _)
    unfold streamToken
    rw [hnames, entries_protocolHeader, hfind]
    exact bearerToken_encoded token

theorem streamToken_encodeTokenForProtocol_umlaut :
    ∃ encoded, encodeTokenForProtocol "token/ü" = .ok (some encoded) ∧
      (∀ c ∈ encoded.toList, c ≠ ',' ∧ isSpace c = false) ∧
      bearerToken ("bearer." ++ encoded).toList = some "token/ü" ∧
      streamToken "" (protocolHeader (protocols (some encoded))) = some "token/ü" :=
  streamToken_encodeTokenForProtocol "token/ü" (by decide)

end GraphPilot.Transport
