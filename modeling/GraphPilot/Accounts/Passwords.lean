/-
The passwords that the schemas accept, and the bytes that bcrypt sees of them.

`schemas/auth.py` counts the characters of a password, and `core/security.py` cuts its UTF-8
bytes at 72.  So nothing is cut of a password in ASCII, but there are accepted passwords that
are longer, and then another one has the same bytes (`exists_collision`).

* `bcryptBytes_ne` — a password of fewer than 72 bytes, or of 72 characters of one byte each,
  has the bytes of no other one;
* `password_unique_iff` — and these are the only ones.
-/
import GraphPilot.Accounts.Service
import GraphPilot.Python.Utf8

namespace GraphPilot.Accounts

open Python

/-! ### Schemas -/

/-- The fields for passwords of `RegisterRequest` and `UpdateProfileRequest`. -/
inductive PasswordField where
  | registerPassword
  | updatePassword
  | currentPassword

/-- `PASSWORD_MIN_LENGTH`. -/
def passwordMinLength : ℕ := 8

/-- `PASSWORD_MAX_LENGTH`. -/
def passwordMaxLength : ℕ := 72

def PasswordField.minLength : PasswordField → ℕ
  | .registerPassword => passwordMinLength
  | .updatePassword => passwordMinLength
  | .currentPassword => 6

/-- The field accepts the text; a length is a number of characters. -/
def PasswordField.accepts (f : PasswordField) (password : String) : Prop :=
  f.minLength ≤ password.length ∧ password.length ≤ passwordMaxLength

/-! ### Bytes -/

section Bytes

variable {p q : String} {c : Char}

/-- The bytes of an array, one after the other. -/
theorem toList_byteArray (bs : ByteArray) : bs.toList = bs.data.toList := by
  have hloop : ∀ n i r, bs.size - i = n → ByteArray.toList.loop bs i r =
      r.reverse ++ bs.data.toList.drop i := by
    intro n
    induction n with
    | zero =>
      intro i r hn
      have hle : bs.data.toList.length ≤ i := by
        rw [Array.length_toList]
        exact Nat.le_of_sub_eq_zero hn
      rw [ByteArray.toList.loop, if_neg (by omega), List.drop_of_length_le hle, List.append_nil]
    | succ n ih =>
      intro i r hn
      have hlt : i < bs.size := by omega
      have hlt' : i < bs.data.toList.length := by
        rw [Array.length_toList]
        exact hlt
      rw [ByteArray.toList.loop, if_pos hlt, ih (i + 1) _ (by omega), List.reverse_cons,
        List.append_assoc, List.drop_eq_getElem_cons hlt']
      have hget : bs.get! i = bs.data.toList[i] := by
        rw [Array.getElem_toList]
        show bs.data[i]! = _
        rw [getElem!_pos bs.data i hlt]
      rw [hget]
      rfl
  exact hloop bs.size 0 [] rfl

theorem toList_toUTF8 (s : String) : s.toUTF8.toList = encode s := by
  rw [toList_byteArray]
  show s.toByteArray.data.toList = _
  rw [← String.utf8Encode_toList]
  unfold List.utf8Encode
  rw [List.toList_data_toByteArray]
  rfl

theorem bcryptBytes_eq (p : String) : bcryptBytes p = (encode p).take 72 := by
  unfold bcryptBytes
  rw [toList_toUTF8]

/-- What begins with the bytes of a password begins with the password. -/
theorem decodeFrom_encodeChars_append (cs : List Char) (bs : List UInt8) :
    decodeFrom .start (encodeChars cs ++ bs) = cs ++ decodeFrom .start bs := by
  induction cs with
  | nil => rfl
  | cons c cs ih =>
    rw [encodeChars_cons, List.append_assoc, decodeFrom_encodeChar, ih, List.cons_append]

/-- A character can be replaced by another one that differs in the last byte only. -/
theorem exists_lastByte (c : Char) : ∃ (c' : Char) (bs : List UInt8) (b b' : UInt8), c' ≠ c ∧
    String.utf8EncodeChar c = bs ++ [b] ∧ String.utf8EncodeChar c' = bs ++ [b'] := by
  have hvalid : c.val.toNat < 0xd800 ∨ 0xdfff < c.val.toNat ∧ c.val.toNat < 0x110000 := c.valid
  obtain ⟨v, hv⟩ : ∃ v, v = c.val.toNat := ⟨_, rfl⟩
  obtain ⟨w, hw⟩ : ∃ w, w = v / 2 * 2 + (1 - v % 2) := ⟨_, rfl⟩
  rw [← hv] at hvalid
  -- the other number with the same half, a character of as many bytes
  have hwvalid : w < 0xd800 ∨ 0xdfff < w ∧ w < 0x110000 := by omega
  have hchar : (Char.ofNat w).val.toNat = w := by
    unfold Char.ofNat
    rw [dif_pos hwvalid]
    rfl
  have hne : Char.ofNat w ≠ c := by
    intro h
    rw [h, ← hv] at hchar
    omega
  unfold String.utf8EncodeChar
  by_cases h₁ : v ≤ 0x7f
  · refine ⟨Char.ofNat w, [], UInt8.ofNat v, UInt8.ofNat w, hne, ?_, ?_⟩
    · rw [← hv, if_pos h₁]
      rfl
    · rw [hchar, if_pos (show w ≤ 0x7f by omega)]
      rfl
  by_cases h₂ : v ≤ 0x7ff
  · refine ⟨Char.ofNat w, [UInt8.ofNat (v / 64 % 0x20 + 0xc0)], UInt8.ofNat (v % 0x40 + 0x80),
      UInt8.ofNat (w % 0x40 + 0x80), hne, ?_, ?_⟩
    · rw [← hv, if_neg h₁, if_pos h₂]
      rfl
    · rw [hchar, if_neg (show ¬ w ≤ 0x7f by omega), if_pos (show w ≤ 0x7ff by omega),
        show w / 64 = v / 64 by omega]
      rfl
  by_cases h₃ : v ≤ 0xffff
  · refine ⟨Char.ofNat w, [UInt8.ofNat (v / 4096 % 0x10 + 0xe0),
      UInt8.ofNat (v / 64 % 0x40 + 0x80)], UInt8.ofNat (v % 0x40 + 0x80),
      UInt8.ofNat (w % 0x40 + 0x80), hne, ?_, ?_⟩
    · rw [← hv, if_neg h₁, if_neg h₂, if_pos h₃]
      rfl
    · rw [hchar, if_neg (show ¬ w ≤ 0x7f by omega), if_neg (show ¬ w ≤ 0x7ff by omega),
        if_pos (show w ≤ 0xffff by omega), show w / 64 = v / 64 by omega,
        show w / 4096 = v / 4096 by omega]
      rfl
  · refine ⟨Char.ofNat w, [UInt8.ofNat (v / 262144 % 0x08 + 0xf0),
      UInt8.ofNat (v / 4096 % 0x40 + 0x80), UInt8.ofNat (v / 64 % 0x40 + 0x80)],
      UInt8.ofNat (v % 0x40 + 0x80), UInt8.ofNat (w % 0x40 + 0x80), hne, ?_, ?_⟩
    · rw [← hv, if_neg h₁, if_neg h₂, if_neg h₃]
      rfl
    · rw [hchar, if_neg (show ¬ w ≤ 0x7f by omega), if_neg (show ¬ w ≤ 0x7ff by omega),
        if_neg (show ¬ w ≤ 0xffff by omega), show w / 64 = v / 64 by omega,
        show w / 4096 = v / 4096 by omega, show w / 262144 = v / 262144 by omega]
      rfl

end Bytes

/-! ### Collisions -/

/-- Nothing is cut of the password, or there is no room for more. -/
def Distinguished (p : String) : Prop :=
  (encode p).length < 72 ∨ p.length = 72 ∧ (encode p).length = 72

section Collisions

variable {f g : PasswordField} {p q : String}

/-- A password of which nothing is cut has the bytes of no other one. -/
theorem bcryptBytes_ne (h : Distinguished p) (hq : g.accepts q) (hne : q ≠ p) :
    bcryptBytes q ≠ bcryptBytes p := by
  rw [bcryptBytes_eq, bcryptBytes_eq]
  intro heq
  have hmax : q.length ≤ 72 := hq.2
  rcases h with hshort | ⟨hchars, hbytes⟩
  · rw [List.take_of_length_le (l := encode p) (by omega)] at heq
    -- then nothing is cut of the other one
    have hlength := congrArg List.length heq
    rw [List.length_take] at hlength
    rw [List.take_of_length_le (by omega)] at heq
    exact hne (encode_injective heq)
  · rw [List.take_of_length_le (l := encode p) (by omega)] at heq
    have hsplit : encode q = encode p ++ (encode q).drop 72 := by
      rw [← heq, List.take_append_drop]
    have hchars' : q.toList = p.toList ++ decodeFrom .start ((encode q).drop 72) := by
      have hdecode := decodeFrom_encodeChars_append p.toList ((encode q).drop 72)
      have hq' : decodeFrom .start (encode q) = q.toList := decodeFrom_encodeChars q.toList
      rw [← hdecode]
      rw [← hq']
      exact congrArg (decodeFrom .start) hsplit
    -- there is no room for a character more
    have hlength := congrArg List.length hchars'
    rw [List.length_append, String.length_toList, String.length_toList] at hlength
    have hnil : decodeFrom .start ((encode q).drop 72) = [] :=
      List.eq_nil_of_length_eq_zero (by omega)
    rw [hnil, List.append_nil] at hchars'
    exact hne (String.toList_injective hchars')

/-- Any other password has the bytes of a different one. -/
theorem exists_collision (hp : f.accepts p) (h : ¬ Distinguished p) :
    ∃ q, f.accepts q ∧ q ≠ p ∧ bcryptBytes q = bcryptBytes p := by
  have hmax : p.length ≤ 72 := hp.2
  unfold Distinguished at h
  rw [not_or, not_and, Nat.not_lt] at h
  obtain ⟨hlong, hfull⟩ := h
  by_cases hbytes : (encode p).length = 72
  · -- one more character fits
    have hlt : p.length < 72 := by
      rcases Nat.lt_or_eq_of_le hmax with hlt | heq
      · exact hlt
      · exact absurd hbytes (hfull heq)
    refine ⟨p ++ "a", ⟨?_, ?_⟩, ?_, ?_⟩
    · rw [String.length_append]
      exact hp.1.trans (Nat.le_add_right _ _)
    · rw [String.length_append]
      exact hlt
    · intro heq
      have hlength := congrArg String.length heq
      rw [String.length_append] at hlength
      exact absurd hlength (Nat.succ_ne_self _)
    · rw [bcryptBytes_eq, bcryptBytes_eq, encode_append, List.take_append_of_le_length (by omega)]
  · -- the last byte is cut
    obtain ⟨cs, c, hcs⟩ : ∃ cs c, p.toList = cs ++ [c] := by
      rcases List.eq_nil_or_concat p.toList with hnil | ⟨cs, c, hcs⟩
      · have hzero : (encode p).length = 0 := by
          unfold encode
          rw [hnil]
          rfl
        omega
      · exact ⟨cs, c, hcs.trans List.concat_eq_append⟩
    obtain ⟨c', bs, b, b', hne, hc, hc'⟩ := exists_lastByte c
    have hencode : encode p = encodeChars cs ++ bs ++ [b] := by
      unfold encode
      rw [hcs, encodeChars_append, encodeChars_cons, encodeChars_nil, List.append_nil, hc,
        List.append_assoc]
    have hencode' : encode (String.ofList (cs ++ [c'])) = encodeChars cs ++ bs ++ [b'] := by
      unfold encode
      rw [String.toList_ofList, encodeChars_append, encodeChars_cons, encodeChars_nil,
        List.append_nil, hc', List.append_assoc]
    have hroom : 72 ≤ (encodeChars cs ++ bs).length := by
      rw [hencode, List.length_append, List.length_singleton] at hlong hbytes
      omega
    have hlength : (String.ofList (cs ++ [c'])).length = p.length := by
      rw [← String.length_toList, ← String.length_toList, String.toList_ofList, hcs,
        List.length_append, List.length_append]
      rfl
    refine ⟨String.ofList (cs ++ [c']), ⟨?_, ?_⟩, ?_, ?_⟩
    · rw [hlength]
      exact hp.1
    · rw [hlength]
      exact hp.2
    · intro heq
      have hlist := congrArg String.toList heq
      rw [String.toList_ofList, hcs] at hlist
      exact hne (List.cons.inj (List.append_cancel_left hlist)).1
    · rw [bcryptBytes_eq, bcryptBytes_eq, hencode, hencode', List.take_append_of_le_length hroom,
        List.take_append_of_le_length hroom]

end Collisions

/-! ### Hashes -/

/-- `pwd_context`, which takes at most 72 bytes and tells all of these apart; `Hash secret text`
says that the text is a hash of the bytes. -/
structure IsBcrypt (host : Host) (Hash : List UInt8 → String → Prop) : Prop where
  exists_hash : ∀ secret, secret.length ≤ 72 → ∃ text, Hash secret text
  verify_iff : ∀ secret secret' text, secret.length ≤ 72 → secret'.length ≤ 72 →
    Hash secret' text → (host.verify secret text = true ↔ secret = secret')

theorem length_bcryptBytes_le (p : String) : (bcryptBytes p).length ≤ 72 := by
  unfold bcryptBytes
  exact List.length_take_le _ _

/-- **A password has bytes and hashes of its own** if and only if nothing is cut of it, and
there is no room for more. -/
theorem password_unique_iff {host : Host} {Hash : List UInt8 → String → Prop}
    {f : PasswordField} {p : String} (hbcrypt : IsBcrypt host Hash) (hp : f.accepts p) :
    ((∀ g q, PasswordField.accepts g q → q ≠ p → bcryptBytes q ≠ bcryptBytes p) ↔
        Distinguished p) ∧
      ((∀ g q text, PasswordField.accepts g q → Hash (bcryptBytes p) text →
          verifyPassword host q text = true → q = p) ↔ Distinguished p) := by
  constructor
  · constructor
    · intro h
      by_contra hnot
      obtain ⟨q, hq, hne, heq⟩ := exists_collision hp hnot
      exact h f q hq hne heq
    · intro h g q hq hne
      exact bcryptBytes_ne h hq hne
  · have hverify : ∀ q text, Hash (bcryptBytes p) text →
        (verifyPassword host q text = true ↔ bcryptBytes q = bcryptBytes p) := by
      intro q text htext
      exact hbcrypt.verify_iff _ _ text (length_bcryptBytes_le q) (length_bcryptBytes_le p) htext
    constructor
    · intro h
      by_contra hnot
      obtain ⟨q, hq, hne, heq⟩ := exists_collision hp hnot
      obtain ⟨text, htext⟩ := hbcrypt.exists_hash _ (length_bcryptBytes_le p)
      exact hne (h f q text hq htext ((hverify q text htext).mpr heq))
    · intro h g q text hq htext hverified
      by_contra hne
      exact bcryptBytes_ne h hq hne ((hverify q text htext).mp hverified)

namespace Sample

/-- A text with a character for each byte. -/
def digest (secret : List UInt8) : String :=
  String.ofList (secret.map fun b => Char.ofNat b.toNat)

theorem digest_injective {a b : List UInt8} (h : digest a = digest b) : a = b := by
  have hlist := congrArg String.toList h
  unfold digest at hlist
  rw [String.toList_ofList, String.toList_ofList] at hlist
  refine List.map_injective_iff.mpr ?_ hlist
  intro x y hxy
  have hnat := congrArg Char.toNat hxy
  dsimp only at hnat
  rw [charOfNat_toNat (by have := x.toNat_lt; omega),
    charOfNat_toNat (by have := y.toNat_lt; omega)] at hnat
  exact UInt8.toNat_inj.mp hnat

/-- Passwords are checked against their digests. -/
def digesting : Host where
  encode _ := ""
  claims _ := none
  expired _ _ := false
  sha256 := id
  uuid text := some ⟨text⟩
  accessTokenExpireMinutes := 30
  refreshTokenExpireDays := 7
  verify secret text := digest secret = text
  lower := id
  isSpace _ := false
  sqlLower := id

theorem digesting_isBcrypt : IsBcrypt digesting fun secret text => digest secret = text := by
  constructor
  · intro secret _
    exact ⟨_, rfl⟩
  · intro secret secret' text _ _ htext
    show decide (digest secret = text) = true ↔ secret = secret'
    rw [decide_eq_true_eq, ← htext]
    exact ⟨digest_injective, fun h => congrArg digest h⟩

/-- Thirty-six letters of two bytes each. -/
def accented : String := String.ofList (List.replicate 36 'é')

theorem bcryptBytes_accented : bcryptBytes (accented ++ "1") = bcryptBytes accented := by
  rw [bcryptBytes_eq, bcryptBytes_eq]
  decide

end Sample

theorem password_unique_ascii :
    ((∀ g q, PasswordField.accepts g q → q ≠ "password" →
        bcryptBytes q ≠ bcryptBytes "password") ↔ Distinguished "password") ∧
      ((∀ g q text, PasswordField.accepts g q → Sample.digest (bcryptBytes "password") = text →
          verifyPassword Sample.digesting q text = true → q = "password") ↔
        Distinguished "password") :=
  password_unique_iff (f := .registerPassword) Sample.digesting_isBcrypt ⟨by decide, by decide⟩

/-- Two passwords that differ behind their first 72 bytes. -/
theorem accented_collide : ¬ ∀ (f g : PasswordField) (p q : String), f.accepts p → g.accepts q →
    p ≠ q → bcryptBytes p ≠ bcryptBytes q := by
  intro h
  have hp : PasswordField.registerPassword.accepts (Sample.accented ++ "1") :=
    ⟨by decide, by decide⟩
  have hq : PasswordField.registerPassword.accepts Sample.accented :=
    ⟨by decide, by decide⟩
  exact h _ _ _ _ hp hq (by decide) Sample.bcryptBytes_accented

end GraphPilot.Accounts
