/-
Base64, with a decoder that skips what is not of the alphabet.

`encode` writes three bytes as four digits, and fills up the last four with `=`.  `decode`
is `binascii.a2b_base64` as it is used without strict mode: a machine that takes one
character after the other, skips those outside the alphabet, and stops at the padding.

* `decode_encode` — the bytes come back;
* `encode_eq_digits` — without its padding the text is the digits of the bytes, and its
  length tells the padding.
-/
import Mathlib.Data.List.Basic
import Mathlib.Data.List.DropRight
import Mathlib.Data.Nat.Notation

namespace Python.Base64

/-- The digits for `0` to `63`. -/
def digit (n : ℕ) : Char :=
  if n < 26 then .ofNat (65 + n)
  else if n < 52 then .ofNat (97 + (n - 26))
  else if n < 62 then .ofNat (48 + (n - 52))
  else if n = 62 then '+'
  else '/'

/-- The value of a digit. -/
def value (c : Char) : Option ℕ :=
  let n := c.toNat
  if 65 ≤ n && n ≤ 90 then some (n - 65)
  else if 97 ≤ n && n ≤ 122 then some (n - 97 + 26)
  else if 48 ≤ n && n ≤ 57 then some (n - 48 + 52)
  else if n = 43 then some 62
  else if n = 47 then some 63
  else none

/-- The digits of bytes, without padding. -/
def digits : List UInt8 → List Char
  | [] => []
  | [a] => [digit (a.toNat / 4), digit (a.toNat % 4 * 16)]
  | [a, b] =>
    [digit (a.toNat / 4), digit (a.toNat % 4 * 16 + b.toNat / 16), digit (b.toNat % 16 * 4)]
  | a :: b :: c :: bs =>
    digit (a.toNat / 4) :: digit (a.toNat % 4 * 16 + b.toNat / 16) ::
      digit (b.toNat % 16 * 4 + c.toNat / 64) :: digit (c.toNat % 64) :: digits bs

/-- The text for bytes. -/
def encode : List UInt8 → List Char
  | [] => []
  | [a] => digits [a] ++ ['=', '=']
  | [a, b] => digits [a, b] ++ ['=']
  | a :: b :: c :: bs => digits [a, b, c] ++ encode bs

/-- What one more digit gives: a byte, except for the first digit of four, the place in
the next four, and the bits that are left for the next byte. -/
def put (place left v : ℕ) : List UInt8 × ℕ × ℕ :=
  match place with
  | 0 => ([], 1, v)
  | 1 => ([.ofNat (left * 4 + v / 16)], 2, v % 16)
  | 2 => ([.ofNat (left * 16 + v / 4)], 3, v % 4)
  | _ => ([.ofNat (left * 64 + v)], 0, 0)

/-- The machine from a place in four digits, with the bits that are left and the number of
`=` that have been seen there. -/
def decodeFrom : ℕ → ℕ → ℕ → List Char → Option (List UInt8)
  | place, _, _, [] => if place = 0 then some [] else none
  | place, left, pads, c :: cs =>
    if c = '=' then
      if place < 2 then decodeFrom place left pads cs
      else if 4 ≤ place + (pads + 1) then some []
      else decodeFrom place left (pads + 1) cs
    else
      match value c with
      | none => decodeFrom place left pads cs
      | some v =>
        (decodeFrom (put place left v).2.1 (put place left v).2.2 0 cs).map
          ((put place left v).1 ++ ·)

/-- `binascii.a2b_base64(text)`, where it does not fail. -/
def decode (text : List Char) : Option (List UInt8) := decodeFrom 0 0 0 text

/-! ### The alphabet -/

theorem value_digit {n : ℕ} (h : n < 64) : value (digit n) = some n := by
  revert n
  decide

theorem digit_ne_pad (n : ℕ) : digit n ≠ '=' := by
  by_cases h : n < 64
  · intro heq
    have hvalue := value_digit h
    rw [heq] at hvalue
    cases hvalue
  · rw [digit, if_neg (by omega), if_neg (by omega), if_neg (by omega), if_neg (by omega)]
    decide

/-- A digit is a letter, a decimal digit, `+` or `/`. -/
theorem exists_digit {bs : List UInt8} {c : Char} (h : c ∈ digits bs) : ∃ n < 64, c = digit n := by
  induction bs using digits.induct with
  | case1 => cases h
  | case2 a =>
    have ha := a.toNat_lt
    simp only [digits, List.mem_cons, List.not_mem_nil, or_false] at h
    rcases h with rfl | rfl
    · exact ⟨_, by omega, rfl⟩
    · exact ⟨_, by omega, rfl⟩
  | case3 a b =>
    have ha := a.toNat_lt
    have hb := b.toNat_lt
    simp only [digits, List.mem_cons, List.not_mem_nil, or_false] at h
    rcases h with rfl | rfl | rfl
    · exact ⟨_, by omega, rfl⟩
    · exact ⟨_, by omega, rfl⟩
    · exact ⟨_, by omega, rfl⟩
  | case4 a b c bs ih =>
    have ha := a.toNat_lt
    have hb := b.toNat_lt
    have hc := c.toNat_lt
    simp only [digits, List.mem_cons] at h
    rcases h with rfl | rfl | rfl | rfl | h
    · exact ⟨_, by omega, rfl⟩
    · exact ⟨_, by omega, rfl⟩
    · exact ⟨_, by omega, rfl⟩
    · exact ⟨_, by omega, rfl⟩
    · exact ih h

/-! ### There and back -/

theorem decodeFrom_digit {place left pads n : ℕ} (h : n < 64) (cs : List Char) :
    decodeFrom place left pads (digit n :: cs) =
      (decodeFrom (put place left n).2.1 (put place left n).2.2 0 cs).map
        ((put place left n).1 ++ ·) := by
  rw [decodeFrom, if_neg (digit_ne_pad n), value_digit h]

/-- The machine reads what has been written. -/
theorem decode_encode (bs : List UInt8) : decode (encode bs) = some bs := by
  have hfrom : ∀ pads, decodeFrom 0 0 pads (encode bs) = some bs := by
    induction bs using encode.induct with
    | case1 => exact fun _ => rfl
    | case2 a =>
      intro pads
      have ha := a.toNat_lt
      have hlow : a.toNat / 4 * 4 + a.toNat % 4 * 16 / 16 = a.toNat := by omega
      simp only [encode, digits, List.cons_append, List.nil_append]
      rw [decodeFrom_digit (by omega), decodeFrom_digit (by omega)]
      simp only [put, hlow, UInt8.ofNat_toNat]
      rfl
    | case3 a b =>
      intro pads
      have ha := a.toNat_lt
      have hb := b.toNat_lt
      have hlow : a.toNat / 4 * 4 + (a.toNat % 4 * 16 + b.toNat / 16) / 16 = a.toNat := by omega
      have hmid : (a.toNat % 4 * 16 + b.toNat / 16) % 16 * 16 + b.toNat % 16 * 4 / 4 =
        b.toNat := by omega
      simp only [encode, digits, List.cons_append, List.nil_append]
      rw [decodeFrom_digit (by omega), decodeFrom_digit (by omega), decodeFrom_digit (by omega)]
      simp only [put, hlow, hmid, UInt8.ofNat_toNat]
      rfl
    | case4 a b c bs ih =>
      intro pads
      have ha := a.toNat_lt
      have hb := b.toNat_lt
      have hc := c.toNat_lt
      have hlow : a.toNat / 4 * 4 + (a.toNat % 4 * 16 + b.toNat / 16) / 16 = a.toNat := by omega
      have hmid : (a.toNat % 4 * 16 + b.toNat / 16) % 16 * 16 +
        (b.toNat % 16 * 4 + c.toNat / 64) / 4 = b.toNat := by omega
      have hhigh : (b.toNat % 16 * 4 + c.toNat / 64) % 4 * 64 + c.toNat % 64 = c.toNat := by omega
      simp only [encode, digits, List.cons_append, List.nil_append]
      rw [decodeFrom_digit (by omega), decodeFrom_digit (by omega), decodeFrom_digit (by omega),
        decodeFrom_digit (by omega)]
      simp only [put, hlow, hmid, hhigh, UInt8.ofNat_toNat, ih]
      rfl
  exact hfrom 0

/-- The padding that a text of digits needs. -/
def padding (n : ℕ) : ℕ := ((-(n : ℤ)) % 4).toNat

theorem encode_eq_digits (bs : List UInt8) :
    encode bs = digits bs ++ List.replicate (padding (digits bs).length) '=' := by
  induction bs using encode.induct with
  | case1 => rfl
  | case2 a => rfl
  | case3 a b => rfl
  | case4 a b c bs ih =>
    have hlen : padding (digits (a :: b :: c :: bs)).length = padding (digits bs).length := by
      unfold padding
      simp only [digits, List.length_cons]
      omega
    rw [hlen]
    simp only [encode, digits, List.cons_append, List.nil_append]
    rw [ih]

/-- Without its padding the text is the digits. -/
theorem rdropWhile_encode (bs : List UInt8) :
    (encode bs).rdropWhile (· = '=') = digits bs := by
  rw [encode_eq_digits]
  generalize padding (digits bs).length = n
  induction n with
  | zero =>
    rw [List.replicate_zero, List.append_nil, List.rdropWhile_eq_self_iff]
    intro hne
    obtain ⟨n, -, hn⟩ := exists_digit (List.getLast_mem hne)
    rw [hn, decide_eq_true_eq]
    exact digit_ne_pad n
  | succ n ih =>
    rw [List.replicate_succ', ← List.append_assoc, List.rdropWhile_concat_pos _ _ _ (by simp)]
    exact ih

end Python.Base64
