/-
UTF-8, as the host language encodes and decodes it.

`decode` is `bytes.decode("utf-8", errors="replace")`: a machine that reads one byte after
the other and gives U+FFFD for each maximal part of a character that cannot be completed.

* `decode_encode` — a text that has been encoded comes back;
* `mem_encode`, `mem_encode_iff` — the bytes below 128 are those of such characters;
* `count_decode` — no line feed is lost in decoding, and none is made.
-/
import Mathlib

namespace Python

/-- The bytes of characters. -/
def encodeChars (cs : List Char) : List UInt8 := cs.flatMap String.utf8EncodeChar

/-- `s.encode("utf-8")`. -/
def encode (s : String) : List UInt8 := encodeChars s.toList

/-- U+FFFD. -/
def replacement : Char := .ofNat 0xfffd

/-- Where the decoder stands: between characters, or in one of which `n + 1` bytes are
missing, the next one of them in a range. -/
inductive Utf8State where
  | start
  | more (n : ℕ) (lo hi : ℕ) (acc : ℕ)

/-- The first byte of a character: what it gives, and what may follow. -/
def firstByte (b : ℕ) : List Char × Utf8State :=
  if b < 0x80 then ([.ofNat b], .start)
  else if b < 0xc2 then ([replacement], .start)
  else if b < 0xe0 then ([], .more 0 0x80 0xbf (b - 0xc0))
  else if b < 0xf0 then
    ([], .more 1 (if b = 0xe0 then 0xa0 else 0x80) (if b = 0xed then 0x9f else 0xbf) (b - 0xe0))
  else if b < 0xf5 then
    ([], .more 2 (if b = 0xf0 then 0x90 else 0x80) (if b = 0xf4 then 0x8f else 0xbf) (b - 0xf0))
  else ([replacement], .start)

/-- The next byte.  One that does not continue the character starts the next one. -/
def nextByte : Utf8State → ℕ → List Char × Utf8State
  | .start, b => firstByte b
  | .more n lo hi acc, b =>
    if lo ≤ b ∧ b ≤ hi then
      match n with
      | 0 => ([.ofNat (acc * 64 + (b - 0x80))], .start)
      | n + 1 => ([], .more n 0x80 0xbf (acc * 64 + (b - 0x80)))
    else (replacement :: (firstByte b).1, (firstByte b).2)

def decodeFrom : Utf8State → List UInt8 → List Char
  | .start, [] => []
  | .more _ _ _ _, [] => [replacement]
  | q, b :: bs => (nextByte q b.toNat).1 ++ decodeFrom (nextByte q b.toNat).2 bs

/-- `bs.decode("utf-8", errors="replace")`. -/
def decode (bs : List UInt8) : String := String.ofList (decodeFrom .start bs)

@[simp] theorem decodeFrom_cons (q : Utf8State) (b : UInt8) (bs : List UInt8) :
    decodeFrom q (b :: bs) = (nextByte q b.toNat).1 ++ decodeFrom (nextByte q b.toNat).2 bs := by
  cases q <;> rfl

@[simp] theorem encodeChars_nil : encodeChars [] = [] := rfl

@[simp] theorem encodeChars_cons (c : Char) (cs : List Char) :
    encodeChars (c :: cs) = String.utf8EncodeChar c ++ encodeChars cs := rfl

@[simp] theorem encodeChars_append (cs ds : List Char) :
    encodeChars (cs ++ ds) = encodeChars cs ++ encodeChars ds := List.flatMap_append

@[simp] theorem encode_append (s t : String) : encode (s ++ t) = encode s ++ encode t := by
  unfold encode
  rw [String.toList_append, encodeChars_append]

/-! ### There and back -/

theorem toNat_ofNat {n : ℕ} (h : n < 256) : (UInt8.ofNat n).toNat = n := by
  rw [UInt8.toNat_ofNat']
  omega

section FirstByte

variable {b : ℕ}

theorem firstByte_one (h : b < 0x80) : firstByte b = ([.ofNat b], .start) := by
  unfold firstByte
  rw [if_pos h]

theorem firstByte_two (h : 0xc2 ≤ b) (h' : b < 0xe0) :
    firstByte b = ([], .more 0 0x80 0xbf (b - 0xc0)) := by
  have h₁ : ¬ b < 0x80 := by omega
  have h₂ : ¬ b < 0xc2 := by omega
  unfold firstByte
  rw [if_neg h₁, if_neg h₂, if_pos h']

theorem firstByte_three (h : 0xe0 ≤ b) (h' : b < 0xf0) :
    firstByte b = ([], .more 1 (if b = 0xe0 then 0xa0 else 0x80)
      (if b = 0xed then 0x9f else 0xbf) (b - 0xe0)) := by
  have h₁ : ¬ b < 0x80 := by omega
  have h₂ : ¬ b < 0xc2 := by omega
  have h₃ : ¬ b < 0xe0 := by omega
  unfold firstByte
  rw [if_neg h₁, if_neg h₂, if_neg h₃, if_pos h']

theorem firstByte_four (h : 0xf0 ≤ b) (h' : b < 0xf5) :
    firstByte b = ([], .more 2 (if b = 0xf0 then 0x90 else 0x80)
      (if b = 0xf4 then 0x8f else 0xbf) (b - 0xf0)) := by
  have h₁ : ¬ b < 0x80 := by omega
  have h₂ : ¬ b < 0xc2 := by omega
  have h₃ : ¬ b < 0xe0 := by omega
  have h₄ : ¬ b < 0xf0 := by omega
  unfold firstByte
  rw [if_neg h₁, if_neg h₂, if_neg h₃, if_neg h₄, if_pos h']

end FirstByte

/-- One byte that continues a character. -/
theorem nextByte_more {n lo hi acc b : ℕ} (hlo : lo ≤ b) (hhi : b ≤ hi) :
    nextByte (.more (n + 1) lo hi acc) b = ([], .more n 0x80 0xbf (acc * 64 + (b - 0x80))) := by
  rw [nextByte, if_pos ⟨hlo, hhi⟩]

/-- The last byte of a character. -/
theorem nextByte_last {lo hi acc b : ℕ} (hlo : lo ≤ b) (hhi : b ≤ hi) :
    nextByte (.more 0 lo hi acc) b = ([.ofNat (acc * 64 + (b - 0x80))], .start) := by
  rw [nextByte, if_pos ⟨hlo, hhi⟩]

/-- A byte that does not continue the character. -/
theorem nextByte_other {n lo hi acc b : ℕ} (h : ¬ (lo ≤ b ∧ b ≤ hi)) :
    nextByte (.more n lo hi acc) b = (replacement :: (firstByte b).1, (firstByte b).2) := by
  cases n <;> rw [nextByte, if_neg h]

/-- A character that has been encoded, before anything. -/
theorem decodeFrom_encodeChar (c : Char) (bs : List UInt8) :
    decodeFrom .start (String.utf8EncodeChar c ++ bs) = c :: decodeFrom .start bs := by
  have hvalid : c.val.toNat < 0xd800 ∨ 0xdfff < c.val.toNat ∧ c.val.toNat < 0x110000 := c.valid
  have hc : ∀ n, n = c.val.toNat → Char.ofNat n = c := by
    rintro n rfl
    exact Char.ofNat_toNat c
  unfold String.utf8EncodeChar
  generalize c.val.toNat = v at hvalid hc ⊢
  -- by the number of bytes; each byte is in the range in which it continues
  dsimp only
  split
  · rename_i h
    rw [List.singleton_append, decodeFrom_cons, toNat_ofNat (show v < 256 by omega), nextByte,
      firstByte_one (show v < 0x80 by omega), hc v rfl]
    rfl
  split
  · rename_i h₁ h₂
    have h0 : v / 64 % 0x20 + 0xc0 < 256 := by omega
    have h1 : v % 0x40 + 0x80 < 256 := by omega
    rw [List.cons_append, List.cons_append, List.nil_append, decodeFrom_cons, decodeFrom_cons,
      toNat_ofNat h0, toNat_ofNat h1, nextByte, firstByte_two (by omega) (by omega),
      nextByte_last (by omega) (by omega), hc _ (by omega)]
    rfl
  split
  · rename_i h₁ h₂ h₃
    have h0 : v / 4096 % 0x10 + 0xe0 < 256 := by omega
    have h1 : v / 64 % 0x40 + 0x80 < 256 := by omega
    have h2 : v % 0x40 + 0x80 < 256 := by omega
    rw [List.cons_append, List.cons_append, List.cons_append, List.nil_append, decodeFrom_cons,
      decodeFrom_cons, decodeFrom_cons, toNat_ofNat h0, toNat_ofNat h1, toNat_ofNat h2, nextByte,
      firstByte_three (by omega) (by omega), nextByte_more (by split <;> omega)
      (by split <;> omega), nextByte_last (by omega) (by omega), hc _ (by omega)]
    rfl
  · rename_i h₁ h₂ h₃
    have h0 : v / 262144 % 0x08 + 0xf0 < 256 := by omega
    have h1 : v / 4096 % 0x40 + 0x80 < 256 := by omega
    have h2 : v / 64 % 0x40 + 0x80 < 256 := by omega
    have h3 : v % 0x40 + 0x80 < 256 := by omega
    rw [List.cons_append, List.cons_append, List.cons_append, List.cons_append, List.nil_append,
      decodeFrom_cons, decodeFrom_cons, decodeFrom_cons, decodeFrom_cons, toNat_ofNat h0,
      toNat_ofNat h1, toNat_ofNat h2, toNat_ofNat h3, nextByte,
      firstByte_four (by omega) (by omega), nextByte_more (by split <;> omega)
      (by split <;> omega), nextByte_more (by omega) (by omega), nextByte_last (by omega)
      (by omega), hc _ (by omega)]
    rfl

theorem decodeFrom_encodeChars (cs : List Char) : decodeFrom .start (encodeChars cs) = cs := by
  induction cs with
  | nil => rfl
  | cons c cs ih => rw [encodeChars_cons, decodeFrom_encodeChar, ih]

/-- **A text that has been encoded comes back.** -/
theorem decode_encode (s : String) : decode (encode s) = s := by
  unfold decode encode
  rw [decodeFrom_encodeChars, String.ofList_toList]

/-! ### The characters below 128 -/

theorem charOfNat_toNat {n : ℕ} (h : n < 0xd800) : (Char.ofNat n).toNat = n := by
  unfold Char.ofNat
  rw [dif_pos (Or.inl h)]
  rfl

/-- Such a byte is a character of its own. -/
theorem mem_encodeChar {c : Char} {b : UInt8} (hb : b.toNat < 0x80) :
    b ∈ String.utf8EncodeChar c ↔ c.toNat = b.toNat := by
  show b ∈ String.utf8EncodeChar c ↔ c.val.toNat = b.toNat
  unfold String.utf8EncodeChar
  generalize c.val.toNat = v
  -- the other bytes all start at 128
  have hne : ∀ n, 0x80 ≤ n → n < 256 → b ≠ UInt8.ofNat n := by
    rintro n h₁ h₂ rfl
    rw [toNat_ofNat h₂] at hb
    omega
  dsimp only
  split
  · rename_i h
    rw [List.mem_singleton]
    constructor
    · rintro rfl
      rw [toNat_ofNat (show v < 256 by omega)]
    · intro heq
      rw [heq, UInt8.ofNat_toNat]
  split
  · rename_i h₁ h₂
    have h0 := hne (v / 64 % 0x20 + 0xc0) (by omega) (by omega)
    have h1 := hne (v % 0x40 + 0x80) (by omega) (by omega)
    simp only [List.mem_cons, List.not_mem_nil, h0, h1, or_self, false_iff]
    omega
  split
  · rename_i h₁ h₂ h₃
    have h0 := hne (v / 4096 % 0x10 + 0xe0) (by omega) (by omega)
    have h1 := hne (v / 64 % 0x40 + 0x80) (by omega) (by omega)
    have h2 := hne (v % 0x40 + 0x80) (by omega) (by omega)
    simp only [List.mem_cons, List.not_mem_nil, h0, h1, h2, or_self, false_iff]
    omega
  · rename_i h₁ h₂ h₃
    have h0 := hne (v / 262144 % 0x08 + 0xf0) (by omega) (by omega)
    have h1 := hne (v / 4096 % 0x40 + 0x80) (by omega) (by omega)
    have h2 := hne (v / 64 % 0x40 + 0x80) (by omega) (by omega)
    have h3 := hne (v % 0x40 + 0x80) (by omega) (by omega)
    simp only [List.mem_cons, List.not_mem_nil, h0, h1, h2, h3, or_self, false_iff]
    omega

/-- And the only one. -/
theorem encodeChar_ascii {c : Char} (h : c.toNat < 0x80) :
    String.utf8EncodeChar c = [UInt8.ofNat c.toNat] := by
  have hle : c.val.toNat ≤ 0x7f := Nat.le_of_lt_succ h
  show (if c.val.toNat ≤ 0x7f then _ else _) = _
  rw [if_pos hle]
  rfl

theorem mem_encodeChars {cs : List Char} {b : UInt8} (hb : b.toNat < 0x80) :
    b ∈ encodeChars cs ↔ Char.ofNat b.toNat ∈ cs := by
  have hchar : ∀ c : Char, b ∈ String.utf8EncodeChar c ↔ c = Char.ofNat b.toNat := by
    intro c
    rw [mem_encodeChar hb]
    constructor
    · intro h
      rw [← h, Char.ofNat_toNat]
    · rintro rfl
      exact charOfNat_toNat (by omega)
  rw [encodeChars, List.mem_flatMap]
  constructor
  · rintro ⟨c, hc, hmem⟩
    rwa [← (hchar c).mp hmem]
  · intro hmem
    exact ⟨_, hmem, (hchar _).mpr rfl⟩

theorem mem_encode {s : String} {c : Char} (hc : c.toNat < 0x80) :
    UInt8.ofNat c.toNat ∈ encode s ↔ c ∈ s.toList := by
  have hb : (UInt8.ofNat c.toNat).toNat = c.toNat := toNat_ofNat (by omega)
  have hlt : (UInt8.ofNat c.toNat).toNat < 0x80 := by rw [hb]; exact hc
  have hmem : UInt8.ofNat c.toNat ∈ encode s ↔ _ := mem_encodeChars hlt
  rw [hmem, hb, Char.ofNat_toNat]

/-- A text all of whose bytes are below 128 has no other characters. -/
theorem ascii_of_encode {s : String} (h : ∀ b ∈ encode s, b.toNat < 0x80) :
    ∀ c ∈ s.toList, c.toNat < 0x80 := by
  intro c hc
  obtain ⟨b, hb⟩ := List.exists_mem_of_ne_nil _ (String.utf8EncodeChar_ne_nil (c := c))
  have hlt : b.toNat < 0x80 := h b (List.mem_flatMap.mpr ⟨c, hc, hb⟩)
  rw [(mem_encodeChar hlt).mp hb]
  exact hlt

theorem encode_injective {s t : String} (h : encode s = encode t) : s = t := by
  rw [← decode_encode s, ← decode_encode t, h]

/-! ### Line feeds -/

theorem ofNat_ne_lf {n : ℕ} (h : 0x80 ≤ n) : Char.ofNat n ≠ '\n' := by
  intro heq
  have hnat : (Char.ofNat n).toNat = 10 := by rw [heq]; rfl
  unfold Char.ofNat at hnat
  split at hnat
  · have hn : n = 10 := hnat
    omega
  · cases hnat

/-- A character that is completed is none below 128. -/
def Utf8State.Sound : Utf8State → Prop
  | .start => True
  | .more n lo _ acc => 0x80 ≤ lo ∧ 0x80 ≤ (acc * 64 + (lo - 0x80)) * 64 ^ n

theorem firstByte_sound (b : ℕ) :
    (firstByte b).1.count '\n' = (if b = 10 then 1 else 0) ∧ (firstByte b).2.Sound := by
  unfold firstByte
  split
  · rename_i h
    refine ⟨?_, trivial⟩
    rw [List.count_singleton]
    split
    · rename_i hb
      have hnat : (Char.ofNat b).toNat = 10 := by rw [beq_iff_eq.mp hb]; rfl
      rw [charOfNat_toNat (by omega)] at hnat
      rw [if_pos hnat]
    · rename_i hb
      refine (if_neg ?_).symm
      rintro rfl
      exact hb rfl
  have hlf : b ≠ 10 := by omega
  rw [if_neg hlf]
  split
  · exact ⟨by decide, trivial⟩
  split
  · exact ⟨rfl, le_refl _, by omega⟩
  split
  · refine ⟨rfl, ?_⟩
    by_cases hb : b = 0xe0
    · rw [if_pos hb]
      exact ⟨by decide, by omega⟩
    · rw [if_neg hb]
      exact ⟨by decide, by omega⟩
  split
  · refine ⟨rfl, ?_⟩
    by_cases hb : b = 0xf0
    · rw [if_pos hb]
      exact ⟨by decide, by omega⟩
    · rw [if_neg hb]
      exact ⟨by decide, by omega⟩
  · exact ⟨by decide, trivial⟩

theorem nextByte_sound {q : Utf8State} (hq : q.Sound) (b : ℕ) :
    (nextByte q b).1.count '\n' = (if b = 10 then 1 else 0) ∧ (nextByte q b).2.Sound := by
  cases q with
  | start => exact firstByte_sound b
  | more n lo hi acc =>
    obtain ⟨hlo, hacc⟩ := hq
    by_cases hb : lo ≤ b ∧ b ≤ hi
    · have hlf : b ≠ 10 := by omega
      rw [if_neg hlf]
      cases n with
      | zero =>
        rw [nextByte_last hb.1 hb.2]
        refine ⟨List.count_eq_zero.mpr ?_, trivial⟩
        rw [List.mem_singleton]
        exact Ne.symm (ofNat_ne_lf (by omega))
      | succ n =>
        rw [nextByte_more hb.1 hb.2]
        refine ⟨rfl, le_refl _, hacc.trans ?_⟩
        have hle : acc * 64 + (lo - 0x80) ≤ acc * 64 + (b - 0x80) := by omega
        calc (acc * 64 + (lo - 0x80)) * 64 ^ (n + 1)
            ≤ (acc * 64 + (b - 0x80)) * 64 ^ (n + 1) := Nat.mul_le_mul_right _ hle
          _ = ((acc * 64 + (b - 0x80)) * 64 + (0x80 - 0x80)) * 64 ^ n := by ring
    · obtain ⟨hcount, hsound⟩ := firstByte_sound b
      rw [nextByte_other hb]
      refine ⟨?_, hsound⟩
      rw [List.count_cons_of_ne (by decide), hcount]

theorem count_decodeFrom {q : Utf8State} (hq : q.Sound) (bs : List UInt8) :
    (decodeFrom q bs).count '\n' = bs.count 10 := by
  induction bs generalizing q with
  | nil =>
    cases q with
    | start => rfl
    | more n lo hi acc =>
      show [replacement].count '\n' = 0
      decide
  | cons b bs ih =>
    obtain ⟨hcount, hsound⟩ := nextByte_sound hq b.toNat
    rw [decodeFrom_cons, List.count_append, hcount, ih hsound, List.count_cons, Nat.add_comm]
    congr 1
    refine if_congr ?_ rfl rfl
    rw [beq_iff_eq, ← UInt8.toNat_inj]
    rfl

/-- **No line feed is lost in decoding, and none is made.** -/
theorem count_decode (bs : List UInt8) : (decode bs).toList.count '\n' = bs.count 10 := by
  unfold decode
  rw [String.toList_ofList]
  exact count_decodeFrom (show Utf8State.start.Sound from trivial) bs

end Python
