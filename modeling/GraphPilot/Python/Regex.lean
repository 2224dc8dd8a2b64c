/-
Regular expressions as `re` matches them.

A part of an expression maps a text to the ways in which it matches at its beginning, the
preferred way first: the matched characters, and the rest of the text.  An expression is a
head, then at least one character of a class, as many as there are; `re.sub` replaces its
leftmost matches one after the other.

* `seq_many`, `seq_optional` — no way back is taken where what follows refuses it;
* `find_congr` — so an expression may be matched without ways back.
-/
import Mathlib.Data.List.Basic
import Mathlib.Data.List.Forall2
import Mathlib.Data.List.Infix
import Mathlib.Data.List.TakeWhile

namespace Python.Regex

variable {α : Type}

/-! ### Parts -/

/-- The ways in which a part of an expression matches at the beginning of a text. -/
abbrev Matcher (α : Type) : Type := List α → List (List α × List α)

/-- A character of a class. -/
def one (p : α → Bool) : Matcher α
  | [] => []
  | c :: s => if p c then [([c], s)] else []

/-- One part, then another. -/
def seq (a b : Matcher α) : Matcher α := fun s =>
  (a s).flatMap fun way => (b way.2).map fun next => (way.1 ++ next.1, next.2)

/-- The characters of a word, each up to `agrees`. -/
def literal (agrees : α → α → Bool) : List α → Matcher α
  | [] => fun s => [([], s)]
  | p :: w => seq (one (agrees p)) (literal agrees w)

/-- `a|b|…` -/
def either (parts : List (Matcher α)) : Matcher α := fun s => parts.flatMap fun part => part s

/-- `[…]?` -/
def optional (p : α → Bool) : Matcher α
  | [] => [([], [])]
  | c :: s => if p c then [([c], s), ([], c :: s)] else [([], c :: s)]

/-- `[…]*` -/
def many (p : α → Bool) : Matcher α
  | [] => [([], [])]
  | c :: s =>
    if p c then (many p s).map (fun way => (c :: way.1, way.2)) ++ [([], c :: s)]
    else [([], c :: s)]

/-- `[…]+` -/
def atLeastOne (p : α → Bool) : Matcher α := seq (one p) (many p)

/-- `[…]*` without a way back. -/
def all (p : α → Bool) : Matcher α := fun s => [(s.takeWhile p, s.dropWhile p)]

/-- `[…]?` without a way back. -/
def first (p : α → Bool) : Matcher α
  | [] => [([], [])]
  | c :: s => if p c then [([c], s)] else [([], c :: s)]

/-- Nothing, in front of a character of a class. -/
def ahead (p : α → Bool) : Matcher α := fun s => if s.head?.any p then [([], s)] else []

/-- The part matches no text that begins with such a character. -/
def Refuses (part : Matcher α) (p : α → Bool) : Prop := ∀ c s, p c = true → part (c :: s) = []

section Ways

variable {a b part : Matcher α} {p q : α → Bool} {s : List α} {way : List α × List α}

theorem seq_assoc (a b c : Matcher α) : seq (seq a b) c = seq a (seq b c) := by
  funext s
  simp only [seq, List.flatMap_assoc, List.map_flatMap, List.flatMap_map, List.map_map]
  refine List.flatMap_congr fun x _ => List.flatMap_congr fun y _ => ?_
  refine List.map_congr_left fun z _ => ?_
  show (x.1 ++ y.1 ++ z.1, z.2) = (x.1 ++ (y.1 ++ z.1), z.2)
  rw [List.append_assoc]

theorem seq_either (parts : List (Matcher α)) (b : Matcher α) :
    seq (either parts) b = either (parts.map fun part => seq part b) := by
  funext s
  simp only [seq, either, List.flatMap_assoc, List.flatMap_map]

theorem refuses_one (h : ∀ c, p c = true → q c = false) : Refuses (one q) p := by
  intro c s hc
  rw [one, h c hc]
  rfl

theorem refuses_ahead (h : ∀ c, p c = true → q c = false) : Refuses (ahead q) p := by
  intro c s hc
  rw [ahead, List.head?_cons, Option.any_some, h c hc]
  rfl

theorem refuses_seq (h : Refuses a p) : Refuses (seq a b) p := by
  intro c s hc
  rw [seq, h c s hc]
  rfl

theorem refuses_either {parts : List (Matcher α)} (h : ∀ part ∈ parts, Refuses part p) :
    Refuses (either parts) p :=
  fun c s hc => List.flatMap_eq_nil_iff.mpr fun part hpart => h part hpart c s hc

theorem refuses_literal {agrees : α → α → Bool} {w : List α} (hw : w ≠ [])
    (h : ∀ d ∈ w, ∀ c, p c = true → agrees d c = false) : Refuses (literal agrees w) p := by
  cases w with
  | nil => exact absurd rfl hw
  | cons d w => exact refuses_seq (refuses_one (h d List.mem_cons_self))

theorem refuses_first (h : ∀ c, p c = true → q c = false) (hb : Refuses b p) :
    Refuses (seq (first q) b) p := by
  intro c s hc
  simp [seq, first, h c hc, hb c s hc]

theorem refuses_all (h : ∀ c, p c = true → q c = false) (hb : Refuses b p) :
    Refuses (seq (all q) b) p := by
  intro c s hc
  simp [seq, all, h c hc, hb c s hc]

theorem refuses_optional (h : ∀ c, p c = true → q c = false) (hb : Refuses b p) :
    Refuses (seq (optional q) b) p := by
  intro c s hc
  simp [seq, optional, h c hc, hb c s hc]

theorem refuses_many (h : ∀ c, p c = true → q c = false) (hb : Refuses b p) :
    Refuses (seq (many q) b) p := by
  intro c s hc
  simp [seq, many, h c hc, hb c s hc]

/-- A shorter run is never taken. -/
theorem seq_many (hb : Refuses b p) : seq (many p) b = seq (all p) b := by
  funext s
  induction s with
  | nil => rfl
  | cons c s ih =>
    cases hc : p c with
    | false => simp [seq, many, all, hc]
    | true =>
      simp only [seq, all, List.flatMap_singleton] at ih
      simp only [seq, many, all, hc, if_true, List.flatMap_append, List.flatMap_map,
        List.flatMap_singleton, hb c s hc, List.map_nil, List.append_nil, List.takeWhile_cons,
        List.dropWhile_cons]
      -- the ways of the tail, with one more character each
      have hcons := congrArg (List.map fun way : List α × List α => (c :: way.1, way.2)) ih
      simp only [List.map_flatMap, List.map_map] at hcons
      exact hcons

/-- A character that may be left out is taken. -/
theorem seq_optional (hb : Refuses b p) : seq (optional p) b = seq (first p) b := by
  funext s
  cases s with
  | nil => rfl
  | cons c s =>
    cases hc : p c with
    | false => simp [seq, optional, first, hc]
    | true => simp [seq, optional, first, hc, hb c s hc]

theorem seq_ahead (s : List α) :
    seq part (ahead p) s = (part s).filter fun way => way.2.head?.any p := by
  rw [seq]
  induction part s with
  | nil => rfl
  | cons way ways ih =>
    rw [List.flatMap_cons, ih, ahead]
    cases hway : way.2.head?.any p with
    | false => simp [hway]
    | true => simp [hway]

end Ways

/-- The part has at most one way. -/
def Single (part : Matcher α) : Prop := ∀ s, (part s).length ≤ 1

/-- The ways of the part take nothing away. -/
def Covers (part : Matcher α) : Prop := ∀ s, ∀ way ∈ part s, way.1 ++ way.2 = s

section Single

variable {a b : Matcher α} {p : α → Bool} {agrees : α → α → Bool} {w s : List α}

theorem single_one (p : α → Bool) : Single (one p) := by
  intro s
  cases s with
  | nil => exact Nat.zero_le 1
  | cons c s =>
    rw [one]
    split
    · exact le_refl 1
    · exact Nat.zero_le 1

theorem single_all (p : α → Bool) : Single (all p) := fun _ => le_refl 1

theorem single_first (p : α → Bool) : Single (first p) := by
  intro s
  cases s with
  | nil => exact le_refl 1
  | cons c s =>
    rw [first]
    split
    · exact le_refl 1
    · exact le_refl 1

theorem single_seq (ha : Single a) (hb : Single b) : Single (seq a b) := by
  intro s
  have hs := ha s
  rw [seq]
  cases hways : a s with
  | nil => exact Nat.zero_le 1
  | cons way ways =>
    rw [hways, List.length_cons] at hs
    have hnil : ways = [] := List.length_eq_zero_iff.mp (by omega)
    rw [hnil, List.flatMap_singleton, List.length_map]
    exact hb way.2

theorem single_literal (agrees : α → α → Bool) (w : List α) : Single (literal agrees w) := by
  induction w with
  | nil => exact fun _ => le_refl 1
  | cons p w ih => exact single_seq (single_one (agrees p)) ih

/-- No two of the parts match at one place. -/
theorem single_either {parts : List (Matcher α)} (h : ∀ part ∈ parts, Single part)
    (hparts : parts.Pairwise fun a b => ∀ s, a s = [] ∨ b s = []) : Single (either parts) := by
  intro s
  induction parts with
  | nil => exact Nat.zero_le 1
  | cons a parts ih =>
    obtain ⟨hhead, htail⟩ := List.pairwise_cons.mp hparts
    have hrest := ih (fun part hpart => h part (List.mem_cons_of_mem a hpart)) htail
    show (a s ++ either parts s).length ≤ 1
    cases hways : a s with
    | nil => exact hrest
    | cons way ways =>
      -- the first part matches, so the others do not
      have hnil : either parts s = [] := by
        refine List.flatMap_eq_nil_iff.mpr fun part hpart => ?_
        refine (hhead part hpart s).resolve_left fun hempty => ?_
        rw [hways] at hempty
        cases hempty
      rw [hnil, List.append_nil, ← hways]
      exact h a List.mem_cons_self s

theorem covers_one (p : α → Bool) : Covers (one p) := by
  intro s way h
  cases s with
  | nil => cases h
  | cons c s =>
    rw [one] at h
    split at h
    · rw [List.mem_singleton.mp h]
      rfl
    · cases h

theorem covers_all (p : α → Bool) : Covers (all p) := by
  intro s way h
  rw [List.mem_singleton.mp h]
  exact List.takeWhile_append_dropWhile

theorem covers_first (p : α → Bool) : Covers (first p) := by
  intro s way h
  cases s with
  | nil =>
    rw [List.mem_singleton.mp h]
    rfl
  | cons c s =>
    rw [first] at h
    split at h
    · rw [List.mem_singleton.mp h]
      rfl
    · rw [List.mem_singleton.mp h]
      rfl

theorem mem_seq {way : List α × List α} :
    way ∈ seq a b s ↔ ∃ x ∈ a s, ∃ y ∈ b x.2, way = (x.1 ++ y.1, y.2) := by
  rw [seq, List.mem_flatMap]
  constructor
  · rintro ⟨x, hx, hway⟩
    obtain ⟨y, hy, rfl⟩ := List.mem_map.mp hway
    exact ⟨x, hx, y, hy, rfl⟩
  · rintro ⟨x, hx, y, hy, rfl⟩
    exact ⟨x, hx, List.mem_map.mpr ⟨y, hy, rfl⟩⟩

theorem covers_seq (ha : Covers a) (hb : Covers b) : Covers (seq a b) := by
  intro s way h
  obtain ⟨x, hx, y, hy, rfl⟩ := mem_seq.mp h
  rw [List.append_assoc, hb x.2 y hy]
  exact ha s x hx

theorem covers_literal (agrees : α → α → Bool) (w : List α) : Covers (literal agrees w) := by
  induction w with
  | nil =>
    intro s way h
    rw [List.mem_singleton.mp h]
    rfl
  | cons p w ih => exact covers_seq (covers_one (agrees p)) ih

theorem covers_either {parts : List (Matcher α)} (h : ∀ part ∈ parts, Covers part) :
    Covers (either parts) := by
  intro s way hway
  obtain ⟨part, hpart, hway⟩ := List.mem_flatMap.mp hway
  exact h part hpart s way hway

/-- What a word matches agrees with it, letter by letter. -/
theorem literal_spec (agrees : α → α → Bool) (w s : List α) {way : List α × List α} :
    way ∈ literal agrees w s ↔
      way.1 ++ way.2 = s ∧ List.Forall₂ (fun p c => agrees p c = true) w way.1 := by
  induction w generalizing s way with
  | nil =>
    obtain ⟨x, r⟩ := way
    rw [literal, List.mem_singleton, List.forall₂_nil_left_iff, Prod.mk.injEq]
    constructor
    · rintro ⟨rfl, rfl⟩
      exact ⟨rfl, rfl⟩
    · rintro ⟨hs, hx⟩
      dsimp only at hs hx
      rw [hx, List.nil_append] at hs
      exact ⟨hx, hs⟩
  | cons p w ih =>
    obtain ⟨x, r⟩ := way
    rw [literal, mem_seq]
    constructor
    · rintro ⟨y, hy, z, hz, hway⟩
      obtain ⟨hzs, hzw⟩ := ih y.2 |>.mp hz
      cases s with
      | nil => cases hy
      | cons c s =>
        rw [one] at hy
        split at hy
        · next hc =>
          rw [List.mem_singleton.mp hy] at hzs hway
          obtain ⟨rfl, rfl⟩ := Prod.mk.inj hway
          refine ⟨?_, List.Forall₂.cons hc hzw⟩
          show c :: (z.1 ++ z.2) = c :: s
          rw [hzs]
        · cases hy
    · rintro ⟨hs, hx⟩
      cases hx with
      | cons hc hw =>
        next c x =>
        dsimp only at hs
        rw [← hs, List.cons_append]
        refine ⟨([c], x ++ r), ?_, (x, r), ih (x ++ r) |>.mpr ⟨rfl, hw⟩, rfl⟩
        rw [one, if_pos hc]
        exact List.mem_singleton.mpr rfl

/-- Of two words that match at one place, one begins with the other. -/
theorem prefix_of_literals {w' : List α}
    (hunique : ∀ p ∈ w, ∀ q ∈ w', ∀ c, agrees p c = true → agrees q c = true → p = q)
    (h : literal agrees w s ≠ []) (h' : literal agrees w' s ≠ []) : w <+: w' ∨ w' <+: w := by
  induction w generalizing w' s with
  | nil => exact Or.inl (List.nil_prefix)
  | cons p w ih =>
    cases w' with
    | nil => exact Or.inr (List.nil_prefix)
    | cons q w' =>
      obtain ⟨way, hway⟩ := List.exists_mem_of_ne_nil _ h
      obtain ⟨way', hway'⟩ := List.exists_mem_of_ne_nil _ h'
      obtain ⟨x, hx, y, hy, -⟩ := mem_seq.mp hway
      obtain ⟨x', hx', y', hy', -⟩ := mem_seq.mp hway'
      cases s with
      | nil => cases hx
      | cons c s =>
        rw [one] at hx hx'
        split at hx
        · next hc =>
          split at hx'
          · next hc' =>
            rw [List.mem_singleton.mp hx] at hy
            rw [List.mem_singleton.mp hx'] at hy'
            rw [hunique p List.mem_cons_self q List.mem_cons_self c hc hc']
            have hrest := ih
              (fun a ha b hb => hunique a (List.mem_cons_of_mem p ha) b (List.mem_cons_of_mem q hb))
              (List.ne_nil_of_mem hy) (List.ne_nil_of_mem hy')
            rcases hrest with hle | hle
            · exact Or.inl (List.prefix_cons_inj q |>.mpr hle)
            · exact Or.inr (List.prefix_cons_inj q |>.mpr hle)
          · cases hx'
        · cases hx

end Single

/-! ### What follows a text -/

/-- The part matches in the text as it does when more follows. -/
def Decided (part : Matcher α) (y s : List α) : Prop :=
  part (y ++ s) = (part y).map fun way => (way.1, way.2 ++ s)

/-- The part does not go past the character. -/
def Keeps (part : Matcher α) (d : α) : Prop := ∀ y, d ∈ y → ∀ way ∈ part y, d ∈ way.2

section Decided

variable {a b : Matcher α} {p : α → Bool} {agrees : α → α → Bool} {d : α} {w y s : List α}

theorem decided_seq (ha : Decided a y s) (hb : ∀ way ∈ a y, Decided b way.2 s) :
    Decided (seq a b) y s := by
  show (a (y ++ s)).flatMap _ = List.map _ ((a y).flatMap _)
  rw [ha, List.flatMap_map, List.map_flatMap]
  refine List.flatMap_congr fun way hway => ?_
  dsimp only
  rw [hb way hway, List.map_map, List.map_map]
  rfl

theorem decided_either {parts : List (Matcher α)} (h : ∀ part ∈ parts, Decided part y s) :
    Decided (either parts) y s := by
  show parts.flatMap _ = List.map _ (parts.flatMap _)
  rw [List.map_flatMap]
  exact List.flatMap_congr fun part hpart => h part hpart

theorem decided_of_refuses (ha : Refuses a p) (hy : y ≠ []) (hall : ∀ c ∈ y, p c = true) :
    Decided a y s := by
  cases y with
  | nil => exact absurd rfl hy
  | cons c y =>
    have hc := hall c List.mem_cons_self
    rw [Decided, List.cons_append, ha c _ hc, ha c _ hc]
    rfl

theorem decided_one (hy : y ≠ []) : Decided (one p) y s := by
  cases y with
  | nil => exact absurd rfl hy
  | cons c y =>
    rw [Decided, List.cons_append, one, one]
    split
    · rfl
    · rfl

/-- No character of the class follows. -/
theorem decided_one_of_head (hs : ∀ c ∈ s.head?, p c = false) : Decided (one p) y s := by
  cases y with
  | cons c y => exact decided_one (List.cons_ne_nil c y)
  | nil =>
    cases s with
    | nil => rfl
    | cons c s =>
      have hc := hs c rfl
      simp [Decided, one, hc]

theorem decided_all (hs : ∀ c ∈ s.head?, p c = false) : Decided (all p) y s := by
  rw [Decided, all, all, List.map_singleton, List.dropWhile_append, List.takeWhile_append]
  have hdrop : s.dropWhile p = s ∧ s.takeWhile p = [] := by
    cases s with
    | nil => exact ⟨rfl, rfl⟩
    | cons c s => simp [hs c rfl]
  cases hy : y.dropWhile p with
  | nil =>
    have htake : y.takeWhile p = y := by
      have happend := List.takeWhile_append_dropWhile (p := p) (l := y)
      rw [hy, List.append_nil] at happend
      exact happend
    simp [htake, hdrop]
  | cons c x =>
    have hlen : (y.takeWhile p).length ≠ y.length := by
      have happend := congrArg List.length (List.takeWhile_append_dropWhile (p := p) (l := y))
      rw [List.length_append, hy, List.length_cons] at happend
      omega
    simp [hlen]

theorem decided_first (hs : ∀ c ∈ s.head?, p c = false) : Decided (first p) y s := by
  cases y with
  | cons c y =>
    rw [Decided, List.cons_append, first, first]
    split
    · rfl
    · rfl
  | nil =>
    cases s with
    | nil => rfl
    | cons c s =>
      have hc := hs c rfl
      simp [Decided, first, hc]

/-- A character that agrees with no letter of the word is in the text. -/
theorem decided_literal (hd : d ∈ y) (hw : ∀ p ∈ w, agrees p d = false) :
    Decided (literal agrees w) y s := by
  induction w generalizing y with
  | nil => rfl
  | cons p w ih =>
    refine decided_seq (decided_one (List.ne_nil_of_mem hd)) fun way hway => ?_
    refine ih ?_ fun q hq => hw q (List.mem_cons_of_mem p hq)
    cases y with
    | nil => cases hd
    | cons c y =>
      rw [one] at hway
      split at hway
      · next hc =>
        rw [List.mem_singleton.mp hway]
        refine (List.mem_cons.mp hd).resolve_left fun hdc => ?_
        rw [← hdc, hw p List.mem_cons_self] at hc
        cases hc
      · cases hway

/-- No end of the word, with what is asked behind it, begins the text that follows. -/
theorem decided_literal_seq (hb : ∀ y, Decided b y s) (hnil : b [] = [])
    (hw : ∀ w₁ w₂, w = w₁ ++ w₂ → w₁ ≠ [] → seq (literal agrees w₂) b s = []) (hy : y ≠ []) :
    Decided (seq (literal agrees w) b) y s := by
  induction w generalizing y with
  | nil =>
    refine decided_seq rfl fun way hway => ?_
    exact hb way.2
  | cons p w ih =>
    rw [literal, seq_assoc]
    refine decided_seq (decided_one hy) fun way hway => ?_
    by_cases hrest : way.2 = []
    · -- the text ends, and the word would go on behind it
      have hleft := hw [p] w rfl (List.cons_ne_nil p [])
      have hright : seq (literal agrees w) b [] = [] := by
        cases w with
        | nil =>
          rw [seq, literal, List.flatMap_singleton, hnil]
          rfl
        | cons q w => rfl
      rw [hrest, Decided, List.nil_append, hleft, hright]
      rfl
    · refine ih (fun w₁ w₂ hsplit hne => ?_) hrest
      exact hw (p :: w₁) w₂ (by rw [hsplit, List.cons_append]) (List.cons_ne_nil p w₁)

theorem keeps_one (h : p d = false) : Keeps (one p) d := by
  intro y hd way hway
  cases y with
  | nil => cases hd
  | cons c y =>
    rw [one] at hway
    split at hway
    · next hc =>
      rw [List.mem_singleton.mp hway]
      refine (List.mem_cons.mp hd).resolve_left fun hdc => ?_
      rw [← hdc, h] at hc
      cases hc
    · cases hway

theorem keeps_all (h : p d = false) : Keeps (all p) d := by
  intro y hd way hway
  rw [List.mem_singleton.mp hway]
  dsimp only
  rw [← List.takeWhile_append_dropWhile (p := p) (l := y), List.mem_append] at hd
  refine hd.resolve_left fun htake => ?_
  have hpd := List.mem_takeWhile_imp htake
  rw [h] at hpd
  cases hpd

theorem keeps_first (h : p d = false) : Keeps (first p) d := by
  intro y hd way hway
  cases y with
  | nil => cases hd
  | cons c y =>
    rw [first] at hway
    split at hway
    · next hc =>
      rw [List.mem_singleton.mp hway]
      refine (List.mem_cons.mp hd).resolve_left fun hdc => ?_
      rw [← hdc, h] at hc
      cases hc
    · rw [List.mem_singleton.mp hway]
      exact hd

theorem keeps_seq (ha : Keeps a d) (hb : Keeps b d) : Keeps (seq a b) d := by
  intro y hd way hway
  obtain ⟨x, hx, z, hz, rfl⟩ := mem_seq.mp hway
  exact hb x.2 (ha y hd x hx) z hz

theorem keeps_either {parts : List (Matcher α)} (h : ∀ part ∈ parts, Keeps part d) :
    Keeps (either parts) d := by
  intro y hd way hway
  obtain ⟨part, hpart, hway⟩ := List.mem_flatMap.mp hway
  exact h part hpart y hd way hway

theorem keeps_literal (hw : ∀ p ∈ w, agrees p d = false) : Keeps (literal agrees w) d := by
  induction w with
  | nil =>
    intro y hd way hway
    rw [List.mem_singleton.mp hway]
    exact hd
  | cons p w ih =>
    exact keeps_seq (keeps_one (hw p List.mem_cons_self))
      (ih fun q hq => hw q (List.mem_cons_of_mem p hq))

end Decided

/-! ### Expressions -/

/-- A head, then at least one character of a class, as many as there are. -/
structure Expression (α : Type) where
  /-- what the expression asks of the characters before and after the place -/
  starts : Option α → Option α → Bool
  head : Matcher α
  run : α → Bool
  /-- what replaces a match, from its head -/
  repl : List α → List α

namespace Expression

variable (e : Expression α)

/-- The match at a place, as its head and what follows the head. -/
def find (before : Option α) (s : List α) : Option (List α × List α) :=
  if e.starts before s.head? then (e.head s).find? fun way => way.2.head?.any e.run else none

/-- `re.sub`: the matches are replaced, from the left; `skip` characters belong to the last. -/
def subFrom : Option α → ℕ → List α → List α
  | _, _, [] => []
  | _, skip + 1, c :: s => subFrom (some c) skip s
  | before, 0, c :: s =>
    match e.find before (c :: s) with
    | none => c :: subFrom (some c) 0 s
    | some way =>
      e.repl way.1 ++ subFrom (some c) (s.length - (way.2.dropWhile e.run).length) s

/-- `re.sub`, of what follows a character or begins a text. -/
def sub (before : Option α) (s : List α) : List α := e.subFrom before 0 s

/-- Expressions whose heads differ by ways that their classes refuse. -/
theorem find_congr {e e' : Expression α} (hstarts : e.starts = e'.starts) (hrun : e.run = e'.run)
    (hhead : seq e.head (ahead e.run) = seq e'.head (ahead e.run)) : e.find = e'.find := by
  funext before s
  have hways := congrFun hhead s
  rw [seq_ahead, seq_ahead] at hways
  rw [find, find, ← hstarts, ← hrun, ← List.head?_filter, ← List.head?_filter, hways]

theorem sub_congr {e e' : Expression α} (hfind : e.find = e'.find) (hrun : e.run = e'.run)
    (hrepl : e.repl = e'.repl) : e.sub = e'.sub := by
  have hfrom : ∀ s before skip, e.subFrom before skip s = e'.subFrom before skip s := by
    intro s
    induction s with
    | nil => intro before skip; cases skip <;> rfl
    | cons c s ih =>
      intro before skip
      cases skip with
      | succ skip => exact ih (some c) skip
      | zero =>
        simp only [subFrom, hfind, hrun, hrepl, ih]
  funext before s
  exact hfrom s before 0

end Expression

end Python.Regex
