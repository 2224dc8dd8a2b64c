/-
The parameters that a database finds in a query.

How a database divides a text into tokens is not part of this repository: a `Scanner` is any
such division.  What is documented of the two databases is how a parameter is written, and
how parameters are numbered: PostgreSQL has `$n`, and SQLite has `?`, which takes the next
number, `?n`, and names, which take the next number when they are new.

* `Dialect.ref` — what a parameter refers to;
* `Numbering.after`, `required` — the number of values that a query asks for;
* `annotate`, `locate` — the token at a place of the text, with its number;
* `after_eq_one_iff` — which parameters ask for one value.
-/
import GraphPilot.Tools.Database

namespace GraphPilot.Tools

/-! ### Tokens -/

/-- A part of a query. -/
inductive Token where
  | parameter (text : List Char)
  /-- a string literal, a quoted identifier or a comment -/
  | quoted (text : List Char)
  | other (text : List Char)

def Token.text : Token → List Char
  | .parameter text => text
  | .quoted text => text
  | .other text => text

/-- What a parameter refers to. -/
inductive Ref where
  | anonymous
  | numbered (n : ℕ)
  | named (name : List Char)

/-- The value of decimal digits. -/
def digitsValue (digits : List Char) : ℕ :=
  digits.foldl (fun n c => 10 * n + (c.toNat - '0'.toNat)) 0

/-- What the text of a parameter refers to. -/
def Dialect.ref : Dialect → List Char → Ref
  | .postgres, text => .numbered (digitsValue (text.drop 1))
  | .sqlite, ['?'] => .anonymous
  | .sqlite, '?' :: digits => .numbered (digitsValue digits)
  | .sqlite, name => .named name

/-- A division of texts into tokens. -/
structure Scanner (d : Dialect) where
  scan : List Char → List Token
  texts : ∀ text, (scan text).flatMap Token.text = text
  /-- numbers begin with one -/
  positive : ∀ text t n, .parameter t ∈ scan text → d.ref t = .numbered n → 0 < n

/-- The parameters among the tokens, in their order. -/
def refs (d : Dialect) (tokens : List Token) : List Ref :=
  tokens.filterMap fun
    | .parameter text => some (d.ref text)
    | _ => none

/-! ### Numbers -/

/-- The largest number so far, and the numbers of the names. -/
structure Numbering where
  largest : ℕ
  names : List (List Char × ℕ)

namespace Numbering

/-- The number of the next parameter. -/
def number (s : Numbering) : Ref → ℕ
  | .anonymous => s.largest + 1
  | .numbered n => n
  | .named name => (s.names.lookup name).getD (s.largest + 1)

/-- What is known after it. -/
def next (s : Numbering) : Ref → Numbering
  | .anonymous => { s with largest := s.largest + 1 }
  | .numbered n => { s with largest := max s.largest n }
  | .named name =>
    match s.names.lookup name with
    | some _ => s
    | none => ⟨s.largest + 1, (name, s.largest + 1) :: s.names⟩

def start : Numbering := ⟨0, []⟩

/-- What is known after some parameters. -/
def after (s : Numbering) (rs : List Ref) : Numbering := rs.foldl next s

end Numbering

/-- The number of values that a query asks for. -/
def required (d : Dialect) (tokens : List Token) : ℕ :=
  (Numbering.start.after (refs d tokens)).largest

/-- The tokens, each parameter with its number. -/
def annotate (d : Dialect) : Numbering → List Token → List (Token × ℕ)
  | _, [] => []
  | s, .parameter text :: tokens =>
    (.parameter text, s.number (d.ref text)) :: annotate d (s.next (d.ref text)) tokens
  | s, .quoted text :: tokens => (.quoted text, 0) :: annotate d s tokens
  | s, .other text :: tokens => (.other text, 0) :: annotate d s tokens

/-- The token at a place of the text, and where in the token this is. -/
def locate : List (Token × ℕ) → ℕ → Option ((Token × ℕ) × ℕ)
  | [], _ => none
  | x :: xs, place =>
    if place < x.1.text.length then some (x, place) else locate xs (place - x.1.text.length)

/-! ### One value -/

theorem mem_of_locate {xs : List (Token × ℕ)} {place i : ℕ} {x : Token × ℕ}
    (h : locate xs place = some (x, i)) : x ∈ xs := by
  induction xs generalizing place with
  | nil => cases h
  | cons y xs ih =>
    rw [locate] at h
    split at h
    · rw [(Prod.mk.inj (Option.some.inj h)).1]
      exact List.mem_cons_self
    · exact List.mem_cons_of_mem _ (ih h)

namespace Numbering

variable {s : Numbering} {r : Ref} {rs : List Ref}

theorem le_next (s : Numbering) (r : Ref) : s.largest ≤ (s.next r).largest := by
  cases r with
  | anonymous => exact Nat.le_succ _
  | numbered n => exact Nat.le_max_left _ _
  | named name =>
    rw [next]
    split
    · exact Nat.le_refl _
    · exact Nat.le_succ _

theorem le_after (s : Numbering) (rs : List Ref) : s.largest ≤ (s.after rs).largest := by
  induction rs generalizing s with
  | nil => exact Nat.le_refl _
  | cons r rs ih => exact (le_next s r).trans (ih _)

/-- A parameter that does not raise the largest number from one. -/
def Repeats (s : Numbering) : Ref → Prop
  | .anonymous => False
  | .numbered n => n = 1
  | .named name => ∃ n, s.names.lookup name = some n

theorem next_of_repeats (hone : s.largest = 1) (h : s.Repeats r) : s.next r = s := by
  cases r with
  | anonymous => exact h.elim
  | numbered n =>
    have hn : n = 1 := h
    rw [next, hn, hone]
    show (⟨1, s.names⟩ : Numbering) = s
    rw [← hone]
  | named name =>
    obtain ⟨n, hn⟩ := h
    rw [next, hn]

theorem two_le_next (hone : s.largest = 1) (hpos : ∀ n, r = .numbered n → 0 < n)
    (h : ¬ s.Repeats r) : 2 ≤ (s.next r).largest := by
  cases r with
  | anonymous =>
    rw [next, hone]
  | numbered n =>
    have hne : n ≠ 1 := h
    have hn := hpos n rfl
    show 2 ≤ max s.largest n
    omega
  | named name =>
    have hnew : s.names.lookup name = none := by
      rw [Option.eq_none_iff_forall_ne_some]
      exact fun n hn => h ⟨n, hn⟩
    rw [next, hnew, hone]

/-- From one on, the largest number stays just when every parameter repeats. -/
theorem after_eq_one (hone : s.largest = 1) (hpos : ∀ r ∈ rs, ∀ n, r = .numbered n → 0 < n) :
    (s.after rs).largest = 1 ↔ ∀ r ∈ rs, s.Repeats r := by
  induction rs with
  | nil => exact ⟨fun _ _ hr => absurd hr List.not_mem_nil, fun _ => hone⟩
  | cons r rs ih =>
    have hrest := ih fun x hx => hpos x (List.mem_cons_of_mem _ hx)
    rw [List.forall_mem_cons]
    show ((s.next r).after rs).largest = 1 ↔ _
    by_cases hr : s.Repeats r
    · rw [next_of_repeats hone hr, hrest]
      exact ⟨fun h => ⟨hr, h⟩, fun h => h.2⟩
    · -- it is two already
      have htwo := two_le_next hone (hpos r List.mem_cons_self) hr
      have hle := le_after (s.next r) rs
      constructor
      · intro h
        omega
      · exact fun h => absurd h.1 hr

/-- The first parameter has a number. -/
theorem one_le_next_start (hpos : ∀ n, r = .numbered n → 0 < n) :
    1 ≤ (start.next r).largest := by
  cases r with
  | anonymous => exact Nat.le_refl 1
  | numbered n =>
    show 1 ≤ max 0 n
    have hn := hpos n rfl
    omega
  | named name => exact Nat.le_refl 1

/-- The numbers of the names are not greater than the largest one. -/
def Bounded (s : Numbering) : Prop := ∀ x ∈ s.names, x.2 ≤ s.largest

theorem Bounded.next (h : s.Bounded) (r : Ref) : (s.next r).Bounded := by
  intro x hx
  cases r with
  | anonymous => exact (h x hx).trans (le_next s .anonymous)
  | numbered n => exact (h x hx).trans (le_next s (.numbered n))
  | named name =>
    rw [Numbering.next] at hx ⊢
    split at hx
    · exact h x hx
    · rcases List.mem_cons.mp hx with rfl | hx
      · exact Nat.le_refl _
      · exact (h x hx).trans (Nat.le_succ _)

theorem Bounded.number_le (h : s.Bounded) (r : Ref) : s.number r ≤ (s.next r).largest := by
  cases r with
  | anonymous => exact Nat.le_refl _
  | numbered n => exact Nat.le_max_right _ _
  | named name =>
    rw [number, Numbering.next]
    cases hlookup : s.names.lookup name with
    | none => exact Nat.le_refl _
    | some n =>
      obtain ⟨before, later, hnames, -⟩ := List.lookup_eq_some_iff.mp hlookup
      refine h (name, n) ?_
      rw [hnames]
      exact List.mem_append_right _ List.mem_cons_self

end Numbering

/-- The number of a parameter is given by what is before it, and is not greater than the
number of values. -/
theorem mem_annotate {d : Dialect} {s : Numbering} {tokens : List Token} {text : List Char}
    {n : ℕ} (hs : s.Bounded) (h : (.parameter text, n) ∈ annotate d s tokens) :
    (∃ s' : Numbering, n = s'.number (d.ref text)) ∧ n ≤ (s.after (refs d tokens)).largest := by
  induction tokens generalizing s with
  | nil => cases h
  | cons token tokens ih =>
    cases token with
    | parameter t =>
      have hafter : s.after (refs d (.parameter t :: tokens)) =
          (s.next (d.ref t)).after (refs d tokens) := rfl
      rw [hafter]
      rcases List.mem_cons.mp h with heq | hmem
      · obtain ⟨htoken, rfl⟩ := Prod.mk.inj heq
        rw [Token.parameter.inj htoken]
        exact ⟨⟨s, rfl⟩, (hs.number_le _).trans (Numbering.le_after _ _)⟩
      · exact ih (hs.next _) hmem
    | quoted t =>
      rcases List.mem_cons.mp h with heq | hmem
      · cases (Prod.mk.inj heq).1
      · exact ih hs hmem
    | other t =>
      rcases List.mem_cons.mp h with heq | hmem
      · cases (Prod.mk.inj heq).1
      · exact ih hs hmem

/-- The first parameter gets the number one, and each other one repeats it. -/
def OneValue (rs : List Ref) : Prop :=
  ∃ first rest, rs = first :: rest ∧ (∀ n, first = .numbered n → n = 1) ∧
    ∀ r ∈ rest, r = .numbered 1 ∨ ∃ name, r = .named name ∧ first = .named name

theorem after_eq_zero {rs : List Ref} (hpos : ∀ r ∈ rs, ∀ n, r = .numbered n → 0 < n) :
    (Numbering.start.after rs).largest = 0 ↔ rs = [] := by
  cases rs with
  | nil => exact ⟨fun _ => rfl, fun _ => rfl⟩
  | cons r rs =>
    refine ⟨fun h => ?_, fun h => absurd h (List.cons_ne_nil r rs)⟩
    have hle := Numbering.le_after (Numbering.start.next r) rs
    have hone := Numbering.one_le_next_start (hpos r List.mem_cons_self)
    have hafter : (Numbering.start.after (r :: rs)).largest =
        ((Numbering.start.next r).after rs).largest := rfl
    omega

/-- Which parameters ask for one value. -/
theorem after_eq_one_iff {rs : List Ref} (hpos : ∀ r ∈ rs, ∀ n, r = .numbered n → 0 < n) :
    (Numbering.start.after rs).largest = 1 ↔ OneValue rs := by
  cases rs with
  | nil =>
    constructor
    · intro h
      cases h
    · rintro ⟨first, rest, h, -⟩
      cases h
  | cons first rest =>
    have hrest : ∀ r ∈ rest, ∀ n, r = .numbered n → 0 < n :=
      fun r hr => hpos r (List.mem_cons_of_mem _ hr)
    have hafter : (Numbering.start.after (first :: rest)).largest =
        ((Numbering.start.next first).after rest).largest := rfl
    have hvalue : OneValue (first :: rest) ↔ (∀ n, first = .numbered n → n = 1) ∧
        ∀ r ∈ rest, r = .numbered 1 ∨ ∃ name, r = .named name ∧ first = .named name := by
      constructor
      · rintro ⟨f, r, heq, h⟩
        obtain ⟨rfl, rfl⟩ := List.cons.inj heq
        exact h
      · exact fun h => ⟨first, rest, rfl, h⟩
    rw [hafter, hvalue]
    by_cases hone : (Numbering.start.next first).largest = 1
    · have hfirst : ∀ n, first = .numbered n → n = 1 := by
        rintro n rfl
        have hmax : max 0 n = 1 := hone
        omega
      rw [Numbering.after_eq_one hone hrest]
      refine ⟨fun h => ⟨hfirst, fun r hr => ?_⟩, fun h r hr => ?_⟩
      · have hrepeats := h r hr
        cases r with
        | anonymous => exact hrepeats.elim
        | numbered n => exact Or.inl (congrArg Ref.numbered hrepeats)
        | named name =>
          obtain ⟨n, hn⟩ := hrepeats
          cases first with
          | anonymous => cases hn
          | numbered m => cases hn
          | named name' =>
            have hn' : List.lookup name [(name', 1)] = some n := hn
            refine Or.inr ⟨name, rfl, ?_⟩
            rw [List.lookup_cons] at hn'
            split at hn'
            · rename_i heq
              rw [beq_iff_eq.mp heq]
            · cases hn'
      · rcases h.2 r hr with rfl | ⟨name, rfl, rfl⟩
        · exact rfl
        · exact ⟨1, by
            show List.lookup name [(name, 1)] = some 1
            rw [List.lookup_cons_self]⟩
    · -- the first parameter has a number of its own
      have hnot : ¬ ∀ n, first = .numbered n → n = 1 := by
        intro h
        cases first with
        | anonymous => exact hone rfl
        | numbered n =>
          have hn := h n rfl
          rw [hn] at hone
          exact hone rfl
        | named name => exact hone rfl
      have hpositive := Numbering.one_le_next_start (hpos first List.mem_cons_self)
      have hle := Numbering.le_after (Numbering.start.next first) rest
      exact ⟨fun h => by omega, fun h => absurd h.1 hnot⟩

end GraphPilot.Tools
