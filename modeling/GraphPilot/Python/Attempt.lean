/-
Computations that may raise.

A computation of `Except ε α` returns or raises.  The rules say of a sequence, of a loop
and of a comprehension when it returns, what it returns then, and which exceptions it can
raise.

* `returns_bind`, `returns_mapM` — each part returns;
* `Raises.bind`, `raises_mapM`, `raises_foldlM` — each part raises only such exceptions;
* `mapM_of_ok`, `forM_eq_ok`, `foldlM_turns` — what is known of the parts;
* `returns_foldlM`, `foldlM_relates` — one loop, or two of them, turn by turn.
-/
import Mathlib.Data.List.Forall2

namespace Attempt

variable {ε α β γ : Type}

/-- The computation returns. -/
def Returns (x : Except ε α) : Prop := ∃ a, x = .ok a

/-- Every exception that the computation raises is one of these. -/
def Raises (P : ε → Prop) (x : Except ε α) : Prop := ∀ exc, x = .error exc → P exc

theorem Returns.ok {a : α} : Returns (.ok a : Except ε α) := ⟨a, rfl⟩

theorem raises_ok {P : ε → Prop} {a : α} : Raises P (.ok a : Except ε α) := by
  intro exc h
  cases h

theorem raises_error {P : ε → Prop} {exc : ε} :
    Raises P (.error exc : Except ε α) ↔ P exc := by
  constructor
  · intro h
    exact h exc rfl
  · rintro h exc' heq
    cases heq
    exact h

theorem Returns.raises {P : ε → Prop} {x : Except ε α} (h : Returns x) : Raises P x := by
  obtain ⟨a, rfl⟩ := h
  exact raises_ok

/-- A computation that only raises what is impossible returns. -/
theorem returns_of_raises {x : Except ε α} (h : Raises (fun _ => False) x) : Returns x := by
  cases x with
  | ok a => exact .ok
  | error exc => exact (h exc rfl).elim

/-! ### Sequences -/

theorem bind_eq_ok {x : Except ε α} {f : α → Except ε β} {b : β} :
    (x >>= f) = .ok b ↔ ∃ a, x = .ok a ∧ f a = .ok b := by
  cases x with
  | error exc =>
    constructor
    · intro h
      cases h
    · rintro ⟨a, h, -⟩
      cases h
  | ok a =>
    constructor
    · intro h
      exact ⟨a, rfl, h⟩
    · rintro ⟨a', h, hf⟩
      cases h
      exact hf

theorem returns_bind {x : Except ε α} {f : α → Except ε β} :
    Returns (x >>= f) ↔ ∃ a, x = .ok a ∧ Returns (f a) := by
  constructor
  · rintro ⟨b, h⟩
    obtain ⟨a, hx, hf⟩ := bind_eq_ok.mp h
    exact ⟨a, hx, b, hf⟩
  · rintro ⟨a, hx, b, hf⟩
    exact ⟨b, bind_eq_ok.mpr ⟨a, hx, hf⟩⟩

theorem Raises.bind {P : ε → Prop} {x : Except ε α} {f : α → Except ε β} (hx : Raises P x)
    (hf : ∀ a, x = .ok a → Raises P (f a)) : Raises P (x >>= f) := by
  cases x with
  | error exc =>
    intro exc' h
    cases h
    exact hx exc rfl
  | ok a => exact hf a rfl

/-! ### Comprehensions -/

theorem mapM_eq_ok {f : α → Except ε β} {xs : List α} {ys : List β} :
    xs.mapM f = .ok ys ↔ List.Forall₂ (fun x y => f x = .ok y) xs ys := by
  induction xs generalizing ys with
  | nil =>
    rw [List.forall₂_nil_left_iff]
    constructor
    · intro h
      cases h
      rfl
    · rintro rfl
      rfl
  | cons x xs ih =>
    rw [List.mapM_cons, bind_eq_ok]
    constructor
    · rintro ⟨y, hy, h⟩
      obtain ⟨ys', hys, hret⟩ := bind_eq_ok.mp h
      cases hret
      exact .cons hy (ih.mp hys)
    · intro h
      cases h with
      | cons hy hys => exact ⟨_, hy, bind_eq_ok.mpr ⟨_, ih.mpr hys, rfl⟩⟩

/-- A comprehension of which each element is known. -/
theorem mapM_of_ok {f : α → Except ε β} {g : α → β} {xs : List α}
    (h : ∀ x ∈ xs, f x = .ok (g x)) : xs.mapM f = .ok (xs.map g) := by
  rw [mapM_eq_ok, List.forall₂_map_right_iff, List.forall₂_same]
  exact h

/-- A comprehension returns if and only if each of its elements does. -/
theorem returns_mapM {f : α → Except ε β} {xs : List α} :
    Returns (xs.mapM f) ↔ ∀ x ∈ xs, Returns (f x) := by
  induction xs with
  | nil => exact ⟨fun _ x hx => (List.not_mem_nil hx).elim, fun _ => .ok⟩
  | cons x xs ih =>
    rw [List.mapM_cons, returns_bind, List.forall_mem_cons]
    constructor
    · rintro ⟨y, hy, h⟩
      obtain ⟨ys, hys, -⟩ := returns_bind.mp h
      exact ⟨⟨y, hy⟩, ih.mp ⟨ys, hys⟩⟩
    · rintro ⟨⟨y, hy⟩, h⟩
      obtain ⟨ys, hys⟩ := ih.mpr h
      exact ⟨y, hy, returns_bind.mpr ⟨ys, hys, .ok⟩⟩

theorem raises_mapM {P : ε → Prop} {f : α → Except ε β} {xs : List α}
    (h : ∀ x ∈ xs, Raises P (f x)) : Raises P (xs.mapM f) := by
  induction xs with
  | nil => exact raises_ok
  | cons x xs ih =>
    rw [List.mapM_cons]
    refine (h x List.mem_cons_self).bind fun y _ => ?_
    exact (ih fun x' hx' => h x' (List.mem_cons_of_mem _ hx')).bind fun ys _ => raises_ok

/-! ### Loops -/

/-- A loop returns if and only if each of its turns does. -/
theorem forM_eq_ok {f : α → Except ε Unit} {xs : List α} :
    xs.forM f = .ok () ↔ ∀ x ∈ xs, f x = .ok () := by
  induction xs with
  | nil => exact ⟨fun _ x hx => (List.not_mem_nil hx).elim, fun _ => rfl⟩
  | cons x xs ih =>
    show (f x >>= fun _ => xs.forM f) = _ ↔ _
    rw [bind_eq_ok, List.forall_mem_cons]
    constructor
    · rintro ⟨⟨⟩, hx, h⟩
      exact ⟨hx, ih.mp h⟩
    · rintro ⟨hx, h⟩
      exact ⟨⟨⟩, hx, ih.mpr h⟩

theorem raises_foldlM {P : ε → Prop} {f : β → α → Except ε β} {xs : List α}
    (h : ∀ b x, Raises P (f b x)) (b : β) : Raises P (xs.foldlM f b) := by
  induction xs generalizing b with
  | nil => exact raises_ok
  | cons x xs ih =>
    rw [List.foldlM_cons]
    exact (h b x).bind fun b' _ => ih b'

/-- A loop returns if and only if each of its turns may, where that does not depend on the
turns before it. -/
theorem returns_foldlM (Inv : β → Prop) {P : α → Prop} {f : β → α → Except ε β} {xs : List α}
    (hturn : ∀ x ∈ xs, ∀ b, Inv b → (Returns (f b x) ↔ P x))
    (hkeep : ∀ x ∈ xs, ∀ b b', Inv b → f b x = .ok b' → Inv b') {b : β} (hb : Inv b) :
    Returns (xs.foldlM f b) ↔ ∀ x ∈ xs, P x := by
  induction xs generalizing b with
  | nil => exact ⟨fun _ x hx => (List.not_mem_nil hx).elim, fun _ => .ok⟩
  | cons x xs ih =>
    have hrest := fun b' => ih (fun y hy => hturn y (List.mem_cons_of_mem _ hy))
      (fun y hy => hkeep y (List.mem_cons_of_mem _ hy)) (b := b')
    have hx := hturn x List.mem_cons_self b hb
    rw [List.foldlM_cons, returns_bind, List.forall_mem_cons]
    constructor
    · rintro ⟨b', hb', hreturns⟩
      exact ⟨hx.mp ⟨b', hb'⟩, (hrest b' (hkeep x List.mem_cons_self b b' hb hb')).mp hreturns⟩
    · rintro ⟨hP, hPs⟩
      obtain ⟨b', hb'⟩ := hx.mpr hP
      exact ⟨b', hb', (hrest b' (hkeep x List.mem_cons_self b b' hb hb')).mpr hPs⟩

/-- Two loops over the same list that return, turn by turn. -/
theorem foldlM_relates {R : β → γ → Prop} {f : β → α → Except ε β} {g : γ → α → Except ε γ}
    {xs : List α}
    (hturn : ∀ x ∈ xs, ∀ b c b' c', R b c → f b x = .ok b' → g c x = .ok c' → R b' c')
    {b b' : β} {c c' : γ} (h : R b c) (hf : xs.foldlM f b = .ok b')
    (hg : xs.foldlM g c = .ok c') : R b' c' := by
  induction xs generalizing b c with
  | nil =>
    cases hf
    cases hg
    exact h
  | cons x xs ih =>
    rw [List.foldlM_cons] at hf hg
    obtain ⟨b₁, hb₁, hf⟩ := bind_eq_ok.mp hf
    obtain ⟨c₁, hc₁, hg⟩ := bind_eq_ok.mp hg
    exact ih (fun y hy => hturn y (List.mem_cons_of_mem _ hy))
      (hturn x List.mem_cons_self b c b₁ c₁ h hb₁ hc₁) hf hg

/-- In a loop that returns, each turn has returned. -/
theorem foldlM_turns {f : β → α → Except ε β} {xs : List α} {b b' : β}
    (h : xs.foldlM f b = .ok b') : ∀ x ∈ xs, ∃ c, Returns (f c x) := by
  induction xs generalizing b with
  | nil => exact fun x hx => (List.not_mem_nil hx).elim
  | cons x xs ih =>
    rw [List.foldlM_cons] at h
    obtain ⟨c, hc, hrest⟩ := bind_eq_ok.mp h
    rw [List.forall_mem_cons]
    exact ⟨⟨b, c, hc⟩, ih hrest⟩

end Attempt
