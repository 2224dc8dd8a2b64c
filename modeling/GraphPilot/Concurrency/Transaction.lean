/-
Transactions with row locks.

A transaction collects its writes and applies them together when it commits;
until then nobody else sees them.  Each write holds the lock of the row it
changes.  A `Store` says what a write does, which row it locks and what the
value of a row is; the two laws are that a write leaves every other row alone,
and that what it makes of a row depends on that row only.

* `Store.value_commit_of_ne` — a commit leaves the rows it has no lock on;
* `Store.view_commit` — what a transaction makes of its own rows is not
  disturbed by the commit of another one.
-/
import Mathlib.Logic.Basic
import Mathlib.Data.List.Basic

namespace Concurrency

/-- Writes `W` on databases `D` whose rows `R` have values in `V`. -/
structure Store (W D R V : Type) where
  apply : W → D → D
  row? : W → Option R
  value : D → R → V
  value_apply_of_ne : ∀ {w d r}, row? w ≠ some r → value (apply w d) r = value d r
  value_apply_congr : ∀ {w d d' r}, value d r = value d' r →
    value (apply w d) r = value (apply w d') r

namespace Store

variable {W D R V : Type} (S : Store W D R V)

/-- All the writes of a transaction, in order. -/
def applyAll (ws : List W) (d : D) : D := ws.foldl (fun d w => S.apply w d) d

/-- Thread `t` holds the lock of every row that its writes change. -/
def Owns (t : ℕ) (ws : List W) (locks : R → Option ℕ) : Prop :=
  ∀ w ∈ ws, ∀ r, S.row? w = some r → locks r = some t

variable {S} {ws ws' : List W} {d d' : D} {r : R} {t t' : ℕ} {locks : R → Option ℕ}

@[simp] theorem applyAll_nil : S.applyAll [] d = d := rfl

@[simp] theorem applyAll_cons {w : W} :
    S.applyAll (w :: ws) d = S.applyAll ws (S.apply w d) := rfl

@[simp] theorem applyAll_append :
    S.applyAll (ws ++ ws') d = S.applyAll ws' (S.applyAll ws d) := by
  simp [applyAll]

theorem value_applyAll_of_ne (h : ∀ w ∈ ws, S.row? w ≠ some r) :
    S.value (S.applyAll ws d) r = S.value d r := by
  induction ws generalizing d with
  | nil => rfl
  | cons w ws ih =>
    rw [applyAll_cons, ih fun x hx => h x (by simp [hx]),
      S.value_apply_of_ne (h w (by simp))]

theorem value_applyAll_congr (h : S.value d r = S.value d' r) :
    S.value (S.applyAll ws d) r = S.value (S.applyAll ws d') r := by
  induction ws generalizing d d' with
  | nil => exact h
  | cons w ws ih => exact ih (S.value_apply_congr h)

/-- Another thread's commit leaves the rows it has not locked. -/
theorem value_commit_of_ne (h : S.Owns t ws locks) (hr : locks r ≠ some t) :
    S.value (S.applyAll ws d) r = S.value d r :=
  value_applyAll_of_ne fun w hw hrow => hr (h w hw r hrow)

/-- A thread sees its own rows unchanged by the commit of another. -/
theorem view_commit (h : S.Owns t ws locks) (h' : S.Owns t' ws' locks) (hne : t ≠ t')
    {w : W} (hw : w ∈ ws') (hr : S.row? w = some r) :
    S.value (S.applyAll ws' (S.applyAll ws d)) r = S.value (S.applyAll ws' d) r := by
  refine value_applyAll_congr (value_commit_of_ne h ?_)
  rw [h' w hw r hr]
  simpa using Ne.symm hne

theorem Owns.nil : S.Owns t [] locks := by
  intro w hw
  simp at hw

/-- One more write, on a row whose lock is held. -/
theorem Owns.concat {w : W} (h : S.Owns t ws locks)
    (hw : ∀ r, S.row? w = some r → locks r = some t) : S.Owns t (ws ++ [w]) locks := by
  intro x hx r hr
  rcases List.mem_append.mp hx with hx | hx
  · exact h x hx r hr
  · rw [List.mem_singleton.mp hx] at hr
    exact hw r hr

/-- Locks taken or released by others do not matter. -/
theorem Owns.mono {locks' : R → Option ℕ} (h : S.Owns t ws locks)
    (hl : ∀ r, locks r = some t → locks' r = some t) : S.Owns t ws locks' :=
  fun w hw r hr => hl r (h w hw r hr)

end Store

end Concurrency
