/-
One run of a program that reads and writes a state and may raise.

`Meets m s Q E` says how the run of `m` from `s` ends: with a value and a state
that satisfy `Q`, or with an error and a state that satisfy `E`.

* `Prog ε σ α`, `exec` — such a program, its outcome and the state it leaves;
* `meets_pure`, `meets_throw`, `meets_bind`, `meets_get`, `meets_modify`,
  `meets_tryCatch` — one rule for each construct, as an equivalence;
* `Meets.mono` — the rule of consequence;
* `attempt`, `finallyDo` — the outcome of a part as a value, and a part with
  something done after it however it ends.
-/
import Mathlib.Data.List.Basic

namespace TwoRuns

variable {ε σ α β : Type}

/-- A program over states `σ` that may raise. -/
abbrev Prog (ε σ α : Type) : Type := ExceptT ε (StateM σ) α

/-- The outcome of a program and the state it leaves. -/
def exec (m : Prog ε σ α) (s : σ) : Except ε α × σ := (ExceptT.run m).run s

section Exec

variable (m : Prog ε σ α) (f : α → Prog ε σ β) (s : σ)

@[simp] theorem exec_pure (a : α) : exec (pure a : Prog ε σ α) s = (.ok a, s) := rfl

@[simp] theorem exec_throw (e : ε) : exec (throw e : Prog ε σ α) s = (.error e, s) := rfl

theorem exec_bind : exec (m >>= f) s =
    match exec m s with
    | (.ok a, s') => exec (f a) s'
    | (.error e, s') => (.error e, s') := by
  show exec (ExceptT.bind m f) s = _
  unfold exec ExceptT.bind ExceptT.mk ExceptT.run
  show (match StateT.run m s with | (r, s') => StateT.run (ExceptT.bindCont f r) s') = _
  rcases StateT.run m s with ⟨_ | a, s'⟩ <;> rfl

/-- What `tryCatch` does with an outcome. -/
private def catching (h : ε → Prog ε σ α) : Except ε α → StateM σ (Except ε α)
  | .ok a => pure (.ok a)
  | .error e => h e

theorem exec_tryCatch (h : ε → Prog ε σ α) : exec (tryCatch m h) s =
    match exec m s with
    | (.ok a, s') => (.ok a, s')
    | (.error e, s') => exec (h e) s' := by
  rcases hm : exec m s with ⟨_ | a, s'⟩
  · exact (congrArg (fun x : Except ε α × σ => StateT.run (catching h x.1) x.2) hm).trans rfl
  · exact (congrArg (fun x : Except ε α × σ => StateT.run (catching h x.1) x.2) hm).trans rfl

end Exec

end TwoRuns

namespace OneRun

open TwoRuns (Prog exec exec_bind exec_tryCatch)

variable {ε σ α β : Type}

/-- The run of `m` from `s` ends with a value as `Q` says, or raises as `E` says. -/
def Meets (m : Prog ε σ α) (s : σ) (Q : α → σ → Prop) (E : ε → σ → Prop) : Prop :=
  match exec m s with
  | (.ok a, s') => Q a s'
  | (.error e, s') => E e s'

variable {m : Prog ε σ α} {s : σ} {Q Q' : α → σ → Prop} {E E' : ε → σ → Prop}

theorem Meets.mono (h : Meets m s Q E) (hQ : ∀ a t, Q a t → Q' a t) (hE : ∀ e t, E e t → E' e t) :
    Meets m s Q' E' := by
  unfold Meets at *
  rcases hx : exec m s with ⟨e | a, t⟩ <;> rw [hx] at h
  · exact hE e t h
  · exact hQ a t h

theorem Meets.of_forall (hQ : ∀ a t, Q a t) (hE : ∀ e t, E e t) : Meets m s Q E := by
  unfold Meets
  rcases exec m s with ⟨e | a, t⟩
  · exact hE e t
  · exact hQ a t

/-- What holds of the state however the run ends. -/
theorem Meets.snd {P : σ → Prop} (h : Meets m s (fun _ => P) (fun _ => P)) :
    P (exec m s).2 := by
  unfold Meets at h
  rcases hx : exec m s with ⟨e | a, t⟩ <;> rw [hx] at h
  · exact h
  · exact h

theorem Meets.ok {a : α} {t : σ} (h : Meets m s Q E) (hx : exec m s = (.ok a, t)) : Q a t := by
  rw [Meets, hx] at h
  exact h

theorem Meets.error {e : ε} {t : σ} (h : Meets m s Q E) (hx : exec m s = (.error e, t)) :
    E e t := by
  rw [Meets, hx] at h
  exact h

/-! ### One rule for each construct -/

@[simp] theorem meets_pure {a : α} : Meets (pure a : Prog ε σ α) s Q E ↔ Q a s := Iff.rfl

@[simp] theorem meets_throw {e : ε} : Meets (throw e : Prog ε σ α) s Q E ↔ E e s := Iff.rfl

@[simp] theorem meets_get {R : σ → σ → Prop} : Meets (get : Prog ε σ σ) s R E ↔ R s s := Iff.rfl

@[simp] theorem meets_modify {f : σ → σ} {R : PUnit → σ → Prop} :
    Meets (modify f : Prog ε σ PUnit) s R E ↔ R ⟨⟩ (f s) := Iff.rfl

/-- In sequence: the second part starts where the first ends. -/
@[simp] theorem meets_bind {f : α → Prog ε σ β} {R : β → σ → Prop} :
    Meets (m >>= f) s R E ↔ Meets m s (fun a t => Meets (f a) t R E) E := by
  unfold Meets
  rw [exec_bind]
  rcases exec m s with ⟨e | a, t⟩ <;> rfl

/-- With a handler: it starts where the part has raised. -/
@[simp] theorem meets_tryCatch {h : ε → Prog ε σ α} :
    Meets (tryCatch m h) s Q E ↔ Meets m s Q fun e t => Meets (h e) t Q E := by
  unfold Meets
  rw [exec_tryCatch]
  rcases exec m s with ⟨e | a, t⟩ <;> rfl

/-! ### What is done however a part ends -/

/-- The outcome of `m` as a value. -/
def attempt (m : Prog ε σ α) : Prog ε σ (Except ε α) :=
  tryCatch (do return .ok (← m)) fun e => pure (.error e)

/-- `m`, and then `f` whether `m` has raised or not. -/
def finallyDo (m : Prog ε σ α) (f : Prog ε σ Unit) : Prog ε σ α := do
  match ← attempt m with
  | .ok a => do
    f
    return a
  | .error e => do
    f
    throw e

@[simp] theorem meets_attempt {R : Except ε α → σ → Prop} : Meets (attempt m) s R E ↔
    Meets m s (fun a => R (.ok a)) (fun e => R (.error e)) := by
  rw [attempt, meets_tryCatch, meets_bind]
  exact Iff.rfl

@[simp] theorem meets_finallyDo {f : Prog ε σ Unit} : Meets (finallyDo m f) s Q E ↔
    Meets m s (fun a t => Meets f t (fun _ => Q a) E)
      (fun e t => Meets f t (fun _ => E e) E) := by
  rw [finallyDo, meets_bind, meets_attempt]
  simp only [meets_bind, meets_pure, meets_throw]

end OneRun
