/-
Protocols: what a program does, seen as moves between phases.

A protocol gives each thread a *phase* and says, by the relation
`Move ph s o r ph'`, which actions `o` it may perform in phase `ph` when the
abstract part of its local state is `s`, and to which phase the answer `r`
takes it.  `Conforms Q p ph s` is the statement that the program `p`, started
in `ph`, only makes such moves and ends with `Q`.

* `Conforms.bind`, `Conforms.tryCatch`, `Conforms.tryFinally` — one rule for
  each construct, so that a function of the source has one lemma;
* `Conforms.invariant_steps` — along a run of a conforming program, whatever
  every move preserves holds in every state;
* `Conforms.of_steps` — the phase and the postcondition at the end of a run.

The interleaved version, for any number of threads, is in `Pool`.
-/
import GraphPilot.Concurrency.Program

namespace Concurrency

variable {Op Ph A α β : Type} {Ans : Op → Type} {ε : Type}

/-- The abstract effect of an action on the local state, with its answer:
`Eff s o r s'`. -/
abbrev Effect (Ans : Op → Type) (ε A : Type) : Type :=
  A → (o : Op) → Except ε (Ans o) → A → Prop

/-- The moves of a protocol: `Move ph s o r ph'`. -/
abbrev Moves (Ans : Op → Type) (ε Ph A : Type) : Type :=
  Ph → A → (o : Op) → Except ε (Ans o) → Ph → Prop

/-- From phase `ph` and abstract local state `s`, the program only makes moves
of the protocol, and ends in a result, phase and state satisfying `Q`. -/
def Conforms (Eff : Effect Ans ε A) (Move : Moves Ans ε Ph A)
    (Q : Except ε α → Ph → A → Prop) : Prog Ans ε α → Ph → A → Prop
  | .ret a, ph, s => Q (.ok a) ph s
  | .raise e, ph, s => Q (.error e) ph s
  | .act o k, ph, s =>
    ∀ r s', Eff s o r s' → ∃ ph', Move ph s o r ph' ∧ Conforms Eff Move Q (k r) ph' s'

namespace Conforms

variable {Eff : Effect Ans ε A} {Move : Moves Ans ε Ph A}
variable {Q Q' : Except ε α → Ph → A → Prop} {ph : Ph} {s : A}

theorem mono {p : Prog Ans ε α} (h : Conforms Eff Move Q p ph s)
    (hQ : ∀ r ph s, Q r ph s → Q' r ph s) : Conforms Eff Move Q' p ph s := by
  induction p generalizing ph s with
  | ret a => exact hQ _ _ _ h
  | raise e => exact hQ _ _ _ h
  | act o k ih =>
    intro r s' he
    obtain ⟨ph', hm, hk⟩ := h r s' he
    exact ⟨ph', hm, ih r hk⟩

/-- What the results of a program are known to be, added to its
postcondition. -/
theorem yields {P : α → Prop} {p : Prog Ans ε α} (h : Conforms Eff Move Q p ph s)
    (hp : p.Yields P) :
    Conforms Eff Move (fun r ph s => Q r ph s ∧ ∀ a, r = .ok a → P a) p ph s := by
  induction p generalizing ph s with
  | ret a => exact ⟨h, fun b hb => by cases hb; exact hp⟩
  | raise e => exact ⟨h, fun b hb => by cases hb⟩
  | act o k ih =>
    intro r s' he
    obtain ⟨ph', hm, hk⟩ := h r s' he
    exact ⟨ph', hm, ih r hk (hp r)⟩

/-- The postcondition that lets `f` take over: on a value `f` conforms, an
exception passes through. -/
def Andthen (Eff : Effect Ans ε A) (Move : Moves Ans ε Ph A)
    (Q : Except ε β → Ph → A → Prop) (f : α → Prog Ans ε β) :
    Except ε α → Ph → A → Prop
  | .ok a, ph, s => Conforms Eff Move Q (f a) ph s
  | .error e, ph, s => Q (.error e) ph s

theorem bind {p : Prog Ans ε α} {f : α → Prog Ans ε β} {Q : Except ε β → Ph → A → Prop}
    (h : Conforms Eff Move (Andthen Eff Move Q f) p ph s) :
    Conforms Eff Move Q (p.bind f) ph s := by
  induction p generalizing ph s with
  | ret a => exact h
  | raise e => exact h
  | act o k ih =>
    intro r s' he
    obtain ⟨ph', hm, hk⟩ := h r s' he
    exact ⟨ph', hm, ih r hk⟩

/-- The postcondition of the body of a `try` with handler `f`. -/
def Orelse (Eff : Effect Ans ε A) (Move : Moves Ans ε Ph A)
    (Q : Except ε α → Ph → A → Prop) (f : ε → Prog Ans ε α) :
    Except ε α → Ph → A → Prop
  | .ok a, ph, s => Q (.ok a) ph s
  | .error e, ph, s => Conforms Eff Move Q (f e) ph s

theorem tryCatch {p : Prog Ans ε α} {f : ε → Prog Ans ε α}
    (h : Conforms Eff Move (Orelse Eff Move Q f) p ph s) :
    Conforms Eff Move Q (p.tryCatch f) ph s := by
  induction p generalizing ph s with
  | ret a => exact h
  | raise e => exact h
  | act o k ih =>
    intro r s' he
    obtain ⟨ph', hm, hk⟩ := h r s' he
    exact ⟨ph', hm, ih r hk⟩

theorem tryFinally {p : Prog Ans ε α} {f : Prog Ans ε β}
    (h : Conforms Eff Move (fun r ph s => Conforms Eff Move
      (Andthen Eff Move Q fun _ => match r with
        | .ok a => .ret a
        | .error e => .raise e) f ph s) p ph s) :
    Conforms Eff Move Q (p.tryFinally f) ph s := by
  induction p generalizing ph s with
  | ret a => exact bind h
  | raise e => exact bind h
  | act o k ih =>
    intro r s' he
    obtain ⟨ph', hm, hk⟩ := h r s' he
    exact ⟨ph', hm, ih r hk⟩

theorem call {o : Op} {Q : Except ε (Ans o) → Ph → A → Prop}
    (h : ∀ r s', Eff s o r s' → ∃ ph', Move ph s o r ph' ∧ Q r ph' s') :
    Conforms Eff Move Q (Prog.call o) ph s := by
  intro r s' he
  obtain ⟨ph', hm, hq⟩ := h r s' he
  refine ⟨ph', hm, ?_⟩
  cases r with
  | ok a => exact hq
  | error e => exact hq

end Conforms

end Concurrency
