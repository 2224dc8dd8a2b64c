/-
Programs of atomic actions.

A `Prog` is the tree of everything a piece of sequential code may do: it
returns, raises, or performs one atomic action and continues with the answer.
An action may itself fail, so the continuation receives an `Except`; `call`
re-raises such a failure at the point of the action, `tryCatch` and `tryFinally`
give the two exception constructs of the host language.

* `Prog.eval` — the result under fixed answers;
* `step?` — one atomic action of one program, against a thread-local and a
  shared state, resolved by a `Choice` of the environment;
* `steps` — a whole script of choices, and `visited`, the states in which each
  of its actions struck;
* `Prog.Uses` — every action a program may perform satisfies a predicate, and
  `Prog.UsesUntil`, a predicate that changes with an answer;
* `Prog.Along` — every action of a run, with the choice and the states it meets,
  satisfies a predicate, and `Prog.Assuming`, what a program does under such one;
* `Prog.Propagates` — what an action may raise is handled nowhere.

Nothing here knows what the actions are.
-/
import Mathlib.Logic.Basic
import Mathlib.Data.List.Basic

namespace Concurrency

/-- A program whose actions `o : Op` are answered in `Ans o` or fail with an
`ε`. -/
inductive Prog {Op : Type} (Ans : Op → Type) (ε α : Type) : Type where
  | ret : α → Prog Ans ε α
  | raise : ε → Prog Ans ε α
  | act : (o : Op) → (Except ε (Ans o) → Prog Ans ε α) → Prog Ans ε α

namespace Prog

variable {Op : Type} {Ans : Op → Type} {ε α β γ : Type}

/-- Sequencing: an exception skips the rest. -/
def bind : Prog Ans ε α → (α → Prog Ans ε β) → Prog Ans ε β
  | .ret a, f => f a
  | .raise e, _ => .raise e
  | .act o k, f => .act o fun r => (k r).bind f

instance : Monad (Prog Ans ε) where
  pure := .ret
  bind := bind

/-- Perform one action, re-raising its failure. -/
def call (o : Op) : Prog Ans ε (Ans o) :=
  .act o fun
    | .ok a => .ret a
    | .error e => .raise e

/-- `try: p  except: h`. -/
def tryCatch : Prog Ans ε α → (ε → Prog Ans ε α) → Prog Ans ε α
  | .ret a, _ => .ret a
  | .raise e, h => h e
  | .act o k, h => .act o fun r => (k r).tryCatch h

/-- `try: p  finally: f`. -/
def tryFinally : Prog Ans ε α → Prog Ans ε β → Prog Ans ε α
  | .ret a, f => f.bind fun _ => .ret a
  | .raise e, f => f.bind fun _ => .raise e
  | .act o k, f => .act o fun r => (k r).tryFinally f

@[simp] theorem pure_eq_ret (a : α) : (pure a : Prog Ans ε α) = .ret a := rfl

@[simp] theorem bind_eq_bind (p : Prog Ans ε α) (f : α → Prog Ans ε β) :
    p >>= f = p.bind f := rfl

@[simp] theorem map_eq_bind (f : α → β) (p : Prog Ans ε α) :
    f <$> p = p.bind fun a => .ret (f a) := rfl

@[simp] theorem ret_bind (a : α) (f : α → Prog Ans ε β) : (ret a).bind f = f a := rfl

@[simp] theorem raise_bind (e : ε) (f : α → Prog Ans ε β) :
    (raise e : Prog Ans ε α).bind f = raise e := rfl

@[simp] theorem bind_ret (p : Prog Ans ε α) : p.bind ret = p := by
  induction p with
  | ret a => rfl
  | raise e => rfl
  | act o k ih =>
    simp only [bind]
    congr 1
    funext r
    exact ih r

theorem bind_assoc (p : Prog Ans ε α) (f : α → Prog Ans ε β) (g : β → Prog Ans ε γ) :
    (p.bind f).bind g = p.bind fun a => (f a).bind g := by
  induction p with
  | ret a => rfl
  | raise e => rfl
  | act o k ih =>
    simp only [bind]
    congr 1
    funext r
    exact ih r

/-- How a program has ended, if it has. -/
def result? : Prog Ans ε α → Option (Except ε α)
  | .ret a => some (.ok a)
  | .raise e => some (.error e)
  | .act _ _ => none

/-- The result of a program whose actions are answered as given. -/
def eval (answer : (o : Op) → Except ε (Ans o)) : Prog Ans ε α → Except ε α
  | .ret a => .ok a
  | .raise e => .error e
  | .act o k => (k (answer o)).eval answer

theorem eval_bind (answer : (o : Op) → Except ε (Ans o)) (p : Prog Ans ε α)
    (f : α → Prog Ans ε β) :
    (p.bind f).eval answer = (p.eval answer).bind fun a => (f a).eval answer := by
  induction p with
  | ret a => rfl
  | raise e => rfl
  | act o k ih =>
    show ((k (answer o)).bind f).eval answer = _
    rw [ih]
    rfl

theorem eval_call (answer : (o : Op) → Except ε (Ans o)) (o : Op) :
    (call o : Prog Ans ε (Ans o)).eval answer = answer o := by
  show (match answer o with
    | .ok a => ret a
    | .error e => raise e : Prog Ans ε (Ans o)).eval answer = answer o
  cases answer o with
  | ok a => rfl
  | error e => rfl

/-! ### Execution -/

section Execution

variable {Choice Loc Sh : Type}
variable (perform : (o : Op) → Choice → Loc → Sh → Option (Except ε (Ans o) × Loc × Sh))

/-- One atomic action, resolved by `c`; `none` when the program has ended, the
action is blocked, or `c` does not resolve it. -/
def step? : Prog Ans ε α → Choice → Loc → Sh → Option (Prog Ans ε α × Loc × Sh)
  | .act o k, c, loc, sh => (perform o c loc sh).map fun x => (k x.1, x.2)
  | .ret _, _, _, _ => none
  | .raise _, _, _, _ => none

/-- A script of choices, one action each. -/
def steps : Prog Ans ε α → List Choice → Loc → Sh → Option (Prog Ans ε α × Loc × Sh)
  | p, [], loc, sh => some (p, loc, sh)
  | p, c :: cs, loc, sh =>
    match p.step? perform c loc sh with
    | some (p', loc', sh') => p'.steps cs loc' sh'
    | none => none

/-- A step of a program: the action it performs, with its answer. -/
theorem step?_eq_some {p p' : Prog Ans ε α} {c : Choice} {loc loc' : Loc} {sh sh' : Sh}
    (h : p.step? perform c loc sh = some (p', loc', sh')) :
    ∃ o k r, p = .act o k ∧ perform o c loc sh = some (r, loc', sh') ∧ p' = k r := by
  cases p with
  | ret a => simp [step?] at h
  | raise e => simp [step?] at h
  | act o k =>
    obtain ⟨⟨r, l, s⟩, hp, hx⟩ := Option.map_eq_some_iff.mp h
    simp only [Prod.mk.injEq] at hx
    obtain ⟨rfl, rfl, rfl⟩ := hx
    exact ⟨o, k, r, rfl, hp, rfl⟩

/-- The states in which the actions of a script strike, with their choices. -/
def visited : Prog Ans ε α → List Choice → Loc → Sh → List (Choice × Loc × Sh)
  | _, [], _, _ => []
  | p, c :: cs, loc, sh =>
    (c, loc, sh) ::
      match p.step? perform c loc sh with
      | some (p', loc', sh') => p'.visited cs loc' sh'
      | none => []

/-- The run up to a visited state, the action that strikes there, and the rest. -/
theorem steps_of_mem_visited {p p' : Prog Ans ε α} {cs : List Choice} {loc loc' : Loc} {sh sh' : Sh}
    {x : Choice × Loc × Sh} (hrun : p.steps perform cs loc sh = some (p', loc', sh'))
    (hx : x ∈ p.visited perform cs loc sh) :
    ∃ cs₁ cs₂ p₁ p₂ loc₂ sh₂, p.steps perform cs₁ loc sh = some (p₁, x.2.1, x.2.2) ∧
      p₁.step? perform x.1 x.2.1 x.2.2 = some (p₂, loc₂, sh₂) ∧
      p₂.steps perform cs₂ loc₂ sh₂ = some (p', loc', sh') := by
  induction cs generalizing p loc sh with
  | nil => cases hx
  | cons c cs ih =>
    simp only [steps] at hrun
    split at hrun
    · rename_i p₁ loc₁ sh₁ hs
      simp only [visited, hs, List.mem_cons] at hx
      rcases hx with rfl | hx
      · exact ⟨[], cs, p, p₁, loc₁, sh₁, rfl, hs, hrun⟩
      · obtain ⟨cs₁, cs₂, q, q', loc₂, sh₂, hq, hstep, hrest⟩ := ih hrun hx
        exact ⟨c :: cs₁, cs₂, q, q', loc₂, sh₂, by simp only [steps, hs]; exact hq, hstep, hrest⟩
    · cases hrun

/-- A computed run to a return, with a property decided of the states it visits
and of its end. -/
theorem exists_returns (p : Prog Ans ε Unit) (cs : List Choice) (loc : Loc) (sh : Sh)
    {P : List (Choice × Loc × Sh) → Sh → Prop} [∀ xs sh, Decidable (P xs sh)]
    (h : ((p.steps perform cs loc sh).any fun x =>
      (match x.1 with
        | .ret _ => true
        | _ => false) && decide (P (p.visited perform cs loc sh) x.2.2)) = true) :
    ∃ loc' sh', p.steps perform cs loc sh = some (.ret (), loc', sh') ∧
      P (p.visited perform cs loc sh) sh' := by
  obtain ⟨⟨q, loc', sh'⟩, hx, hq⟩ := (Option.any_eq_true _ _).mp h
  simp only [Bool.and_eq_true, decide_eq_true_eq] at hq
  obtain ⟨hret, hP⟩ := hq
  cases q with
  | ret a => exact ⟨loc', sh', hx, hP⟩
  | raise e => cases hret
  | act o k => cases hret

end Execution

/-! ### The results of a program -/

/-- Every value the program may return, whatever the answers, satisfies `P`. -/
def Yields (P : α → Prop) : Prog Ans ε α → Prop
  | .ret a => P a
  | .raise _ => True
  | .act _ k => ∀ r, (k r).Yields P

theorem Yields.bind {P : α → Prop} {R : β → Prop} {p : Prog Ans ε α} {f : α → Prog Ans ε β}
    (hp : p.Yields P) (hf : ∀ a, P a → (f a).Yields R) : (p.bind f).Yields R := by
  induction p with
  | ret a => exact hf a hp
  | raise e => trivial
  | act o k ih => exact fun r => ih r (hp r)

theorem Yields.mono {P R : α → Prop} {p : Prog Ans ε α} (hp : p.Yields P)
    (h : ∀ a, P a → R a) : p.Yields R := by
  induction p with
  | ret a => exact h a hp
  | raise e => trivial
  | act o k ih => exact fun r => ih r (hp r)

theorem Yields.tryCatch {P : α → Prop} {p : Prog Ans ε α} {h : ε → Prog Ans ε α}
    (hp : p.Yields P) (hh : ∀ e, (h e).Yields P) : (p.tryCatch h).Yields P := by
  induction p with
  | ret a => exact hp
  | raise e => exact hh e
  | act o k ih => exact fun r => ih r (hp r)

theorem yields_true (p : Prog Ans ε α) : p.Yields fun _ => True := by
  induction p with
  | ret a => trivial
  | raise e => trivial
  | act o k ih => exact ih

/-- Two continuations that agree on every possible result. -/
theorem bind_congr {P : α → Prop} {p : Prog Ans ε α} {f g : α → Prog Ans ε β}
    (hp : p.Yields P) (h : ∀ a, P a → f a = g a) : p.bind f = p.bind g := by
  induction p with
  | ret a => exact h a hp
  | raise e => rfl
  | act o k ih =>
    simp only [Prog.bind]
    congr 1
    funext r
    exact ih r (hp r)

/-! ### The actions a program may perform -/

/-- Every action the program may perform, whatever the answers, satisfies
`ok`. -/
def Uses (ok : Op → Prop) : Prog Ans ε α → Prop
  | .ret _ => True
  | .raise _ => True
  | .act o k => ok o ∧ ∀ r, (k r).Uses ok

variable {ok : Op → Prop}

theorem Uses.mono {ok' : Op → Prop} {p : Prog Ans ε α} (hp : p.Uses ok) (h : ∀ o, ok o → ok' o) :
    p.Uses ok' := by
  induction p with
  | ret a => trivial
  | raise e => trivial
  | act o k ih => exact ⟨h o hp.1, fun r => ih r (hp.2 r)⟩

theorem Uses.bind {p : Prog Ans ε α} {f : α → Prog Ans ε β} (hp : p.Uses ok)
    (hf : ∀ a, (f a).Uses ok) : (p.bind f).Uses ok := by
  induction p with
  | ret a => exact hf a
  | raise e => trivial
  | act o k ih => exact ⟨hp.1, fun r => ih r (hp.2 r)⟩

theorem Uses.tryCatch {p : Prog Ans ε α} {h : ε → Prog Ans ε α} (hp : p.Uses ok)
    (hh : ∀ e, (h e).Uses ok) : (p.tryCatch h).Uses ok := by
  induction p with
  | ret a => trivial
  | raise e => exact hh e
  | act o k ih => exact ⟨hp.1, fun r => ih r (hp.2 r)⟩

theorem Uses.tryFinally {p : Prog Ans ε α} {f : Prog Ans ε β} (hp : p.Uses ok)
    (hf : f.Uses ok) : (p.tryFinally f).Uses ok := by
  induction p with
  | ret a => exact hf.bind fun _ => trivial
  | raise e => exact hf.bind fun _ => trivial
  | act o k ih => exact ⟨hp.1, fun r => ih r (hp.2 r)⟩

theorem Uses.call {o : Op} (ho : ok o) : (call o : Prog Ans ε (Ans o)).Uses ok :=
  ⟨ho, fun r => by cases r <;> trivial⟩

/-- Every action satisfies `ok`, or `ok'` once an action has been answered as
`turns` says. -/
def UsesUntil (ok ok' : Op → Prop) (turns : (o : Op) → Except ε (Ans o) → Prop) :
    Prog Ans ε α → Prop
  | .ret _ => True
  | .raise _ => True
  | .act o k => ok o ∧ ∀ r, (turns o r → (k r).Uses ok') ∧
      (¬ turns o r → (k r).UsesUntil ok ok' turns)

section UsesUntil

variable {ok' : Op → Prop} {turns : (o : Op) → Except ε (Ans o) → Prop}

/-- Code before the turn. -/
theorem Uses.until (hok : ∀ o, ok o → ok' o) {p : Prog Ans ε α} (hp : p.Uses ok) :
    p.UsesUntil ok ok' turns := by
  induction p with
  | ret a => trivial
  | raise e => trivial
  | act o k ih => exact ⟨hp.1, fun r => ⟨fun _ => (hp.2 r).mono hok, fun _ => ih r (hp.2 r)⟩⟩

theorem UsesUntil.uses (hok : ∀ o, ok o → ok' o) {p : Prog Ans ε α}
    (hp : p.UsesUntil ok ok' turns) : p.Uses ok' := by
  induction p with
  | ret a => trivial
  | raise e => trivial
  | act o k ih =>
    refine ⟨hok o hp.1, fun r => ?_⟩
    by_cases hr : turns o r
    · exact (hp.2 r).1 hr
    · exact ih r ((hp.2 r).2 hr)

theorem UsesUntil.bind (hok : ∀ o, ok o → ok' o) {p : Prog Ans ε α} {f : α → Prog Ans ε β}
    (hp : p.UsesUntil ok ok' turns) (hf : ∀ a, (f a).UsesUntil ok ok' turns) :
    (p.bind f).UsesUntil ok ok' turns := by
  induction p with
  | ret a => exact hf a
  | raise e => trivial
  | act o k ih =>
    refine ⟨hp.1, fun r => ⟨fun hr => ?_, fun hr => ih r ((hp.2 r).2 hr)⟩⟩
    exact ((hp.2 r).1 hr).bind fun a => (hf a).uses hok

theorem UsesUntil.tryCatch (hok : ∀ o, ok o → ok' o) {p : Prog Ans ε α} {h : ε → Prog Ans ε α}
    (hp : p.UsesUntil ok ok' turns) (hh : ∀ e, (h e).UsesUntil ok ok' turns) :
    (p.tryCatch h).UsesUntil ok ok' turns := by
  induction p with
  | ret a => trivial
  | raise e => exact hh e
  | act o k ih =>
    refine ⟨hp.1, fun r => ⟨fun hr => ?_, fun hr => ih r ((hp.2 r).2 hr)⟩⟩
    exact ((hp.2 r).1 hr).tryCatch fun e => (hh e).uses hok

theorem UsesUntil.tryFinally (hok : ∀ o, ok o → ok' o) {p : Prog Ans ε α} {f : Prog Ans ε β}
    (hp : p.UsesUntil ok ok' turns) (hf : f.UsesUntil ok ok' turns) :
    (p.tryFinally f).UsesUntil ok ok' turns := by
  induction p with
  | ret a => exact hf.bind hok fun _ => trivial
  | raise e => exact hf.bind hok fun _ => trivial
  | act o k ih =>
    refine ⟨hp.1, fun r => ⟨fun hr => ?_, fun hr => ih r ((hp.2 r).2 hr)⟩⟩
    exact ((hp.2 r).1 hr).tryFinally (hf.uses hok)

end UsesUntil

/-! ### Runs that meet a condition -/

section Along

variable {Choice Loc Sh : Type}
variable (perform : (o : Op) → Choice → Loc → Sh → Option (Except ε (Ans o) × Loc × Sh))
variable (good : Op → Choice → Loc → Sh → Prop)

/-- Every action of the run is performed on a good choice, in good states. -/
def Along : Prog Ans ε α → List Choice → Loc → Sh → Prop
  | .act o k, c :: cs, loc, sh => good o c loc sh ∧
    match perform o c loc sh with
    | some (r, loc', sh') => (k r).Along cs loc' sh'
    | none => True
  | _, _, _, _ => True

variable {perform good}

instance decidableAlong [∀ o c loc sh, Decidable (good o c loc sh)] :
    ∀ (p : Prog Ans ε α) (cs : List Choice) (loc : Loc) (sh : Sh),
      Decidable (p.Along perform good cs loc sh)
  | .ret _, _, _, _ => isTrue (by unfold Along; trivial)
  | .raise _, _, _, _ => isTrue (by unfold Along; trivial)
  | .act _ _, [], _, _ => isTrue (by unfold Along; trivial)
  | .act o k, c :: cs, loc, sh =>
    match h : perform o c loc sh with
    | none => decidable_of_iff (good o c loc sh) (by rw [Along, h]; simp)
    | some (r, loc', sh') =>
      have := decidableAlong (k r) cs loc' sh'
      decidable_of_iff (good o c loc sh ∧ (k r).Along perform good cs loc' sh') (by rw [Along, h])

/-- As long as the actions are answered as `ans` says, every action satisfies `ok`, and
the result `Post`. -/
def Assuming (ok : Op → Prop) (ans : (o : Op) → Except ε (Ans o) → Prop)
    (Post : Except ε α → Prop) : Prog Ans ε α → Prop
  | .ret a => Post (.ok a)
  | .raise e => Post (.error e)
  | .act o k => ok o ∧ ∀ r, ans o r → (k r).Assuming ok ans Post

variable {ans : (o : Op) → Except ε (Ans o) → Prop} {Post : Except ε α → Prop}
variable {Post' : Except ε β → Prop}

theorem Assuming.bind {p : Prog Ans ε α} {f : α → Prog Ans ε β} (hp : p.Assuming ok ans Post)
    (hf : ∀ a, Post (.ok a) → (f a).Assuming ok ans Post')
    (he : ∀ e, Post (.error e) → Post' (.error e)) : (p.bind f).Assuming ok ans Post' := by
  induction p with
  | ret a => exact hf a hp
  | raise e => exact he e hp
  | act o k ih => exact ⟨hp.1, fun r hr => ih r (hp.2 r hr)⟩

theorem Assuming.tryCatch {p : Prog Ans ε α} {h : ε → Prog Ans ε α} {Post' : Except ε α → Prop}
    (hp : p.Assuming ok ans Post) (ha : ∀ a, Post (.ok a) → Post' (.ok a))
    (hh : ∀ e, Post (.error e) → (h e).Assuming ok ans Post') :
    (p.tryCatch h).Assuming ok ans Post' := by
  induction p with
  | ret a => exact ha a hp
  | raise e => exact hh e hp
  | act o k ih => exact ⟨hp.1, fun r hr => ih r (hp.2 r hr)⟩

/-- One action, with what is known of its answer. -/
theorem Assuming.await {o : Op} {f : Ans o → Prog Ans ε α} (ho : ok o)
    (hf : ∀ a, ans o (.ok a) → (f a).Assuming ok ans Post) (he : ∀ e, Post (.error e)) :
    ((call o).bind f).Assuming ok ans Post := by
  refine ⟨ho, fun r hr => ?_⟩
  cases r with
  | ok a => exact hf a hr
  | error e => exact he e

theorem Assuming.tryFinally {p : Prog Ans ε α} {f : Prog Ans ε β}
    (hp : p.Assuming ok ans fun _ => True) (hf : f.Assuming ok ans fun _ => True) :
    (p.tryFinally f).Assuming ok ans fun _ => True := by
  induction p with
  | ret a => exact hf.bind (fun _ _ => trivial) fun _ _ => trivial
  | raise e => exact hf.bind (fun _ _ => trivial) fun _ _ => trivial
  | act o k ih => exact ⟨hp.1, fun r hr => ih r (hp.2 r hr)⟩

/-- Fewer answers, and more actions. -/
theorem Assuming.mono {ok' : Op → Prop} {ans' : (o : Op) → Except ε (Ans o) → Prop}
    {p : Prog Ans ε α} (hp : p.Assuming ok ans Post) (hok : ∀ o, ok o → ok' o)
    (hans : ∀ o r, ans' o r → ans o r) : p.Assuming ok' ans' Post := by
  induction p with
  | ret a => exact hp
  | raise e => exact hp
  | act o k ih => exact ⟨hok o hp.1, fun r hr => ih r (hp.2 r (hans o r hr))⟩

/-- What is known of the actions whatever the answers. -/
theorem Assuming.and {ok' : Op → Prop} {p : Prog Ans ε α} (hp : p.Assuming ok ans Post)
    (hp' : p.Uses ok') : p.Assuming (fun o => ok o ∧ ok' o) ans Post := by
  induction p with
  | ret a => exact hp
  | raise e => exact hp
  | act o k ih => exact ⟨⟨hp.1, hp'.1⟩, fun r hr => ih r (hp.2 r hr) (hp'.2 r)⟩

theorem Uses.assuming {p : Prog Ans ε α} (hp : p.Uses ok) :
    p.Assuming ok ans fun _ => True := by
  induction p with
  | ret a => trivial
  | raise e => trivial
  | act o k ih => exact ⟨hp.1, fun r _ => ih r (hp.2 r)⟩

/-- An invariant of the runs that meet the condition. -/
theorem Assuming.steps {Inv : Loc → Sh → Prop} {p p' : Prog Ans ε α} {cs : List Choice}
    {loc loc' : Loc} {sh sh' : Sh} (hp : p.Assuming ok ans Post)
    (hstep : ∀ {o c loc sh r loc' sh'}, Inv loc sh → ok o → good o c loc sh →
      perform o c loc sh = some (r, loc', sh') → Inv loc' sh' ∧ ans o r)
    (hgood : p.Along perform good cs loc sh) (hinv : Inv loc sh)
    (hr : p.steps perform cs loc sh = some (p', loc', sh')) : Inv loc' sh' := by
  induction cs generalizing p loc sh with
  | nil =>
    cases hr
    exact hinv
  | cons c cs ih =>
    simp only [Prog.steps] at hr
    split at hr
    · rename_i p₁ loc₁ sh₁ hstep₁
      obtain ⟨o, k, r, rfl, hperform, rfl⟩ := step?_eq_some _ hstep₁
      rw [Along, hperform] at hgood
      obtain ⟨hinv₁, hans⟩ := hstep hinv hp.1 hgood.1 hperform
      exact ih (hp.2 r hans) hgood.2 hinv₁ hr
    · cases hr

end Along

/-! ### Exceptions that end a program -/

/-- An exception in `E` of an action ends the program: nothing handles it. -/
def Propagates (E : ε → Prop) : Prog Ans ε α → Prop
  | .ret _ => True
  | .raise _ => True
  | .act _ k => (∀ e, E e → k (.error e) = .raise e) ∧ ∀ r, (k r).Propagates E

variable {E : ε → Prop}

theorem Propagates.bind {p : Prog Ans ε α} {f : α → Prog Ans ε β} (hp : p.Propagates E)
    (hf : ∀ a, (f a).Propagates E) : (p.bind f).Propagates E := by
  induction p with
  | ret a => exact hf a
  | raise e => trivial
  | act o k ih =>
    refine ⟨fun e he => ?_, fun r => ih r (hp.2 r)⟩
    show (k (.error e)).bind f = .raise e
    rw [hp.1 e he, raise_bind]

/-- A handler that raises such an exception again. -/
theorem Propagates.tryCatch {p : Prog Ans ε α} {h : ε → Prog Ans ε α} (hp : p.Propagates E)
    (hraise : ∀ e, E e → h e = .raise e) (hh : ∀ e, (h e).Propagates E) :
    (p.tryCatch h).Propagates E := by
  induction p with
  | ret a => trivial
  | raise e => exact hh e
  | act o k ih =>
    refine ⟨fun e he => ?_, fun r => ih r (hp.2 r)⟩
    show (k (.error e)).tryCatch h = .raise e
    rw [hp.1 e he]
    exact hraise e he

theorem Propagates.call {o : Op} : (call o : Prog Ans ε (Ans o)).Propagates E :=
  ⟨fun _ _ => rfl, fun r => by cases r <;> trivial⟩

end Prog

end Concurrency
