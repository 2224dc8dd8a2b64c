/-
One call, whatever the others do.

`among perform allowed` is one action of a call among others: it finds the shared
state that they have left, any state at all, and what is kept is the trace of the
actions of the call itself, with their answers.  So a statement about all runs of
`among` is one about all interleavings with any other calls.  The condition
`allowed` is on what an action finds.

* `steps_among` — a run alone is one of them;
* `Prog.Gives` — the traces that a program can leave, with its results;
* `Alone.traced`, `gives_of_steps` — the part of the trace that a program has left.

`besides perform key` is the same where the others leave alone what `key` shows of
the shared state.  `steps_besides` splits what is to be said of such a run: its trace
is one that the program gives, and the answers in it are those of an abstract server
that only knows what `key` shows (`Plays`).
-/
import GraphPilot.Concurrency.Alone

namespace Concurrency

variable {Op Choice Loc Sh : Type} {Ans : Op → Type} {ε α β : Type}

/-- Actions, with what they were answered. -/
abbrev Trace {Op : Type} (Ans : Op → Type) (ε : Type) : Type := List ((o : Op) × Except ε (Ans o))

/-- What a program does when it is answered so, up to its result. -/
def Prog.Gives : Prog Ans ε α → Trace Ans ε → Except ε α → Prop
  | .ret a, tr, r => tr = [] ∧ r = .ok a
  | .raise e, tr, r => tr = [] ∧ r = .error e
  | .act o k, tr, r => ∃ x tr', tr = ⟨o, x⟩ :: tr' ∧ (k x).Gives tr' r

namespace Prog

variable {p : Prog Ans ε α} {tr : Trace Ans ε} {r : Except ε α}

theorem gives_ok_bind {f : α → Prog Ans ε β} {b : β} : (p.bind f).Gives tr (.ok b) ↔
    ∃ a tr₁ tr₂, tr = tr₁ ++ tr₂ ∧ p.Gives tr₁ (.ok a) ∧ (f a).Gives tr₂ (.ok b) := by
  induction p generalizing tr with
  | ret a =>
    constructor
    · intro h
      exact ⟨a, [], tr, rfl, ⟨rfl, rfl⟩, h⟩
    · rintro ⟨a', tr₁, tr₂, rfl, ⟨rfl, heq⟩, h⟩
      cases heq
      exact h
  | raise e =>
    constructor
    · rintro ⟨-, heq⟩
      cases heq
    · rintro ⟨a', tr₁, tr₂, rfl, ⟨-, heq⟩, -⟩
      cases heq
  | act o k ih =>
    constructor
    · rintro ⟨x, tr', rfl, h⟩
      obtain ⟨a, tr₁, tr₂, rfl, h₁, h₂⟩ := (ih x).mp h
      exact ⟨a, _, tr₂, rfl, ⟨x, tr₁, rfl, h₁⟩, h₂⟩
    · rintro ⟨a, tr₁, tr₂, rfl, ⟨x, tr', rfl, h₁⟩, h₂⟩
      exact ⟨x, tr' ++ tr₂, rfl, (ih x).mpr ⟨a, tr', tr₂, rfl, h₁, h₂⟩⟩

theorem gives_error_bind {f : α → Prog Ans ε β} {e : ε} : (p.bind f).Gives tr (.error e) ↔
    p.Gives tr (.error e) ∨
      ∃ a tr₁ tr₂, tr = tr₁ ++ tr₂ ∧ p.Gives tr₁ (.ok a) ∧ (f a).Gives tr₂ (.error e) := by
  induction p generalizing tr with
  | ret a =>
    constructor
    · intro h
      exact .inr ⟨a, [], tr, rfl, ⟨rfl, rfl⟩, h⟩
    · rintro (⟨-, heq⟩ | ⟨a', tr₁, tr₂, rfl, ⟨rfl, heq⟩, h⟩)
      · cases heq
      · cases heq
        exact h
  | raise e' =>
    constructor
    · rintro ⟨rfl, heq⟩
      cases heq
      exact .inl ⟨rfl, rfl⟩
    · rintro (⟨rfl, heq⟩ | ⟨a', tr₁, tr₂, rfl, ⟨-, heq⟩, -⟩)
      · cases heq
        exact ⟨rfl, rfl⟩
      · cases heq
  | act o k ih =>
    constructor
    · rintro ⟨x, tr', rfl, h⟩
      rcases (ih x).mp h with h | ⟨a, tr₁, tr₂, rfl, h₁, h₂⟩
      · exact .inl ⟨x, tr', rfl, h⟩
      · exact .inr ⟨a, _, tr₂, rfl, ⟨x, tr₁, rfl, h₁⟩, h₂⟩
    · rintro (⟨x, tr', rfl, h⟩ | ⟨a, tr₁, tr₂, rfl, ⟨x, tr', rfl, h₁⟩, h₂⟩)
      · exact ⟨x, tr', rfl, (ih x).mpr (.inl h)⟩
      · exact ⟨x, tr' ++ tr₂, rfl, (ih x).mpr (.inr ⟨a, tr', tr₂, rfl, h₁, h₂⟩)⟩

/-- The first part returns, or it raises. -/
theorem gives_bind {f : α → Prog Ans ε β} {r : Except ε β} (h : (p.bind f).Gives tr r) :
    (∃ a tr₁ tr₂, tr = tr₁ ++ tr₂ ∧ p.Gives tr₁ (.ok a) ∧ (f a).Gives tr₂ r) ∨
      ∃ e, r = .error e ∧ p.Gives tr (.error e) := by
  cases r with
  | ok b => exact .inl (gives_ok_bind.mp h)
  | error e =>
    rcases gives_error_bind.mp h with h | h
    · exact .inr ⟨e, rfl, h⟩
    · exact .inl h

theorem gives_call {o : Op} {x : Except ε (Ans o)} :
    (call o : Prog Ans ε (Ans o)).Gives tr x ↔ tr = [⟨o, x⟩] := by
  constructor
  · rintro ⟨y, tr', rfl, h⟩
    cases y with
    | ok a =>
      obtain ⟨rfl, rfl⟩ := h
      rfl
    | error e =>
      obtain ⟨rfl, rfl⟩ := h
      rfl
  · rintro rfl
    refine ⟨x, [], rfl, ?_⟩
    cases x <;> exact ⟨rfl, rfl⟩

/-- The first action of a program that goes on. -/
theorem gives_ok_call {o : Op} {f : Ans o → Prog Ans ε β} {b : β} :
    ((call o).bind f).Gives tr (.ok b) ↔
      ∃ a tr', tr = ⟨o, .ok a⟩ :: tr' ∧ (f a).Gives tr' (.ok b) := by
  rw [gives_ok_bind]
  constructor
  · rintro ⟨a, tr₁, tr₂, rfl, h₁, h₂⟩
    rw [gives_call.mp h₁]
    exact ⟨a, tr₂, rfl, h₂⟩
  · rintro ⟨a, tr', rfl, h⟩
    exact ⟨a, [⟨o, .ok a⟩], tr', rfl, gives_call.mpr rfl, h⟩

/-- What is caught, and what the handler does. -/
theorem gives_tryCatch {h : ε → Prog Ans ε α} : (p.tryCatch h).Gives tr r ↔
    (∃ a, r = .ok a ∧ p.Gives tr (.ok a)) ∨
      ∃ e tr₁ tr₂, tr = tr₁ ++ tr₂ ∧ p.Gives tr₁ (.error e) ∧ (h e).Gives tr₂ r := by
  induction p generalizing tr with
  | ret a =>
    constructor
    · rintro ⟨rfl, rfl⟩
      exact .inl ⟨a, rfl, rfl, rfl⟩
    · rintro (⟨a', rfl, rfl, heq⟩ | ⟨e, tr₁, tr₂, rfl, ⟨-, heq⟩, -⟩)
      · cases heq
        exact ⟨rfl, rfl⟩
      · cases heq
  | raise e =>
    constructor
    · intro hgives
      exact .inr ⟨e, [], tr, rfl, ⟨rfl, rfl⟩, hgives⟩
    · rintro (⟨a', -, -, heq⟩ | ⟨e', tr₁, tr₂, rfl, ⟨rfl, heq⟩, hgives⟩)
      · cases heq
      · cases heq
        exact hgives
  | act o k ih =>
    constructor
    · rintro ⟨x, tr', rfl, hgives⟩
      rcases (ih x).mp hgives with ⟨a, rfl, h₁⟩ | ⟨e, tr₁, tr₂, rfl, h₁, h₂⟩
      · exact .inl ⟨a, rfl, x, tr', rfl, h₁⟩
      · exact .inr ⟨e, _, tr₂, rfl, ⟨x, tr₁, rfl, h₁⟩, h₂⟩
    · rintro (⟨a, rfl, x, tr', rfl, h₁⟩ | ⟨e, tr₁, tr₂, rfl, ⟨x, tr', rfl, h₁⟩, h₂⟩)
      · exact ⟨x, tr', rfl, (ih x).mpr (.inl ⟨a, rfl, h₁⟩)⟩
      · exact ⟨x, tr' ++ tr₂, rfl, (ih x).mpr (.inr ⟨e, tr', tr₂, rfl, h₁, h₂⟩)⟩

/-- The body, and what is done in any case. -/
theorem gives_tryFinally {f : Prog Ans ε β} (h : (p.tryFinally f).Gives tr r) :
    ∃ r₁ r₂ tr₁ tr₂, tr = tr₁ ++ tr₂ ∧ p.Gives tr₁ r₁ ∧ f.Gives tr₂ r₂ ∧
      ∀ b, r₂ = .ok b → r = r₁ := by
  induction p generalizing tr with
  | ret a =>
    cases r with
    | ok b =>
      obtain ⟨c, tr₁, tr₂, rfl, h₁, rfl, heq⟩ := gives_ok_bind.mp h
      cases heq
      exact ⟨_, .ok c, [], tr₁, List.append_nil _, ⟨rfl, rfl⟩, h₁, fun _ _ => rfl⟩
    | error e =>
      rcases gives_error_bind.mp h with h₁ | ⟨c, tr₁, tr₂, rfl, -, -, heq⟩
      · exact ⟨.ok a, .error e, [], tr, rfl, ⟨rfl, rfl⟩, h₁, nofun⟩
      · cases heq
  | raise e =>
    cases r with
    | ok b =>
      obtain ⟨c, tr₁, tr₂, rfl, h₁, -, heq⟩ := gives_ok_bind.mp h
      cases heq
    | error e' =>
      rcases gives_error_bind.mp h with h₁ | ⟨c, tr₁, tr₂, rfl, h₁, rfl, heq⟩
      · exact ⟨.error e, .error e', [], tr, rfl, ⟨rfl, rfl⟩, h₁, nofun⟩
      · cases heq
        exact ⟨.error e, .ok c, [], tr₁, List.append_nil _, ⟨rfl, rfl⟩, h₁, fun _ _ => rfl⟩
  | act o k ih =>
    obtain ⟨x, tr', rfl, hgives⟩ := h
    obtain ⟨r₁, r₂, tr₁, tr₂, rfl, h₁, h₂, hr⟩ := ih x hgives
    exact ⟨r₁, r₂, ⟨o, x⟩ :: tr₁, tr₂, rfl, ⟨x, tr₁, rfl, h₁⟩, h₂, hr⟩

/-- What a program may return. -/
theorem Yields.of_gives {P : α → Prop} {a : α} (hp : p.Yields P) (h : p.Gives tr (.ok a)) : P a := by
  induction p generalizing tr with
  | ret b =>
    obtain ⟨-, heq⟩ := h
    cases heq
    exact hp
  | raise e =>
    obtain ⟨-, heq⟩ := h
    cases heq
  | act o k ih =>
    obtain ⟨x, tr', -, h⟩ := h
    exact ih x (hp x) h

/-- What a program may have done. -/
theorem Uses.of_gives {ok : Op → Prop} (hp : p.Uses ok) (h : p.Gives tr r) : ∀ x ∈ tr, ok x.1 := by
  induction p generalizing tr with
  | ret a =>
    obtain ⟨rfl, -⟩ := h
    exact nofun
  | raise e =>
    obtain ⟨rfl, -⟩ := h
    exact nofun
  | act o k ih =>
    obtain ⟨x, tr', rfl, h⟩ := h
    intro y hy
    rcases List.mem_cons.mp hy with rfl | hy
    · exact hp.1
    · exact ih x (hp.2 x) h y hy

/-- The program raises only where one of the actions `raises` does. -/
def Safe (raises : Op → Bool) : Prog Ans ε α → Prop
  | .ret _ => True
  | .raise _ => False
  | .act o k => raises o = false ∧ ∀ a, (k (.ok a)).Safe raises

variable {raises : Op → Bool}

theorem Safe.bind {f : α → Prog Ans ε β} (hp : p.Safe raises) (hf : ∀ a, (f a).Safe raises) :
    (p.bind f).Safe raises := by
  induction p with
  | ret a => exact hf a
  | raise e => exact hp.elim
  | act o k ih => exact ⟨hp.1, fun a => ih (.ok a) (hp.2 a)⟩

theorem Safe.call {o : Op} (ho : raises o = false) :
    (call o : Prog Ans ε (Ans o)).Safe raises := ⟨ho, fun _ => trivial⟩

/-- Only the actions `raises` have raised. -/
def Raised (raises : Op → Bool) (tr : Trace Ans ε) : Prop :=
  ∀ o e, (⟨o, .error e⟩ : (o : Op) × Except ε (Ans o)) ∈ tr → raises o = true

theorem Raised.tail {x : (o : Op) × Except ε (Ans o)} (h : Raised raises (x :: tr)) :
    Raised raises tr := fun o e hmem => h o e (List.mem_cons_of_mem _ hmem)

theorem Raised.left {tr' : Trace Ans ε} (h : Raised raises (tr ++ tr')) : Raised raises tr :=
  fun o e hmem => h o e (List.mem_append_left _ hmem)

theorem Raised.right {tr' : Trace Ans ε} (h : Raised raises (tr ++ tr')) : Raised raises tr' :=
  fun o e hmem => h o e (List.mem_append_right _ hmem)

theorem Safe.not_error {e : ε} (hp : p.Safe raises) (htr : Raised raises tr) :
    ¬ p.Gives tr (.error e) := by
  induction p generalizing tr with
  | ret a =>
    rintro ⟨-, heq⟩
    cases heq
  | raise e' => exact hp.elim
  | act o k ih =>
    rintro ⟨x, tr', rfl, h⟩
    cases x with
    | ok a => exact ih (.ok a) (hp.2 a) (fun o e he => htr o e (List.mem_cons_of_mem _ he)) h
    | error e' =>
      have ho := htr o e' List.mem_cons_self
      rw [hp.1] at ho
      cases ho

/-- Nothing of the first part is caught. -/
theorem Safe.gives_error_bind {f : α → Prog Ans ε β} {e : ε} (hp : p.Safe raises)
    (htr : Raised raises tr) (h : (p.bind f).Gives tr (.error e)) :
    ∃ a tr₁ tr₂, tr = tr₁ ++ tr₂ ∧ p.Gives tr₁ (.ok a) ∧ (f a).Gives tr₂ (.error e) :=
  (Prog.gives_error_bind.mp h).resolve_left (hp.not_error htr)

/-- The first action of a program that raises later. -/
theorem gives_error_call {o : Op} {f : Ans o → Prog Ans ε β} {e : ε} (ho : raises o = false)
    (htr : Raised raises tr) (h : ((call o).bind f).Gives tr (.error e)) :
    ∃ a tr', tr = ⟨o, .ok a⟩ :: tr' ∧ (f a).Gives tr' (.error e) := by
  obtain ⟨a, tr₁, tr₂, rfl, h₁, h₂⟩ := (Safe.call ho).gives_error_bind htr h
  rw [gives_call.mp h₁]
  exact ⟨a, tr₂, rfl, h₂⟩

end Prog

variable (perform : (o : Op) → Choice → Loc → Sh → Option (Except ε (Ans o) × Loc × Sh))
variable (allowed : Op → Choice × Sh → Loc → Trace Ans ε → Bool)

/-- One action, in the shared state that the others have left. -/
def among (o : Op) (c : Choice × Sh) (loc : Loc) (tr : Trace Ans ε) :
    Option (Except ε (Ans o) × Loc × Trace Ans ε) :=
  if allowed o c loc tr then
    (perform o c.1 loc c.2).map fun x => (x.1, x.2.1, tr ++ [⟨o, x.1⟩])
  else none

/-- What a run finds, with what the environment chose. -/
def Prog.found (p : Prog Ans ε α) (cs : List Choice) (loc : Loc) (sh : Sh) : List (Choice × Sh) :=
  (p.visited perform cs loc sh).map fun x => (x.1, x.2.2)

variable {perform allowed} {loc loc' : Loc} {tr tr' : Trace Ans ε}

/-- Every run comes to an end, or to an action that the environment does not let
happen.  By induction on the program. -/
theorem Prog.steps_end (p : Prog Ans ε α) (env : ℕ → Choice) (loc : Loc) (sh : Sh) :
    ∃ n, p.steps perform ((List.range n).map env) loc sh = none := by
  induction p generalizing env loc sh with
  | ret a => exact ⟨1, rfl⟩
  | raise e => exact ⟨1, rfl⟩
  | act o k ih =>
    cases hperf : perform o (env 0) loc sh with
    | none =>
      refine ⟨1, ?_⟩
      show ((Prog.act o k).steps perform [env 0] loc sh) = none
      simp only [steps, step?, hperf, Option.map_none]
    | some x =>
      obtain ⟨r, loc', sh'⟩ := x
      obtain ⟨n, hn⟩ := ih r (fun i => env (i + 1)) loc' sh'
      refine ⟨n + 1, ?_⟩
      rw [List.range_succ_eq_map, List.map_cons, List.map_map]
      simp only [steps, step?, hperf, Option.map_some]
      exact hn

/-- What is left of a program performs no other actions. -/
theorem Prog.Uses.steps {ok : Op → Prop} {p p' : Prog Ans ε α} {cs : List Choice} {sh sh' : Sh}
    (hp : p.Uses ok) (h : p.steps perform cs loc sh = some (p', loc', sh')) : p'.Uses ok := by
  induction cs generalizing p loc sh with
  | nil =>
    cases h
    exact hp
  | cons c cs ih =>
    simp only [Prog.steps] at h
    split at h
    · rename_i p₁ loc₁ sh₁ hs
      obtain ⟨o, k, r, rfl, -, rfl⟩ := Prog.step?_eq_some _ hs
      exact ih (hp.2 r) h
    · cases h

theorem among_eq_some {o : Op} {c : Choice × Sh} {r : Except ε (Ans o)}
    (h : among perform allowed o c loc tr = some (r, loc', tr')) :
    allowed o c loc tr = true ∧ (∃ sh', perform o c.1 loc c.2 = some (r, loc', sh')) ∧
      tr' = tr ++ [⟨o, r⟩] := by
  unfold among at h
  split at h
  · rename_i hallowed
    obtain ⟨⟨r₀, loc₀, sh₀⟩, hp, heq⟩ := Option.map_eq_some_iff.mp h
    simp only [Prod.mk.injEq] at heq
    obtain ⟨rfl, rfl, rfl⟩ := heq
    exact ⟨hallowed, ⟨sh₀, hp⟩, rfl⟩
  · cases h

/-- A run alone, as one among others. -/
theorem steps_among {p p' : Prog Ans ε α} {cs : List Choice} {sh sh' : Sh} (tr : Trace Ans ε)
    (h : p.steps perform cs loc sh = some (p', loc', sh')) :
    ∃ tr', p.steps (among perform fun _ _ _ _ => true) (p.found perform cs loc sh) loc tr =
      some (p', loc', tr') := by
  induction cs generalizing p loc sh tr with
  | nil =>
    cases h
    exact ⟨tr, rfl⟩
  | cons c cs ih =>
    simp only [Prog.steps] at h
    split at h
    · rename_i p₁ loc₁ sh₁ hs
      obtain ⟨o, k, r, rfl, hp, rfl⟩ := Prog.step?_eq_some _ hs
      obtain ⟨tr', htr⟩ := ih (tr ++ [⟨o, r⟩]) h
      refine ⟨tr', ?_⟩
      simpa [Prog.found, Prog.visited, hs, Prog.steps, Prog.step?, among, hp] using htr
    · cases h

/-- What a call has done among the others, and that a result is one of the program. -/
theorem gives_of_steps {p p' : Prog Ans ε α} {cs : List (Choice × Sh)}
    (h : p.steps (among perform allowed) cs loc tr = some (p', loc', tr')) :
    ∃ own, tr' = tr ++ own ∧ ∀ r, p'.result? = some r → p.Gives own r := by
  induction cs generalizing p loc tr with
  | nil =>
    cases h
    refine ⟨[], (List.append_nil _).symm, fun r hr => ?_⟩
    cases p' with
    | ret b =>
      cases hr
      exact ⟨rfl, rfl⟩
    | raise e =>
      cases hr
      exact ⟨rfl, rfl⟩
    | act o k => cases hr
  | cons c cs ih =>
    simp only [Prog.steps] at h
    split at h
    · rename_i p₁ loc₁ tr₁ hs
      obtain ⟨o, k, r, rfl, hperf, rfl⟩ := Prog.step?_eq_some _ hs
      obtain ⟨-, -, rfl⟩ := among_eq_some hperf
      obtain ⟨own, heq, hgives⟩ := ih h
      refine ⟨⟨o, r⟩ :: own, ?_, fun r' hr' => ⟨r, own, rfl, hgives r' hr'⟩⟩
      rw [heq, List.append_assoc, List.singleton_append]
    · cases h

/-- Every answer of such a run has been given in a shared state that it found. -/
theorem answered_of_steps {p p' : Prog Ans ε α} {cs : List (Choice × Sh)}
    {x : (o : Op) × Except ε (Ans o)}
    (h : p.steps (among perform allowed) cs loc tr = some (p', loc', tr')) (hx : x ∈ tr') :
    x ∈ tr ∨ ∃ c ∈ cs, ∃ loc₁ loc₂ sh, perform x.1 c.1 loc₁ c.2 = some (x.2, loc₂, sh) := by
  induction cs generalizing p loc tr with
  | nil =>
    cases h
    exact .inl hx
  | cons c cs ih =>
    simp only [Prog.steps] at h
    split at h
    · rename_i p₁ loc₁ tr₁ hs
      obtain ⟨o, k, r, rfl, hperf, rfl⟩ := Prog.step?_eq_some _ hs
      obtain ⟨-, ⟨sh, hp⟩, rfl⟩ := among_eq_some hperf
      rcases ih h with hmem | ⟨c', hc', hanswered⟩
      · rcases List.mem_append.mp hmem with hmem | hmem
        · exact .inl hmem
        · rw [List.mem_singleton.mp hmem]
          exact .inr ⟨c, List.mem_cons_self, loc, loc₁, sh, hp⟩
      · exact .inr ⟨c', List.mem_cons_of_mem _ hc', hanswered⟩
    · cases h

namespace Alone

variable {Mid : Loc → Trace Ans ε → Prop} {Q : Except ε α → Loc → Trace Ans ε → Prop}
variable {p : Prog Ans ε α}

/-- The actions of a program are the end of the trace. -/
theorem traced (h : Alone (among perform allowed) Mid Q p loc tr) :
    Alone (among perform allowed) Mid
      (fun r loc' tr' => Q r loc' tr' ∧ ∃ own, tr' = tr ++ own ∧ p.Gives own r) p loc tr := by
  induction p generalizing loc tr with
  | ret a => exact ⟨h, [], (List.append_nil _).symm, rfl, rfl⟩
  | raise e => exact ⟨h, [], (List.append_nil _).symm, rfl, rfl⟩
  | act o k ih =>
    refine ⟨h.1, fun c x loc₁ tr₁ hp => ?_⟩
    refine (ih x (h.2 c x loc₁ tr₁ hp)).mono ?_
    rintro r loc' tr' ⟨hQ, own, rfl, hgives⟩
    obtain ⟨-, -, rfl⟩ := among_eq_some hp
    exact ⟨hQ, ⟨o, x⟩ :: own, List.append_assoc _ _ _, x, own, rfl, hgives⟩

end Alone

/-! ### Where the others leave something alone -/

section Besides

variable {K A : Type} [DecidableEq K] (key : Sh → K)

variable (perform) in
/-- One action, in a shared state that shows the same `key` as before. -/
def besides (o : Op) (c : Choice × Sh) (loc : Loc) (x : K × Trace Ans ε) :
    Option (Except ε (Ans o) × Loc × K × Trace Ans ε) :=
  if key c.2 = x.1 then
    (perform o c.1 loc c.2).map fun y => (y.1, y.2.1, key y.2.2, x.2 ++ [⟨o, y.1⟩])
  else none

variable {key}

theorem besides_eq_some {o : Op} {c : Choice × Sh} {r : Except ε (Ans o)} {x x' : K × Trace Ans ε}
    (h : besides perform key o c loc x = some (r, loc', x')) :
    key c.2 = x.1 ∧ (∃ sh', perform o c.1 loc c.2 = some (r, loc', sh') ∧ x'.1 = key sh') ∧
      x'.2 = x.2 ++ [⟨o, r⟩] := by
  unfold besides at h
  split at h
  · rename_i hkey
    obtain ⟨⟨r₀, loc₀, sh₀⟩, hp, heq⟩ := Option.map_eq_some_iff.mp h
    simp only [Prod.mk.injEq] at heq
    obtain ⟨rfl, rfl, rfl⟩ := heq
    exact ⟨hkey, ⟨sh₀, hp, rfl⟩, rfl⟩
  · cases h

variable (key) in
/-- A run alone, as one where the others do nothing. -/
theorem steps_besides_alone {p p' : Prog Ans ε α} {cs : List Choice} {sh sh' : Sh}
    (tr : Trace Ans ε) (h : p.steps perform cs loc sh = some (p', loc', sh')) :
    ∃ tr', p.steps (besides perform key) (p.found perform cs loc sh) loc (key sh, tr) =
      some (p', loc', key sh', tr') := by
  induction cs generalizing p loc sh tr with
  | nil =>
    cases h
    exact ⟨tr, rfl⟩
  | cons c cs ih =>
    simp only [Prog.steps] at h
    split at h
    · rename_i p₁ loc₁ sh₁ hs
      obtain ⟨o, k, r, rfl, hp, rfl⟩ := Prog.step?_eq_some _ hs
      obtain ⟨tr', htr⟩ := ih (tr ++ [⟨o, r⟩]) h
      refine ⟨tr', ?_⟩
      simpa [Prog.found, Prog.visited, hs, Prog.steps, Prog.step?, besides, hp] using htr
    · cases h

variable (key) in
/-- A run is also one where the others leave less alone. -/
theorem steps_besides_map {K' : Type} [DecidableEq K'] {p p' : Prog Ans ε α} (g : K → K')
    {cs : List (Choice × Sh)} {x x' : K × Trace Ans ε}
    (h : p.steps (besides perform key) cs loc x = some (p', loc', x')) :
    p.steps (besides perform fun sh => g (key sh)) cs loc (g x.1, x.2) =
      some (p', loc', g x'.1, x'.2) := by
  induction cs generalizing p loc x with
  | nil =>
    cases h
    rfl
  | cons c cs ih =>
    simp only [Prog.steps] at h
    split at h
    · rename_i p₁ loc₁ x₁ hs
      obtain ⟨o, k, r, rfl, hperf, rfl⟩ := Prog.step?_eq_some _ hs
      obtain ⟨hkey, ⟨sh', hp', hx₁⟩, htr⟩ := besides_eq_some hperf
      have hrest := ih h
      rw [hx₁, htr] at hrest
      simpa [Prog.steps, Prog.step?, besides, hkey, hp'] using hrest
    · cases h

/-- An invariant of such runs, as long as the choices are good. -/
theorem assuming_besides {ok : Op → Prop} {ans : (o : Op) → Except ε (Ans o) → Prop}
    {Post : Except ε α → Prop} {Inv : Loc → K → Prop} {good : Choice → Prop} {p p' : Prog Ans ε α}
    {cs : List (Choice × Sh)} {x x' : K × Trace Ans ε} (hp : p.Assuming ok ans Post)
    (hstep : ∀ {o c loc sh r loc' sh'}, Inv loc (key sh) → ok o → good c →
      perform o c loc sh = some (r, loc', sh') → Inv loc' (key sh') ∧ ans o r)
    (hgood : ∀ c ∈ cs, good c.1) (hinv : Inv loc x.1)
    (h : p.steps (besides perform key) cs loc x = some (p', loc', x')) : Inv loc' x'.1 := by
  induction cs generalizing p loc x with
  | nil =>
    cases h
    exact hinv
  | cons c cs ih =>
    simp only [Prog.steps] at h
    split at h
    · rename_i p₁ loc₁ x₁ hs
      obtain ⟨o, k, r, rfl, hperf, rfl⟩ := Prog.step?_eq_some _ hs
      obtain ⟨hkey, ⟨sh', hp', hx₁⟩, -⟩ := besides_eq_some hperf
      rw [← hkey] at hinv
      obtain ⟨hinv₁, hans⟩ := hstep hinv hp.1 (hgood c List.mem_cons_self) hp'
      rw [← hx₁] at hinv₁
      exact ih (hp.2 r hans) (fun c' hc' => hgood c' (List.mem_cons_of_mem c hc')) hinv₁ h
    · cases h

/-- The answers of a trace are those of an abstract server, from the state `a` to `a'`. -/
def Plays (play : A → (o : Op) → Except ε (Ans o) → A → Prop) : A → Trace Ans ε → A → Prop
  | a, [], a' => a = a'
  | a, ⟨o, r⟩ :: tr, a' => ∃ a₁, play a o r a₁ ∧ Plays play a₁ tr a'

variable {play : A → (o : Op) → Except ε (Ans o) → A → Prop} {a a' : A}

theorem plays_append : Plays play a (tr ++ tr') a' ↔
    ∃ a₁, Plays play a tr a₁ ∧ Plays play a₁ tr' a' := by
  induction tr generalizing a with
  | nil =>
    constructor
    · intro h
      exact ⟨a, rfl, h⟩
    · rintro ⟨a₁, rfl, h⟩
      exact h
  | cons x tr ih =>
    constructor
    · rintro ⟨a₁, hplay, h⟩
      obtain ⟨a₂, h₁, h₂⟩ := ih.mp h
      exact ⟨a₂, ⟨a₁, hplay, h₁⟩, h₂⟩
    · rintro ⟨a₂, ⟨a₁, hplay, h₁⟩, h₂⟩
      exact ⟨a₁, hplay, ih.mpr ⟨a₂, h₁, h₂⟩⟩

/-- The trace of such a run is one that the program gives, and is answered by the
abstract server.  By induction on the run, with the simulation `Sim` as the invariant. -/
theorem steps_besides {ok : Op → Prop} {Sim : A → Loc → K → Prop} {p p' : Prog Ans ε α}
    {cs : List (Choice × Sh)} {x x' : K × Trace Ans ε} (hp : p.Uses ok)
    (hplay : ∀ {o c loc sh r loc' sh' a}, ok o → perform o c loc sh = some (r, loc', sh') →
      Sim a loc (key sh) → ∃ a', play a o r a' ∧ Sim a' loc' (key sh'))
    (hsim : Sim a loc x.1)
    (h : p.steps (besides perform key) cs loc x = some (p', loc', x')) :
    ∃ own a', x'.2 = x.2 ++ own ∧ Plays play a own a' ∧ Sim a' loc' x'.1 ∧
      ∀ r, p'.result? = some r → p.Gives own r := by
  induction cs generalizing p loc x a with
  | nil =>
    cases h
    refine ⟨[], a, (List.append_nil _).symm, rfl, hsim, fun r hr => ?_⟩
    cases p' with
    | ret b =>
      cases hr
      exact ⟨rfl, rfl⟩
    | raise e =>
      cases hr
      exact ⟨rfl, rfl⟩
    | act o k => cases hr
  | cons c cs ih =>
    simp only [Prog.steps] at h
    split at h
    · rename_i p₁ loc₁ x₁ hs
      obtain ⟨o, k, r, rfl, hperf, rfl⟩ := Prog.step?_eq_some _ hs
      obtain ⟨hkey, ⟨sh', hp', hx₁⟩, htr⟩ := besides_eq_some hperf
      rw [← hkey] at hsim
      obtain ⟨a₁, hplayed, hsim₁⟩ := hplay hp.1 hp' hsim
      rw [← hx₁] at hsim₁
      obtain ⟨own, a', heq, hown, hsim', hgives⟩ := ih (hp.2 r) hsim₁ h
      refine ⟨⟨o, r⟩ :: own, a', ?_, ⟨a₁, hplayed, hown⟩, hsim', fun r' hr' => ?_⟩
      · rw [heq, htr, List.append_assoc, List.singleton_append]
      · exact ⟨r, own, rfl, hgives r' hr'⟩
    · cases h

end Besides

end Concurrency
