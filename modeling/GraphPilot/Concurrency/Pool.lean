/-
Interleavings of any number of threads.

A configuration is a list of threads, each a program with its local state, and
one shared state.  The environment may start a new call, let any thread take
its next atomic action, or stop a thread for good (its process dies); `next?`
is one such event and `Reaches` a run.  A run may be restricted by a condition
`cond` on the states in which actions strike and threads stop; `run?` computes
a run, for a condition that can be decided.

`Inductive` lists what has to be checked of an invariant on *phases*, local
states and the shared state — one obligation per kind of event, the programs
themselves no longer in sight — and `Inductive.reaches` is the run lemma: if
every call conforms to the protocol, the invariant holds in every reachable
configuration, whatever the interleaving.
-/
import GraphPilot.Concurrency.Protocol

namespace Concurrency

variable {Op Choice Loc Sh Call Ph A : Type} {Ans : Op → Type} {ε : Type}

/-- A system of threads: what an action of thread `i` does, what is left of a
thread that stops, and the calls that may be started. -/
structure System {Op : Type} (Ans : Op → Type) (ε Choice Loc Sh Call : Type) where
  perform : ℕ → (o : Op) → Choice → Loc → Sh → Option (Except ε (Ans o) × Loc × Sh)
  abandon : ℕ → Loc → Sh → Sh
  program : Call → Prog Ans ε Unit
  fresh : Loc
  admits : Sh → Call → Bool

/-- The threads, in the order they were started, and the shared state. -/
structure Config {Op : Type} (Ans : Op → Type) (ε Loc Sh : Type) where
  threads : List (Prog Ans ε Unit × Loc)
  shared : Sh

/-- What the environment may do next. -/
inductive Event (Call Choice : Type) where
  | start (c : Call)
  | step (i : ℕ) (c : Choice)
  | stop (i : ℕ)

namespace System

variable (S : System Ans ε Choice Loc Sh Call)

/-- One event; `none` when it cannot happen. -/
def next? (c : Config Ans ε Loc Sh) : Event Call Choice → Option (Config Ans ε Loc Sh)
  | .start call =>
    if S.admits c.shared call then
      some { c with threads := c.threads ++ [(S.program call, S.fresh)] }
    else none
  | .step i ch =>
    match c.threads[i]? with
    | some (p, loc) =>
      match p.step? (S.perform i) ch loc c.shared with
      | some (p', loc', sh') => some { threads := c.threads.set i (p', loc'), shared := sh' }
      | none => none
    | none => none
  | .stop i =>
    match c.threads[i]? with
    | some (_, loc) => some {
        threads := c.threads.set i (.ret (), S.fresh)
        shared := S.abandon i loc c.shared }
    | none => none

/-- A condition on the states in which a thread performs an action, as it is
resolved, or is stopped (`none`). -/
abbrev Condition (Op Choice Loc Sh : Type) : Type := ℕ → Option (Op × Choice) → Loc → Sh → Prop

/-- The event happens in a state that the condition allows. -/
def Meets (cond : Condition Op Choice Loc Sh) (c : Config Ans ε Loc Sh) :
    Event Call Choice → Prop
  | .start _ => True
  | .step i ch => ∀ o k loc, c.threads[i]? = some (.act o k, loc) →
    cond i (some (o, ch)) loc c.shared
  | .stop i => ∀ p loc, c.threads[i]? = some (p, loc) → cond i none loc c.shared

/-- Runs all of whose events meet the condition. -/
inductive Reaches (cond : Condition Op Choice Loc Sh) (c : Config Ans ε Loc Sh) :
    Config Ans ε Loc Sh → Prop where
  | refl : Reaches cond c c
  | step {c' c'' : Config Ans ε Loc Sh} {e : Event Call Choice} : Reaches cond c c' →
      Meets cond c' e → S.next? c' e = some c'' → Reaches cond c c''

/-- No condition: every interleaving. -/
def always : Condition Op Choice Loc Sh := fun _ _ _ _ => True

instance (i : ℕ) (x : Option (Op × Choice)) (loc : Loc) (sh : Sh) :
    Decidable (always i x loc sh) := .isTrue trivial

theorem Reaches.trans {cond : Condition Op Choice Loc Sh} {c c' c'' : Config Ans ε Loc Sh}
    (h : S.Reaches cond c c') (h' : S.Reaches cond c' c'') : S.Reaches cond c c'' := by
  induction h' with
  | refl => exact h
  | step _ hm hn ih => exact ih.step hm hn

/-! ### Computed runs -/

section Computed

variable (cond : Condition Op Choice Loc Sh) [∀ i x loc sh, Decidable (cond i x loc sh)]

/-- `Meets`, decided. -/
def meets? (c : Config Ans ε Loc Sh) : Event Call Choice → Bool
  | .start _ => true
  | .step i ch =>
    match c.threads[i]? with
    | some (.act o _, loc) => decide (cond i (some (o, ch)) loc c.shared)
    | _ => true
  | .stop i =>
    match c.threads[i]? with
    | some (_, loc) => decide (cond i none loc c.shared)
    | none => true

/-- A list of events, each checked before it happens. -/
def run? (c : Config Ans ε Loc Sh) : List (Event Call Choice) → Option (Config Ans ε Loc Sh)
  | [] => some c
  | e :: es =>
    if meets? cond c e then
      match S.next? c e with
      | some c' => run? c' es
      | none => none
    else none

variable {cond}

theorem meets_of_meets? {c : Config Ans ε Loc Sh} {e : Event Call Choice}
    (h : meets? cond c e = true) : Meets cond c e := by
  cases e with
  | start call => trivial
  | step i ch =>
    intro o k loc hi
    simpa [meets?, hi] using h
  | stop i =>
    intro p loc hi
    simpa [meets?, hi] using h

/-- A list of events that can be run is a run. -/
theorem reaches_of_run? {c c' : Config Ans ε Loc Sh} {es : List (Event Call Choice)}
    (h : S.run? cond c es = some c') : S.Reaches cond c c' := by
  induction es generalizing c with
  | nil =>
    simp only [run?, Option.some.injEq] at h
    exact h ▸ .refl
  | cons e es ih =>
    simp only [run?] at h
    split at h
    · rename_i hm
      cases hn : S.next? c e with
      | none => simp [hn] at h
      | some d =>
        rw [hn] at h
        have hd : S.Reaches cond c d := .step .refl (meets_of_meets? hm) hn
        exact hd.trans S (ih h)
    · cases h

end Computed

/-- A computed run, with a property decided at its end. -/
theorem exists_reaches (cond : Condition Op Choice Loc Sh)
    [∀ i x loc sh, Decidable (cond i x loc sh)] {c : Config Ans ε Loc Sh}
    (es : List (Event Call Choice)) {P : Config Ans ε Loc Sh → Prop} [DecidablePred P]
    (h : ((S.run? cond c es).any fun c' => decide (P c')) = true) :
    ∃ c', S.Reaches cond c c' ∧ P c' := by
  obtain ⟨c', hc', hp⟩ := (Option.any_eq_true _ _).mp h
  exact ⟨c', S.reaches_of_run? hc', by simpa using hp⟩

end System

/-! ### Invariants over phases -/

/-- Phases and local states of the threads. -/
abbrev Phases (Ph Loc : Type) : Type := ℕ → Option (Ph × Loc)

namespace Phases

def set (th : Phases Ph Loc) (i : ℕ) (x : Ph × Loc) : Phases Ph Loc :=
  fun j => if j = i then some x else th j

@[simp] theorem set_same (th : Phases Ph Loc) (i : ℕ) (x : Ph × Loc) :
    th.set i x i = some x := by simp [set]

theorem set_ne (th : Phases Ph Loc) {i j : ℕ} (x : Ph × Loc) (h : j ≠ i) :
    th.set i x j = th j := by simp [set, h]

theorem set_apply (th : Phases Ph Loc) (i j : ℕ) (x : Ph × Loc) :
    th.set i x j = if j = i then some x else th j := rfl

end Phases

variable (S : System Ans ε Choice Loc Sh Call)

/-- What has to be checked of an invariant: that it survives the start of a
call, every move of a thread made in a state meeting the condition, and the
stop of a thread, which puts it in the phase `halt`. -/
structure Inductive (Move : Moves Ans ε Ph A) (abs : Loc → A) (enter : Call → Ph) (halt : Ph)
    (cond : System.Condition Op Choice Loc Sh) (Inv : Phases Ph Loc → Sh → Prop) : Prop where
  start : ∀ {th sh call i}, Inv th sh → S.admits sh call = true → th i = none →
    Inv (th.set i (enter call, S.fresh)) sh
  step : ∀ {th sh i ph ph' loc loc' sh' o ch r}, Inv th sh → th i = some (ph, loc) →
    cond i (some (o, ch)) loc sh → S.perform i o ch loc sh = some (r, loc', sh') →
    Move ph (abs loc) o r ph' → Inv (th.set i (ph', loc')) sh'
  stop : ∀ {th sh i ph loc}, Inv th sh → th i = some (ph, loc) → cond i none loc sh →
    Inv (th.set i (halt, S.fresh)) (S.abandon i loc sh)

/-- The same for an invariant that relies on another one, `Given`, before and
after the event. -/
structure InductiveOver (Move : Moves Ans ε Ph A) (abs : Loc → A) (enter : Call → Ph) (halt : Ph)
    (cond : System.Condition Op Choice Loc Sh) (Given Inv : Phases Ph Loc → Sh → Prop) : Prop where
  start : ∀ {th sh call i}, Given th sh → Inv th sh → S.admits sh call = true → th i = none →
    Inv (th.set i (enter call, S.fresh)) sh
  step : ∀ {th sh i ph ph' loc loc' sh' o ch r}, Given th sh → Inv th sh →
    th i = some (ph, loc) → cond i (some (o, ch)) loc sh →
    S.perform i o ch loc sh = some (r, loc', sh') → Move ph (abs loc) o r ph' →
    Given (th.set i (ph', loc')) sh' → Inv (th.set i (ph', loc')) sh'
  stop : ∀ {th sh i ph loc}, Given th sh → Inv th sh → th i = some (ph, loc) →
    cond i none loc sh → Inv (th.set i (halt, S.fresh)) (S.abandon i loc sh)

variable {S} {Eff : Effect Ans ε A} {Move : Moves Ans ε Ph A} {abs : Loc → A}
variable {enter : Call → Ph} {halt : Ph} {cond : System.Condition Op Choice Loc Sh}
variable {Inv : Phases Ph Loc → Sh → Prop} {Q : Except ε Unit → Ph → A → Prop}

/-- An invariant together with one that relies on it. -/
theorem Inductive.and {Given : Phases Ph Loc → Sh → Prop}
    (h : Inductive S Move abs enter halt cond Given)
    (h' : InductiveOver S Move abs enter halt cond Given Inv) :
    Inductive S Move abs enter halt cond fun th sh => Given th sh ∧ Inv th sh where
  start hinv hadm hnone := ⟨h.start hinv.1 hadm hnone, h'.start hinv.1 hinv.2 hadm hnone⟩
  step hinv hi hc hp hm :=
    have hg := h.step hinv.1 hi hc hp hm
    ⟨hg, h'.step hinv.1 hinv.2 hi hc hp hm hg⟩
  stop hinv hi hc := ⟨h.stop hinv.1 hi hc, h'.stop hinv.1 hinv.2 hi hc⟩

/-- What survives under a condition survives under a stronger one. -/
theorem Inductive.restrict {cond' : System.Condition Op Choice Loc Sh}
    (h : Inductive S Move abs enter halt cond Inv)
    (hc : ∀ i o loc sh, cond' i o loc sh → cond i o loc sh) :
    Inductive S Move abs enter halt cond' Inv where
  start := h.start
  step hinv hi hcond := h.step hinv hi (hc _ _ _ _ hcond)
  stop hinv hi hcond := h.stop hinv hi (hc _ _ _ _ hcond)

/-- The same for an invariant that relies on another, which may be replaced by a
stronger one. -/
theorem InductiveOver.restrict {Given Given' : Phases Ph Loc → Sh → Prop}
    {cond' : System.Condition Op Choice Loc Sh}
    (h : InductiveOver S Move abs enter halt cond Given Inv)
    (hc : ∀ i o loc sh, cond' i o loc sh → cond i o loc sh)
    (hg : ∀ th sh, Given' th sh → Given th sh) :
    InductiveOver S Move abs enter halt cond' Given' Inv where
  start hgiven := h.start (hg _ _ hgiven)
  step hgiven hinv hi hcond hp hm hgiven' :=
    h.step (hg _ _ hgiven) hinv hi (hc _ _ _ _ hcond) hp hm (hg _ _ hgiven')
  stop hgiven hinv hi hcond := h.stop (hg _ _ hgiven) hinv hi (hc _ _ _ _ hcond)

/-- The phases `th` fit the configuration: thread by thread the program still
conforms to the protocol. -/
def Tracks (Eff : Effect Ans ε A) (Move : Moves Ans ε Ph A) (Q : Except ε Unit → Ph → A → Prop)
    (abs : Loc → A) (th : Phases Ph Loc) (c : Config Ans ε Loc Sh) : Prop :=
  ∀ i, match c.threads[i]? with
    | some (p, loc) => ∃ ph, th i = some (ph, loc) ∧ Conforms Eff Move Q p ph (abs loc)
    | none => th i = none

theorem Tracks.of_some {th : Phases Ph Loc} {c : Config Ans ε Loc Sh} {i : ℕ}
    {p : Prog Ans ε Unit} {loc : Loc} (h : Tracks Eff Move Q abs th c)
    (hi : c.threads[i]? = some (p, loc)) :
    ∃ ph, th i = some (ph, loc) ∧ Conforms Eff Move Q p ph (abs loc) := by
  have := h i
  rwa [hi] at this

theorem Tracks.of_none {th : Phases Ph Loc} {c : Config Ans ε Loc Sh} {i : ℕ}
    (h : Tracks Eff Move Q abs th c) (hi : c.threads[i]? = none) : th i = none := by
  have := h i
  rwa [hi] at this

/-- Replacing one thread, with its phase. -/
theorem Tracks.set {th : Phases Ph Loc} {c : Config Ans ε Loc Sh} {i : ℕ}
    {p : Prog Ans ε Unit} {loc : Loc} {ph : Ph} {sh : Sh} (h : Tracks Eff Move Q abs th c)
    (hi : i < c.threads.length) (hp : Conforms Eff Move Q p ph (abs loc)) :
    Tracks Eff Move Q abs (th.set i (ph, loc))
      { threads := c.threads.set i (p, loc), shared := sh } := by
  intro j
  by_cases hj : j = i
  · subst hj
    simp [hi, hp]
  · have := h j
    rw [List.getElem?_set_ne (Ne.symm hj), Phases.set_ne _ _ hj]
    exact this

/-- A new thread, with its phase. -/
theorem Tracks.add {th : Phases Ph Loc} {c : Config Ans ε Loc Sh} {p : Prog Ans ε Unit}
    {loc : Loc} {ph : Ph} (h : Tracks Eff Move Q abs th c)
    (hp : Conforms Eff Move Q p ph (abs loc)) :
    Tracks Eff Move Q abs (th.set c.threads.length (ph, loc))
      { c with threads := c.threads ++ [(p, loc)] } := by
  intro j
  rcases Nat.lt_trichotomy j c.threads.length with hj | rfl | hj
  · have := h j
    rw [List.getElem?_append_left hj, Phases.set_ne _ _ (by omega)]
    exact this
  · simp [hp]
  · rw [List.getElem?_eq_none (by simp; omega), Phases.set_ne _ _ (by omega)]
    exact h.of_none (List.getElem?_eq_none (by omega))

/-- One action of one thread is a move of the protocol. -/
theorem Tracks.next {th : Phases Ph Loc} {c : Config Ans ε Loc Sh} {i : ℕ} {ch : Choice}
    {p p' : Prog Ans ε Unit} {loc loc' : Loc} {sh' : Sh} (h : Tracks Eff Move Q abs th c)
    (heff : ∀ {i o ch loc sh r loc' sh'},
      S.perform i o ch loc sh = some (r, loc', sh') → Eff (abs loc) o r (abs loc'))
    (hi : c.threads[i]? = some (p, loc))
    (hs : p.step? (S.perform i) ch loc c.shared = some (p', loc', sh')) :
    ∃ o k r ph ph', p = .act o k ∧ S.perform i o ch loc c.shared = some (r, loc', sh') ∧
      th i = some (ph, loc) ∧ Move ph (abs loc) o r ph' ∧
      Tracks Eff Move Q abs (th.set i (ph', loc'))
        { threads := c.threads.set i (p', loc'), shared := sh' } := by
  obtain ⟨o, k, r, rfl, hperf, rfl⟩ := Prog.step?_eq_some _ hs
  obtain ⟨ph, hph, hconf⟩ := h.of_some hi
  obtain ⟨ph', hmove, hk⟩ := hconf r (abs loc') (heff hperf)
  exact ⟨o, k, r, ph, ph', rfl, hperf, hph, hmove,
    h.set (List.getElem?_eq_some_iff.mp hi).1 hk⟩

/-- The run lemma. -/
theorem Inductive.reaches
    (hinv : Inductive S Move abs enter halt cond Inv)
    (heff : ∀ {i o ch loc sh r loc' sh'},
      S.perform i o ch loc sh = some (r, loc', sh') → Eff (abs loc) o r (abs loc'))
    (hcalls : ∀ call, Conforms Eff Move Q (S.program call) (enter call) (abs S.fresh))
    (hhalt : Q (.ok ()) halt (abs S.fresh))
    {c c' : Config Ans ε Loc Sh} {th : Phases Ph Loc} (htr : Tracks Eff Move Q abs th c)
    (hc : Inv th c.shared) (hr : S.Reaches cond c c') :
    ∃ th', Tracks Eff Move Q abs th' c' ∧ Inv th' c'.shared := by
  induction hr with
  | refl => exact ⟨th, htr, hc⟩
  | @step c₁ c₂ e _ hmeets hn ih =>
    obtain ⟨th₁, htr₁, hc₁⟩ := ih
    cases e with
    | start call =>
      simp only [System.next?] at hn
      split at hn
      · rename_i hadm
        cases hn
        have hnone : th₁ c₁.threads.length = none :=
          htr₁.of_none (by simp)
        exact ⟨th₁.set c₁.threads.length (enter call, S.fresh), htr₁.add (hcalls call),
          hinv.start hc₁ hadm hnone⟩
      · cases hn
    | step i ch =>
      simp only [System.next?] at hn
      cases hi : c₁.threads[i]? with
      | none => simp [hi] at hn
      | some x =>
        obtain ⟨p, loc⟩ := x
        simp only [hi] at hn
        split at hn
        · rename_i p' loc' sh' hs
          cases hn
          obtain ⟨o, k, r, ph, ph', rfl, hperf, hph, hmove, htr₂⟩ := htr₁.next heff hi hs
          exact ⟨th₁.set i (ph', loc'), htr₂,
            hinv.step hc₁ hph (hmeets o k loc hi) hperf hmove⟩
        · cases hn
    | stop i =>
      simp only [System.next?] at hn
      cases hi : c₁.threads[i]? with
      | none => simp [hi] at hn
      | some x =>
        obtain ⟨p, loc⟩ := x
        simp only [hi] at hn
        cases hn
        obtain ⟨ph, hph, -⟩ := htr₁.of_some hi
        exact ⟨th₁.set i (halt, S.fresh),
          htr₁.set (List.getElem?_eq_some_iff.mp hi).1 hhalt,
          hinv.stop hc₁ hph (hmeets p loc hi)⟩

/-! ### One thread alone -/

/-- The run lemma for one program running alone to some point: its phase, and
any invariant that every move meeting the condition preserves. -/
theorem Conforms.steps {α : Type} {Q : Except ε α → Ph → A → Prop}
    {perform : (o : Op) → Choice → Loc → Sh → Option (Except ε (Ans o) × Loc × Sh)}
    {Inv : Ph → Loc → Sh → Prop} {P : Choice → Loc → Sh → Prop}
    (heff : ∀ {o ch loc sh r loc' sh'},
      perform o ch loc sh = some (r, loc', sh') → Eff (abs loc) o r (abs loc'))
    (hstep : ∀ {ph ph' loc loc' sh sh' o ch r}, Inv ph loc sh → P ch loc sh →
      perform o ch loc sh = some (r, loc', sh') → Move ph (abs loc) o r ph' →
      Inv ph' loc' sh')
    {p p' : Prog Ans ε α} {cs : List Choice} {ph : Ph} {loc loc' : Loc} {sh sh' : Sh}
    (hp : Conforms Eff Move Q p ph (abs loc)) (hinv : Inv ph loc sh)
    (hcond : ∀ x ∈ p.visited perform cs loc sh, P x.1 x.2.1 x.2.2)
    (hrun : p.steps perform cs loc sh = some (p', loc', sh')) :
    ∃ ph', Conforms Eff Move Q p' ph' (abs loc') ∧ Inv ph' loc' sh' := by
  induction cs generalizing p ph loc sh with
  | nil =>
    simp only [Prog.steps, Option.some.injEq, Prod.mk.injEq] at hrun
    obtain ⟨rfl, rfl, rfl⟩ := hrun
    exact ⟨ph, hp, hinv⟩
  | cons ch cs ih =>
    simp only [Prog.steps] at hrun
    split at hrun
    · rename_i p₁ loc₁ sh₁ hs
      obtain ⟨o, k, r, rfl, hperf, rfl⟩ := Prog.step?_eq_some _ hs
      obtain ⟨ph₁, hmove, hk⟩ := hp r (abs loc₁) (heff hperf)
      have hhere := hcond (ch, loc, sh) (by simp [Prog.visited])
      refine ih hk (hstep hinv hhere hperf hmove) (fun x hx => ?_) hrun
      refine hcond x ?_
      simp only [Prog.visited, hs, List.mem_cons]
      exact Or.inr hx
    · cases hrun

end Concurrency
