/-
Rely–guarantee proofs of programs among other threads.

A `Contract` says what the threads of a system promise each other: `inv` holds
of the shared state after every action, `rely i` is what thread `i` may assume
of everybody else's actions, and `own i` is what is true of its local state
whatever the program is.  `Outline C i Q p loc sh` is the proof of the program
`p`, run as thread `i` from the local state `loc`: before each of its actions
the others may act as `rely i` allows, the action keeps `inv` and what the
others rely on, and at the end `Q` holds.

* `Outline.bind`, `Outline.tryCatch`, `Outline.act` — one rule for each
  construct;
* `Contract.reaches` — in every run all of whose calls have an outline, `inv`
  holds of every state reached;
* `Contract.Holds.rely_reaches` — what such a run does between two of its states
  is what a thread started later may rely on.

Facts about one's own rows need no phases here: they are carried from action to
action, as long as `rely i` keeps them.
-/
import GraphPilot.Concurrency.Pool

namespace Concurrency

variable {Op Choice Loc Sh Call : Type} {Ans : Op → Type} {ε α β : Type}

/-- What the threads of `S` promise each other, in runs that meet `cond`. -/
structure Contract (S : System Ans ε Choice Loc Sh Call)
    (cond : System.Condition Op Choice Loc Sh) where
  inv : Sh → Prop
  own : ℕ → Loc → Sh → Prop
  rely : ℕ → Sh → Sh → Prop
  rely_refl : ∀ i sh, rely i sh sh
  rely_trans : ∀ {i sh sh' sh''}, rely i sh sh' → rely i sh' sh'' → rely i sh sh''
  own_fresh : ∀ i sh, own i S.fresh sh
  own_rely : ∀ {i loc sh sh'}, own i loc sh → rely i sh sh' → own i loc sh'
  own_step : ∀ {i o ch loc sh r loc' sh'}, own i loc sh →
    S.perform i o ch loc sh = some (r, loc', sh') → own i loc' sh'
  stop : ∀ {i loc sh}, inv sh → own i loc sh → cond i none loc sh →
    inv (S.abandon i loc sh) ∧ ∀ j, j ≠ i → rely j sh (S.abandon i loc sh)

variable {S : System Ans ε Choice Loc Sh Call} {cond : System.Condition Op Choice Loc Sh}

/-- A proof of the program as thread `i`, from a local state and a shared state
that the others have not left since. -/
def Outline (C : Contract S cond) (i : ℕ) (Q : Except ε α → Loc → Sh → Prop) :
    Prog Ans ε α → Loc → Sh → Prop
  | .ret a, loc, sh => Q (.ok a) loc sh
  | .raise e, loc, sh => Q (.error e) loc sh
  | .act o k, loc, sh => ∀ sh₁, C.rely i sh sh₁ → C.inv sh₁ → C.own i loc sh₁ →
    ∀ ch r loc' sh', cond i (some (o, ch)) loc sh₁ →
      S.perform i o ch loc sh₁ = some (r, loc', sh') →
        C.inv sh' ∧ (∀ j, j ≠ i → C.rely j sh₁ sh') ∧ Outline C i Q (k r) loc' sh'

namespace Outline

variable {C : Contract S cond} {i : ℕ} {loc : Loc} {sh : Sh}
variable {Q R : Except ε α → Loc → Sh → Prop}

theorem mono {p : Prog Ans ε α} (h : Outline C i R p loc sh)
    (hR : ∀ r loc sh, R r loc sh → Q r loc sh) : Outline C i Q p loc sh := by
  induction p generalizing loc sh with
  | ret a => exact hR _ _ _ h
  | raise e => exact hR _ _ _ h
  | act o k ih =>
    intro sh₁ hrely hinv hown ch r loc' sh' hc hp
    obtain ⟨hinv', hrely', hk⟩ := h sh₁ hrely hinv hown ch r loc' sh' hc hp
    exact ⟨hinv', hrely', ih r hk⟩

/-- The first part hands its result to the rest; an exception passes through. -/
theorem bind {p : Prog Ans ε α} {f : α → Prog Ans ε β} {Q : Except ε β → Loc → Sh → Prop}
    (h : Outline C i R p loc sh)
    (hok : ∀ a loc sh, R (.ok a) loc sh → Outline C i Q (f a) loc sh)
    (herr : ∀ e loc sh, R (.error e) loc sh → Q (.error e) loc sh) :
    Outline C i Q (p.bind f) loc sh := by
  induction p generalizing loc sh with
  | ret a => exact hok a loc sh h
  | raise e => exact herr e loc sh h
  | act o k ih =>
    intro sh₁ hrely hinv hown ch r loc' sh' hc hp
    obtain ⟨hinv', hrely', hk⟩ := h sh₁ hrely hinv hown ch r loc' sh' hc hp
    exact ⟨hinv', hrely', ih r hk⟩

/-- An exception of the body is handed to the handler. -/
theorem tryCatch {p : Prog Ans ε α} {f : ε → Prog Ans ε α}
    (h : Outline C i R p loc sh)
    (hok : ∀ a loc sh, R (.ok a) loc sh → Q (.ok a) loc sh)
    (herr : ∀ e loc sh, R (.error e) loc sh → Outline C i Q (f e) loc sh) :
    Outline C i Q (p.tryCatch f) loc sh := by
  induction p generalizing loc sh with
  | ret a => exact hok a loc sh h
  | raise e => exact herr e loc sh h
  | act o k ih =>
    intro sh₁ hrely hinv hown ch r loc' sh' hc hp
    obtain ⟨hinv', hrely', hk⟩ := h sh₁ hrely hinv hown ch r loc' sh' hc hp
    exact ⟨hinv', hrely', ih r hk⟩

/-- What the others do before the first action makes no difference. -/
theorem of_rely {p : Prog Ans ε α} {sh' : Sh} (h : Outline C i Q p loc sh)
    (hQ : ∀ r, Q r loc sh → Q r loc sh') (hrely : C.rely i sh sh') : Outline C i Q p loc sh' := by
  cases p with
  | ret a => exact hQ _ h
  | raise e => exact hQ _ h
  | act o k => exact fun sh₁ hrely₁ => h sh₁ (C.rely_trans hrely hrely₁)

/-- A run of one call alone. -/
theorem steps {p p' : Prog Ans ε α} {cs : List Choice} {loc' : Loc} {sh' : Sh}
    (h : Outline C i Q p loc sh) (hinv : C.inv sh) (hown : C.own i loc sh)
    (hcond : ∀ x loc sh, cond i x loc sh)
    (hr : p.steps (S.perform i) cs loc sh = some (p', loc', sh')) :
    C.inv sh' ∧ Outline C i Q p' loc' sh' := by
  induction cs generalizing p loc sh with
  | nil =>
    cases hr
    exact ⟨hinv, h⟩
  | cons c cs ih =>
    simp only [Prog.steps] at hr
    split at hr
    · rename_i p₁ loc₁ sh₁ hs
      obtain ⟨o, k, r, rfl, hperf, rfl⟩ := Prog.step?_eq_some _ hs
      obtain ⟨hinv₁, -, hk⟩ := h sh (C.rely_refl i sh) hinv hown c r loc₁ sh₁ (hcond _ _ _) hperf
      exact ih hk hinv₁ (C.own_step hown hperf) hr
    · cases hr

end Outline

/-- The postcondition of a whole call: nothing. -/
def Ends (_ : Except ε α) (_ : Loc) (_ : Sh) : Prop := True

namespace Contract

variable (C : Contract S cond)

/-- What holds of a configuration: the invariant, and of every thread an
outline of what is left of its program. -/
structure Holds (c : Config Ans ε Loc Sh) : Prop where
  inv : C.inv c.shared
  thread : ∀ i p loc, c.threads[i]? = some (p, loc) →
    C.own i loc c.shared ∧ Outline C i Ends p loc c.shared

variable {C} {c c' : Config Ans ε Loc Sh}

/-- The others' threads after an action they can rely on. -/
theorem Holds.others (h : C.Holds c) {i j : ℕ} (hij : j ≠ i) {x : Prog Ans ε Unit × Loc}
    {p : Prog Ans ε Unit} {loc : Loc} {sh' : Sh} (hj : (c.threads.set i x)[j]? = some (p, loc))
    (hrely : C.rely j c.shared sh') : C.own j loc sh' ∧ Outline C j Ends p loc sh' := by
  rw [List.getElem?_set_ne (Ne.symm hij)] at hj
  obtain ⟨hown, hout⟩ := h.thread j p loc hj
  exact ⟨C.own_rely hown hrely, hout.of_rely (fun _ _ => trivial) hrely⟩

/-- The step lemma. -/
theorem Holds.next
    (hcalls : ∀ call i sh, C.inv sh → S.admits sh call = true →
      Outline C i Ends (S.program call) S.fresh sh)
    {e : Event Call Choice} (h : C.Holds c) (hm : System.Meets cond c e)
    (hn : S.next? c e = some c') : C.Holds c' := by
  cases e with
  | start call =>
    simp only [System.next?] at hn
    split at hn
    · rename_i hadm
      cases hn
      refine ⟨h.inv, fun i p loc hi => ?_⟩
      rcases Nat.lt_or_ge i c.threads.length with hlt | hge
      · rw [List.getElem?_append_left hlt] at hi
        exact h.thread i p loc hi
      · rw [List.getElem?_append_right hge] at hi
        have := List.mem_singleton.mp (List.mem_of_getElem? hi)
        cases this
        exact ⟨C.own_fresh i _, hcalls call i _ h.inv hadm⟩
    · cases hn
  | step i ch =>
    simp only [System.next?] at hn
    cases hi : c.threads[i]? with
    | none => simp [hi] at hn
    | some x =>
      obtain ⟨p, loc⟩ := x
      simp only [hi] at hn
      split at hn
      · rename_i p' loc' sh' hs
        cases hn
        obtain ⟨o, k, r, rfl, hperf, rfl⟩ := Prog.step?_eq_some _ hs
        obtain ⟨hown, hout⟩ := h.thread i _ loc hi
        obtain ⟨hinv', hrely', hk⟩ := hout c.shared (C.rely_refl i _) h.inv hown ch r loc' sh'
          (hm o k loc hi) hperf
        refine ⟨hinv', fun j p loc hj => ?_⟩
        by_cases hij : j = i
        · subst hij
          rw [List.getElem?_set_self (List.getElem?_eq_some_iff.mp hi).1] at hj
          cases hj
          exact ⟨C.own_step hown hperf, hk⟩
        · exact h.others hij hj (hrely' j hij)
      · cases hn
  | stop i =>
    simp only [System.next?] at hn
    cases hi : c.threads[i]? with
    | none => simp [hi] at hn
    | some x =>
      obtain ⟨p, loc⟩ := x
      simp only [hi] at hn
      cases hn
      obtain ⟨hown, -⟩ := h.thread i p loc hi
      obtain ⟨hinv', hrely'⟩ := C.stop h.inv hown (hm p loc hi)
      refine ⟨hinv', fun j p loc hj => ?_⟩
      by_cases hij : j = i
      · subst hij
        rw [List.getElem?_set_self (List.getElem?_eq_some_iff.mp hi).1] at hj
        cases hj
        exact ⟨C.own_fresh j _, trivial⟩
      · exact h.others hij hj (hrely' j hij)

/-- What holds of a configuration holds of every one reached from it. -/
theorem Holds.reaches
    (hcalls : ∀ call i sh, C.inv sh → S.admits sh call = true →
      Outline C i Ends (S.program call) S.fresh sh)
    (h : C.Holds c) (hr : S.Reaches cond c c') : C.Holds c' := by
  induction hr with
  | refl => exact h
  | step _ hm hn ih => exact ih.next hcalls hm hn

/-- The run lemma: where every call has an outline, the invariant holds of
every state reached. -/
theorem reaches
    (hcalls : ∀ call i sh, C.inv sh → S.admits sh call = true →
      Outline C i Ends (S.program call) S.fresh sh)
    {sh : Sh} (hinv : C.inv sh) (hr : S.Reaches cond ⟨[], sh⟩ c) : C.Holds c :=
  Holds.reaches hcalls ⟨hinv, fun i p loc hi => by simp at hi⟩ hr

/-- What one event does is what a thread not yet started may rely on. -/
theorem Holds.rely_next {e : Event Call Choice} (h : C.Holds c) (hm : System.Meets cond c e)
    (hn : S.next? c e = some c') :
    c.threads.length ≤ c'.threads.length ∧
      ∀ j, c'.threads.length ≤ j → C.rely j c.shared c'.shared := by
  cases e with
  | start call =>
    simp only [System.next?] at hn
    split at hn
    · cases hn
      exact ⟨by simp, fun j _ => C.rely_refl j _⟩
    · cases hn
  | step i ch =>
    simp only [System.next?] at hn
    cases hi : c.threads[i]? with
    | none => simp [hi] at hn
    | some x =>
      obtain ⟨p, loc⟩ := x
      have hlt := (List.getElem?_eq_some_iff.mp hi).1
      simp only [hi] at hn
      split at hn
      · rename_i p' loc' sh' hs
        cases hn
        obtain ⟨o, k, r, rfl, hperf, rfl⟩ := Prog.step?_eq_some _ hs
        obtain ⟨hown, hout⟩ := h.thread i _ loc hi
        obtain ⟨-, hrely, -⟩ := hout c.shared (C.rely_refl i _) h.inv hown ch r loc' sh'
          (hm o k loc hi) hperf
        refine ⟨by simp, fun j hj => hrely j ?_⟩
        rw [List.length_set] at hj
        omega
      · cases hn
  | stop i =>
    simp only [System.next?] at hn
    cases hi : c.threads[i]? with
    | none => simp [hi] at hn
    | some x =>
      obtain ⟨p, loc⟩ := x
      have hlt := (List.getElem?_eq_some_iff.mp hi).1
      simp only [hi] at hn
      cases hn
      obtain ⟨hown, -⟩ := h.thread i p loc hi
      obtain ⟨-, hrely⟩ := C.stop h.inv hown (hm p loc hi)
      refine ⟨by simp, fun j hj => hrely j ?_⟩
      rw [List.length_set] at hj
      omega

/-- What the threads do between two states of a run is what one that is started
later may rely on. -/
theorem Holds.rely_reaches
    (hcalls : ∀ call i sh, C.inv sh → S.admits sh call = true →
      Outline C i Ends (S.program call) S.fresh sh)
    (h : C.Holds c) (hr : S.Reaches cond c c') :
    ∀ j, c'.threads.length ≤ j → C.rely j c.shared c'.shared := by
  induction hr with
  | refl => exact fun j _ => C.rely_refl j _
  | step hr hm hn ih =>
    obtain ⟨hlen, hrely⟩ := (h.reaches hcalls hr).rely_next hm hn
    exact fun j hj => C.rely_trans (ih j (Nat.le_trans hlen hj)) (hrely j hj)

end Contract

end Concurrency
