/-
Programs that run alone and may be stopped at any point.

`Alone perform Mid Q p loc sh` is a Hoare triple with a crash condition: before
every action of `p`, and so wherever `p` may be stopped, `Mid` holds of the state,
and at the end `Q`.

* `Alone.bind`, `Alone.tryCatch`, `Alone.tryFinally`, `Alone.act` — one rule for
  each construct;
* `Alone.of_uses` — code all of whose actions keep an invariant;
* `Alone.steps` — what holds where a run has been stopped;
* `Sql.Alone` — the same for the call of a service, of the committed rows and the
  history only: the locks of a session that is alone do not matter;
* `Sql.unbroken_of_returns` — what is known of the session of a call that returns.
-/
import GraphPilot.Concurrency.Sql

namespace Concurrency

section Prog

variable {Op Choice Loc Sh : Type} {Ans : Op → Type} {ε α β : Type}
variable (perform : (o : Op) → Choice → Loc → Sh → Option (Except ε (Ans o) × Loc × Sh))

/-- A proof of the program, run alone. -/
def Alone (Mid : Loc → Sh → Prop) (Q : Except ε α → Loc → Sh → Prop) :
    Prog Ans ε α → Loc → Sh → Prop
  | .ret a, loc, sh => Q (.ok a) loc sh
  | .raise e, loc, sh => Q (.error e) loc sh
  | .act o k, loc, sh => Mid loc sh ∧ ∀ ch r loc' sh',
    perform o ch loc sh = some (r, loc', sh') → Alone Mid Q (k r) loc' sh'

namespace Alone

variable {perform} {Mid : Loc → Sh → Prop} {Q R : Except ε α → Loc → Sh → Prop}
variable {p p' : Prog Ans ε α} {loc loc' : Loc} {sh sh' : Sh}

theorem mono (h : Alone perform Mid R p loc sh) (hR : ∀ r loc sh, R r loc sh → Q r loc sh) :
    Alone perform Mid Q p loc sh := by
  induction p generalizing loc sh with
  | ret a => exact hR _ _ _ h
  | raise e => exact hR _ _ _ h
  | act o k ih =>
    refine ⟨h.1, fun ch r loc' sh' hp => ?_⟩
    exact ih r (h.2 ch r loc' sh' hp)

theorem mono_mid {Mid' : Loc → Sh → Prop} (h : Alone perform Mid Q p loc sh)
    (hMid : ∀ loc sh, Mid loc sh → Mid' loc sh) : Alone perform Mid' Q p loc sh := by
  induction p generalizing loc sh with
  | ret a => exact h
  | raise e => exact h
  | act o k ih =>
    refine ⟨hMid _ _ h.1, fun ch r loc' sh' hp => ?_⟩
    exact ih r (h.2 ch r loc' sh' hp)

theorem bind {f : α → Prog Ans ε β} {Q : Except ε β → Loc → Sh → Prop}
    (h : Alone perform Mid R p loc sh)
    (hok : ∀ a loc sh, R (.ok a) loc sh → Alone perform Mid Q (f a) loc sh)
    (herr : ∀ e loc sh, R (.error e) loc sh → Q (.error e) loc sh) :
    Alone perform Mid Q (p.bind f) loc sh := by
  induction p generalizing loc sh with
  | ret a => exact hok a loc sh h
  | raise e => exact herr e loc sh h
  | act o k ih =>
    refine ⟨h.1, fun ch r loc' sh' hp => ?_⟩
    exact ih r (h.2 ch r loc' sh' hp)

theorem tryCatch {f : ε → Prog Ans ε α} (h : Alone perform Mid R p loc sh)
    (hok : ∀ a loc sh, R (.ok a) loc sh → Q (.ok a) loc sh)
    (herr : ∀ e loc sh, R (.error e) loc sh → Alone perform Mid Q (f e) loc sh) :
    Alone perform Mid Q (p.tryCatch f) loc sh := by
  induction p generalizing loc sh with
  | ret a => exact hok a loc sh h
  | raise e => exact herr e loc sh h
  | act o k ih =>
    refine ⟨h.1, fun ch r loc' sh' hp => ?_⟩
    exact ih r (h.2 ch r loc' sh' hp)

theorem tryFinally {f : Prog Ans ε β} (h : Alone perform Mid R p loc sh)
    (hfin : ∀ r loc sh, R r loc sh → Alone perform Mid
      (fun r' loc sh => match r' with
        | .ok _ => Q r loc sh
        | .error e => Q (.error e) loc sh) f loc sh) :
    Alone perform Mid Q (p.tryFinally f) loc sh := by
  induction p generalizing loc sh with
  | ret a => exact (hfin _ loc sh h).bind (fun _ _ _ hq => hq) fun _ _ _ hq => hq
  | raise e => exact (hfin _ loc sh h).bind (fun _ _ _ hq => hq) fun _ _ _ hq => hq
  | act o k ih =>
    refine ⟨h.1, fun ch r loc' sh' hp => ?_⟩
    exact ih r (h.2 ch r loc' sh' hp)

/-- The values that the program may return. -/
theorem yields {P : α → Prop} (h : Alone perform Mid Q p loc sh) (hp : p.Yields P) :
    Alone perform Mid (fun r loc sh => Q r loc sh ∧ ∀ a, r = .ok a → P a) p loc sh := by
  induction p generalizing loc sh with
  | ret a =>
    refine ⟨h, fun b hb => ?_⟩
    cases hb
    exact hp
  | raise e =>
    refine ⟨h, fun b hb => ?_⟩
    cases hb
  | act o k ih =>
    refine ⟨h.1, fun ch r loc' sh' hperform => ?_⟩
    exact ih r (h.2 ch r loc' sh' hperform) (hp r)

/-- Code all of whose actions keep an invariant. -/
theorem of_uses {ok : Op → Prop} {I : Loc → Sh → Prop} (hp : p.Uses ok)
    (hkeep : ∀ o, ok o → ∀ ch loc sh r loc' sh', I loc sh →
      perform o ch loc sh = some (r, loc', sh') → I loc' sh')
    (hmid : ∀ loc sh, I loc sh → Mid loc sh) (h : I loc sh) :
    Alone perform Mid (fun _ => I) p loc sh := by
  induction p generalizing loc sh with
  | ret a => exact h
  | raise e => exact h
  | act o k ih =>
    refine ⟨hmid loc sh h, fun ch r loc' sh' hperf => ?_⟩
    exact ih r (hp.2 r) (hkeep o hp.1 ch loc sh r loc' sh' h hperf)

/-- One action, with what it may answer. -/
theorem act {o : Op} {f : Ans o → Prog Ans ε α} (hmid : Mid loc sh)
    (hok : ∀ ch a loc' sh', perform o ch loc sh = some (.ok a, loc', sh') →
      Alone perform Mid Q (f a) loc' sh')
    (herr : ∀ ch e loc' sh', perform o ch loc sh = some (.error e, loc', sh') →
      Q (.error e) loc' sh') : Alone perform Mid Q ((Prog.call o).bind f) loc sh := by
  refine ⟨hmid, fun ch r loc' sh' hp => ?_⟩
  cases r with
  | ok a => exact hok ch a loc' sh' hp
  | error e => exact herr ch e loc' sh' hp

/-- What is left of a program that has been stopped. -/
theorem steps {cs : List Choice} (h : Alone perform Mid Q p loc sh)
    (hr : p.steps perform cs loc sh = some (p', loc', sh')) :
    Alone perform Mid Q p' loc' sh' := by
  induction cs generalizing p loc sh with
  | nil =>
    cases hr
    exact h
  | cons c cs ih =>
    simp only [Prog.steps] at hr
    split at hr
    · rename_i p₁ loc₁ sh₁ hs
      obtain ⟨o, k, r, rfl, hperf, rfl⟩ := Prog.step?_eq_some _ hs
      exact ih (h.2 c r loc₁ sh₁ hperf) hr
    · cases hr

end Alone

end Prog

namespace Sql

variable {Q ε I D W R V M α β : Type} {Res : Q → Type} [DecidableEq R]
variable (B : Backend Res ε I D W R V M) (t : ℕ)

/-- A proof of the program of a call, alone on the committed rows `d`. -/
def Alone (Mid : D → List M → Prop) (Post : Except ε α → Tx W → D → List M → Prop)
    (p : Prog (Ans Res (M := M)) ε α) (s : Tx W) (d : D) (h : List M) : Prop :=
  ∀ sv : Server D R M, sv.db = d → sv.history = h →
    Concurrency.Alone (B.perform t) (fun _ sv => Mid sv.db sv.history)
      (fun r s sv => Post r s sv.db sv.history) p s sv

namespace Alone

variable {B t} {Mid : D → List M → Prop} {Post : Except ε α → Tx W → D → List M → Prop}
variable {p : Prog (Ans Res (M := M)) ε α} {ws : List W} {s : Tx W} {d : D} {h : List M}

theorem ret {a : α} (hPost : Post (.ok a) s d h) : Alone B t Mid Post (.ret a) s d h := by
  rintro sv rfl rfl
  exact hPost

theorem raise {e : ε} (hPost : Post (.error e) s d h) : Alone B t Mid Post (.raise e) s d h := by
  rintro sv rfl rfl
  exact hPost

theorem mono {Post' : Except ε α → Tx W → D → List M → Prop} (hp : Alone B t Mid Post' p s d h)
    (hPost : ∀ r s d h, Post' r s d h → Post r s d h) : Alone B t Mid Post p s d h :=
  fun sv hd hh => (hp sv hd hh).mono fun r s sv => hPost r s sv.db sv.history

theorem mono_mid {Mid' : D → List M → Prop} (hp : Alone B t Mid Post p s d h)
    (hMid : ∀ d h, Mid d h → Mid' d h) : Alone B t Mid' Post p s d h :=
  fun sv hd hh => (hp sv hd hh).mono_mid fun _ sv => hMid sv.db sv.history

theorem bind {f : α → Prog (Ans Res (M := M)) ε β}
    {Post' : Except ε β → Tx W → D → List M → Prop} (hp : Alone B t Mid Post p s d h)
    (hok : ∀ a s d h, Post (.ok a) s d h → Alone B t Mid Post' (f a) s d h)
    (herr : ∀ e s d h, Post (.error e) s d h → Post' (.error e) s d h) :
    Alone B t Mid Post' (p.bind f) s d h :=
  fun sv hd hh => (hp sv hd hh).bind
    (fun a s sv ha => hok a s sv.db sv.history ha sv rfl rfl)
    fun e s sv => herr e s sv.db sv.history

theorem yields {P : α → Prop} (hp : Alone B t Mid Post p s d h) (hP : p.Yields P) :
    Alone B t Mid (fun r s d h => Post r s d h ∧ ∀ a, r = .ok a → P a) p s d h :=
  fun sv hd hh => (hp sv hd hh).yields hP

theorem tryCatch {f : ε → Prog (Ans Res (M := M)) ε α}
    {P Q : Except ε α → Tx W → D → List M → Prop} (hp : Alone B t Mid P p s d h)
    (hok : ∀ a s d h, P (.ok a) s d h → Q (.ok a) s d h)
    (herr : ∀ e s d h, P (.error e) s d h → Alone B t Mid Q (f e) s d h) :
    Alone B t Mid Q (p.tryCatch f) s d h :=
  fun sv hd hh => (hp sv hd hh).tryCatch
    (fun a s sv => hok a s sv.db sv.history)
    fun e s sv he => herr e s sv.db sv.history he sv rfl rfl

/-- The postcondition allows an exception in a broken session, wherever the call may
be stopped. -/
class Fails (Mid : D → List M → Prop) (Post : Except ε α → Tx W → D → List M → Prop) : Prop where
  broken : ∀ e d h, Mid d h → Post (.error e) ⟨[], true⟩ d h

/-- What holds wherever the call may be stopped holds at its end. -/
instance : Fails Mid fun (_ : Except ε α) (_ : Tx W) d h => Mid d h := ⟨fun _ _ _ hmid => hmid⟩

/-- A query whose failure is not handled. -/
theorem await [Fails Mid Post] {q : Q} {f : Res q → Prog (Ans Res (M := M)) ε α} (hmid : Mid d h)
    (hok : ∀ inp resp, B.run q inp (B.store.applyAll ws d) = some resp →
      Alone B t Mid Post (f resp.answer) ⟨ws ++ resp.writes, false⟩ d h) :
    Alone B t Mid Post ((Prog.call (.query q)).bind f) ⟨ws, false⟩ d h := by
  rintro sv rfl rfl
  refine ⟨hmid, fun ch r s' sv' hp => ?_⟩
  cases perform_acts hp with
  | query inp resp hs hrun hl => exact hok inp resp hrun _ rfl rfl
  | refused inp hs => cases hs
  | lost e hs => exact Fails.broken e _ _ hmid

/-- A question to the world outside the database. -/
theorem ask {q : Q} {f : Res q → Prog (Ans Res (M := M)) ε α} (hq : B.statement q = false)
    (hmid : Mid d h) (hok : ∀ a, Alone B t Mid Post (f a) s d h) :
    Alone B t Mid Post ((Prog.call (.query q)).bind f) s d h := by
  rintro sv rfl rfl
  refine ⟨hmid, fun ch r s' sv' hp => ?_⟩
  cases ch with
  | ok inp =>
    simp only [Backend.perform, hq, Bool.false_and, Bool.false_eq_true, if_false] at hp
    cases hrun : B.run q inp (B.view s.writes sv) with
    | none => simp [hrun] at hp
    | some resp =>
      obtain ⟨a, rfl⟩ : ∃ a, resp = ⟨[], [], a⟩ := ⟨_, B.ask hrun hq⟩
      simp only [hrun, List.all_nil, if_true, List.append_nil, Option.some.injEq,
        Prod.mk.injEq] at hp
      obtain ⟨rfl, rfl, rfl⟩ := hp
      exact hok a _ rfl rfl
  | fail e => simp [Backend.perform, hq] at hp

/-- A commit whose failure is not handled. -/
theorem commit [Fails Mid Post] {f : Unit → Prog (Ans Res (M := M)) ε α} (hmid : Mid d h)
    (hok : Alone B t Mid Post (f ()) ⟨[], false⟩ (B.store.applyAll ws d)
      (h ++ B.publish t d ws)) :
    Alone B t Mid Post ((Prog.call .commit).bind f) ⟨ws, false⟩ d h := by
  rintro sv rfl rfl
  refine ⟨hmid, fun ch r s' sv' hp => ?_⟩
  cases perform_acts hp with
  | commit inp hs => exact hok _ rfl rfl
  | refused inp hs => cases hs
  | lost e hs => exact Fails.broken e _ _ hmid

/-- A statement in a broken session. -/
theorem refused [Fails Mid Post] {q : Q} {f : Res q → Prog (Ans Res (M := M)) ε α}
    (hq : B.statement q = true) (hmid : Mid d h) :
    Alone B t Mid Post ((Prog.call (.query q)).bind f) ⟨[], true⟩ d h := by
  rintro sv rfl rfl
  refine ⟨hmid, fun ch r s' sv' hp => ?_⟩
  cases perform_acts hp with
  | query inp resp hs hrun hl => cases hs hq
  | refused inp hs => exact Fails.broken _ _ _ hmid
  | lost e hs => cases hs

/-- Where the call of a service has been stopped: at its end, or before an action. -/
theorem stopped {p' : Prog (Ans Res (M := M)) ε α} {cs : List (Choice ε I)} {s' : Tx W}
    {sv sv' : Server D R M} (hp : Alone B t Mid Post p s sv.db sv.history)
    (hr : p.steps (B.perform t) cs s sv = some (p', s', sv')) :
    (∃ r, p'.result? = some r ∧ Post r s' sv'.db sv'.history) ∨
      p'.result? = none ∧ Mid sv'.db sv'.history := by
  have hp' := (hp sv rfl rfl).steps hr
  cases p' with
  | ret a => exact .inl ⟨_, rfl, hp'⟩
  | raise e => exact .inl ⟨_, rfl, hp'⟩
  | act o k => exact .inr ⟨rfl, hp'.1⟩

end Alone

/-- A call whose session has been broken by an exception that nothing handles does
not return. -/
theorem unbroken_of_returns {B : Backend Res ε I D W R V M} {t : ℕ} {E : ε → Prop}
    {p : Prog (Ans Res (M := M)) ε α} {cs : List (Choice ε I)} {a : α} {s s' : Tx W}
    {sv sv' : Server D R M} (hp : p.Propagates E) (hcs : ∀ e, .fail e ∈ cs → E e)
    (hs : s.broken = false) (hr : p.steps (B.perform t) cs s sv = some (.ret a, s', sv')) :
    s'.broken = false := by
  induction cs generalizing p s sv with
  | nil =>
    cases hr
    exact hs
  | cons c cs ih =>
    simp only [Prog.steps] at hr
    split at hr
    · rename_i p₁ s₁ sv₁ hstep
      obtain ⟨o, k, r, rfl, hperf, rfl⟩ := Prog.step?_eq_some _ hstep
      have hrest : ∀ e, .fail e ∈ cs → E e := fun e he => hcs e (List.mem_cons_of_mem _ he)
      cases perform_acts hperf with
      | refused inp hb =>
        rw [hs] at hb
        cases hb
      | lost e hb =>
        -- the program has raised, and there is no step after that
        rw [hp.1 e (hcs e List.mem_cons_self)] at hr
        cases cs with
        | nil => cases hr
        | cons c cs => cases hr
      | query inp resp hq hrun hl =>
        refine ih (hp.2 _) hrest ?_ hr
        exact hs
      | commit inp hb => exact ih (hp.2 _) hrest rfl hr
      | rollback inp => exact ih (hp.2 _) hrest rfl hr
      | note inp mark => exact ih (hp.2 _) hrest hs hr
    · cases hr

end Sql

end Concurrency
