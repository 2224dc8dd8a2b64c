/-
A call takes up each execution once.

A pass runs through the candidates that it has locked, all different, and a
call that has moved an execution to running never comes back to it.

* `candidates_inductive` — the step lemma.
-/
import GraphPilot.Invariants.Owners

namespace GraphPilot

open Python Concurrency Relational

/-- The candidates a call of the dispatcher has left. -/
def todo (p : Option Pass) : List Uuid := (p.map Pass.todo).getD []

/-- The executions that a call may still take up. -/
def Phase.ahead : Phase → List Uuid
  | .ready r => [r.executionId]
  | .running p _ (.owner _) => todo p
  | .running p r _ => r.executionId :: todo p
  | .returned p _ _ => todo p
  | .scanning p => p.todo
  | .candidate p x => x.id :: p.todo
  | .dispatching p x => x.id :: p.todo
  | .settling p _ _ _ => p.todo
  | .deciding p _ _ _ => p.todo
  | .retryable p _ _ _ => p.todo
  | .scheduling p _ _ _ => p.todo
  | .closed p _ _ => p.todo
  | _ => []

/-- The call has run nothing yet, or never will. -/
def Phase.virgin : Phase → Bool
  | .ready _ => true
  | .passStart _ _ => true
  | .cancelStart _ _ => true
  | .cancelRead _ _ _ => true
  | .cancelFlagged _ _ => true
  | .cancelDone _ _ => true
  | _ => false

theorem nodup_pendingRows {t limit : ℕ} {s : Session} {sh : Shared} :
    ((pendingRows t limit s sh).map (·.id)).Nodup := by
  unfold pendingRows
  refine List.Nodup.sublist ((List.take_sublist _ _).map _) ?_
  refine (List.Perm.nodup_iff ((List.perm_insertionSort _ _).map _)).mpr ?_
  exact List.Nodup.sublist (List.filter_sublist.map _) (s.view sh).executions.nodup

section Moves

variable {ph : Phase}

theorem ahead_running {p : Option Pass} {r : Run} {st : Stage} :
    (todo p).Sublist (Phase.running p r st).ahead := by
  cases st with
  | owner o => exact List.Sublist.refl _
  | _ => exact List.sublist_cons_self _ _

/-- Before the compare-and-set is committed the execution is still ahead. -/
theorem ahead_of_ne_owner {p : Option Pass} {r : Run} {st : Stage} (h : ∀ o, st ≠ .owner o) :
    r.executionId ∈ (Phase.running p r st).ahead := by
  cases st with
  | owner o => exact absurd rfl (h o)
  | _ => exact List.mem_cons_self

theorem ahead_of_between {p : Pass} (h : ph.between p) : p.todo.Sublist ph.ahead := by
  cases ph with
  | scanning p' => cases h; exact List.Sublist.refl _
  | candidate p' x => cases h; exact List.sublist_cons_self _ _
  | closed p' r st => cases h; exact List.Sublist.refl _
  | _ => cases h

end Moves

/-- What a call may still take up, it has not run. -/
structure Candidates (th : Phases Phase Session) (sh : Shared) : Prop where
  present : ∀ i e, .started i e ∈ sh.history → (th i).isSome
  virgin : ∀ i ph s e, th i = some (ph, s) → ph.virgin = true → .started i e ∉ sh.history
  nodup : ∀ i ph s, th i = some (ph, s) → ph.ahead.Nodup
  passed : ∀ i ph s e, th i = some (ph, s) → .started i e ∈ sh.history → e ∉ ph.ahead

namespace Turn

variable {th : Phases Phase Session} {t : ℕ} {s s' : Session} {sh sh' : Shared} {o : Op}
variable {r : Except Exn (Ans o)} {ph ph' : Phase} {c : Choice}
variable (h : Turn th sh t ph s o c r ph' s' sh')

include h

/-- A move takes nothing up that was not ahead, except at the start of a
pass. -/
theorem ahead : ph'.ahead.Sublist ph.ahead ∨ (ph.virgin = true ∧ ph'.ahead.Nodup) := by
  have hm := h.move
  have ha := h.acts
  have hp := h.perform
  have hcached := h.sound.cached
  have hsame : ph'.ahead = ph.ahead → ph'.ahead.Sublist ph.ahead ∨
      (ph.virgin = true ∧ ph'.ahead.Nodup) := fun he => Or.inl (he ▸ List.Sublist.refl _)
  cases hm with
  | gone => exact absurd rfl h.ne_gone
  | vanished => exact Or.inl (List.nil_sublist _)
  | @failedEarly p r st _ v hst =>
    refine hsame ?_
    cases st with
    | owner o => cases hst
    | _ => rfl
  | started => exact Or.inl (List.sublist_cons_self _ _)
  | leave => exact Or.inl ahead_running
  | @candidates policy now _ limit rows p hs hpol hn ht =>
    refine Or.inr ⟨rfl, ?_⟩
    show p.todo.Nodup
    rw [ht]
    cases ha with
    | quiet hq => cases hq
    | candidates => exact nodup_pendingRows
  | @read _ p _ id x rest hb ht =>
    obtain ⟨y, hy, he⟩ := hcached _ _ (read_answer hp)
    have hid : x.id = id := by
      rw [← id_of_execution? hy]
      exact (congrArg Run.executionId he).symm
    refine Or.inl ?_
    show (x.id :: rest).Sublist ph.ahead
    rw [hid, ← ht]
    exact ahead_of_between hb
  | get =>
    refine hsame ?_
    split <;> rfl
  | retryable =>
    refine hsame ?_
    split <;> rfl
  | _ => exact hsame rfl

theorem candidates_nodup (hinv : Candidates th sh) : ph'.ahead.Nodup := by
  rcases h.ahead with hsub | ⟨-, hnd⟩
  · exact (hinv.nodup _ _ _ h.here).sublist hsub
  · exact hnd

theorem candidates_passed (hown : Owners th sh) (hinv : Candidates th sh) {e : Uuid}
    (hmem : .started t e ∈ sh'.history) : e ∉ ph'.ahead := by
  have hold : .started t e ∈ sh.history → e ∉ ph'.ahead := by
    intro hmem he
    rcases h.ahead with hsub | ⟨hv, -⟩
    · exact hinv.passed _ _ _ _ h.here hmem (hsub.subset he)
    · exact hinv.virgin _ _ _ _ h.here hv hmem
  rcases h.acts.mem_history hmem with hmem | ⟨ms, hr, hmem⟩
  · exact hold hmem
  · obtain ⟨-, -, -, -, p, r₀, c₀, rfl, rfl, rfl⟩ := h.new_started hown hr hmem
    have hnd : (r₀.executionId :: todo p).Nodup := hinv.nodup _ _ _ h.here
    exact (List.nodup_cons.mp hnd).1

/-- A call that has run something is never again one that has not. -/
theorem virgin_back (hv : ph'.virgin = true) : ph.virgin = true := by
  have hm := h.move
  cases hm with
  | get => split at hv <;> cases hv
  | retryable => split at hv <;> cases hv
  | _ => first | exact hv | cases hv

theorem candidates_virgin (hown : Owners th sh) (hinv : Candidates th sh) {e : Uuid}
    (hv : ph'.virgin = true) : .started t e ∉ sh'.history := by
  intro hmem
  have hold := hinv.virgin _ _ _ e h.here (h.virgin_back hv)
  rcases h.acts.mem_history hmem with hmem | ⟨ms, hr, hmem⟩
  · exact hold hmem
  · obtain ⟨-, -, -, -, p, r₀, c₀, -, -, rfl⟩ := h.new_started hown hr hmem
    cases hv

/-- A start by another call is an old one. -/
theorem started_other (hown : Owners th sh) {j : ℕ} {e : Uuid} (hne : j ≠ t)
    (hmem : .started j e ∈ sh'.history) : .started j e ∈ sh.history := by
  rcases h.acts.mem_history hmem with hmem | ⟨ms, hr, hmem⟩
  · exact hmem
  · exact absurd (h.new_started hown hr hmem).1 hne

end Turn

/-- A call that has not moved an execution to running, and ends it, has not
done so before. -/
theorem Candidates.foreign {th : Phases Phase Session} {sh : Shared} {i : ℕ} {ph : Phase}
    {s : Session} {e : Uuid} (h : Candidates th sh) (hi : th i = some (ph, s))
    (hf : Foreign ph e) : .started i e ∉ sh.history := by
  cases hf with
  | early hst =>
    refine fun hmem => h.passed _ _ _ _ hi hmem (ahead_of_ne_owner fun o ho => ?_)
    subst ho
    cases hst
  | cancel => exact h.virgin _ _ _ _ hi rfl

/-- **No call takes an execution up again.** -/
theorem candidates_inductive :
    InductiveOver service Move Session.tx Phase.enter .stopped System.always
      (fun th sh => Base th sh ∧ Owners th sh) Candidates where
  start := by
    intro th sh call i _ hinv _ hnone
    have hno : ∀ e, .started i e ∉ sh.history := fun e hmem => by
      have := hinv.present i e hmem
      rw [hnone] at this
      cases this
    refine ⟨fun j e hmem => ?_, fun j ph s e hj hv => ?_, fun j ph s hj => ?_,
      fun j ph s e hj hmem => ?_⟩
    · rw [Phases.set_apply]
      split
      · rfl
      · exact hinv.present j e hmem
    · rw [Phases.set_apply] at hj
      split at hj
      · rename_i hji
        exact hji ▸ hno e
      · exact hinv.virgin j ph s e hj hv
    · rw [Phases.set_apply] at hj
      split at hj
      · cases hj
        cases call <;> simp [Phase.enter, Phase.ahead]
      · exact hinv.nodup j ph s hj
    · rw [Phases.set_apply] at hj
      split at hj
      · rename_i hji
        exact absurd (hji ▸ hmem) (hno e)
      · exact hinv.passed j ph s e hj hmem
  step := by
    intro th sh i ph ph' s s' sh' o c r hgiven hinv hi _ hp hm _
    obtain ⟨hb, hown⟩ := hgiven
    have h : Turn th sh i ph s o c r ph' s' sh' := ⟨hb, hi, hp, hm⟩
    refine ⟨fun j e hmem => ?_, fun j phj sj e hj hv => ?_, fun j phj sj hj => ?_,
      fun j phj sj e hj hmem => ?_⟩
    · rw [Phases.set_apply]
      split
      · rfl
      · rename_i hne
        exact hinv.present j e (h.started_other hown hne hmem)
    · rw [Phases.set_apply] at hj
      split at hj
      · rename_i hji
        cases hj
        exact hji ▸ h.candidates_virgin hown hinv hv
      · rename_i hne
        exact fun hmem => hinv.virgin j phj sj e hj hv (h.started_other hown hne hmem)
    · rw [Phases.set_apply] at hj
      split at hj
      · cases hj
        exact h.candidates_nodup hinv
      · exact hinv.nodup j phj sj hj
    · rw [Phases.set_apply] at hj
      split at hj
      · rename_i hji
        cases hj
        exact h.candidates_passed hown hinv (hji ▸ hmem)
      · rename_i hne
        exact hinv.passed j phj sj e hj (h.started_other hown hne hmem)
  stop := by
    intro th sh i ph s _ hinv hi _
    refine ⟨fun j e hmem => ?_, fun j ph₀ s₀ e hj hv => ?_, fun j ph₀ s₀ hj => ?_,
      fun j ph₀ s₀ e hj hmem => ?_⟩
    · rw [Phases.set_apply]
      split
      · rfl
      · exact hinv.present j e hmem
    · rw [Phases.set_apply] at hj
      split at hj
      · cases hj
        cases hv
      · exact hinv.virgin j ph₀ s₀ e hj hv
    · rw [Phases.set_apply] at hj
      split at hj
      · cases hj
        exact List.nodup_nil
      · exact hinv.nodup j ph₀ s₀ hj
    · rw [Phases.set_apply] at hj
      split at hj
      · cases hj
        exact List.not_mem_nil
      · exact hinv.passed j ph₀ s₀ e hj hmem

theorem candidates_initial (db : Database) : Candidates (fun _ => none) (Shared.initial db) where
  present i e hmem := by cases hmem
  virgin i ph s e hi := by cases hi
  nodup i ph s hi := by cases hi
  passed i ph s e hi := by cases hi

end GraphPilot
