/-
What becomes of an execution that has entered running.

A run goes on turn by turn until one event stops it (`Stop`), and the event says which
status and message the execution should end with.  `outcome_iff` says that it does, with
a single write of the status, unless the event is a refusal after a step: then the name
of the agent is read after the rollback, which raises, and the handler of `run_execution`
writes failed over cancelled (`refused_ends_failed`).

Each exit of a run builds its own `execution_complete` event, most of them from the row.
`completion_told_iff` says when the single event of a run agrees with the committed row:
always, unless the run has passed the maximum of iterations, where the event is built
from literals and tells no tokens (`iterations_tell_nothing`).
-/
import GraphPilot.Endings

namespace GraphPilot

open Python Concurrency Executor

variable {e workflowId tenantId : Uuid} {inputData : Json} {s s' : Session}
variable {before after : Option Summary} {cs : List (Choice × Shared)} {tr : Acted}
variable {p : Program Unit}

/-- The run has ended, and it had moved the execution to running. -/
def HasRun (p : Program Unit) (tr : Acted) : Prop := p.result?.isSome = true ∧ Claimed tr

/-- A run that has entered running, with what the session knows at its end. -/
theorem entered_of_steps (hs : s.Fits e before)
    (h : (runExecution e workflowId tenantId inputData).steps (undisturbed e) cs s (before, []) =
      some (p, s', after, tr)) (hrun : HasRun p tr) :
    ∃ c stop k', Reads workflowId tenantId tr c.workflow ∧ Entered e c inputData tr stop ∧
      Plays (Answered e) ⟨before, before, false⟩ tr k' ∧ k'.committed = after := by
  obtain ⟨own, k', heq, hplays, hknows, hgives⟩ := steps_known uses_runExecution hs.knows h
  obtain rfl : tr = own := heq
  obtain ⟨r, hr⟩ := Option.isSome_iff_exists.mp hrun.1
  obtain ⟨c, stop, hentered, hread⟩ :=
    runExecution_entered (Answered.raises hplays) (hgives r hr) hrun.2
  exact ⟨c, stop, k', hread, hentered, hplays, hknows.committed⟩

/-- The run has stopped on this event, and the row is as the event says: its status, its
message, and no other terminal status was ever written. -/
def EndsAs (e : Uuid) (c : Context) (inputData : Json) (before after : Option Summary)
    (tr : Acted) (stop : Stop) : Prop :=
  Entered e c inputData tr stop ∧ ∃ f f', before = some f ∧ after = some f' ∧ Leaves f tr stop f'

/-- The claim that the first stopping event decides the outcome. -/
def OutcomeFollows : Prop :=
  ∀ (e workflowId tenantId : Uuid) (inputData : Json) (s s' : Session)
    (before after : Option Summary) (cs : List (Choice × Shared)) (p : Program Unit) (tr : Acted),
    s.Fits e before →
    (runExecution e workflowId tenantId inputData).steps (undisturbed e) cs s (before, []) =
      some (p, s', after, tr) → HasRun p tr → ∃ c stop, EndsAs e c inputData before after tr stop

/-- An unfinished run goes on as soon as no row is locked. -/
theorem goes_on (hs : s.Fits e before)
    (h : (runExecution e workflowId tenantId inputData).steps (undisturbed e) cs s (before, []) =
      some (p, s', after, tr)) (hp : p.result? = none) {sh : Shared}
    (hrow : sh.db.summary e = after) (hlocks : ∀ row, sh.lockable 0 row = true) :
    ∃ c, (p.step? (undisturbed e) (c, sh) s' (after, tr)).isSome := by
  obtain ⟨own, k', -, -, hknows, -⟩ := steps_known uses_runExecution hs.knows h
  have huses := uses_runExecution.steps h
  cases p with
  | ret a => cases hp
  | raise exc => cases hp
  | act o k =>
    obtain ⟨c, hc⟩ := performSoundly_isSome huses.1 hknows.unbroken hlocks
    refine ⟨c, ?_⟩
    simpa only [Prog.step?, undisturbed, besides, hrow, if_true, Option.isSome_map] using hc

/-- **The outcome of a run is that of the event that stops it, exactly when this is not a
refusal after a step**; and every run ends. -/
theorem outcome_iff (hs : s.Fits e before) :
    (∀ env : ℕ → Choice × Shared, ∃ n, (runExecution e workflowId tenantId inputData).steps
      (undisturbed e) ((List.range n).map env) s (before, []) = none) ∧
    ∀ {cs p s' after tr},
      (runExecution e workflowId tenantId inputData).steps (undisturbed e) cs s (before, []) =
        some (p, s', after, tr) →
      (p.result? = none → ∀ sh : Shared, sh.db.summary e = after →
        (∀ row, sh.lockable 0 row = true) →
        ∃ c, (p.step? (undisturbed e) (c, sh) s' (after, tr)).isSome) ∧
      (HasRun p tr → ∃ c stop, Entered e c inputData tr stop ∧
        (EndsAs e c inputData before after tr stop ↔ stop ≠ .refused)) := by
  refine ⟨fun env => Prog.steps_end _ env _ _, fun h => ⟨fun hp sh hrow hlocks => ?_, ?_⟩⟩
  · exact goes_on hs h hp hrow hlocks
  · intro hrun
    obtain ⟨c, stop, k', -, hentered, hplays, rfl⟩ := entered_of_steps hs h hrun
    obtain ⟨f, f', hf, hf', -, hends⟩ := hentered.ending hplays
    refine ⟨c, stop, hentered, fun hends' => ?_, fun hstop => ?_⟩
    · rintro rfl
      rcases hends with ⟨hne, -⟩ | ⟨-, htwice⟩
      · exact hne rfl
      · -- cancelled is written, and then failed
        obtain ⟨-, f₁, f₂, -, -, honce⟩ := hends'
        have htwo := honce.once
        rw [htwice] at htwo
        cases htwo
    · rcases hends with ⟨-, hends⟩ | ⟨heq, -⟩
      · exact ⟨hentered, f, f', hf, hf', hends⟩
      · exact absurd heq hstop

namespace Sample

/-- The agent answers with more tokens than the tenant has left. -/
def expensiveResult : AgentResult := { agentResult with inputTokens := 200 }

/-- The answers up to the end of the agent's step, the refusal, the failed read and the
handler. -/
def refusedAnswers : List Choice :=
  List.replicate 5 Choice.ok ++ [Choice.time noon] ++ List.replicate 7 Choice.ok ++
    [Choice.agent expensiveResult] ++ List.replicate 3 Choice.ok ++ [Choice.time noon] ++
    List.replicate 4 Choice.ok ++ [Choice.time noon] ++ List.replicate 7 Choice.ok

/-- The run of the execution that the service has created. -/
def run : Program Unit := runExecution ⟨"e"⟩ ⟨"w"⟩ ⟨"t"⟩ .null

/-- The same when the agent's tokens are within the budget and the connector answers. -/
def completedAnswers : List Choice :=
  List.replicate 5 Choice.ok ++ [Choice.time noon] ++ List.replicate 7 Choice.ok ++
    [Choice.agent agentResult] ++ List.replicate 9 Choice.ok ++
    [Choice.connector connectorResult] ++ List.replicate 3 Choice.ok ++ [Choice.time noon] ++
    List.replicate 5 Choice.ok

/-- Where the run is when the others do nothing. -/
def ranBy {K : Type} [DecidableEq K] (key : Shared → K) (db : Database) (cs : List Choice) :
    Option (Program Unit × Session × K × Acted) :=
  run.steps (besides performSoundly key) (run.found performSoundly cs .fresh (.initial db)) .fresh
    (key (.initial db), [])

/-- A run that the kernel carries out. -/
theorem exists_of_ranBy {K : Type} [DecidableEq K] {key : Shared → K} {db : Database}
    {cs : List Choice} {P : K → Acted → Prop} [∀ after tr, Decidable (P after tr)]
    (h : ((ranBy key db cs).any fun x =>
      x.1.result?.isSome && decide (Claimed x.2.2.2 ∧ P x.2.2.1 x.2.2.2)) = true) :
    ∃ p s after tr, ranBy key db cs = some (p, s, after, tr) ∧ HasRun p tr ∧ P after tr := by
  obtain ⟨⟨p, s, after, tr⟩, hran, hend⟩ := (Option.any_eq_true _ _).mp h
  rw [Bool.and_eq_true, decide_eq_true_eq] at hend
  exact ⟨p, s, after, tr, hran, ⟨hend.1, hend.2.1⟩, hend.2.2⟩

/-- The row of the execution. -/
def row (sh : Shared) : Option Summary := sh.db.summary ⟨"e"⟩

end Sample

/-- After the refusal the execution ends failed, with the error of the read. -/
theorem refused_ends_failed : ¬ OutcomeFollows := by
  intro h
  have hran : ((Sample.ranBy Sample.row Sample.database Sample.refusedAnswers).any fun x =>
      x.1.result?.isSome && decide (Claimed x.2.2.2 ∧
        (concluded x.2.2.2 = [.cancelled, .failed] ∧ x.2.2.1.map (·.status) = some .failed))) =
      true := by decide +kernel
  obtain ⟨p, s', after, tr, hsteps, hrun, htwice, -⟩ := Sample.exists_of_ranBy
    (P := fun (after : Option Summary) tr => concluded tr = [.cancelled, .failed] ∧
      after.map (·.status) = some .failed) hran
  obtain ⟨c, stop, -, f, f', -, -, hends⟩ :=
    h _ _ _ _ _ _ _ _ _ _ _ Session.fresh_fits hsteps hrun
  have honce := congrArg List.length hends.once
  rw [htwice] at honce
  cases honce

/-- A run of the small workflow, to its completion. -/
theorem outcome_iff_completed : ∃ cs p s' after tr,
    Sample.run.steps (undisturbed ⟨"e"⟩) cs .fresh (Sample.database.summary ⟨"e"⟩, []) =
      some (p, s', after, tr) ∧ after.map (·.status) = some .completed ∧
    ∃ c stop, Entered ⟨"e"⟩ c .null tr stop ∧
      (EndsAs ⟨"e"⟩ c .null (Sample.database.summary ⟨"e"⟩) after tr stop ↔ stop ≠ .refused) := by
  have hran : ((Sample.ranBy Sample.row Sample.database Sample.completedAnswers).any fun x =>
      x.1.result?.isSome && decide (Claimed x.2.2.2 ∧
        x.2.2.1.map (·.status) = some .completed)) = true := by decide +kernel
  obtain ⟨p, s', after, tr, hsteps, hrun, hstatus⟩ := Sample.exists_of_ranBy
    (P := fun (after : Option Summary) _ => after.map (·.status) = some .completed) hran
  exact ⟨_, p, s', after, tr, hsteps, hstatus,
    ((outcome_iff Session.fresh_fits).2 hsteps).2 hrun⟩

/-! ### The completion event -/

/-- Exactly one completion event has been broadcast, as the last event, with the status
and the tokens of the committed row. -/
def CompletionTold (after : Option Summary) (tr : Acted) : Prop :=
  ∃ f, after = some f ∧ Announces tr f.status f.totalTokens

/-- The claim that every run that has entered running tells its end so. -/
def CompletionsTold : Prop :=
  ∀ (e workflowId tenantId : Uuid) (inputData : Json) (s s' : Session)
    (before after : Option Summary) (cs : List (Choice × Shared)) (p : Program Unit) (tr : Acted),
    s.Fits e before →
    (runExecution e workflowId tenantId inputData).steps (undisturbed e) cs s (before, []) =
      some (p, s', after, tr) → HasRun p tr → CompletionTold after tr

/-- A trace announces one end. -/
theorem announces_unique {tr : Acted} {status status' : Status} {m m' : ℤ}
    (h : Announces tr status m) (h' : Announces tr status' m') : status = status' ∧ m = m' := by
  obtain ⟨events, event, hevents, -, hevent⟩ := h
  obtain ⟨events', event', hevents', -, hevent'⟩ := h'
  rw [hevents] at hevents'
  obtain ⟨-, hlast⟩ := List.append_inj' hevents' rfl
  cases hlast
  rw [hevent] at hevent'
  cases hevent'
  exact ⟨rfl, rfl⟩

/-- **The completion event agrees with the row, exactly when the run has not passed the
maximum of iterations after spending tokens.** -/
theorem completion_told_iff (hs : s.Fits e before)
    (h : (runExecution e workflowId tenantId inputData).steps (undisturbed e) cs s (before, []) =
      some (p, s', after, tr)) (hrun : HasRun p tr) :
    ∃ c stop f, Entered e c inputData tr stop ∧ before = some f ∧
      (CompletionTold after tr ↔ (stop = .iterations → f.totalTokens + spent tr = 0)) := by
  obtain ⟨c, stop, k', -, hentered, hplays, rfl⟩ := entered_of_steps hs h hrun
  obtain ⟨f, f', hf, hf', hreports, -⟩ := hentered.ending hplays
  refine ⟨c, stop, f, hentered, hf, fun htold hstop => ?_, fun hspent => ⟨f', hf', ?_⟩⟩
  · obtain ⟨f₁, hf₁, htold⟩ := htold
    rw [hf'] at hf₁
    cases hf₁
    rcases hreports with ⟨hne, -⟩ | ⟨-, hzero, htotal⟩
    · exact absurd hstop hne
    · -- nothing is told of the tokens, so there are none
      rw [← htotal]
      exact (announces_unique htold hzero).2
  · rcases hreports with ⟨-, htold⟩ | ⟨hstop, hzero, htotal⟩
    · exact htold
    · rw [htotal, hspent hstop]
      exact hzero

namespace Sample

/-- An agent that hands the work to itself, in a cyclic workflow. -/
def cyclicDatabase : Database :=
  { database with
    workflows := ⟨[{ workflow with
      executionPattern := "cyclic"
      definition := some {
        nodes := [⟨.str "a", .str "agent", none⟩], edges := [⟨.str "a", .str "a", none⟩] } }],
      List.nodup_singleton _⟩ }

/-- Ten steps of the agent, and an iteration too many. -/
def cyclicAnswers : List Choice :=
  List.replicate 5 Choice.ok ++ [Choice.time noon] ++ List.replicate 2 Choice.ok ++
    (List.replicate 10 (List.replicate 5 Choice.ok ++ [Choice.agent agentResult] ++
    List.replicate 5 Choice.ok)).flatten ++ [Choice.ok, Choice.time noon] ++
    List.replicate 6 Choice.ok

/-- The run has spent seventy tokens, and tells none. -/
def TellsNothing (after : Option Summary) (tr : Acted) : Prop :=
  after.map (·.totalTokens) = some 70 ∧ completions tr = [(.failed, 0)]

instance {after : Option Summary} {tr : Acted} : Decidable (TellsNothing after tr) :=
  inferInstanceAs (Decidable (_ ∧ _))

end Sample

/-- After too many iterations the event tells other tokens than the row. -/
theorem iterations_tell_nothing : ¬ CompletionsTold := by
  intro h
  have hran : ((Sample.ranBy Sample.row Sample.cyclicDatabase Sample.cyclicAnswers).any fun x =>
      x.1.result?.isSome && decide (Claimed x.2.2.2 ∧ Sample.TellsNothing x.2.2.1 x.2.2.2)) =
      true := by decide +kernel
  obtain ⟨p, s', after, tr, hsteps, hrun, htokens, hcompletions⟩ := Sample.exists_of_ranBy hran
  obtain ⟨f, rfl, events, event, hevents, hnone, hevent⟩ :=
    h _ _ _ _ _ _ _ _ _ _ _ Session.fresh_fits hsteps hrun
  have hsilent : events.filterMap completion? = [] := List.filterMap_eq_nil_iff.mpr hnone
  have hlast : completions tr = [(f.status, f.totalTokens)] := by
    unfold completions
    rw [hevents, List.filterMap_append, hsilent, List.nil_append, List.filterMap_cons, hevent]
    rfl
  rw [hlast, List.cons.injEq, Prod.mk.injEq] at hcompletions
  have hseventy : f.totalTokens = 70 := Option.some.inj htokens
  have hzero : f.totalTokens = 0 := hcompletions.1.2
  omega

/-- A run of the small workflow tells its end. -/
theorem completion_told_completed : ∃ cs p s' after tr,
    Sample.run.steps (undisturbed ⟨"e"⟩) cs .fresh (Sample.database.summary ⟨"e"⟩, []) =
      some (p, s', after, tr) ∧ completions tr = [(.completed, 7)] ∧
    ∃ c stop f, Entered ⟨"e"⟩ c .null tr stop ∧ Sample.database.summary ⟨"e"⟩ = some f ∧
      (CompletionTold after tr ↔ (stop = .iterations → f.totalTokens + spent tr = 0)) := by
  have hran : ((Sample.ranBy Sample.row Sample.database Sample.completedAnswers).any fun x =>
      x.1.result?.isSome && decide (Claimed x.2.2.2 ∧ completions x.2.2.2 = [(.completed, 7)])) =
      true := by decide +kernel
  obtain ⟨p, s', after, tr, hsteps, hrun, htold⟩ := Sample.exists_of_ranBy
    (P := fun _ tr => completions tr = [(.completed, 7)]) hran
  exact ⟨_, p, s', after, tr, hsteps, htold, completion_told_iff Session.fresh_fits hsteps hrun⟩

end GraphPilot
