/-
A fix suggestion is applied once at most, if no status is written over `applied`.

Each of the four calls of the workflow doctor reads the status of a suggestion and
writes another one later, without a lock or a second look.  Two calls of
`apply_suggestion` that have both read it before either commits apply it twice, with
two retries (`applied_twice`), and the same way a dismissal or a replay takes an
applied suggestion back.

`suggestion_applied_once` is the exact repair: where no call commits a new status
of a suggestion that is committed as applied, every suggestion is applied once at
most and stays applied.
-/
import GraphPilot.Doctor.Outlines

namespace GraphPilot.Doctor

open Python Relational Concurrency
open Intake (SuggestionStatus)

/-- The suggestion is committed as applied. -/
def IsApplied (db : Database) (id : Uuid) : Prop :=
  (suggestion? db id).map (·.status) = some .applied

instance (db : Database) (id : Uuid) : Decidable (IsApplied db id) :=
  inferInstanceAs (Decidable (_ = _))

/-- Every application is of another suggestion, which is still applied, and has
retried one execution at most. -/
structure AppliedOnce (db : Database) (history : List Application) : Prop where
  applied : ∀ m ∈ history, IsApplied db m.suggestionId
  once : (history.map (·.suggestionId)).Nodup
  retried : ∀ m ∈ history, m.retries.length ≤ 1

/-- What is applied stays so. -/
def StaysApplied (db db' : Database) : Prop := ∀ id, IsApplied db id → IsApplied db' id

/-- The claim that no suggestion is applied twice and none is taken back. -/
def SuggestionAppliedOnce : Prop :=
  ∀ (host : Host) (db : Database) (c : Configuration),
    (system host).Reaches System.always (service.initial db) c →
      AppliedOnce c.shared.db c.shared.history ∧
      ∀ c', (system host).Reaches System.always c c' → StaysApplied c.shared.db c'.shared.db

/-! ### Two calls at once -/

namespace Sample

def host : Host where
  lower := id
  split text := [text]
  str _ := ""
  dumps _ := ""
  equal _ _ := true
  sortedKeys _ := .ok ""
  uuid text := some ⟨text⟩
  searchUnsupportedModel _ := none

def noon : DateTime := ⟨43200000000, DateTime.noon_inRange⟩

/-- A failed execution. -/
def execution : Execution :=
  ⟨⟨"e"⟩, ⟨"t"⟩, ⟨"w"⟩, .failed, .null, .null, 0, 0, none, none, none, noon⟩

/-- Its diagnosis, which has nothing to patch. -/
def suggestion : WorkflowFixSuggestion :=
  { newSuggestion ⟨"t"⟩ ⟨"s"⟩ ⟨"w"⟩ ⟨"e"⟩
      { detectorCode := "", title := "", rootCause := "", recommendation := "", severity := "",
        confidence := 0 } noon with status := .proposed }

def database : Database :=
  Tables.insert (Tables.insert (fun _ => .empty) .executions execution) .suggestions suggestion

/-- The next row is called `r`. -/
def world (r : String) : ∀ a, Answer a
  | .utcNow => noon
  | .now => noon
  | .uuid4 => ⟨r⟩

abbrev Move : Type := Event Call (Sql.Choice Exn (Sql.Input Answer))

/-- The call `i` asks `n` questions. -/
def asks (i n : ℕ) : List Move :=
  List.replicate n (.step i (.ok (.answers (world ("r" ++ toString i)))))

/-- The call `i` goes through `n` statements or commits. -/
def runs (i n : ℕ) : List Move := List.replicate n (.step i (.ok .nothing))

/-- The call retries the execution, applies the suggestion and commits. -/
def applies (i : ℕ) : List Move := runs i 1 ++ asks i 2 ++ runs i 1 ++ asks i 2 ++ runs i 2

def applyCall : Call := .apply ⟨"t"⟩ ⟨"s"⟩ ⟨"u"⟩ true

/-- Both calls read the suggestion before either applies it. -/
def bothRead : List Move :=
  [Event.start applyCall, Event.start applyCall] ++ runs 0 1 ++ runs 1 1 ++ applies 0 ++ applies 1

end Sample

/-- Two calls apply one suggestion, and each retries the execution. -/
theorem applied_twice : ¬ SuggestionAppliedOnce := by
  intro h
  obtain ⟨c, hc, hhistory⟩ := (system Sample.host).exists_reaches System.always Sample.bothRead
    (c := service.initial Sample.database)
    (P := fun c => c.shared.history = [⟨0, ⟨"s"⟩, [⟨"r0"⟩]⟩, ⟨1, ⟨"s"⟩, [⟨"r1"⟩]⟩])
    (by decide +kernel)
  have honce := (h _ _ c hc).1.once
  rw [hhistory] at honce
  simp at honce

/-! ### The condition -/

/-- The suggestion whose status a write changes. -/
def status? : Write → Option Uuid
  | .update .suggestions id v => if v.status.isSome then some id else none
  | _ => none

/-- The condition: when a call commits another status of a suggestion, it is not
committed as applied. -/
def Unapplied : Condition := service.atCommit fun ws db =>
  ∀ id ∈ ws.filterMap status?, ¬ IsApplied db id

instance (t : ℕ) (x : Option (Sql.Op (Sql.Query Tenancy.RowOf ValuesOf Uuid Ask) Application ×
    Sql.Choice Exn (Sql.Input Answer))) (s : Sql.Tx Write) (sv : Server) :
    Decidable (Unapplied t x s sv) :=
  inferInstanceAs (Decidable (service.atCommit _ t x s sv))

/-! ### Writes -/

section Writes

variable {db : Database} {w : Write} {ws : List Write} {id : Uuid}

theorem isApplied_of_eq {db' : Database} (h : suggestion? db' id = suggestion? db id) :
    IsApplied db' id ↔ IsApplied db id := by
  unfold IsApplied
  rw [h]

/-- A write that does not change its status leaves a suggestion applied. -/
theorem isApplied_apply (h : IsApplied db id) (hkeeps : Keeps w) (hw : status? w ≠ some id) :
    IsApplied (w.apply db) id := by
  obtain ⟨x, hx, hstatus⟩ := Option.map_eq_some_iff.mp h
  by_cases hrow : w.row = (.suggestions, id)
  · cases w with
    | insert n y =>
      obtain ⟨rfl, hkey⟩ := Prod.mk.inj hrow
      refine (isApplied_of_eq ?_).mpr h
      -- the key is in use
      refine Table.find?_insert_eq.trans (if_neg fun hnew => ?_)
      have hnone : suggestion? db id = none := hkey ▸ hnew.2
      rw [hx] at hnone
      cases hnone
    | update n k v =>
      obtain ⟨rfl, rfl⟩ := Prod.mk.inj hrow
      have hsame : v.status = none := by
        by_contra hne
        exact hw (if_pos (Option.isSome_iff_ne_none.mpr hne))
      have hfind : suggestion? (Sql.RowWrite.apply (.update .suggestions k v : Write) db) k =
          (suggestion? db k).map v.apply :=
        (Sql.find?_update (f := v.apply) fun _ => rfl).trans (if_pos rfl)
      unfold IsApplied
      rw [hfind, hx]
      show some (v.status.getD x.status) = _
      rw [hsame, ← hstatus]
      rfl
    | delete n k => cases hkeeps
  · exact (isApplied_of_eq (Sql.rowAt_eq.mp (Sql.rowAt_apply_of_ne hrow))).mpr h

theorem isApplied_applyAll (hkeeps : ∀ w ∈ ws, Keeps w) (hws : id ∉ ws.filterMap status?)
    (h : IsApplied db id) : IsApplied (service.backend.store.applyAll ws db) id := by
  induction ws generalizing db with
  | nil => exact h
  | cons w ws ih =>
    have hw : status? w ≠ some id := by
      intro hw
      exact hws (List.mem_filterMap.mpr ⟨w, List.mem_cons_self, hw⟩)
    refine ih (fun x hx => hkeeps x (List.mem_cons_of_mem _ hx)) (fun hmem => ?_)
      (isApplied_apply h (hkeeps w List.mem_cons_self) hw)
    obtain ⟨x, hx, hid⟩ := List.mem_filterMap.mp hmem
    exact hws (List.mem_filterMap.mpr ⟨x, List.mem_cons_of_mem _ hx, hid⟩)

/-- A suggestion is still there after a write that deletes nothing. -/
theorem suggestion_apply (hkeeps : Keeps w) (h : (suggestion? db id).isSome) :
    (suggestion? (w.apply db) id).isSome := by
  by_cases hrow : w.row = (.suggestions, id)
  · cases w with
    | insert n y =>
      obtain ⟨rfl, hkey⟩ := Prod.mk.inj hrow
      show (((db .suggestions).insert y).find? id).isSome
      rw [Table.find?_insert_eq]
      split
      · rfl
      · exact h
    | update n k v =>
      obtain ⟨rfl, rfl⟩ := Prod.mk.inj hrow
      show (((db .suggestions).update (fun x => Keyed.key x = k) v.apply fun _ => rfl).find?
        k).isSome
      rw [Sql.find?_update (f := v.apply) fun _ => rfl, if_pos rfl, Option.isSome_map]
      exact h
    | delete n k => cases hkeeps
  · have hsame : suggestion? (w.apply db) id = suggestion? db id :=
      Sql.rowAt_eq.mp (Sql.rowAt_apply_of_ne hrow)
    rw [hsame]
    exact h

theorem suggestion_applyAll (hkeeps : ∀ w ∈ ws, Keeps w) (h : (suggestion? db id).isSome) :
    (suggestion? (service.backend.store.applyAll ws db) id).isSome := by
  induction ws generalizing db with
  | nil => exact h
  | cons w ws ih =>
    have hrest : ∀ x ∈ ws, Keeps x := fun x hx => hkeeps x (List.mem_cons_of_mem _ hx)
    exact ih hrest (suggestion_apply (hkeeps w List.mem_cons_self) h)

/-- The suggestion that an `UPDATE` applies. -/
theorem isApplied_update {v : SuggestionValues} (hv : v.status = some .applied)
    (h : (suggestion? db id).isSome) :
    IsApplied (Sql.RowWrite.apply (.update .suggestions id v : Write) db) id := by
  obtain ⟨x, hx⟩ := Option.isSome_iff_exists.mp h
  have hfind : suggestion? (Sql.RowWrite.apply (.update .suggestions id v : Write) db) id =
      (suggestion? db id).map v.apply :=
    (Sql.find?_update (f := v.apply) fun _ => rfl).trans (if_pos rfl)
  unfold IsApplied
  rw [hfind, hx]
  show some (v.status.getD x.status) = _
  rw [hv]
  rfl

end Writes

/-! ### The promise -/

/-- The calls share that suggestions are applied once, and rely on it that no
suggestion goes away and that the applied ones stay applied. -/
def promise : Sql.Promise (R := Tenancy.TableName × Uuid) Database Application where
  inv db history := AppliedOnce db history
  rely _ _ db _ db' _ := StaysApplied db db' ∧
    ∀ id, (suggestion? db id).isSome → (suggestion? db' id).isSome
  rely_refl _ _ _ _ := ⟨fun _ h => h, fun _ h => h⟩
  rely_trans h h' := ⟨fun id hid => h'.1 id (h.1 id hid), fun id hid => h'.2 id (h.2 id hid)⟩
  rely_mono _ h := h

/-- What any commit under the condition leaves applied, or there at all. -/
theorem stays_of_unapplied {t : ℕ} {ws : List Write} {sv : Server} {inp : Sql.Input Answer}
    (hkeeps : ∀ w ∈ ws, Keeps w) (hc : Unapplied t (some (.commit, .ok inp)) ⟨ws, false⟩ sv) :
    StaysApplied sv.db (service.backend.view ws sv) ∧
      ∀ id, (suggestion? sv.db id).isSome → (suggestion? (service.backend.view ws sv) id).isSome := by
  refine ⟨fun id h => isApplied_applyAll hkeeps (fun hid => ?_) h,
    fun id h => suggestion_applyAll hkeeps h⟩
  exact hc id hid h

theorem commits_transactions : CommitsTransactions promise Unapplied where
  quiet := by
    intro t ws sv inp hinv hws hc
    have hstays := stays_of_unapplied (fun w hw => (hws w hw).keeps) hc
    have hnone : ws.filterMap applied? = [] :=
      List.filterMap_eq_nil_iff.mpr fun w hw => (hws w hw).applied
    refine ⟨?_, fun j _ => hstays⟩
    -- nothing enters the history
    have hpublish : service.backend.publish t sv.db ws = [] := by
      show (ws.filterMap applied?).map _ = []
      rw [hnone]
      rfl
    rw [hpublish, List.append_nil]
    exact ⟨fun m hm => hstays.1 _ (hinv.applied m hm), hinv.once, hinv.retried⟩
  applies := by
    intro t ws sv inp id v hinv hws hthere hv hc
    have hkeeps : ∀ w ∈ ws ++ [.update .suggestions id v], Keeps w := by
      intro w hw
      rcases List.mem_append.mp hw with hw | hw
      · exact (hws.patches w hw).keeps
      · rw [List.mem_singleton.mp hw]
        trivial
    have hstays := stays_of_unapplied hkeeps hc
    refine ⟨?_, fun j _ => hstays⟩
    have happlied : IsApplied (service.backend.view (ws ++ [.update .suggestions id v]) sv) id := by
      show IsApplied (service.backend.store.applyAll _ sv.db) id
      rw [Store.applyAll_append]
      exact isApplied_update hv (by rwa [hws.suggestion?])
    -- by the condition the suggestion was not applied, and so it has no entry yet
    have hnew : ∀ m ∈ sv.history, m.suggestionId ≠ id := by
      intro m hm heq
      refine hc id ?_ (heq ▸ hinv.applied m hm)
      refine List.mem_filterMap.mpr ⟨_, List.mem_append_right _ List.mem_cons_self, ?_⟩
      simp [status?, hv]
    have hpublish : service.backend.publish t sv.db (ws ++ [.update .suggestions id v]) =
        [⟨t, id, ws.filterMap execution?⟩] := by
      have hnone : ws.filterMap applied? = [] := by
        refine List.filterMap_eq_nil_iff.mpr fun w hw => ?_
        have helse := (hws.patches w hw).elsewhere
        cases w with
        | insert n x => rfl
        | delete n k => rfl
        | update n k v => cases n <;> first | rfl | exact absurd rfl helse
      show ((ws ++ [_]).filterMap applied?).map _ = _
      simp [hnone, applied?, hv, execution?]
    rw [hpublish]
    constructor
    · intro m hm
      rcases List.mem_append.mp hm with hm | hm
      · exact hstays.1 _ (hinv.applied m hm)
      · rw [List.mem_singleton.mp hm]
        exact happlied
    · rw [List.map_append, List.nodup_append]
      refine ⟨hinv.once, List.nodup_singleton _, fun a ha b hb => ?_⟩
      obtain ⟨m, hm, rfl⟩ := List.mem_map.mp ha
      rw [List.mem_singleton.mp hb]
      exact hnew m hm
    · intro m hm
      rcases List.mem_append.mp hm with hm | hm
      · exact hinv.retried m hm
      · rw [List.mem_singleton.mp hm]
        exact hws.retries
  stays h hsome := h.2 _ hsome

/-- Where no call commits another status of a suggestion that is committed as
applied, every suggestion is applied once at most, with one retry at most, and stays
applied. -/
theorem suggestion_applied_once (host : Host) {db : Database} {c : Configuration}
    (h : (system host).Reaches Unapplied (service.initial db) c) :
    AppliedOnce c.shared.db c.shared.history ∧
      ∀ c', (system host).Reaches Unapplied c c' → StaysApplied c.shared.db c'.shared.db := by
  let C := promise.contract service.backend (Call.program host) (fun _ _ => true) Unapplied
  have hinit : C.inv (.initial db) := ⟨fun m hm => (by cases hm), List.nodup_nil,
    fun m hm => (by cases hm)⟩
  have hcalls : ∀ call i sv, C.inv sv → (system host).admits sv call = true →
      Outline C i Concurrency.Ends ((system host).program call) (system host).fresh sv :=
    fun call i sv _ _ => call_goes commits_transactions call
  have hholds : C.Holds c := Contract.reaches hcalls hinit h
  exact ⟨hholds.inv, fun c' hc' => (hholds.rely_reaches hcalls hc' _ le_rfl).promise.1⟩

/-- One call applies the suggestion, and another one that has not read it yet is
refused. -/
theorem suggestion_applied_once_refused : ∃ c,
    (system Sample.host).Reaches Unapplied (service.initial Sample.database) c ∧
      c.shared.history = [⟨0, ⟨"s"⟩, [⟨"r0"⟩]⟩] ∧ AppliedOnce c.shared.db c.shared.history := by
  obtain ⟨c, hc, hhistory⟩ := (system Sample.host).exists_reaches Unapplied
    ([Event.start Sample.applyCall, Event.start Sample.applyCall] ++ Sample.runs 0 1 ++ Sample.applies 0 ++
      Sample.runs 1 1)
    (c := service.initial Sample.database)
    (P := fun c => c.shared.history = [⟨0, ⟨"s"⟩, [⟨"r0"⟩]⟩]) (by decide +kernel)
  exact ⟨c, hc, hhistory, (suggestion_applied_once Sample.host hc).1⟩

end GraphPilot.Doctor
