/-
What each action leaves alone.

Consequences of `Acts`, one for each part of the state: whose locks and writes
an action touches, that only a commit changes the committed rows, what it adds
to the history, and where loaded instances and answers come from.
-/
import GraphPilot.Conformance.Services

namespace GraphPilot

open Python Concurrency Relational

section Acts

variable {t t' : ℕ} {s s' : Session} {sh sh' : Shared} {o : Op} {r : Except Exn (Ans o)}

theorem lockable_iff {row : Row} :
    sh.lockable t row = true ↔ sh.locks row = none ∨ sh.locks row = some t := by
  simp [Shared.lockable]

theorem locks_lock (row row' : Row) :
    (sh.lock t row).locks row' = if row' = row then some t else sh.locks row' := by
  simp [Shared.lock, Function.update_apply]

theorem locks_release (row : Row) :
    (sh.release t).locks row = if sh.locks row = some t then none else sh.locks row := rfl

@[simp] theorem lock_db (row : Row) : (sh.lock t row).db = sh.db := rfl

@[simp] theorem release_db : (sh.release t).db = sh.db := rfl

@[simp] theorem lock_history (row : Row) : (sh.lock t row).history = sh.history := rfl

@[simp] theorem release_history : (sh.release t).history = sh.history := rfl

@[simp] theorem lock_active (row : Row) : (sh.lock t row).active = sh.active := rfl

@[simp] theorem release_active : (sh.release t).active = sh.active := rfl

/-! ### What a session sees -/

theorem view_of_writes {s₁ : Session} {sh₁ : Shared} (hw : s₁.tx.writes = s.tx.writes)
    (hdb : sh₁.db = sh.db) : s₁.view sh₁ = s.view sh := by
  unfold Session.view
  rw [hw, hdb]

@[simp] theorem view_push (w : Write) : (s.push w).view sh = (s.view sh).write w := by
  unfold Session.view
  rw [push_tx, Store.applyAll_append]
  rfl

@[simp] theorem view_sync (id : Uuid) (b : Bool) (v : ExecutionValues) :
    (s.sync id b v).view sh = s.view sh := view_of_writes (by rw [sync_tx]) rfl

@[simp] theorem view_syncTenant (id : Uuid) (n : ℤ) :
    (s.syncTenant id n).view sh = s.view sh := view_of_writes (by rw [syncTenant_tx]) rfl

@[simp] theorem view_lock (row : Row) : s.view (sh.lock t row) = s.view sh := rfl

/-! ### Locks and writes -/

theorem lockRows_spec (rows : List Execution) :
    (lockRows t rows sh).db = sh.db ∧ (lockRows t rows sh).active = sh.active ∧
      (lockRows t rows sh).history = sh.history ∧
      ∀ row, (lockRows t rows sh).locks row =
        if ∃ x ∈ rows, row = .execution x.id then some t else sh.locks row := by
  induction rows generalizing sh with
  | nil => simp [lockRows]
  | cons x rows ih =>
    obtain ⟨h1, h2, h3, h4⟩ := @ih (sh.lock t (.execution x.id))
    refine ⟨h1, h2, h3, fun row => ?_⟩
    rw [show (lockRows t (x :: rows) sh) = lockRows t rows (sh.lock t (.execution x.id)) from rfl,
      h4, locks_lock]
    by_cases hx : row = .execution x.id
    · simp [hx]
    · simp [hx]

theorem mem_pendingRows {limit : ℕ} {x : Execution} (h : x ∈ pendingRows t limit s sh) :
    (s.view sh).execution? x.id = some x ∧ x.status = .pending ∧
      sh.lockable t (.execution x.id) = true := by
  have hx := (List.mem_insertionSort _).mp (List.mem_of_mem_take h)
  obtain ⟨hrow, hp⟩ := List.mem_filter.mp hx
  simp only [Bool.and_eq_true, decide_eq_true_eq] at hp
  exact ⟨Table.find?_of_mem hrow, hp.1, hp.2⟩

/-- Nobody else's locks are touched. -/
theorem Acts.locks_other (h : Acts t s sh o r s' sh') (hne : t' ≠ t) (row : Row) :
    sh'.locks row = some t' ↔ sh.locks row = some t' := by
  have hrel : ∀ sh : Shared, (sh.release t).locks row = some t' ↔ sh.locks row = some t' := by
    intro sh
    rw [locks_release]
    split
    · rename_i hl
      simp [hl, Ne.symm hne]
    · exact Iff.rfl
  have hlock : ∀ row₀, sh.lockable t row₀ = true →
      ((sh.lock t row₀).locks row = some t' ↔ sh.locks row = some t') := by
    intro row₀ hl
    rw [locks_lock]
    split
    · rename_i heq
      subst heq
      rcases lockable_iff.mp hl with hl | hl <;> simp [hl, Ne.symm hne]
    · exact Iff.rfl
  cases h with
  | lost => exact hrel sh
  | refused => exact Iff.rfl
  | raised => exact Iff.rfl
  | quiet _ _ _ _ _ hl => rw [hl]
  | put => exact Iff.rfl
  | pop => exact Iff.rfl
  | flagged => exact Iff.rfl
  | unregistered => exact Iff.rfl
  | note => exact Iff.rfl
  | updated x hs hx hl => exact hlock _ hl
  | missed => exact Iff.rfl
  | charged x hs hx hl => exact hlock _ hl
  | unaffordable => exact Iff.rfl
  | log => exact Iff.rfl
  | ignored => exact Iff.rfl
  | inserted id at_ hs hid hl => exact hlock _ hl
  | commit => exact hrel sh
  | rollback => exact hrel sh
  | @candidates limit hs =>
    rw [(lockRows_spec _).2.2.2]
    split
    · rename_i hx
      obtain ⟨x, hx, rfl⟩ := hx
      rcases lockable_iff.mp (mem_pendingRows hx).2.2 with hl | hl <;> simp [hl, Ne.symm hne]
    · exact Iff.rfl

/-- A call keeps the locks of its own writes. -/
theorem Acts.owns (h : Acts t s sh o r s' sh') (hown : store.Owns t s.tx.writes sh.locks) :
    store.Owns t s'.tx.writes sh'.locks := by
  have hlock : ∀ (w : Write) (row₀ : Row), w.row? = some row₀ →
      store.Owns t (s.tx.writes ++ [w]) (sh.lock t row₀).locks := by
    intro w row₀ hw
    refine Store.Owns.concat (hown.mono fun row hl => ?_) fun row hrow => ?_
    · rw [locks_lock]
      split <;> simp [hl]
    · rw [store_row?, hw] at hrow
      cases hrow
      simp [locks_lock]
  cases h with
  | lost => exact Store.Owns.nil
  | refused => exact hown
  | raised => exact hown
  | quiet _ _ _ htx _ hl => rw [htx, hl]; exact hown
  | put => exact hown
  | pop => exact hown
  | flagged => exact hown
  | unregistered => exact hown
  | note => exact hown
  | updated x hs hx hl => simpa using hlock (.updateExecution _ _) _ rfl
  | missed => simpa using hown
  | charged x hs hx hl => simpa using hlock (.addTokens _ _) _ rfl
  | unaffordable => simpa using hown
  | log l =>
    split
    · exact hown
    · exact hown.concat fun row hrow => by cases hrow
  | ignored => exact hown
  | inserted id at_ hs hid hl => simpa using hlock (.insertExecution (newExecution id _ _ _ at_)) (.execution id) rfl
  | commit => exact Store.Owns.nil
  | rollback => exact Store.Owns.nil
  | candidates hs =>
    refine hown.mono fun row hl => ?_
    rw [(lockRows_spec _).2.2.2]
    split <;> simp [hl]

/-- A session that is down has no writes. -/
theorem Acts.clean (h : Acts t s sh o r s' sh') (hclean : s.tx.broken = true → s.tx.writes = []) :
    s'.tx.broken = true → s'.tx.writes = [] := by
  cases h with
  | lost => simp
  | refused => exact hclean
  | raised => exact hclean
  | quiet _ _ _ htx => rw [htx]; exact hclean
  | put => exact hclean
  | pop => exact hclean
  | flagged => exact hclean
  | unregistered => exact hclean
  | note => exact hclean
  | updated x hs => simp [hs]
  | missed hs => simp [hs]
  | charged x hs => simp [hs]
  | unaffordable hs => simp [hs]
  | log l =>
    split
    · exact hclean
    · rename_i hb
      simp [hb]
  | ignored => exact hclean
  | inserted id at_ hs => simp [hs]
  | commit => simp
  | rollback => simp
  | candidates hs => simp [hs]

/-- A commit that has succeeded. -/
inductive Commits (t : ℕ) (s : Session) (sh sh' : Shared) : (o : Op) → Except Exn (Ans o) → Prop where
  | mk (hs : s.tx.broken = false) (hdb : sh'.db = s.view sh)
      (hh : sh'.history = sh.history ++ startedBy t s.tx.writes) : Commits t s sh sh' .commit (.ok ())

/-- Only a commit changes the committed rows. -/
theorem Acts.db (h : Acts t s sh o r s' sh') : sh'.db = sh.db ∨ Commits t s sh sh' o r := by
  cases h with
  | quiet _ _ _ _ hdb => exact Or.inl hdb
  | commit hs => exact Or.inr ⟨hs, rfl, rfl⟩
  | candidates hs => exact Or.inl (lockRows_spec _).1
  | _ => exact Or.inl rfl

theorem Acts.db_of_ne_commit (h : Acts t s sh o r s' sh') (ho : o ≠ .commit) :
    sh'.db = sh.db := by
  rcases h.db with hdb | hc
  · exact hdb
  · cases hc
    exact absurd rfl ho

/-- Nothing is pending right after a commit. -/
theorem Acts.db_of_pending (h : Acts t s sh o r s' sh') {w : Write} (hw : w ∈ s'.tx.writes) :
    sh'.db = sh.db := by
  cases h with
  | quiet _ _ _ _ hdb => exact hdb
  | commit => cases hw
  | candidates => exact (lockRows_spec _).1
  | _ => rfl

theorem Acts.commits {a : Unit} (h : Acts t s sh .commit (.ok a) s' sh') :
    Commits t s sh sh' .commit (.ok a) := by
  cases h with
  | quiet hq => cases hq
  | commit hs => exact ⟨hs, rfl, rfl⟩

theorem mem_startedBy {ws : List Write} {m : Mark} (h : m ∈ startedBy t ws) :
    ∃ id v, .updateExecution id v ∈ ws ∧ v.status = some .running ∧ m = .started t id := by
  obtain ⟨w, hw, hm⟩ := List.mem_filterMap.mp h
  cases w with
  | updateExecution id v =>
    simp only [Option.ite_none_right_eq_some, Option.some.injEq] at hm
    exact ⟨id, v, hw, hm.1, hm.2.symm⟩
  | _ => cases hm

/-- What is recorded: a mark, or the executions that a commit has started. -/
inductive Records (t : ℕ) (s : Session) : (o : Op) → Except Exn (Ans o) → List Mark → Prop where
  | note (mark : ℕ → Mark) : Records t s (.note mark) (.ok ()) [mark t]
  | commit : Records t s .commit (.ok ()) (startedBy t s.tx.writes)

theorem Acts.history (h : Acts t s sh o r s' sh') :
    sh'.history = sh.history ∨ ∃ ms, Records t s o r ms ∧ sh'.history = sh.history ++ ms := by
  cases h with
  | quiet _ _ _ _ _ _ _ hh => exact Or.inl hh
  | note mark => exact Or.inr ⟨_, .note mark, rfl⟩
  | commit hs => exact Or.inr ⟨_, .commit, rfl⟩
  | candidates hs => exact Or.inl (lockRows_spec _).2.2.1
  | _ => exact Or.inl rfl

theorem Acts.history_mono (h : Acts t s sh o r s' sh') {m : Mark} (hm : m ∈ sh.history) :
    m ∈ sh'.history := by
  rcases h.history with hh | ⟨ms, -, hh⟩ <;> rw [hh] <;> simp [hm]

/-- A mark is an old one or one of this action. -/
theorem Acts.mem_history (h : Acts t s sh o r s' sh') {m : Mark} (hm : m ∈ sh'.history) :
    m ∈ sh.history ∨ ∃ ms, Records t s o r ms ∧ m ∈ ms := by
  rcases h.history with hh | ⟨ms, hr, hh⟩
  · exact .inl (hh ▸ hm)
  · rw [hh, List.mem_append] at hm
    exact hm.imp id fun hm => ⟨ms, hr, hm⟩

/-- A change of `_active_executions`. -/
inductive Registers (sh : Shared) : (o : Op) → Except Exn (Ans o) → (String → Option Bool) → Prop where
  | put (key : String) :
    Registers sh (.activePut key) (.ok ()) (Function.update sh.active key (some false))
  | pop (key : String) : Registers sh (.activePop key) (.ok ()) (Function.update sh.active key none)
  | flag (key : String) (b : Bool) (h : sh.active key = some b) :
    Registers sh (.requestCancel key) (.ok true) (Function.update sh.active key (some true))

theorem Acts.active (h : Acts t s sh o r s' sh') :
    sh'.active = sh.active ∨ Registers sh o r sh'.active := by
  cases h with
  | quiet _ _ _ _ _ _ hact => exact Or.inl hact
  | put key => exact Or.inr (.put key)
  | pop key => exact Or.inr (.pop key)
  | flagged key b hb => exact Or.inr (.flag key b hb)
  | candidates => exact Or.inl (lockRows_spec _).2.1
  | _ => exact Or.inl rfl

/-- An `UPDATE executions` that has matched a row. -/
inductive Updates (s : Session) (sh : Shared) (id : Uuid) (v : ExecutionValues) :
    (o : Op) → Except Exn (Ans o) → Prop where
  | mk {b x} (hs : s.tx.broken = false) (hx : Matches s sh id b x) :
      Updates s sh id v (.updateExecution id b v) (.ok 1)

/-- Where the pending updates of executions come from. -/
theorem Acts.new_update (h : Acts t s sh o r s' sh') {id : Uuid} {v : ExecutionValues}
    (hw : .updateExecution id v ∈ s'.tx.writes) :
    .updateExecution id v ∈ s.tx.writes ∨ Updates s sh id v o r := by
  cases h with
  | lost => cases hw
  | refused => exact Or.inl hw
  | raised => exact Or.inl hw
  | quiet _ _ _ htx => exact Or.inl (htx ▸ hw)
  | put => exact Or.inl hw
  | pop => exact Or.inl hw
  | flagged => exact Or.inl hw
  | unregistered => exact Or.inl hw
  | note => exact Or.inl hw
  | updated x hs hx hl =>
    simp only [push_tx, sync_tx, List.mem_append, List.mem_singleton,
      Write.updateExecution.injEq] at hw
    rcases hw with hw | ⟨rfl, rfl⟩
    · exact Or.inl hw
    · exact Or.inr ⟨hs, hx⟩
  | missed => exact Or.inl (by simpa using hw)
  | charged => exact Or.inl (by simpa using hw)
  | unaffordable => exact Or.inl (by simpa using hw)
  | log l =>
    split at hw
    · exact Or.inl hw
    · exact Or.inl (by simpa using hw)
  | ignored => exact Or.inl hw
  | inserted => exact Or.inl (by simpa using hw)
  | commit => cases hw
  | rollback => cases hw
  | candidates => exact Or.inl hw

/-- A pending charge is of a tenant that the call has seen. -/
theorem Acts.new_charge (h : Acts t s sh o r s' sh') {id : Uuid} {n : ℤ}
    (hw : .addTokens id n ∈ s'.tx.writes) :
    .addTokens id n ∈ s.tx.writes ∨ ((s.view sh).tenant? id).isSome := by
  cases h with
  | lost => cases hw
  | quiet _ _ _ htx => exact Or.inl (htx ▸ hw)
  | updated => exact Or.inl (by simpa using hw)
  | missed => exact Or.inl (by simpa using hw)
  | charged x hs hx hl =>
    simp only [push_tx, syncTenant_tx, List.mem_append, List.mem_singleton,
      Write.addTokens.injEq] at hw
    rcases hw with hw | ⟨rfl, rfl⟩
    · exact Or.inl hw
    · exact Or.inr (by rw [hx.1]; rfl)
  | unaffordable => exact Or.inl (by simpa using hw)
  | log l =>
    split at hw
    · exact Or.inl hw
    · exact Or.inl (by simpa using hw)
  | inserted => exact Or.inl (by simpa using hw)
  | commit => cases hw
  | rollback => cases hw
  | _ => exact Or.inl hw

/-- The commit of another call does not touch a row whose lock is held. -/
theorem Acts.value_other (h : Acts t s sh o r s' sh')
    (hown : store.Owns t s.tx.writes sh.locks) {row : Row} (hl : sh.locks row = some t')
    (hne : t' ≠ t) : sh'.db.value row = sh.db.value row := by
  rcases h.db with hdb | ⟨-, hdb, -⟩
  · rw [hdb]
  · rw [hdb]
    exact Store.value_commit_of_ne hown (by rw [hl]; simpa using hne)

end Acts

/-! ### Instances -/

section Instances

variable {t : ℕ} {s s' : Session} {sh sh' : Shared} {o : Op} {r : Except Exn (Ans o)}

theorem lookup_map_some {rows : List Execution} {id : Uuid} {x : Execution}
    (h : (rows.map fun x => (x.id, some x)).lookup id = some (some x)) : x ∈ rows ∧ x.id = id := by
  induction rows with
  | nil => cases h
  | cons y rows ih =>
    rw [List.map_cons, List.lookup_cons] at h
    by_cases hy : id = y.id
    · subst hy
      simp only [BEq.rfl] at h
      cases h
      exact ⟨by simp, rfl⟩
    · have hne : (id == y.id) = false := by simpa using hy
      rw [hne] at h
      obtain ⟨hx, hid⟩ := ih h
      exact ⟨by simp [hx], hid⟩

theorem instance?_expireAll (id : Uuid) (x : Execution) :
    s.expireAll.instance? id ≠ some (some x) := by
  unfold Session.expireAll Session.instance?
  simp only
  induction s.instances with
  | nil => simp
  | cons p l ih =>
    rw [List.map_cons, List.lookup_cons]
    split
    · simp
    · exact ih

theorem instance?_sync {id id' : Uuid} {b : Bool} {v : ExecutionValues} {x : Execution}
    (h : (s.sync id b v).instance? id' = some (some x)) :
    s.instance? id' = some (some x) ∨
      ∃ y, id' = id ∧ s.instance? id = some (some y) ∧ x = v.apply y ∧
        (b = true → y.status = .pending) := by
  unfold Session.sync at h
  split at h
  · rename_i y hy
    split at h
    · exact Or.inl h
    · rename_i hb
      rw [instance?_setInstance] at h
      split at h
      · rename_i hid
        simp only [Option.some.injEq] at h
        refine Or.inr ⟨y, hid, hy, h.symm, fun hb' => ?_⟩
        simpa [hb'] using hb
      · exact Or.inl h
  · exact Or.inl h

/-- Where the instances of a session come from: they were there, perhaps with other
values, or they have been loaded. -/
theorem Acts.instance_from (h : Acts t s sh o r s' sh') {id : Uuid} {x : Execution}
    (hx : s'.instance? id = some (some x)) :
    s.instance? id = some (some x) ∨
      (∃ b v y, o = .updateExecution id b v ∧ s.instance? id = some (some y) ∧ x = v.apply y) ∨
      ((s.view sh).execution? id = some x ∧ ∃ a, r = .ok a) := by
  have htenant : ∀ id' n, (s.syncTenant id' n).instance? id = s.instance? id := by
    intro id' n
    unfold Session.syncTenant Session.instance?
    split
    · split <;> rfl
    · rfl
  cases h with
  | lost expire =>
    unfold Session.fail at hx
    cases expire with
    | true => exact absurd hx (instance?_expireAll id x)
    | false => exact .inl hx
  | refused => exact .inl hx
  | raised => exact .inl hx
  | quiet _ _ _ _ _ _ _ _ hi =>
    rcases hi id x hx with h | h
    · exact .inl h
    · exact .inr (.inr ⟨h, _, rfl⟩)
  | put => exact .inl hx
  | pop => exact .inl hx
  | flagged => exact .inl hx
  | unregistered => exact .inl hx
  | note => exact .inl hx
  | updated =>
    rcases instance?_sync hx with h | ⟨y, rfl, hy, rfl, -⟩
    · exact .inl h
    · exact .inr (.inl ⟨_, _, y, rfl, hy, rfl⟩)
  | missed =>
    rcases instance?_sync hx with h | ⟨y, rfl, hy, rfl, -⟩
    · exact .inl h
    · exact .inr (.inl ⟨_, _, y, rfl, hy, rfl⟩)
  | charged => exact .inl (by rw [← htenant]; exact hx)
  | unaffordable => exact .inl (by rw [← htenant]; exact hx)
  | log l =>
    split at hx
    · exact .inl hx
    · exact .inl hx
  | ignored => exact .inl hx
  | inserted => exact .inl hx
  | commit => exact .inl hx
  | rollback => exact absurd hx (instance?_expireAll id x)
  | candidates hs =>
    obtain ⟨hmem, rfl⟩ := lookup_map_some hx
    exact .inr (.inr ⟨(mem_pendingRows hmem).1, _, rfl⟩)

/-- The identity columns of an instance stay. -/
theorem Acts.instance (h : Acts t s sh o r s' sh') {id : Uuid} {x : Execution}
    (hx : s'.instance? id = some (some x)) :
    (∃ y, s.instance? id = some (some y) ∧ Run.of y = Run.of x) ∨
      ((s.view sh).execution? id = some x ∧ ∃ a, r = .ok a) := by
  rcases h.instance_from hx with hold | ⟨b, v, y, -, hy, rfl⟩ | hrow
  · exact .inl ⟨x, hold, rfl⟩
  · exact .inl ⟨y, hy, rfl⟩
  · exact .inr hrow

/-- What an action that only reads, or that fails, leaves pending and loaded. -/
theorem Acts.reads (h : Acts t s sh o r s' sh') (hq : o.quiet = true ∨ ∃ exc, r = .error exc) :
    (s'.tx.writes = s.tx.writes ∨ s'.tx.writes = []) ∧ ∀ id x, s'.instance? id = some (some x) →
      s.instance? id = some (some x) ∨ (s.view sh).execution? id = some x := by
  cases h with
  | lost expire =>
    refine ⟨Or.inr rfl, fun id x hx => ?_⟩
    unfold Session.fail at hx
    cases expire with
    | true => exact absurd hx (instance?_expireAll id x)
    | false => exact Or.inl hx
  | refused => exact ⟨Or.inl rfl, fun _ _ => Or.inl⟩
  | raised => exact ⟨Or.inl rfl, fun _ _ => Or.inl⟩
  | quiet _ _ _ htx _ _ _ _ hi => exact ⟨Or.inl (by rw [htx]), hi⟩
  | _ =>
    rcases hq with hq | ⟨exc, hq⟩
    · cases hq
    · cases hq

/-! ### Answers that are rows -/

variable {c : Choice} {id : Uuid} {x : Execution}

theorem read_answer {a : Ans (.readExecution id)}
    (h : perform t (.readExecution id) c s sh = some (.ok a, s', sh')) :
    s.instance? id = some (some a) := by
  cases c <;> simp only [perform, reduceCtorEq] at h
  split at h
  · rename_i x hx
    cases h
    exact hx
  · cases h

theorem isCancelled_answer {key : String} {b : Ans (.isCancelled key)}
    (h : perform t (.isCancelled key) c s sh = some (.ok b, s', sh')) :
    b = (sh.active key).getD false := by
  cases c <;> simp only [perform, reduceCtorEq] at h
  cases h
  rfl

/-- Making a mark does not fail. -/
theorem not_acts_note_error (mark : ℕ → Mark) (exc : Exn) :
    ¬ Acts t s sh (.note mark) (.error exc) s' sh' := by
  intro h
  cases h with
  | lost expire hb => cases hb
  | refused hst => cases hst
  | raised hr => cases hr

theorem select_answer {hold : Bool}
    (h : selectExecutionRow hold id s sh = some (.ok (some x), s', sh')) :
    ((s.view sh).execution? id).isSome ∧
      (s.instance? id = some (some x) ∨ (s.view sh).execution? id = some x) := by
  unfold selectExecutionRow at h
  split at h
  · cases h
  · rename_i hv hi
    cases h
    exact ⟨by rw [hv]; rfl, Or.inl hi⟩
  · rename_i hv _
    cases h
    exact ⟨by rw [hv]; rfl, Or.inr hv⟩
  · rename_i hv _
    cases h
    exact ⟨by rw [hv]; rfl, Or.inr hv⟩

/-- A statement that has answered has been resolved so. -/
theorem statement_choice {α : Type} {run : Outcome α} {a : α}
    (h : statement t c s sh run = some (.ok a, s', sh')) : c = .ok := by
  cases c with
  | ok => rfl
  | dbError message expire =>
    simp only [statement] at h
    split at h <;> cases h
  | _ => cases h

/-- A statement that has answered. -/
theorem statement_ok {α : Type} {run : Outcome α} {a : α}
    (h : statement t c s sh run = some (.ok a, s', sh')) :
    s.tx.broken = false ∧ run = some (.ok a, s', sh') := by
  rcases statement_eq_some h with h | ⟨-, exc, he, -⟩ | ⟨-, exc, expire, he, -⟩
  · exact h
  · cases he
  · cases he

theorem get_answer (h : perform t (.getExecution id) c s sh = some (.ok (some x), s', sh')) :
    s.instance? id = some (some x) ∨ (s.view sh).execution? id = some x := by
  simp only [perform] at h
  split at h
  · rename_i hi
    cases h
    exact Or.inl hi
  · cases h
  · exact (select_answer (statement_ok h).2).2

theorem load_answer {tn : Uuid}
    (h : perform t (.loadExecution tn id) c s sh = some (.ok (some x), s', sh')) :
    ((s.view sh).execution? id).isSome ∧
      (s.instance? id = some (some x) ∨ (s.view sh).execution? id = some x) := by
  simp only [perform] at h
  have hrun := (statement_ok h).2
  split at hrun
  · split at hrun
    · exact select_answer hrun
    · cases hrun
  · cases hrun

end Instances

end GraphPilot
