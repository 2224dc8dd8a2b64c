/-
What holds of every row of a table, through the calls of the services.

`Keeps I m` says that a call that starts in a session with the invariant `I` ends in
one, however it ends.  `AllRows n P` is the invariant that every row of the table `n`
satisfies `P`, whether committed or not.

* `Keeps.bind`, `keeps_select`, `keeps_insert`, `keeps_save`, `keeps_commit` — one rule
  for each construct;
* `Leads.bind`, `Leads.andThen` — from one invariant to another;
* `exec_bind_ok`, `scalarOneOrNone_ok`, `insert_ok` — what a call that has returned did;
* `rows_of_run` — a whole call, from the committed rows to the committed rows.
-/
import GraphPilot.Tenancy.Executions

namespace GraphPilot.Tenancy

open Relational TwoRuns

/-- The call keeps the invariant of the session. -/
def Keeps {α : Type} (I : Session → Prop) (m : Service α) : Prop := ∀ s, I s → I (exec m s).2

/-- Every row of the table satisfies `P`. -/
structure AllRows (n : TableName) (P : RowOf n → Prop) (s : Session) : Prop where
  rows : ∀ x ∈ (s.rows n).rows, P x
  committed : ∀ x ∈ (s.committed n).rows, P x

section Rules

variable {α β : Type} {I : Session → Prop} {m : Service α} {f : α → Service β} {e : Exn}

theorem keeps_pure {a : α} : Keeps I (pure a) := fun _ hs => hs

theorem keeps_throw : Keeps I (throw e : Service α) := fun _ hs => hs

theorem Keeps.bind (hm : Keeps I m) (hf : ∀ a, Keeps I (f a)) : Keeps I (m >>= f) := by
  intro s hs
  rw [exec_bind]
  have hs' := hm s hs
  rcases hr : exec m s with ⟨_ | a, s'⟩
  · rw [hr] at hs'
    exact hs'
  · rw [hr] at hs'
    exact hf a s' hs'

theorem keeps_discard (hm : Keeps I m) : Keeps I (discard m) := hm.bind fun _ => keeps_pure

theorem keeps_raiseIf {c : Prop} [Decidable c] : Keeps I (raiseIf c e) := by
  unfold raiseIf
  split
  · exact keeps_throw
  · exact keeps_pure

theorem keeps_check {x : Option Exn} : Keeps I (check x) := by
  cases x with
  | none => exact keeps_pure
  | some e => exact keeps_throw

theorem keeps_found {x : Option α} : Keeps I (found e x) := by
  cases x with
  | none => exact keeps_throw
  | some a => exact keeps_pure

theorem keeps_select {n : TableName} {p : RowOf n → Bool} : Keeps I (select n p) :=
  fun _ hs => hs

theorem keeps_scalarOneOrNone {n : TableName} {p : RowOf n → Bool} :
    Keeps I (scalarOneOrNone n p) := by
  refine keeps_select.bind fun rows => ?_
  match rows with
  | [] => exact keeps_pure
  | [_] => exact keeps_pure
  | _ :: _ :: _ => exact keeps_throw

theorem keeps_refresh {n : TableName} {id : Uuid} : Keeps I (refresh n id) :=
  keeps_scalarOneOrNone.bind fun _ => keeps_found

theorem keeps_checkReferences {refs : List (TableName × Uuid)} : Keeps I (checkReferences refs) :=
  Keeps.bind (fun _ hs => hs) fun _ => keeps_raiseIf

theorem keeps_getWorkflow {tenantId workflowId : Uuid} :
    Keeps I (getWorkflow tenantId workflowId) :=
  keeps_scalarOneOrNone.bind fun _ => keeps_found

theorem keeps_checkWorkflowLimit {tenantId : Uuid} : Keeps I (checkWorkflowLimit tenantId) :=
  keeps_scalarOneOrNone.bind fun _ => keeps_found.bind fun _ =>
    keeps_select.bind fun _ => keeps_raiseIf

end Rules

/-- From a session with `I` the call ends in one with `J`, however it ends. -/
def Leads {α : Type} (I J : Session → Prop) (m : Service α) : Prop := ∀ s, I s → J (exec m s).2

section Leads

variable {α β : Type} {I J : Session → Prop} {m : Service α} {f : α → Service β}

/-- Code that keeps `I`, and what comes after it. -/
theorem Leads.bind (hm : Keeps I m) (hIJ : ∀ s, I s → J s) (hf : ∀ a, Leads I J (f a)) :
    Leads I J (m >>= f) := by
  intro s hs
  rw [exec_bind]
  have hs' := hm s hs
  rcases hr : exec m s with ⟨_ | a, s'⟩
  · rw [hr] at hs'
    exact hIJ s' hs'
  · rw [hr] at hs'
    exact hf a s' hs'

/-- Code that leads to `J`, and what keeps it. -/
theorem Leads.andThen (hm : Leads I J m) (hf : ∀ a, Keeps J (f a)) : Leads I J (m >>= f) := by
  intro s hs
  rw [exec_bind]
  have hs' := hm s hs
  rcases hr : exec m s with ⟨_ | a, s'⟩
  · rw [hr] at hs'
    exact hs'
  · rw [hr] at hs'
    exact hf a s' hs'

theorem keeps_ofExcept {r : Except Exn α} : Keeps I (ofExcept r) := by
  cases r with
  | ok a => exact keeps_pure
  | error e => exact keeps_throw

/-- A value that a helper has to answer. -/
theorem Leads.ofExcept {r : Except Exn α} (hIJ : ∀ s, I s → J s)
    (hf : ∀ a, r = .ok a → Leads I J (f a)) : Leads I J (ofExcept r >>= f) := by
  intro s hs
  cases r with
  | ok a => exact hf a rfl s hs
  | error e => exact hIJ s hs

end Leads

/-! ### Calls that have returned -/

section Returns

variable {α β : Type} {m : Service α} {f : α → Service β} {s s' : Session} {e : Exn}

/-- In sequence: both parts have returned. -/
theorem exec_bind_ok {b : β} (h : exec (m >>= f) s = (.ok b, s')) :
    ∃ a s₁, exec m s = (.ok a, s₁) ∧ exec (f a) s₁ = (.ok b, s') := by
  rw [exec_bind] at h
  rcases hm : exec m s with ⟨_ | a, s₁⟩
  · rw [hm] at h
    cases h
  · rw [hm] at h
    exact ⟨a, s₁, rfl, h⟩

theorem raiseIf_ok {c : Prop} [Decidable c] {u : Unit} (h : exec (raiseIf c e) s = (.ok u, s')) :
    ¬ c ∧ s' = s := by
  unfold raiseIf at h
  split at h
  · cases h
  · rename_i hc
    cases h
    exact ⟨hc, rfl⟩

theorem found_ok {x : Option α} {a : α} (h : exec (found e x) s = (.ok a, s')) :
    x = some a ∧ s' = s := by
  cases x with
  | none => cases h
  | some b =>
    cases h
    exact ⟨rfl, rfl⟩

theorem scalarOneOrNone_ok {n : TableName} {p : RowOf n → Bool} {x : Option (RowOf n)}
    (h : exec (scalarOneOrNone n p) s = (.ok x, s')) :
    s' = s ∧ ∀ y ∈ x, y ∈ (s.rows n).rows ∧ p y = true := by
  obtain ⟨rows, s₁, hrows, h₁⟩ := exec_bind_ok h
  cases hrows
  split at h₁
  · cases h₁
    exact ⟨rfl, nofun⟩
  · rename_i y hone
    cases h₁
    refine ⟨rfl, fun z hz => ?_⟩
    cases hz
    have hmem : y ∈ (s.rows n).rows.filter p := by
      rw [hone]
      exact List.mem_cons_self
    exact List.mem_filter.mp hmem
  · cases h₁

/-- A row that has been inserted is the only one of its key. -/
theorem insert_ok {n : TableName} {x : RowOf n} {clash : RowOf n → Bool} {u : Unit}
    (h : exec (insert n x clash) s = (.ok u, s')) :
    (∀ y ∈ (s.rows n).rows, rowId n y ≠ rowId n x) ∧
      s' = { s with rows := s.rows.insert n x } := by
  obtain ⟨rows, s₁, hrows, h₁⟩ := exec_bind_ok h
  cases hrows
  obtain ⟨_, s₂, hraise, h₂⟩ := exec_bind_ok h₁
  obtain ⟨hnone, rfl⟩ := raiseIf_ok hraise
  obtain ⟨_, s₃, hrefs, h₃⟩ := exec_bind_ok h₂
  obtain ⟨ok, s₄, hok, h₄⟩ := exec_bind_ok hrefs
  cases hok
  obtain ⟨-, rfl⟩ := raiseIf_ok h₄
  cases h₃
  refine ⟨fun y hy heq => ?_, rfl⟩
  refine hnone (List.ne_nil_of_mem (a := y) (List.mem_filter.mpr ⟨hy, ?_⟩))
  rw [Bool.or_eq_true, decide_eq_true_eq]
  exact .inl heq

end Returns

/-! ### The rows of a table -/

section Rows

variable {n : TableName} {P : RowOf n → Prop} {α : Type}

theorem keeps_commit : Keeps (AllRows n P) commit := fun _ hs => ⟨hs.rows, hs.rows⟩

theorem keeps_insert {x : RowOf n} {clash : RowOf n → Bool} (hx : P x) :
    Keeps (AllRows n P) (insert n x clash) := by
  refine keeps_select.bind fun _ => keeps_raiseIf.bind fun _ => ?_
  refine keeps_checkReferences.bind fun _ s hs => ⟨?_, hs.committed⟩
  intro y hy
  change y ∈ (s.rows.insert n x n).rows at hy
  rw [Tables.insert_self] at hy
  cases hfind : (s.rows n).find? (Keyed.key x) with
  | none =>
    rw [Table.rows_insert hfind, List.mem_append, List.mem_singleton] at hy
    rcases hy with hy | rfl
    · exact hs.rows y hy
    · exact hx
  | some z =>
    rw [Table.insert_of_mem (by rw [hfind]; rfl)] at hy
    exact hs.rows y hy

/-- A flush of columns of which `P` knows. -/
theorem keeps_save {host : Host} {x : RowOf n} {c : Change n}
    (hc : ∀ y, P y → P (touch host.now n (c.apply y))) :
    Keeps (AllRows n P) (save host n x c) := by
  intro s hs
  refine ⟨fun y hy => ?_, hs.committed⟩
  change y ∈ (s.rows.update n (fun z => decide (rowId n z = rowId n x)) (c.flushed host).apply
    (c.flushed host).rowId_apply n).rows at hy
  rw [Tables.update_self, Table.rows_update] at hy
  obtain ⟨z, hz, rfl⟩ := List.mem_map.mp hy
  have hPz := hs.rows z hz
  split
  · show P (if host.changed z (c.apply z) then touch host.now n (c.apply z) else z)
    split
    · exact hc z hPz
    · exact hPz
  · exact hPz

/-- A whole call. -/
theorem rows_of_run {m : Service α} {s : State} (hm : Keeps (AllRows n P) m)
    (hs : ∀ x ∈ (s.db n).rows, P x) : ∀ x ∈ ((run m s).2.db n).rows, P x :=
  (hm ⟨s.db, s.db, s.active⟩ ⟨hs, hs⟩).committed

end Rows

/-! ### A sample host -/

namespace Sample

/-- It is noon, the next row is called `r`, and every name is unknown. -/
def host : Host where
  utcNow := ⟨43200000000, Python.DateTime.noon_inRange⟩
  now := ⟨43200000000, Python.DateTime.noon_inRange⟩
  freshId := ⟨"r"⟩
  urlparse _ := .error "Invalid URL"
  ipAddress _ := none
  getaddrinfo _ _ := .error none
  executeTool _ _ _ := .ok []
  elapsedMs := .int 0
  dumps _ := ""
  str _ := ""
  sortedKeys _ := .ok ""
  lower := id
  upper := id
  split text := [text]
  ilike _ _ := true
  uuid text := some ⟨text⟩
  searchUnsupportedModel _ := none
  changed _ _ := true

end Sample

end GraphPilot.Tenancy
