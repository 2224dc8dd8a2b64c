/-
What the calls of the tool service leave.

A call that has failed before its commit leaves the committed rows as they were.  Behind
the commit only the masking of the response can raise, so what a call has committed and
what it answers are known together.

* `createTool_cases`, `updateTool_cases` — everything that such a call can do;
* `refresh_of_mem` — a row that is there is found again.
-/
import GraphPilot.Tenancy.Agents
import GraphPilot.Tenancy.Invariants

namespace GraphPilot.Tenancy

open Python Relational
open TwoRuns (exec exec_bind exec_tryCatch)

instance : Keyed ToolRegistry Uuid := ⟨rowId .tools⟩

variable {host : Host} {tenantId toolId : Uuid} {s s' : Session}

/-! ### Rows that are found -/

/-- A row that is there is the only one of its key. -/
theorem refresh_of_mem {n : TableName} {x : RowOf n} (hx : x ∈ (s.rows n).rows) :
    exec (refresh n (rowId n x)) s = (.ok x, s) := by
  have hrows : (s.rows n).rows.filter (fun y => decide (rowId n y = rowId n x)) = [x] := by
    have hp : ∀ y : RowOf n, decide (rowId n y = rowId n x) = true → Keyed.key y = rowId n x :=
      fun y hy => of_decide_eq_true hy
    have hfind : (s.rows n).find? (rowId n x) = some x := Table.find?_of_mem hx
    rw [Table.filter_of_key hp, hfind]
    simp [Option.filter]
  have hselect : exec (select n fun y => rowId n y = rowId n x) s = (.ok [x], s) := by
    show (Except.ok ((s.rows n).rows.filter fun y => decide (rowId n y = rowId n x)), s) = _
    rw [hrows]
  have hone : exec (scalarOneOrNone n fun y => rowId n y = rowId n x) s = (.ok (some x), s) := by
    unfold scalarOneOrNone
    rw [exec_bind, hselect]
    rfl
  unfold refresh
  rw [exec_bind, hone]
  rfl

/-- The tool that a call of a tenant has found. -/
theorem getTool_ok {tool : ToolRegistry}
    (h : exec (getTool tenantId toolId) s = (.ok tool, s')) :
    s' = s ∧ tool ∈ (s.rows .tools).rows ∧ tool.id = toolId ∧ tool.tenantId = tenantId ∧
      tool.isActive = true := by
  obtain ⟨x, s₁, hx, h₁⟩ := exec_bind_ok h
  obtain ⟨rfl, hfound⟩ := scalarOneOrNone_ok hx
  obtain ⟨rfl, rfl⟩ := found_ok h₁
  obtain ⟨hmem, hp⟩ := hfound tool rfl
  rw [Bool.and_eq_true, Bool.and_eq_true, decide_eq_true_eq, decide_eq_true_eq] at hp
  exact ⟨rfl, hmem, hp.1.1, hp.1.2, hp.2⟩

theorem keeps_getTool {I : Session → Prop} : Keeps I (getTool tenantId toolId) :=
  keeps_scalarOneOrNone.bind fun _ => keeps_found

/-- A new name is only looked for. -/
theorem keeps_checkName {I : Session → Prop} {name : Option String} :
    Keeps I (name.forM (checkToolName tenantId toolId)) := by
  cases name with
  | none => exact keeps_pure
  | some name => exact keeps_scalarOneOrNone.bind fun _ => keeps_raiseIf

/-! ### Ends of calls -/

/-- The call ends so. -/
def Ends {α : Type} (Q : Except Exn α → Session → Prop) (m : Service α) (s : Session) : Prop :=
  Q (exec m s).1 (exec m s).2

section Ends

variable {α β : Type} {Q : Except Exn β → Session → Prop} {m : Service α} {f : α → Service β}

/-- Code that has returned, and what comes after it. -/
theorem Ends.of_ok {a : α} (hm : exec m s = (.ok a, s')) (hf : Ends Q (f a) s') :
    Ends Q (m >>= f) s := by
  unfold Ends
  rw [exec_bind, hm]
  exact hf

/-- Code that only reads, and what comes after it. -/
theorem Ends.read (hm : ∀ I : Session → Prop, Keeps I m) (hraise : ∀ e, Q (.error e) s)
    (hf : ∀ a, exec m s = (.ok a, s) → Ends Q (f a) s) : Ends Q (m >>= f) s := by
  have hsame : (exec m s).2 = s := hm (· = s) s rfl
  rcases hr : exec m s with ⟨e | a, s₁⟩
  · rw [hr] at hsame
    obtain rfl : s₁ = s := hsame
    unfold Ends
    rw [exec_bind, hr]
    exact hraise e
  · rw [hr] at hsame
    obtain rfl : s₁ = s := hsame
    exact Ends.of_ok hr (hf a hr)

theorem ofExcept_ok {r : Except Exn α} {a : α} (h : exec (ofExcept r) s = (.ok a, s')) :
    r = .ok a := by
  cases r with
  | error e => cases h
  | ok b =>
    cases h
    rfl

theorem ends_ofExcept {r : Except Exn β} (h : Q r s) : Ends Q (ofExcept r) s := by
  cases r with
  | error e => exact h
  | ok b => exact h

end Ends

/-! ### Flushes -/

/-- The flush leaves this session, or it fails and has committed nothing. -/
def Flushes (m : Service Unit) (s t : Session) : Prop :=
  exec m s = (.ok (), t) ∨ ∃ e s', exec m s = (.error e, s') ∧ s'.committed = s.committed

/-- A flush under the unique key of a name. -/
theorem Ends.orNameTaken {α : Type} {Q : Except Exn α → Session → Prop} {name : String}
    {m : Service Unit} {f : Unit → Service α} {t : Session} (hm : Flushes m s t)
    (hraise : ∀ e s', s'.committed = s.committed → Q (.error e) s')
    (hf : exec m s = (.ok (), t) → Ends Q (f ()) t) :
    Ends Q (Tenancy.orNameTaken name m >>= f) s := by
  have horName : exec (Tenancy.orNameTaken name m) s = _ := exec_tryCatch m s _
  rcases hm with hm | ⟨e, s', hm, hcommitted⟩
  · rw [hm] at horName
    exact Ends.of_ok horName (hf hm)
  · rw [hm] at horName
    have hraised : ∃ e' s'', exec (Tenancy.orNameTaken name m) s = (.error e', s'') ∧
        s''.committed = s.committed := by
      rw [horName]
      dsimp only
      split
      · exact ⟨_, _, rfl, hcommitted⟩
      · exact ⟨_, _, rfl, hcommitted⟩
    obtain ⟨e', s'', hraised, hcommitted'⟩ := hraised
    unfold Ends
    rw [exec_bind, hraised]
    exact hraise e' s'' hcommitted'

theorem insert_flushes {n : TableName} {x : RowOf n} {clash : RowOf n → Bool} :
    Flushes (do insert n x clash; commit) s
      ⟨s.rows.insert n x, s.rows.insert n x, s.active⟩ := by
  have hkeeps : Keeps (fun s' => s'.committed = s.committed) (insert n x clash) :=
    keeps_select.bind fun _ => keeps_raiseIf.bind fun _ =>
      keeps_checkReferences.bind fun _ _ hs => hs
  have hcommitted := hkeeps s rfl
  unfold Flushes
  rw [exec_bind]
  rcases hr : exec (insert n x clash) s with ⟨e | u, s'⟩
  · rw [hr] at hcommitted
    exact .inr ⟨e, s', rfl, hcommitted⟩
  · obtain ⟨-, rfl⟩ := insert_ok hr
    exact .inl rfl

/-! ### Creation -/

/-- The tool that a call creates. -/
def newTool (host : Host) (tenantId : Uuid) (name description toolType : String)
    (config : List (String × Json)) : ToolRegistry where
  id := host.freshId
  tenantId := tenantId
  name := name
  description := description
  toolType := toolType
  config := config
  isActive := true
  createdAt := host.now
  updatedAt := host.now

/-- `create_tool` commits a tool that it has validated and answers with it, or it raises
and commits nothing. -/
theorem createTool_cases (host : Host) (tenantId : Uuid) (name description toolType : String)
    (config : List (String × Json)) (s : Session) :
    Ends (fun r s' => ((∃ e, r = .error e) ∧ s'.committed = s.committed) ∨
      (validateConfig host toolType config = .ok () ∧
        (∀ x ∈ (s.rows .tools).rows, x.id ≠ host.freshId) ∧
        r = toolResponse host (newTool host tenantId name description toolType config) ∧
        s'.committed =
          s.rows.insert .tools (newTool host tenantId name description toolType config)))
      (createTool host tenantId name description toolType config) s := by
  unfold createTool
  have hraise : ∀ {e : Exn} {s' : Session} {P : Prop}, s'.committed = s.committed →
      ((∃ e', (.error e : Except Exn ToolRegistry) = .error e') ∧ s'.committed = s.committed) ∨
        P := fun h => .inl ⟨⟨_, rfl⟩, h⟩
  refine Ends.read (fun _ => keeps_ofExcept) (fun _ => hraise rfl) fun u hvalid => ?_
  refine Ends.read (fun _ => keeps_scalarOneOrNone) (fun _ => hraise rfl) fun existing _ => ?_
  refine Ends.read (fun _ => keeps_raiseIf) (fun _ => hraise rfl) fun _ _ => ?_
  have hflushes : Flushes (do
      insert .tools (newTool host tenantId name description toolType config)
        (sameActiveName tenantId name)
      commit) s _ := insert_flushes
  refine Ends.orNameTaken hflushes (fun _ _ h => hraise h) fun hflush => ?_
  obtain ⟨_, s₁, hinsert, -⟩ := exec_bind_ok hflush
  have hnew : ∀ y ∈ (s.rows .tools).rows, y.id ≠ host.freshId := (insert_ok hinsert).1
  -- the row that has been inserted is refreshed
  generalize hx : newTool host tenantId name description toolType config = x
  have hid : rowId .tools x = host.freshId := by
    rw [← hx]
    rfl
  have hfind : (s.rows .tools).find? (rowId .tools x) = none := by
    rw [hid, Table.find?_eq_none]
    intro hmem
    obtain ⟨y, hy, heq⟩ := List.mem_map.mp hmem
    exact hnew y hy heq
  have hmem : x ∈ (s.rows.insert .tools x .tools).rows := by
    rw [Tables.insert_self, Table.rows_insert hfind]
    exact List.mem_append_right _ List.mem_cons_self
  have hrefresh : exec (refresh .tools (rowId .tools x))
      ⟨s.rows.insert .tools x, s.rows.insert .tools x, s.active⟩ = (.ok x, _) :=
    refresh_of_mem hmem
  rw [hid] at hrefresh
  exact Ends.of_ok hrefresh (ends_ofExcept (.inr ⟨ofExcept_ok hvalid, hnew, rfl, rfl⟩))

/-! ### Updates -/

/-- A tool with the columns that an update writes. -/
def changedTool (name description toolType : Option String) (config : List (String × Json))
    (x : ToolRegistry) : ToolRegistry :=
  { x with
    name := name.getD x.name
    description := description.getD x.description
    toolType := toolType.getD x.toolType
    config }

theorem rowId_changedTool (name description toolType : Option String)
    (config : List (String × Json)) (x : ToolRegistry) :
    rowId .tools (changedTool name description toolType config x) = rowId .tools x := rfl

theorem owner_changedTool (name description toolType : Option String)
    (config : List (String × Json)) (db : Database) (x : ToolRegistry) :
    owner db .tools (changedTool name description toolType config x) = owner db .tools x := rfl

/-- The columns that an update writes. -/
def toolChange (name description toolType : Option String) (config : List (String × Json)) :
    Change .tools where
  apply := changedTool name description toolType config
  rowId_apply := rowId_changedTool name description toolType config
  owner_apply := owner_changedTool name description toolType config

/-- The row after the flush of an update. -/
def updatedTool (host : Host) (name description toolType : Option String)
    (config : List (String × Json)) (x : ToolRegistry) : ToolRegistry :=
  ((toolChange name description toolType config).flushed host).apply x

theorem updatedTool_id (host : Host) (name description toolType : Option String)
    (config : List (String × Json)) (x : ToolRegistry) :
    (updatedTool host name description toolType config x).id = x.id :=
  ((toolChange name description toolType config).flushed host).rowId_apply x

/-- The row has what the update gives to it, or the ORM has seen no change. -/
theorem updatedTool_cases (host : Host) (name description toolType : Option String)
    (config : List (String × Json)) (x : ToolRegistry) :
    (host.changed (n := .tools) x ((toolChange name description toolType config).apply x) = false ∧
        updatedTool host name description toolType config x = x) ∨
      (updatedTool host name description toolType config x).toolType = toolType.getD x.toolType ∧
        (updatedTool host name description toolType config x).config = config ∧
        (updatedTool host name description toolType config x).isActive = x.isActive ∧
        (updatedTool host name description toolType config x).tenantId = x.tenantId := by
  have happly : updatedTool host name description toolType config x =
      if host.changed (n := .tools) x ((toolChange name description toolType config).apply x)
      then touch host.now .tools ((toolChange name description toolType config).apply x)
      else x := rfl
  rw [happly]
  cases hchanged :
      host.changed (n := .tools) x ((toolChange name description toolType config).apply x) with
  | false => exact .inl ⟨rfl, if_neg Bool.false_ne_true⟩
  | true =>
    rw [if_pos rfl]
    exact .inr ⟨rfl, rfl, rfl, rfl⟩

/-- The rows that an update of a tool commits. -/
def updatedRows (host : Host) (toolId : Uuid) (name description toolType : Option String)
    (config : List (String × Json)) (db : Database) : Database :=
  let c := (toolChange name description toolType config).flushed host
  db.update .tools (fun x => decide (rowId .tools x = toolId)) c.apply c.rowId_apply

theorem rows_updatedRows (host : Host) (toolId : Uuid) (name description toolType : Option String)
    (config : List (String × Json)) (db : Database) :
    (updatedRows host toolId name description toolType config db .tools).rows =
      (db .tools).rows.map fun x =>
        if x.id = toolId then updatedTool host name description toolType config x else x := by
  unfold updatedRows
  rw [Tables.update_self, Table.rows_update]
  refine List.map_congr_left fun x _ => ?_
  by_cases hid : rowId .tools x = toolId
  · rw [if_pos (decide_eq_true hid)]
    exact (if_pos hid).symm
  · rw [if_neg (by rw [decide_eq_true_eq]; exact hid)]
    exact (if_neg hid).symm

theorem flushTool_flushes (host : Host) (tool : ToolRegistry)
    (name description toolType : Option String) (config : List (String × Json)) (s : Session) :
    Flushes (flushTool host tool name description toolType config) s
      ⟨updatedRows host tool.id name description toolType config s.rows,
        updatedRows host tool.id name description toolType config s.rows, s.active⟩ := by
  unfold flushTool Flushes
  rcases hcheck : exec (select .tools fun x => x.id ≠ tool.id &&
      sameActiveName tool.tenantId (name.getD tool.name) x) s with ⟨e | clashes, s₁⟩
  · cases hcheck
  obtain rfl : s₁ = s := by
    cases hcheck
    rfl
  rw [exec_bind, hcheck]
  dsimp only
  unfold raiseIf
  split
  · exact .inr ⟨_, s₁, rfl, rfl⟩
  · exact .inl rfl

/-- `update_tool` commits the configuration that it has merged and validated and answers
with the row, or it raises and commits nothing. -/
theorem updateTool_cases (host : Host) (tenantId toolId : Uuid)
    (name description toolType : Option String) (config : Option (List (String × Json)))
    (s : Session) :
    Ends (fun r s' => ((∃ e, r = .error e) ∧ s'.committed = s.committed) ∨
      ∃ tool ∈ (s.rows .tools).rows, tool.id = toolId ∧ tool.tenantId = tenantId ∧
        tool.isActive = true ∧ ∃ merged, updatedConfig host tool toolType config = .ok merged ∧
          r = toolResponse host (updatedTool host name description toolType merged tool) ∧
          s'.committed = updatedRows host toolId name description toolType merged s.rows)
      (updateTool host tenantId toolId name description toolType config) s := by
  unfold updateTool
  have hraise : ∀ {e : Exn} {s' : Session} {P : Prop}, s'.committed = s.committed →
      ((∃ e', (.error e : Except Exn ToolRegistry) = .error e') ∧ s'.committed = s.committed) ∨
        P := fun h => .inl ⟨⟨_, rfl⟩, h⟩
  refine Ends.read (fun _ => keeps_getTool) (fun _ => hraise rfl) fun tool hget => ?_
  obtain ⟨-, hmem, rfl, htenant, hactive⟩ := getTool_ok hget
  refine Ends.read (fun _ => keeps_checkName) (fun _ => hraise rfl) fun _ _ => ?_
  refine Ends.read (fun _ => keeps_ofExcept) (fun _ => hraise rfl) fun merged hmerged => ?_
  refine Ends.orNameTaken (flushTool_flushes host tool name description toolType merged s)
    (fun _ _ h => hraise h) fun _ => ?_
  -- the row that has been flushed is refreshed
  generalize hx : updatedTool host name description toolType merged tool = x
  have hid : rowId .tools x = tool.id := by
    rw [← hx]
    exact updatedTool_id host name description toolType merged tool
  have hmem' : x ∈ (updatedRows host tool.id name description toolType merged s.rows .tools).rows := by
    rw [rows_updatedRows]
    refine List.mem_map.mpr ⟨tool, hmem, ?_⟩
    rw [if_pos rfl, hx]
  have hrefresh : exec (refresh .tools (rowId .tools x))
      ⟨updatedRows host tool.id name description toolType merged s.rows,
        updatedRows host tool.id name description toolType merged s.rows, s.active⟩ = (.ok x, _) :=
    refresh_of_mem hmem'
  rw [hid] at hrefresh
  refine Ends.of_ok hrefresh (ends_ofExcept (.inr ?_))
  exact ⟨tool, hmem, rfl, htenant, hactive, merged, ofExcept_ok hmerged, by rw [hx], rfl⟩

end GraphPilot.Tenancy
