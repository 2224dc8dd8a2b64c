/-
What the operations of a patch do.

A patch reads and changes the models of the agents of a tenant and the configurations of
its active tools, its `Targets`.  `applyOperations` is the loop over the operations on
these; `applyPatchOperations_alone` says that the loop on the rows does the same, and which
rows it may change (`Framed`).  What it has changed last is not flushed yet: `dirty` is
that flush.

* `Targets.patchAgent`, `Targets.patchTool` — one operation;
* `Framed` — of an agent the model, of a tool the URL and the method, and the time of the
  change;
* `FlushesTo` — a flush, and the rows after it.
-/
import GraphPilot.Doctor.Service
import GraphPilot.Python.Attempt

namespace GraphPilot.Doctor

open Python Relational Concurrency Orm
open Tenancy (TableName ToolRegistry validModels)

/-! ### The keys of an operation -/

section Keys

variable {host : Host} {operation : List (String × Json)} {id : Uuid}

theorem field_eq_ok {key : String} {value : Json} (h : field key operation = .ok value) :
    Json.lookup key operation = some value ∧ Json.getD key operation = value := by
  unfold field at h
  split at h
  · rename_i found heq
    cases h
    exact ⟨heq, by rw [Json.getD, heq]; rfl⟩
  · cases h

theorem targetUuid_eq_ok (ht : targetUuid host operation = .ok id) :
    (str? (Json.getD "target_id" operation)).bind host.uuid = some id := by
  unfold targetUuid at ht
  obtain ⟨target, hfield, ht⟩ := Attempt.bind_eq_ok.mp ht
  rw [(field_eq_ok hfield).2]
  split at ht
  · rename_i heq
    cases ht
    exact heq
  · cases ht

/-- What an operation does to a configuration. -/
theorem patchConfig_eq_ok {config config' : List (String × Json)}
    (h : patchConfig config operation = .ok config') :
    ∃ p, field "path" operation = .ok p ∧
      ((str? p = some "/config/url" ∧ ∃ value, field "value" operation = .ok value ∧
          config' = Json.assign "url" value config) ∨
        (str? p = some "/config/method" ∧ ∃ value, field "value" operation = .ok value ∧
          config' = Json.assign "method" value config) ∨
        (str? p ≠ some "/config/url" ∧ str? p ≠ some "/config/method" ∧ config' = config)) := by
  unfold patchConfig at h
  rcases hp : field "path" operation with e | p
  · rw [hp] at h
    cases h
  refine ⟨p, rfl, ?_⟩
  rw [hp] at h
  simp only [bind, Except.bind] at h
  split at h
  · rename_i hurl
    rcases hvalue : field "value" operation with e | value
    · rw [hvalue] at h
      cases h
    · rw [hvalue] at h
      cases h
      exact .inl ⟨hurl, value, rfl, rfl⟩
  · rename_i hmethod
    rcases hvalue : field "value" operation with e | value
    · rw [hvalue] at h
      cases h
    · rw [hvalue] at h
      cases h
      exact .inr (.inl ⟨hmethod, value, rfl, rfl⟩)
  · rename_i hurl hmethod
    cases h
    exact .inr (.inr ⟨hurl, hmethod, rfl⟩)

end Keys

/-! ### Targets -/

/-- The models of a tenant's agents, and the configurations of its active tools. -/
structure Targets where
  model : Uuid → Option String
  config : Uuid → Option (List (String × Json))

/-- The agent that an operation finds. -/
def agent? (tenantId : Uuid) (db : Database) (id : Uuid) : Option AgentConfig :=
  ((db .agentConfigs).find? id).filter fun x => x.id = id && x.tenantId = tenantId

/-- The tool that an operation finds. -/
def tool? (tenantId : Uuid) (db : Database) (id : Uuid) : Option ToolRegistry :=
  ((db .tools).find? id).filter fun x => x.id = id && x.tenantId = tenantId && x.isActive

def targets (tenantId : Uuid) (db : Database) : Targets where
  model id := (agent? tenantId db id).map (·.model)
  config id := (tool? tenantId db id).map (·.config)

namespace Targets

def setModel (t : Targets) (id : Uuid) (model : String) : Targets :=
  { t with model := Function.update t.model id (some model) }

def setConfig (t : Targets) (id : Uuid) (config : List (String × Json)) : Targets :=
  { t with config := Function.update t.config id (some config) }

/-- The model that an operation gives. -/
def givenModel (host : Host) (operation : List (String × Json)) : Except Exn String := do
  let value ← field "value" operation
  if value.key? = none then .error (unhashable value)
  else
    match (str? value).filter (· ∈ validModels) with
    | some model => .ok model
    | none => .error (unprocessable s!"Patch model '{host.str value}' is not supported.")

/-- An operation on an agent. -/
def patchAgent (host : Host) (operation : List (String × Json)) (t : Targets) :
    Except Exn Targets := do
  let id ← targetUuid host operation
  match t.model id with
  | none => .error (.http 404 "Agent config targeted by patch was not found.")
  | some _ =>
    let path ← field "path" operation
    if str? path ≠ some "/model" then pure t
    else do
      let model ← givenModel host operation
      pure (t.setModel id model)

/-- An operation on a tool. -/
def patchTool (host : Host) (operation : List (String × Json)) (t : Targets) :
    Except Exn Targets := do
  let id ← targetUuid host operation
  match t.config id with
  | none => .error (.http 404 "Tool targeted by patch was not found.")
  | some old => do
    let config ← patchConfig old operation
    pure (if host.equal (.obj old) (.obj config) then t else t.setConfig id config)

/-- One operation. -/
def patch (host : Host) (t : Targets) (operation : List (String × Json)) :
    Except Exn Targets := do
  let targetType ← field "target_type" operation
  match str? targetType with
  | some "agent_config" => t.patchAgent host operation
  | some "tool" => t.patchTool host operation
  | _ => pure t

end Targets

/-- The operations, one after the other. -/
def applyOperations (host : Host) (t : Targets) (operations : List (List (String × Json))) :
    Except Exn Targets :=
  operations.foldlM (Targets.patch host) t

theorem targets_congr {tenantId : Uuid} {d d' : Database}
    (hagents : d' .agentConfigs = d .agentConfigs) (htools : d' .tools = d .tools) :
    targets tenantId d' = targets tenantId d := by
  unfold targets agent? tool?
  rw [hagents, htools]

/-! ### Rows that may change -/

/-- The operation is on this row. -/
structure On (host : Host) (kind : String) (id : Uuid) (operation : List (String × Json)) :
    Prop where
  kind : str? (Json.getD "target_type" operation) = some kind
  id : (str? (Json.getD "target_id" operation)).bind host.uuid = some id

section Frames

variable (host : Host) (tenantId : Uuid) (operations : List (List (String × Json)))

/-- The row `x` of an agent, and the row `x'` after the operations. -/
structure FramedAgent (x x' : AgentConfig) : Prop where
  row : x' = { x with model := x'.model, updatedAt := x'.updatedAt }
  changed : x' = x ∨ x.tenantId = tenantId ∧ x'.model ∈ validModels ∧
    ∃ operation ∈ operations, On host "agent_config" x.id operation

/-- What the operations leave under a key of a configuration: the value that was there, or
one that an operation gives. -/
def Given (id : Uuid) (path key : String) (c c' : List (String × Json)) : Prop :=
  Json.lookup key c' = Json.lookup key c ∨ ∃ operation ∈ operations,
    On host "tool" id operation ∧ str? (Json.getD "path" operation) = some path ∧
      Json.lookup key c' = Json.lookup "value" operation

/-- The row `x` of a tool, and the row `x'` after the operations. -/
structure FramedTool (x x' : ToolRegistry) : Prop where
  row : x' = { x with config := x'.config, updatedAt := x'.updatedAt }
  changed : x' = x ∨ x.tenantId = tenantId ∧ x.isActive = true ∧
    ∃ operation ∈ operations, On host "tool" x.id operation
  url : Given host operations x.id "/config/url" "url" x.config x'.config
  method : Given host operations x.id "/config/method" "method" x.config x'.config
  others : ∀ k, k ≠ "url" → k ≠ "method" →
    Json.lookup k x'.config = Json.lookup k x.config

/-- The agents and the tools of `d'` after operations on those of `d`. -/
structure Framed (d d' : Database) : Prop where
  agents : ∀ id, Option.Rel (FramedAgent host tenantId operations)
    ((d .agentConfigs).find? id) ((d' .agentConfigs).find? id)
  tools : ∀ id, Option.Rel (FramedTool host tenantId operations)
    ((d .tools).find? id) ((d' .tools).find? id)

end Frames

section FrameRules

variable {host : Host} {tenantId : Uuid} {operations : List (List (String × Json))}

theorem FramedAgent.refl (x : AgentConfig) : FramedAgent host tenantId operations x x :=
  ⟨rfl, .inl rfl⟩

theorem FramedAgent.trans {x y z : AgentConfig} (h : FramedAgent host tenantId operations x y)
    (h' : FramedAgent host tenantId operations y z) : FramedAgent host tenantId operations x z := by
  obtain ⟨hrow, hchanged⟩ := h
  obtain ⟨hrow', hchanged'⟩ := h'
  have hz : z = { x with model := z.model, updatedAt := z.updatedAt } := by
    conv_lhs => rw [hrow', hrow]
  refine ⟨hz, ?_⟩
  have htenant : y.tenantId = x.tenantId := by rw [hrow]
  have hid : y.id = x.id := by rw [hrow]
  rcases hchanged' with rfl | ⟨howner, hmodel, operation, hmem, hon⟩
  · exact hchanged
  · exact .inr ⟨htenant ▸ howner, hmodel, operation, hmem, hid ▸ hon⟩

theorem Given.trans {id : Uuid} {path key : String} {a b c : List (String × Json)}
    (h : Given host operations id path key a b) (h' : Given host operations id path key b c) :
    Given host operations id path key a c := by
  rcases h' with hsame | hgiven
  · unfold Given
    rw [hsame]
    exact h
  · exact .inr hgiven

theorem FramedTool.refl (x : ToolRegistry) : FramedTool host tenantId operations x x :=
  ⟨rfl, .inl rfl, .inl rfl, .inl rfl, fun _ _ _ => rfl⟩

theorem FramedTool.trans {x y z : ToolRegistry} (h : FramedTool host tenantId operations x y)
    (h' : FramedTool host tenantId operations y z) : FramedTool host tenantId operations x z := by
  have hid : y.id = x.id := by rw [h.row]
  have htenant : y.tenantId = x.tenantId := by rw [h.row]
  have hactive : y.isActive = x.isActive := by rw [h.row]
  have hurl := h'.url
  have hmethod := h'.method
  rw [hid] at hurl hmethod
  refine ⟨?_, ?_, h.url.trans hurl, h.method.trans hmethod, fun k hku hkm => ?_⟩
  · conv_lhs => rw [h'.row, h.row]
  · rcases h'.changed with heq | ⟨howner, hon, operation, hmem, htarget⟩
    · rw [heq]
      exact h.changed
    · exact .inr ⟨htenant ▸ howner, hactive ▸ hon, operation, hmem, hid ▸ htarget⟩
  · rw [h'.others k hku hkm, h.others k hku hkm]

theorem rel_refl {α : Type} {R : α → α → Prop} (hR : ∀ a, R a a) (a? : Option α) :
    Option.Rel R a? a? := by
  cases a? with
  | none => exact .none
  | some a => exact .some (hR a)

theorem rel_trans {α : Type} {R : α → α → Prop} (hR : ∀ {a b c}, R a b → R b c → R a c)
    {a? b? c? : Option α} (h : Option.Rel R a? b?) (h' : Option.Rel R b? c?) :
    Option.Rel R a? c? := by
  cases h with
  | none => exact h'
  | some hab =>
    cases h' with
    | some hbc => exact .some (hR hab hbc)

theorem Framed.refl (d : Database) : Framed host tenantId operations d d where
  agents _ := rel_refl FramedAgent.refl _
  tools _ := rel_refl FramedTool.refl _

theorem Framed.trans {d₁ d₂ d₃ : Database} (h : Framed host tenantId operations d₁ d₂)
    (h' : Framed host tenantId operations d₂ d₃) : Framed host tenantId operations d₁ d₃ where
  agents id := rel_trans (R := FramedAgent host tenantId operations) FramedAgent.trans
    (h.agents id) (h'.agents id)
  tools id := rel_trans (R := FramedTool host tenantId operations) FramedTool.trans
    (h.tools id) (h'.tools id)

theorem Framed.congr {d d₁ d₂ : Database} (h : Framed host tenantId operations d d₁)
    (hagents : d₂ .agentConfigs = d₁ .agentConfigs) (htools : d₂ .tools = d₁ .tools) :
    Framed host tenantId operations d d₂ where
  agents id := by
    rw [hagents]
    exact h.agents id
  tools id := by
    rw [htools]
    exact h.tools id

end FrameRules

/-! ### Writes -/

/-- The database as a session with these writes sees it. -/
abbrev view (ws : List Write) (d : Database) : Database := service.backend.store.applyAll ws d

/-- A write to another table leaves this one. -/
theorem view_of_ne {ws : List Write} {d : Database} {w : Write} {n : TableName}
    (hw : w.row.1 ≠ n) : view (ws ++ [w]) d n = view ws d n := by
  show service.backend.store.applyAll (ws ++ [w]) d n = _
  rw [Store.applyAll_append]
  exact Sql.apply_of_ne hw

section Writes

variable {host : Host} {tenantId : Uuid} {operations : List (List (String × Json))}
variable {operation : List (String × Json)} {db : Database} {id : Uuid}

theorem agent?_eq_some {x : AgentConfig} (h : agent? tenantId db id = some x) :
    (db .agentConfigs).find? id = some x ∧ x.id = id ∧ x.tenantId = tenantId := by
  obtain ⟨hfind, hp⟩ := Option.filter_eq_some_iff.mp h
  rw [Bool.and_eq_true, decide_eq_true_eq, decide_eq_true_eq] at hp
  exact ⟨hfind, hp⟩

theorem tool?_eq_some {x : ToolRegistry} (h : tool? tenantId db id = some x) :
    (db .tools).find? id = some x ∧ x.id = id ∧ x.tenantId = tenantId ∧ x.isActive = true := by
  obtain ⟨hfind, hp⟩ := Option.filter_eq_some_iff.mp h
  rw [Bool.and_eq_true, Bool.and_eq_true, decide_eq_true_eq, decide_eq_true_eq] at hp
  exact ⟨hfind, hp.1.1, hp.1.2, hp.2⟩

/-- The rows after an `UPDATE` of one. -/
theorem find?_updated {n : TableName} {v : ValuesOf n} {k : Uuid} :
    (Sql.RowWrite.apply (.update n id v : Write) db n).find? k =
      if k = id then ((db n).find? id).map (applyValues n v) else (db n).find? k := by
  show ((Tables.update db n _ _ _) n).find? k = _
  rw [Tables.update_self]
  exact Sql.find?_update (f := applyValues n v) fun x => Schema.key_apply (κ := Uuid) n v x

/-- The model of an agent is set. -/
theorem targets_updateAgent {x : AgentConfig} {v : AgentValues}
    (hx : agent? tenantId db id = some x) :
    targets tenantId (Sql.RowWrite.apply (.update .agentConfigs id v : Write) db) =
      (targets tenantId db).setModel id v.model := by
  obtain ⟨hfind, hid, htenant⟩ := agent?_eq_some hx
  have hne : TableName.agentConfigs ≠ .tools := by decide
  have hmodel : ∀ k, (agent? tenantId
      (Sql.RowWrite.apply (.update .agentConfigs id v : Write) db) k).map (·.model) =
        Function.update (targets tenantId db).model id (some v.model) k := by
    intro k
    unfold agent?
    rw [find?_updated]
    by_cases hk : k = id
    · subst hk
      have hp : (decide (x.id = k) && decide (x.tenantId = tenantId)) = true := by
        rw [Bool.and_eq_true, decide_eq_true_eq, decide_eq_true_eq]
        exact ⟨hid, htenant⟩
      have hfilter : Option.filter (fun y : AgentConfig => y.id = k && y.tenantId = tenantId)
          (some (applyValues .agentConfigs v x)) = some (applyValues .agentConfigs v x) :=
        Option.filter_eq_some_iff.mpr ⟨rfl, hp⟩
      rw [if_pos rfl, hfind, Function.update_self]
      exact congrArg (Option.map (·.model)) hfilter
    · rw [if_neg hk, Function.update_of_ne hk]
      rfl
  have hconfig : (Sql.RowWrite.apply (.update .agentConfigs id v : Write) db) .tools = db .tools :=
    Sql.apply_of_ne hne
  have hconfigs : ∀ k, (tool? tenantId
      (Sql.RowWrite.apply (.update .agentConfigs id v : Write) db) k).map (·.config) =
        (targets tenantId db).config k := by
    intro k
    unfold tool?
    rw [hconfig]
    rfl
  exact congrArg₂ Targets.mk (funext hmodel) (funext hconfigs)

/-- The configuration of a tool is set. -/
theorem targets_updateTool {x : ToolRegistry} {v : ToolValues}
    (hx : tool? tenantId db id = some x) :
    targets tenantId (Sql.RowWrite.apply (.update .tools id v : Write) db) =
      (targets tenantId db).setConfig id v.config := by
  obtain ⟨hfind, hid, htenant, hactive⟩ := tool?_eq_some hx
  have hne : TableName.tools ≠ .agentConfigs := by decide
  have hconfig : ∀ k, (tool? tenantId
      (Sql.RowWrite.apply (.update .tools id v : Write) db) k).map (·.config) =
        Function.update (targets tenantId db).config id (some v.config) k := by
    intro k
    unfold tool?
    rw [find?_updated]
    by_cases hk : k = id
    · subst hk
      have hp : (decide (x.id = k) && decide (x.tenantId = tenantId) && x.isActive) = true := by
        rw [Bool.and_eq_true, Bool.and_eq_true, decide_eq_true_eq, decide_eq_true_eq]
        exact ⟨⟨hid, htenant⟩, hactive⟩
      have hfilter : Option.filter
          (fun y : ToolRegistry => y.id = k && y.tenantId = tenantId && y.isActive)
          (some (applyValues .tools v x)) = some (applyValues .tools v x) :=
        Option.filter_eq_some_iff.mpr ⟨rfl, hp⟩
      rw [if_pos rfl, hfind, Function.update_self]
      exact congrArg (Option.map (·.config)) hfilter
    · rw [if_neg hk, Function.update_of_ne hk]
      rfl
  have hmodel : (Sql.RowWrite.apply (.update .tools id v : Write) db) .agentConfigs =
      db .agentConfigs := Sql.apply_of_ne hne
  have hmodels : ∀ k, (agent? tenantId
      (Sql.RowWrite.apply (.update .tools id v : Write) db) k).map (·.model) =
        (targets tenantId db).model k := by
    intro k
    unfold agent?
    rw [hmodel]
    rfl
  exact congrArg₂ Targets.mk (funext hmodels) (funext hconfig)

/-- One row of a table has changed. -/
theorem rel_updated {n : TableName} {v : ValuesOf n} {R : Tenancy.RowOf n → Tenancy.RowOf n → Prop}
    (hrefl : ∀ x, R x x) (hR : ∀ x, (db n).find? id = some x → R x (applyValues n v x)) (k : Uuid) :
    Option.Rel R ((db n).find? k)
      ((Sql.RowWrite.apply (.update n id v : Write) db n).find? k) := by
  rw [find?_updated]
  split
  · rename_i hk
    subst hk
    cases hx : (db n).find? k with
    | none => exact .none
    | some x => exact .some (hR x hx)
  · exact rel_refl hrefl _

theorem framed_updateAgent {x : AgentConfig} {v : AgentValues}
    (hx : agent? tenantId db id = some x) (hv : v.model ∈ validModels)
    (hmem : operation ∈ operations) (hon : On host "agent_config" id operation) :
    Framed host tenantId operations db
      (Sql.RowWrite.apply (.update .agentConfigs id v : Write) db) where
  agents := by
    refine rel_updated (n := .agentConfigs) (R := FramedAgent host tenantId operations)
      FramedAgent.refl ?_
    intro y hy
    obtain ⟨hfind, hid, htenant⟩ := agent?_eq_some hx
    rw [hfind] at hy
    cases hy
    exact ⟨rfl, .inr ⟨htenant, hv, operation, hmem, hid ▸ hon⟩⟩
  tools k := by
    have hne : TableName.agentConfigs ≠ .tools := by decide
    have hsame : (Sql.RowWrite.apply (.update .agentConfigs id v : Write) db) .tools = db .tools :=
      Sql.apply_of_ne hne
    rw [hsame]
    exact rel_refl FramedTool.refl _

theorem framed_updateTool {x : ToolRegistry} {config : List (String × Json)} {now : DateTime}
    (hx : tool? tenantId db id = some x) (hmem : operation ∈ operations)
    (hon : On host "tool" id operation) (hconfig : patchConfig x.config operation = .ok config) :
    Framed host tenantId operations db
      (Sql.RowWrite.apply (.update .tools id ⟨config, now⟩ : Write) db) where
  agents k := by
    have hne : TableName.tools ≠ .agentConfigs := by decide
    have hsame : (Sql.RowWrite.apply (.update .tools id ⟨config, now⟩ : Write) db) .agentConfigs =
        db .agentConfigs := Sql.apply_of_ne hne
    rw [hsame]
    exact rel_refl FramedAgent.refl _
  tools := by
    refine rel_updated (n := .tools) (R := FramedTool host tenantId operations)
      FramedTool.refl ?_
    intro y hy
    obtain ⟨hfind, hid, htenant, hactive⟩ := tool?_eq_some hx
    rw [hfind] at hy
    cases hy
    subst hid
    have hgiven : ∀ {path key : String} {p value : Json}, field "path" operation = .ok p →
        str? p = some path → field "value" operation = .ok value →
        Given host operations x.id path key x.config (Json.assign key value x.config) := by
      intro path key p value hp hpath hvalue
      refine .inr ⟨operation, hmem, hon, ?_, ?_⟩
      · rw [(field_eq_ok hp).2]
        exact hpath
      · rw [Json.lookup_assign_same, (field_eq_ok hvalue).1]
    have hkept : ∀ {path key other : String} {value : Json}, key ≠ other →
        Given host operations x.id path key x.config (Json.assign other value x.config) :=
      fun hne => .inl (Json.lookup_assign_ne _ _ hne)
    have hchanged : x.tenantId = tenantId ∧ x.isActive = true ∧
        ∃ operation ∈ operations, On host "tool" x.id operation :=
      ⟨htenant, hactive, operation, hmem, hon⟩
    obtain ⟨p, hp, hcases⟩ := patchConfig_eq_ok hconfig
    rcases hcases with ⟨hurl, value, hvalue, rfl⟩ | ⟨hmethod, value, hvalue, rfl⟩ | ⟨-, -, rfl⟩
    · exact ⟨rfl, .inr hchanged, hgiven hp hurl hvalue, hkept (by decide),
        fun k hku _ => Json.lookup_assign_ne _ _ hku⟩
    · exact ⟨rfl, .inr hchanged, hkept (by decide), hgiven hp hmethod hvalue,
        fun k _ hkm => Json.lookup_assign_ne _ _ hkm⟩
    · exact ⟨rfl, .inr hchanged, .inl rfl, .inl rfl, fun _ _ _ => rfl⟩

end Writes

/-! ### The loop, alone -/

section Loop

variable {host : Host} {tenantId : Uuid} {operations rest : List (List (String × Json))}
variable {operation : List (String × Json)} {d : Database} {ws : List Write} {t : Targets}
variable {h : List Application} {dirty : Program Unit}

/-- Nothing is committed yet. -/
abbrev Uncommitted (d : Database) : Database → List Application → Prop := fun d' _ => d' = d

/-- How a part of a call ends: unless the session breaks, it is as `Ok` says of the value and
of what the session has written, or `Err` of the exception. -/
def Parts {α : Type} (d : Database) (Ok : α → List Write → Prop) (Err : Exn → Prop) :
    Except Exn α → Sql.Tx Write → Database → List Application → Prop
  | .ok a, s, d', _ => s.broken = false ∧ d' = d ∧ Ok a s.writes
  | .error e, s, d', _ => d' = d ∧ (s.broken = false → Err e)

instance {α : Type} {Ok : α → List Write → Prop} {Err : Exn → Prop} :
    Sql.Alone.Fails (Uncommitted d) (Parts d Ok Err) :=
  ⟨fun _ _ _ hd => ⟨hd, fun hb => by cases hb⟩⟩

/-- A part of a call that ends so, then another one. -/
theorem Parts.bind {α β : Type} {Ok : α → List Write → Prop} {Err : Exn → Prop}
    {Ok' : β → List Write → Prop} {Err' : Exn → Prop} {p : Program α} {f : α → Program β}
    (hp : Sql.Alone service.backend 0 (Uncommitted d) (Parts d Ok Err) p ⟨ws, false⟩ d h)
    (hok : ∀ a ws h, Ok a ws →
      Sql.Alone service.backend 0 (Uncommitted d) (Parts d Ok' Err') (f a) ⟨ws, false⟩ d h)
    (herr : ∀ e, Err e → Err' e) :
    Sql.Alone service.backend 0 (Uncommitted d) (Parts d Ok' Err') (p.bind f) ⟨ws, false⟩ d h := by
  refine Sql.Alone.bind hp (fun a s d' h' ha => ?_) fun e s d' h' he => ?_
  · obtain ⟨ws', broken⟩ := s
    obtain ⟨rfl, rfl, ha⟩ := ha
    exact hok a ws' h' ha
  · exact ⟨he.1, fun hb => herr e (he.2 hb)⟩

/-- The rows that the session sees are those of the targets `t`, and differ from those of `d`
where they may. -/
structure Reaches (host : Host) (tenantId : Uuid) (operations : List (List (String × Json)))
    (d : Database) (t : Targets) (ws : List Write) : Prop where
  targets : targets tenantId (view ws d) = t
  framed : Framed host tenantId operations d (view ws d)
  others : ∀ n, n ≠ TableName.agentConfigs → n ≠ .tools → view ws d n = d n

/-- A flush after which the rows are those of the targets `t`. -/
def FlushesTo (host : Host) (tenantId : Uuid) (operations : List (List (String × Json)))
    (d : Database) (t : Targets) (dirty : Program Unit) (ws : List Write) : Prop :=
  ∀ h, Sql.Alone service.backend 0 (Uncommitted d)
    (Parts d (fun _ ws' => Reaches host tenantId operations d t ws') fun _ => False)
    dirty ⟨ws, false⟩ d h

theorem flushesTo_nothing (hws : Reaches host tenantId operations d t ws) :
    FlushesTo host tenantId operations d t (pure ()) ws :=
  fun _ => .ret ⟨rfl, rfl, hws⟩

theorem flushesTo_agent {x : AgentConfig} {model : String}
    (hws : Reaches host tenantId operations d t ws)
    (hx : agent? tenantId (view ws d) x.id = some x) (hmodel : model ∈ validModels)
    (hmem : operation ∈ operations) (hon : On host "agent_config" x.id operation) :
    FlushesTo host tenantId operations d (t.setModel x.id model) (flushAgent x model) ws := by
  have ht : t.model x.id = some x.model := by
    rw [← hws.targets]
    exact congrArg (Option.map (·.model)) hx
  intro h
  unfold flushAgent
  split
  · rename_i hsame
    -- the column has this value already
    have hset : t.setModel x.id model = t := by
      unfold Targets.setModel
      rw [← hsame, ← ht, Function.update_eq_self]
    rw [hset]
    exact .ret ⟨rfl, rfl, hws⟩
  · refine Sql.Alone.askFor rfl fun now => ?_
    rw [← Prog.bind_ret (await _)]
    refine Sql.Alone.update rfl fun _ => .ret ⟨rfl, rfl, ?_⟩
    have hview : view (ws ++ [.update .agentConfigs x.id ⟨model, now⟩]) d =
        Sql.RowWrite.apply (.update .agentConfigs x.id ⟨model, now⟩ : Write) (view ws d) := by
      show service.backend.store.applyAll _ d = _
      rw [Store.applyAll_append]
      rfl
    refine ⟨?_, ?_, fun n hagent htool => ?_⟩
    · rw [hview, targets_updateAgent hx, hws.targets]
    · rw [hview]
      exact hws.framed.trans (framed_updateAgent hx hmodel hmem hon)
    · rw [view_of_ne (w := .update .agentConfigs x.id _) (Ne.symm hagent)]
      exact hws.others n hagent htool

theorem flushesTo_tool {x : ToolRegistry} {config : List (String × Json)}
    (hws : Reaches host tenantId operations d t ws)
    (hx : tool? tenantId (view ws d) x.id = some x)
    (hmem : operation ∈ operations) (hon : On host "tool" x.id operation)
    (hconfig : patchConfig x.config operation = .ok config) :
    FlushesTo host tenantId operations d
      (if host.equal (.obj x.config) (.obj config) then t else t.setConfig x.id config)
      (flushTool host x config) ws := by
  intro h
  unfold flushTool
  split
  · exact .ret ⟨rfl, rfl, hws⟩
  · refine Sql.Alone.askFor rfl fun now => ?_
    rw [← Prog.bind_ret (await _)]
    refine Sql.Alone.update rfl fun _ => .ret ⟨rfl, rfl, ?_⟩
    have hview : view (ws ++ [.update .tools x.id ⟨config, now⟩]) d =
        Sql.RowWrite.apply (.update .tools x.id ⟨config, now⟩ : Write) (view ws d) := by
      show service.backend.store.applyAll _ d = _
      rw [Store.applyAll_append]
      rfl
    refine ⟨?_, ?_, fun n hagent htool => ?_⟩
    · rw [hview, targets_updateTool hx, hws.targets]
    · rw [hview]
      exact hws.framed.trans (framed_updateTool hx hmem hon hconfig)
    · rw [view_of_ne (w := .update .tools x.id _) (Ne.symm htool)]
      exact hws.others n hagent htool

/-- `_apply_agent_config_operation`. -/
theorem applyAgentConfigOperation_alone (hws : Reaches host tenantId operations d t ws)
    (hmem : operation ∈ operations)
    (htype : str? (Json.getD "target_type" operation) = some "agent_config") :
    Sql.Alone service.backend 0 (Uncommitted d)
      (Parts d (fun dirty ws' => ∃ t', t.patchAgent host operation = .ok t' ∧
        FlushesTo host tenantId operations d t' dirty ws') fun e =>
          t.patchAgent host operation = .error e)
      (applyAgentConfigOperation host tenantId operation) ⟨ws, false⟩ d h := by
  unfold applyAgentConfigOperation Targets.patchAgent
  refine alone_ofExcept (fun id hid => ?_) fun e he => ⟨rfl, fun _ => by rw [he]; rfl⟩
  have hmodel : t.model id = (agent? tenantId (view ws d) id).map (·.model) := by
    rw [← hws.targets]
    rfl
  refine alone_selectOne (k := id) (fun x hx => ?_) rfl (alone_found (fun x hx => ?_) fun hnone => ?_)
  · rw [Bool.and_eq_true, decide_eq_true_eq] at hx
    exact hx.1
  swap
  · -- no agent of the tenant has this id
    refine ⟨rfl, fun _ => ?_⟩
    have hgone : t.model id = none := hmodel.trans (congrArg (Option.map (·.model)) hnone)
    rw [hid]
    dsimp only [bind, Except.bind]
    rw [hgone]
  have hfound : t.model id = some x.model := hmodel.trans (congrArg (Option.map (·.model)) hx)
  have hx : agent? tenantId (view ws d) id = some x := hx
  obtain ⟨-, rfl, -⟩ := agent?_eq_some hx
  have hon : On host "agent_config" x.id operation := ⟨htype, targetUuid_eq_ok hid⟩
  rw [hid]
  dsimp only [bind, Except.bind]
  rw [hfound]
  refine alone_ofExcept (fun path hpath => ?_) fun e he => ⟨rfl, fun _ => by rw [he]⟩
  rw [hpath]
  dsimp only
  split
  · exact .ret ⟨rfl, rfl, t, rfl, flushesTo_nothing hws⟩
  unfold Targets.givenModel
  dsimp only [bind, Except.bind]
  refine alone_ofExcept (fun value hvalue => ?_) fun e he => ⟨rfl, fun _ => by rw [he]⟩
  rw [hvalue]
  dsimp only
  refine alone_raiseIf (fun hkey => ?_) fun hkey => ⟨rfl, fun _ => by rw [if_pos hkey]⟩
  rw [if_neg hkey]
  refine alone_found (fun model hgiven => ?_) fun hnone => ⟨rfl, fun _ => by rw [hnone]⟩
  rw [hgiven]
  have hvalid := (Option.filter_eq_some_iff.mp hgiven).2
  rw [decide_eq_true_eq] at hvalid
  exact .ret ⟨rfl, rfl, _, rfl, flushesTo_agent hws hx hvalid hmem hon⟩

/-- `_apply_tool_operation`. -/
theorem applyToolOperation_alone (hws : Reaches host tenantId operations d t ws)
    (hmem : operation ∈ operations)
    (htype : str? (Json.getD "target_type" operation) = some "tool") :
    Sql.Alone service.backend 0 (Uncommitted d)
      (Parts d (fun dirty ws' => ∃ t', t.patchTool host operation = .ok t' ∧
        FlushesTo host tenantId operations d t' dirty ws') fun e =>
          t.patchTool host operation = .error e)
      (applyToolOperation host tenantId operation) ⟨ws, false⟩ d h := by
  unfold applyToolOperation Targets.patchTool
  refine alone_ofExcept (fun id hid => ?_) fun e he => ⟨rfl, fun _ => by rw [he]; rfl⟩
  have hconfig : t.config id = (tool? tenantId (view ws d) id).map (·.config) := by
    rw [← hws.targets]
    rfl
  refine alone_selectOne (k := id) (fun x hx => ?_) rfl (alone_found (fun x hx => ?_) fun hnone => ?_)
  · rw [Bool.and_eq_true, Bool.and_eq_true, decide_eq_true_eq] at hx
    exact hx.1.1
  swap
  · -- no active tool of the tenant has this id
    refine ⟨rfl, fun _ => ?_⟩
    have hgone : t.config id = none := hconfig.trans (congrArg (Option.map (·.config)) hnone)
    rw [hid]
    dsimp only [bind, Except.bind]
    rw [hgone]
  have hfound : t.config id = some x.config := hconfig.trans (congrArg (Option.map (·.config)) hx)
  have hx : tool? tenantId (view ws d) id = some x := hx
  obtain ⟨-, rfl, -⟩ := tool?_eq_some hx
  have hon : On host "tool" x.id operation := ⟨htype, targetUuid_eq_ok hid⟩
  rw [hid]
  dsimp only [bind, Except.bind]
  rw [hfound]
  dsimp only
  refine alone_ofExcept (fun config hpatch => ?_) fun e he => ⟨rfl, fun _ => by rw [he]⟩
  rw [hpatch]
  exact .ret ⟨rfl, rfl, _, rfl, flushesTo_tool hws hx hmem hon hpatch⟩

/-- **The loop over the operations does to the rows what it does to the targets.** -/
theorem applyPatchOperations_alone (hsub : ∀ x ∈ rest, x ∈ operations)
    (hdirty : FlushesTo host tenantId operations d t dirty ws) :
    Sql.Alone service.backend 0 (Uncommitted d)
      (Parts d (fun dirty' ws' => ∃ t', applyOperations host t rest = .ok t' ∧
        FlushesTo host tenantId operations d t' dirty' ws') fun e =>
          applyOperations host t rest = .error e)
      (applyPatchOperations host tenantId rest dirty) ⟨ws, false⟩ d h := by
  unfold applyOperations
  induction rest generalizing t dirty ws h with
  | nil => exact .ret ⟨rfl, rfl, t, rfl, hdirty⟩
  | cons operation rest ih =>
    have hmem : operation ∈ operations := hsub operation List.mem_cons_self
    have hrest : ∀ x ∈ rest, x ∈ operations := fun x hx => hsub x (List.mem_cons_of_mem _ hx)
    -- an operation that has ended, and the rest
    have hnext : ∀ {p : Program (Program Unit)} {ws : List Write} {h : List Application},
        Sql.Alone service.backend 0 (Uncommitted d)
          (Parts d (fun dirty' ws' => ∃ t', Targets.patch host t operation = .ok t' ∧
            FlushesTo host tenantId operations d t' dirty' ws') fun e =>
              Targets.patch host t operation = .error e) p ⟨ws, false⟩ d h →
        Sql.Alone service.backend 0 (Uncommitted d)
          (Parts d (fun dirty' ws' => ∃ t', (operation :: rest).foldlM (Targets.patch host) t =
            .ok t' ∧ FlushesTo host tenantId operations d t' dirty' ws') fun e =>
              (operation :: rest).foldlM (Targets.patch host) t = .error e)
          (p.bind fun dirty' => applyPatchOperations host tenantId rest dirty') ⟨ws, false⟩ d h := by
      intro p ws h hp
      refine Parts.bind hp (fun dirty' ws' h' hdone => ?_) fun e he => ?_
      · obtain ⟨t', ht', hdirty'⟩ := hdone
        rw [List.foldlM_cons, ht']
        exact ih hrest hdirty'
      · rw [List.foldlM_cons, he]
        rfl
    unfold applyPatchOperations
    refine alone_ofExcept (fun targetType htarget => ?_) fun e he => ⟨rfl, fun _ => ?_⟩
    swap
    · rw [List.foldlM_cons, Targets.patch, he]
      rfl
    have htype : Json.getD "target_type" operation = targetType := (field_eq_ok htarget).2
    split
    · rename_i hagent
      have hpatch : Targets.patch host t operation = t.patchAgent host operation := by
        rw [Targets.patch, htarget]
        dsimp only [bind, Except.bind]
        rw [hagent]
        rfl
      rw [hpatch] at hnext
      refine Parts.bind (hdirty h) (fun _ ws' h' hws => hnext ?_) fun e he => he.elim
      exact applyAgentConfigOperation_alone hws hmem (htype ▸ hagent)
    · rename_i htool
      have hpatch : Targets.patch host t operation = t.patchTool host operation := by
        rw [Targets.patch, htarget]
        dsimp only [bind, Except.bind]
        rw [htool]
        rfl
      rw [hpatch] at hnext
      refine Parts.bind (hdirty h) (fun _ ws' h' hws => hnext ?_) fun e he => he.elim
      exact applyToolOperation_alone hws hmem (htype ▸ htool)
    · rename_i hagent htool
      have hpatch : Targets.patch host t operation = .ok t := by
        rw [Targets.patch, htarget]
        dsimp only [bind, Except.bind]
        split
        · rename_i heq
          exact absurd heq hagent
        · rename_i heq
          exact absurd heq htool
        · rfl
      rw [List.foldlM_cons, hpatch]
      exact ih hrest hdirty

end Loop

end GraphPilot.Doctor
