/-
The operations that `_validate_patch_operations` accepts.

Such an operation is on the model of an agent or on the URL or the method of a tool.  The
loop of `apply_suggestion` works on the rows of the targets, the one of a replay on a
snapshot of the agents.

* `validatePatchOperations_eq_ok` — what is accepted;
* `returns_applyOperations` — when the first loop returns: if every operation is admitted;
* `snapshotWith_loops` — both loops leave the same models.
-/
import GraphPilot.Doctor.Patches

namespace GraphPilot.Doctor

open Python Relational Concurrency
open Tenancy (TableName ToolRegistry validModels)
open Attempt (Returns)

/-! ### Kinds of operations -/

section Kinds

variable (host : Host) (operation : List (String × Json))

/-- An operation on the model of an agent. -/
structure AgentOperation (text : String) (id : Uuid) : Prop where
  kind : Json.lookup "target_type" operation = some (.str "agent_config")
  path : Json.lookup "path" operation = some (.str "/model")
  target : Json.lookup "target_id" operation = some (.str text)
  uuid : host.uuid text = some id

/-- An operation on a key of the configuration of a tool. -/
structure ToolOperation (id : Uuid) (key : String) : Prop where
  kind : Json.lookup "target_type" operation = some (.str "tool")
  path : key = "url" ∧ Json.lookup "path" operation = some (.str "/config/url") ∨
    key = "method" ∧ Json.lookup "path" operation = some (.str "/config/method")
  target : ∃ text, Json.lookup "target_id" operation = some (.str text) ∧ host.uuid text = some id

/-- An operation that is accepted. -/
def ValidOperation : Prop :=
  (∃ text id, AgentOperation host operation text id) ∨ ∃ id key, ToolOperation host operation id key

/-- What an operation asks of the rows and of its value when it is applied. -/
structure Admits (tenantId : Uuid) (db : Database) : Prop where
  agent : ∀ text id, AgentOperation host operation text id →
    (agent? tenantId db id).isSome ∧
      ∃ model ∈ validModels, Json.lookup "value" operation = some (.str model)
  tool : ∀ id key, ToolOperation host operation id key →
    (tool? tenantId db id).isSome ∧ (Json.lookup "value" operation).isSome

end Kinds

variable {host : Host} {operation : List (String × Json)} {text key : String} {id : Uuid}

theorem str?_eq_some {value : Json} {s : String} : str? value = some s ↔ value = .str s := by
  cases value <;> simp [str?]

theorem getD_eq_str {k s : String} : Json.getD k operation = .str s ↔
    Json.lookup k operation = some (.str s) := by
  unfold Json.getD
  cases Json.lookup k operation with
  | none => simp
  | some value => simp

theorem field_of_lookup {k : String} {value : Json} (h : Json.lookup k operation = some value) :
    field k operation = .ok value := by
  unfold field
  rw [h]

theorem field_iff {k : String} {value : Json} :
    field k operation = .ok value ↔ Json.lookup k operation = some value :=
  ⟨fun h => (field_eq_ok h).1, field_of_lookup⟩

theorem AgentOperation.targetUuid (h : AgentOperation host operation text id) :
    targetUuid host operation = .ok id := by
  unfold Doctor.targetUuid
  rw [field_of_lookup h.target]
  dsimp only [bind, Except.bind, str?, Option.bind]
  rw [h.uuid]

theorem ToolOperation.targetUuid (h : ToolOperation host operation id key) :
    targetUuid host operation = .ok id := by
  obtain ⟨text, htext, huuid⟩ := h.target
  unfold Doctor.targetUuid
  rw [field_of_lookup htext]
  dsimp only [bind, Except.bind, str?, Option.bind]
  rw [huuid]

/-! ### What is accepted -/

theorem validateTarget_eq_ok {targetType path : Json}
    (h : validateTarget host targetType path = .ok ()) :
    ∃ p ∈ allowedPatchTargets, targetType = .str p.1 ∧ path = .str p.2 := by
  unfold validateTarget at h
  split at h
  · cases h
  · cases h
  · split at h
    · rename_i hallowed
      obtain ⟨p, hp, htarget⟩ := List.any_eq_true.mp hallowed
      rw [decide_eq_true_eq] at htarget
      exact ⟨p, hp, str?_eq_some.mp htarget.1, str?_eq_some.mp htarget.2⟩
    · cases h

/-- What has been checked of an operation. -/
theorem validatePatchOperation_eq_ok {items : List (String × Json)}
    (h : validatePatchOperation host (.obj items) = .ok ()) : ValidOperation host items := by
  simp only [validatePatchOperation, Json.items?, bind, Except.bind] at h
  split at h
  · cases h
  split at h
  · cases h
  split at h
  · cases h
  rename_i text htext
  split at h
  · cases h
  rename_i huuid
  obtain ⟨id, hid⟩ := Option.ne_none_iff_exists'.mp huuid
  have htext : Json.lookup "target_id" items = some (.str text) :=
    getD_eq_str.mp (str?_eq_some.mp htext)
  obtain ⟨p, hp, hkind, hpath⟩ := validateTarget_eq_ok h
  have hkind : Json.lookup "target_type" items = some (.str p.1) := getD_eq_str.mp hkind
  have hpath : Json.lookup "path" items = some (.str p.2) := getD_eq_str.mp hpath
  simp only [allowedPatchTargets, List.mem_cons, List.not_mem_nil, or_false] at hp
  rcases hp with rfl | rfl | rfl
  · exact .inl ⟨text, id, hkind, hpath, htext, hid⟩
  · exact .inr ⟨id, "url", hkind, .inl ⟨rfl, hpath⟩, text, htext, hid⟩
  · exact .inr ⟨id, "method", hkind, .inr ⟨rfl, hpath⟩, text, htext, hid⟩

/-- An operation on an agent that replaces the model openly. -/
theorem AgentOperation.validate {items : List (String × Json)}
    (h : AgentOperation host items text id) (hop : Json.getD "op" items = .str "replace")
    (hsecret : (Json.getD "secret" items).truthy = false)
    (hpath : isSecretPath host (.str "/model") = false) :
    validatePatchOperation host (.obj items) = .ok () := by
  have hsome : host.uuid text ≠ none := by
    rw [h.uuid]
    exact Option.some_ne_none id
  simp only [validatePatchOperation, Json.items?, bind, Except.bind]
  rw [getD_eq_str.mpr h.path, getD_eq_str.mpr h.target, getD_eq_str.mpr h.kind, hop, hsecret, hpath]
  simp only [str?, Bool.or_self, Bool.false_eq_true, if_false, ne_eq, not_true_eq_false, hsome]
  rfl

theorem validatePatchOperation_obj {value : Json}
    (h : validatePatchOperation host value = .ok ()) : ∃ items, value = .obj items := by
  cases value with
  | obj items => exact ⟨items, rfl⟩
  | _ => cases h

theorem validatePatchOperations_eq_ok {patch : Json}
    (h : validatePatchOperations host patch = .ok ()) :
    ∀ x ∈ operationsOf patch, ValidOperation host x := by
  intro x hx
  unfold operationsOf at hx
  split at hx
  swap
  · cases hx
  rename_i operations hlookup
  obtain ⟨value, hvalue, rfl⟩ := List.mem_map.mp hx
  have hitems : patch.items? = some patch.dictOrEmpty := by
    cases patch with
    | obj items => rfl
    | _ => cases hlookup
  unfold validatePatchOperations at h
  rw [hitems] at h
  dsimp only at h
  rw [hlookup] at h
  have hturn := Attempt.forM_eq_ok.mp h value hvalue
  obtain ⟨items, rfl⟩ := validatePatchOperation_obj hturn
  exact validatePatchOperation_eq_ok hturn

/-! ### One operation -/

section Patch

variable {t t' : Targets} {snapshot snapshot' : List AgentSnapshot}

theorem givenModel_eq_ok {model : String} : Targets.givenModel host operation = .ok model ↔
    model ∈ validModels ∧ Json.lookup "value" operation = some (.str model) := by
  unfold Targets.givenModel
  constructor
  · intro h
    obtain ⟨value, hvalue, h⟩ := Attempt.bind_eq_ok.mp h
    split at h
    · cases h
    split at h
    · rename_i model' hmodel
      cases h
      obtain ⟨hstr, hvalid⟩ := Option.filter_eq_some_iff.mp hmodel
      rw [str?_eq_some.mp hstr] at hvalue
      exact ⟨of_decide_eq_true hvalid, field_iff.mp hvalue⟩
    · cases h
  · rintro ⟨hvalid, hvalue⟩
    rw [field_of_lookup hvalue]
    have hfilter : (some model).filter (· ∈ validModels) = some model :=
      Option.filter_eq_some_iff.mpr ⟨rfl, decide_eq_true hvalid⟩
    simp only [bind, Except.bind, Json.key?, str?, reduceCtorEq, if_false]
    rw [hfilter]

/-- An operation on an agent, when it is applied. -/
theorem patch_agent (h : AgentOperation host operation text id) :
    t.patch host operation = .ok t' ↔ (t.model id).isSome ∧ ∃ model ∈ validModels,
      Json.lookup "value" operation = some (.str model) ∧ t' = t.setModel id model := by
  have hpatch : t.patch host operation = t.patchAgent host operation := by
    unfold Targets.patch
    rw [field_of_lookup h.kind]
    rfl
  rw [hpatch]
  unfold Targets.patchAgent
  rw [h.targetUuid, field_of_lookup h.path]
  dsimp only [bind, Except.bind]
  cases hmodel : t.model id with
  | none =>
    constructor
    · intro h
      cases h
    · rintro ⟨h, -⟩
      cases h
  | some old =>
    dsimp only
    have hpath : ¬ str? (.str "/model") ≠ some "/model" := not_not.mpr rfl
    rw [if_neg hpath]
    constructor
    · intro hok
      obtain ⟨model, hgiven, hok⟩ := Attempt.bind_eq_ok.mp hok
      cases hok
      obtain ⟨hvalid, hvalue⟩ := givenModel_eq_ok.mp hgiven
      exact ⟨rfl, model, hvalid, hvalue, rfl⟩
    · rintro ⟨-, model, hvalid, hvalue, rfl⟩
      rw [givenModel_eq_ok.mpr ⟨hvalid, hvalue⟩]
      rfl

/-- An operation on a tool, when it is applied. -/
theorem patch_tool (h : ToolOperation host operation id key) :
    t.patch host operation = .ok t' ↔ ∃ old value, t.config id = some old ∧
      Json.lookup "value" operation = some value ∧
      t' = if host.equal (.obj old) (.obj (Json.assign key value old)) then t
        else t.setConfig id (Json.assign key value old) := by
  have hpatch : t.patch host operation = t.patchTool host operation := by
    unfold Targets.patch
    rw [field_of_lookup h.kind]
    rfl
  have hconfig : ∀ old config, patchConfig old operation = .ok config ↔
      ∃ value, Json.lookup "value" operation = some value ∧ config = Json.assign key value old := by
    intro old config
    unfold patchConfig
    rcases h.path with ⟨rfl, hpath⟩ | ⟨rfl, hpath⟩
    all_goals
      rw [field_of_lookup hpath]
      dsimp only [bind, Except.bind, str?]
      constructor
      · intro hok
        obtain ⟨value, hvalue, hok⟩ := Attempt.bind_eq_ok.mp hok
        cases hok
        exact ⟨value, field_iff.mp hvalue, rfl⟩
      · rintro ⟨value, hvalue, rfl⟩
        rw [field_of_lookup hvalue]
        rfl
  rw [hpatch]
  unfold Targets.patchTool
  rw [h.targetUuid]
  dsimp only [bind, Except.bind]
  cases hold : t.config id with
  | none =>
    constructor
    · intro h
      cases h
    · rintro ⟨old, value, h, -⟩
      cases h
  | some old =>
    dsimp only
    constructor
    · intro hok
      obtain ⟨config, hgiven, hok⟩ := Attempt.bind_eq_ok.mp hok
      obtain ⟨value, hvalue, rfl⟩ := (hconfig old config).mp hgiven
      cases hok
      exact ⟨old, value, rfl, hvalue, rfl⟩
    · rintro ⟨old', value, hsome, hvalue, rfl⟩
      cases hsome
      rw [(hconfig old _).mpr ⟨value, hvalue, rfl⟩]
      rfl

/-- An operation on an agent, when it is replayed. -/
theorem applyToSnapshot_agent (h : AgentOperation host operation text id) :
    applyToSnapshot snapshot operation = .ok snapshot' ↔ (∃ x ∈ snapshot, x.id = text) ∧
      ∃ value, Json.lookup "value" operation = some value ∧
        snapshot' = snapshot.map fun x => if x.id = text then { x with model := value } else x := by
  unfold applyToSnapshot
  rw [field_of_lookup h.kind, field_of_lookup h.path, field_of_lookup h.target]
  have hkind : ¬ str? (.str "agent_config") ≠ some "agent_config" := not_not.mpr rfl
  dsimp only [bind, Except.bind]
  rw [if_neg hkind]
  by_cases hsome : ∃ x ∈ snapshot, x.id = text
  · have hall : ¬ (snapshot.all fun x => some x.id ≠ str? (.str text)) = true := by
      intro hall
      obtain ⟨x, hx, hid⟩ := hsome
      have hne := of_decide_eq_true (List.all_eq_true.mp hall x hx)
      exact hne (congrArg some hid)
    rw [if_neg hall]
    have hpath : str? (.str "/model") = some "/model" := rfl
    rw [if_pos hpath]
    have hmap : ∀ value : Json, (snapshot.map fun x =>
        if some x.id = str? (.str text) then { x with model := value } else x) =
          snapshot.map fun x => if x.id = text then { x with model := value } else x := by
      intro value
      refine List.map_congr_left fun x _ => ?_
      show (if some x.id = some text then _ else _) = _
      simp only [Option.some.injEq]
    constructor
    · intro hok
      obtain ⟨value, hvalue, hok⟩ := Attempt.bind_eq_ok.mp hok
      rw [hmap] at hok
      cases hok
      exact ⟨hsome, value, field_iff.mp hvalue, rfl⟩
    · rintro ⟨-, value, hvalue, rfl⟩
      rw [field_of_lookup hvalue]
      dsimp only
      rw [hmap]
      rfl
  · have hall : (snapshot.all fun x => some x.id ≠ str? (.str text)) = true := by
      rw [List.all_eq_true]
      intro x hx
      refine decide_eq_true fun heq => hsome ⟨x, hx, ?_⟩
      exact Option.some.inj heq
    rw [if_pos hall]
    constructor
    · intro hok
      cases hok
    · rintro ⟨hfound, -⟩
      exact absurd hfound hsome

/-- A replay passes over an operation on a tool. -/
theorem applyToSnapshot_tool (h : ToolOperation host operation id key) :
    applyToSnapshot snapshot operation = .ok snapshot := by
  unfold applyToSnapshot
  rw [field_of_lookup h.kind]
  rfl

end Patch

/-! ### The loops -/

section Loops

variable {tenantId : Uuid} {db : Database} {t t' : Targets} {agents : List AgentConfig}
variable {operations : List (List (String × Json))} {snapshot snapshot' : List AgentSnapshot}

theorem AgentOperation.unique {text' : String} {id' : Uuid}
    (h : AgentOperation host operation text id) (h' : AgentOperation host operation text' id') :
    text' = text ∧ id' = id := by
  have htext := h.target
  rw [h'.target] at htext
  cases htext
  have huuid := h.uuid
  rw [h'.uuid] at huuid
  cases huuid
  exact ⟨rfl, rfl⟩

theorem ToolOperation.unique {id' : Uuid} {key' : String} (h : ToolOperation host operation id key)
    (h' : ToolOperation host operation id' key') : id' = id := by
  obtain ⟨text, htext, huuid⟩ := h.target
  obtain ⟨text', htext', huuid'⟩ := h'.target
  rw [htext] at htext'
  cases htext'
  rw [huuid] at huuid'
  cases huuid'
  rfl

theorem AgentOperation.not_tool {id' : Uuid} (h : AgentOperation host operation text id) :
    ¬ ToolOperation host operation id' key := by
  intro h'
  have hkind := h.kind
  rw [h'.kind] at hkind
  simp at hkind

/-- The same targets, whatever has been done to them. -/
structure SameTargets (t t' : Targets) : Prop where
  model : ∀ id, (t'.model id).isSome = (t.model id).isSome
  config : ∀ id, (t'.config id).isSome = (t.config id).isSome

theorem SameTargets.setModel {model : String} (h : SameTargets t t')
    (hid : (t'.model id).isSome) : SameTargets t (t'.setModel id model) := by
  refine ⟨fun k => ?_, h.config⟩
  show (Function.update t'.model id (some model) k).isSome = _
  by_cases hk : k = id
  · subst hk
    rw [Function.update_self, ← h.model, hid]
    rfl
  · rw [Function.update_of_ne hk]
    exact h.model k

theorem SameTargets.setConfig {config : List (String × Json)} (h : SameTargets t t')
    (hid : (t'.config id).isSome) : SameTargets t (t'.setConfig id config) := by
  refine ⟨h.model, fun k => ?_⟩
  show (Function.update t'.config id (some config) k).isSome = _
  by_cases hk : k = id
  · subst hk
    rw [Function.update_self, ← h.config, hid]
    rfl
  · rw [Function.update_of_ne hk]
    exact h.config k

theorem SameTargets.patch {t'' : Targets} (h : SameTargets t t')
    (hvalid : ValidOperation host operation) (hpatch : t'.patch host operation = .ok t'') :
    SameTargets t t'' := by
  rcases hvalid with ⟨text, id, hagent⟩ | ⟨id, key, htool⟩
  · obtain ⟨hsome, model, -, -, rfl⟩ := (patch_agent hagent).mp hpatch
    exact h.setModel hsome
  · obtain ⟨old, value, hold, -, rfl⟩ := (patch_tool htool).mp hpatch
    split
    · exact h
    · exact h.setConfig (Option.isSome_of_eq_some hold)

/-- An operation is applied if the rows and its value are what it asks for. -/
theorem returns_patch (h : SameTargets (targets tenantId db) t)
    (hvalid : ValidOperation host operation) :
    Returns (t.patch host operation) ↔ Admits host operation tenantId db := by
  have hmodel : ∀ id, (t.model id).isSome = (agent? tenantId db id).isSome := by
    intro id
    rw [h.model]
    exact Option.isSome_map
  have hconfig : ∀ id, (t.config id).isSome = (tool? tenantId db id).isSome := by
    intro id
    rw [h.config]
    exact Option.isSome_map
  rcases hvalid with ⟨text, id, hagent⟩ | ⟨id, key, htool⟩
  · constructor
    · rintro ⟨t', ht'⟩
      obtain ⟨hsome, model, hmem, hvalue, -⟩ := (patch_agent hagent).mp ht'
      refine ⟨fun text' id' hagent' => ?_, fun id' key htool => absurd htool hagent.not_tool⟩
      obtain ⟨-, rfl⟩ := hagent.unique hagent'
      exact ⟨hmodel id' ▸ hsome, model, hmem, hvalue⟩
    · intro hadmits
      obtain ⟨hsome, model, hmem, hvalue⟩ := hadmits.agent text id hagent
      exact ⟨_, (patch_agent hagent).mpr ⟨(hmodel id).symm ▸ hsome, model, hmem, hvalue, rfl⟩⟩
  · constructor
    · rintro ⟨t', ht'⟩
      obtain ⟨old, value, hold, hvalue, -⟩ := (patch_tool htool).mp ht'
      refine ⟨fun text id' hagent => absurd htool hagent.not_tool, fun id' key' htool' => ?_⟩
      obtain rfl := htool.unique htool'
      exact ⟨hconfig id' ▸ Option.isSome_of_eq_some hold, Option.isSome_of_eq_some hvalue⟩
    · intro hadmits
      obtain ⟨hsome, hvalue⟩ := hadmits.tool id key htool
      rw [← hconfig] at hsome
      obtain ⟨old, hold⟩ := Option.isSome_iff_exists.mp hsome
      obtain ⟨value, hvalue⟩ := Option.isSome_iff_exists.mp hvalue
      exact ⟨_, (patch_tool htool).mpr ⟨old, value, hold, hvalue, rfl⟩⟩

/-- **When the operations can be applied.** -/
theorem returns_applyOperations (hvalid : ∀ x ∈ operations, ValidOperation host x) :
    Returns (applyOperations host (targets tenantId db) operations) ↔
      ∀ x ∈ operations, Admits host x tenantId db := by
  refine Attempt.returns_foldlM (SameTargets (targets tenantId db))
    (P := fun x => Admits host x tenantId db) (fun x hx t h => ?_) (fun x hx t t' h hpatch => ?_)
    ⟨fun _ => rfl, fun _ => rfl⟩
  · exact returns_patch h (hvalid x hx)
  · exact h.patch (hvalid x hx) hpatch

/-- When a replay gets through the operations. -/
theorem returns_applyToSnapshot (hvalid : ∀ x ∈ operations, ValidOperation host x) :
    Returns (applyOperationsToAgentSnapshot snapshot operations) ↔
      ∀ x ∈ operations, ∀ text id, AgentOperation host x text id →
        text ∈ snapshot.map (·.id) ∧ (Json.lookup "value" x).isSome := by
  refine Attempt.returns_foldlM
    (fun s : List AgentSnapshot => s.map (·.id) = snapshot.map (·.id))
    (fun x hx s hs => ?_) (fun x hx s s' hs hok => ?_) rfl
  · have hmem : ∀ text, text ∈ snapshot.map (·.id) ↔ ∃ y ∈ s, y.id = text := by
      intro text
      rw [← hs, List.mem_map]
    rcases hvalid x hx with ⟨text, id, hagent⟩ | ⟨id, key, htool⟩
    · constructor
      · rintro ⟨s', hs'⟩ text' id' hagent'
        obtain ⟨rfl, -⟩ := hagent.unique hagent'
        obtain ⟨hfound, value, hvalue, -⟩ := (applyToSnapshot_agent hagent).mp hs'
        exact ⟨(hmem _).mpr hfound, Option.isSome_of_eq_some hvalue⟩
      · intro h
        obtain ⟨hfound, hvalue⟩ := h text id hagent
        obtain ⟨value, hvalue⟩ := Option.isSome_iff_exists.mp hvalue
        exact ⟨_, (applyToSnapshot_agent hagent).mpr ⟨(hmem _).mp hfound, value, hvalue, rfl⟩⟩
    · constructor
      · intro _ text id' hagent
        exact absurd htool hagent.not_tool
      · intro _
        exact ⟨s, applyToSnapshot_tool htool⟩
  · rcases hvalid x hx with ⟨text, id, hagent⟩ | ⟨id, key, htool⟩
    · obtain ⟨-, value, -, rfl⟩ := (applyToSnapshot_agent hagent).mp hok
      rw [List.map_map, ← hs]
      refine List.map_congr_left fun y _ => ?_
      show (if y.id = text then { y with model := value } else y).id = y.id
      split
      · rfl
      · rfl
    · rw [applyToSnapshot_tool htool] at hok
      cases hok
      exact hs

/-- The snapshot of agents with the models of the targets. -/
def snapshotWith (t : Targets) (agents : List AgentConfig) : List AgentSnapshot :=
  agents.map fun x => ⟨x.id.text, x.nodeId, .str ((t.model x.id).getD x.model)⟩

/-- One operation does to the snapshot what it does to the models. -/
theorem snapshotWith_patch (huuid : ∀ x ∈ agents, host.uuid x.id.text = some x.id)
    (hvalid : ValidOperation host operation)
    (hsnapshot : applyToSnapshot (snapshotWith t agents) operation = .ok snapshot')
    (hpatch : t.patch host operation = .ok t') : snapshot' = snapshotWith t' agents := by
  rcases hvalid with ⟨text, id, hagent⟩ | ⟨id, key, htool⟩
  · obtain ⟨⟨y, hy, hid⟩, value, hvalue, rfl⟩ := (applyToSnapshot_agent hagent).mp hsnapshot
    obtain ⟨-, model, -, hvalue', rfl⟩ := (patch_agent hagent).mp hpatch
    rw [hvalue] at hvalue'
    cases hvalue'
    -- the text is that of an agent, and so the operation is on this agent
    obtain ⟨x, hx, rfl⟩ := List.mem_map.mp hy
    have htarget : x.id = id := by
      have hsame := huuid x hx
      rw [show x.id.text = text from hid, hagent.uuid] at hsame
      cases hsame
      rfl
    subst htarget
    unfold snapshotWith
    rw [List.map_map]
    refine List.map_congr_left fun z hz => ?_
    show (if z.id.text = text then _ else _) = _
    by_cases hsame : z.id = x.id
    · rw [if_pos ((congrArg Uuid.text hsame).trans hid)]
      have hmodel : (t.setModel x.id model).model z.id = some model := by
        rw [hsame]
        exact Function.update_self x.id _ t.model
      rw [hmodel]
      rfl
    · have hne : z.id.text ≠ text := by
        intro heq
        have hz := huuid z hz
        rw [heq, hagent.uuid] at hz
        exact hsame (Option.some.inj hz).symm
      have hmodel : (t.setModel x.id model).model z.id = t.model z.id :=
        Function.update_of_ne hsame _ t.model
      rw [if_neg hne, hmodel]
  · rw [applyToSnapshot_tool htool] at hsnapshot
    cases hsnapshot
    obtain ⟨old, value, -, -, rfl⟩ := (patch_tool htool).mp hpatch
    split
    · rfl
    · rfl

/-- **The two loops leave the same models.** -/
theorem snapshotWith_loops (huuid : ∀ x ∈ agents, host.uuid x.id.text = some x.id)
    (hvalid : ∀ x ∈ operations, ValidOperation host x)
    (hsnapshot : applyOperationsToAgentSnapshot (snapshotWith t agents) operations = .ok snapshot)
    (ht : applyOperations host t operations = .ok t') : snapshot = snapshotWith t' agents := by
  refine Attempt.foldlM_relates (R := fun s t => s = snapshotWith t agents)
    (fun x hx s t s' t' h hs' ht' => ?_) rfl hsnapshot ht
  rw [h] at hs'
  exact snapshotWith_patch huuid (hvalid x hx) hs' ht'

end Loops

end GraphPilot.Doctor
