/-
The configurations of the tools.

`create_tool` and `update_tool` hand every configuration they store to
`_validate_config`, a merged one and one that gets another type as well
(`keeps_toolRequest`).  `_apply_tool_operation` does not: a patch stores any value as the
URL or the method of an API tool (`tools_go_bad`).

`tools_stay_valid` is the exact repair: where the last value that an applied patch gives
to the URL and to the method of an active API tool is one that `_validate_config`
accepts, every active tool stays valid.
-/
import GraphPilot.Properties.AppliedOnce
import GraphPilot.Tenancy.ToolCalls
import GraphPilot.Doctor.Runs
import GraphPilot.Doctor.Operations

namespace GraphPilot.Tenancy

open Python Relational
open TwoRuns (exec exec_bind exec_tryCatch)

/-! ### Valid configurations -/

/-- The configuration of an active tool is accepted for its type. -/
def ToolRegistry.Valid (host : Host) (x : ToolRegistry) : Prop :=
  x.isActive = true → validateConfig host x.toolType x.config = .ok ()

/-- Two hosts that answer alike what a validation asks. -/
structure SameResolver (host host' : Host) : Prop where
  urlparse : host'.urlparse = host.urlparse
  ipAddress : host'.ipAddress = host.ipAddress
  getaddrinfo : host'.getaddrinfo = host.getaddrinfo
  lower : host'.lower = host.lower
  upper : host'.upper = host.upper

theorem SameResolver.refl (host : Host) : SameResolver host host := ⟨rfl, rfl, rfl, rfl, rfl⟩

theorem SameResolver.validateConfig {host host' : Host} (h : SameResolver host host') :
    validateConfig host' = validateConfig host := by
  obtain ⟨hurlparse, hip, haddr, hlower, hupper⟩ := h
  cases host
  cases host'
  cases hurlparse
  cases hip
  cases haddr
  cases hlower
  cases hupper
  rfl

/-- What `_validate_config` accepts as the URL of an API tool. -/
def AcceptsUrl (host : Host) (value : Option Json) : Prop :=
  ∃ url, value = some (.str url) ∧ url ≠ "" ∧
    (url.startsWith "http://" || url.startsWith "https://") = true ∧ safeApiUrl host url = .ok ()

/-- What it accepts as the method. -/
def AcceptsMethod (host : Host) (value : Option Json) : Prop :=
  ∃ method, value.getD (.str "GET") = .str method ∧
    host.upper method ∈ ["GET", "POST", "PUT", "DELETE"]

theorem configMethod_eq_ok {host : Host} {config : List (String × Json)} {method : String} :
    configMethod host config = .ok method ↔
      ∃ s, (Json.lookup "method" config).getD (.str "GET") = .str s ∧ host.upper s = method := by
  unfold configMethod
  cases Json.lookup "method" config with
  | none => simp
  | some value => cases value <;> simp

/-- The two checks of an API tool. -/
theorem validateConfig_api {host : Host} {config : List (String × Json)} :
    validateConfig host "api" config = .ok () ↔
      AcceptsUrl host (Json.lookup "url" config) ∧
        AcceptsMethod host (Json.lookup "method" config) := by
  have hurl : ∀ {url}, Json.getD "url" config = .str url ↔
      Json.lookup "url" config = some (.str url) := by
    intro url
    unfold Json.getD
    cases Json.lookup "url" config <;> simp
  constructor
  · intro h
    simp only [validateConfig] at h
    split at h
    · rename_i url heq
      split at h
      · cases h
      split at h
      · cases h
      rename_i hne hscheme
      rcases hmethod : configMethod host config with e | method
      · rw [hmethod] at h
        cases h
      rw [hmethod] at h
      change (if method ∈ ["GET", "POST", "PUT", "DELETE"] then safeApiUrl host url
        else _) = Except.ok () at h
      split at h
      · rename_i hmem
        obtain ⟨s, hs, rfl⟩ := configMethod_eq_ok.mp hmethod
        rw [Bool.not_eq_true, Bool.not_eq_false'] at hscheme
        exact ⟨⟨url, hurl.mp heq, hne, hscheme, h⟩, s, hs, hmem⟩
      · cases h
    · cases h
  · rintro ⟨⟨url, heq, hne, hscheme, hsafe⟩, s, hs, hmem⟩
    have hmethod : configMethod host config = .ok (host.upper s) :=
      configMethod_eq_ok.mpr ⟨s, hs, rfl⟩
    simp only [validateConfig]
    rw [hurl.mpr heq]
    simp only [hne, hscheme, hmethod, if_false, Bool.not_true, Bool.false_eq_true]
    show (if host.upper s ∈ ["GET", "POST", "PUT", "DELETE"] then safeApiUrl host url
      else _) = Except.ok ()
    rw [if_pos hmem, hsafe]

/-! ### The calls of the tool service -/

section Calls

variable {resolver host : Host} {tenantId toolId : Uuid} {I J : Session → Prop}

/-- A flush that may fail on the unique key of the name. -/
theorem Leads.orNameTaken {name : String} {m : Service Unit} (hm : Leads I J m)
    (hrollback : ∀ s, J s → J { s with rows := s.committed }) :
    Leads I J (orNameTaken name m) := by
  intro s hs
  unfold Tenancy.orNameTaken
  rw [exec_tryCatch]
  have hs' := hm s hs
  rcases hr : exec m s with ⟨e | a, s'⟩
  · rw [hr] at hs'
    dsimp only
    split
    · exact hrollback s' hs'
    · exact hs'
  · rw [hr] at hs'
    exact hs'

/-- Every tool is valid, committed or not. -/
abbrev AllValid (host : Host) : Session → Prop := AllRows .tools (ToolRegistry.Valid host)

theorem AllValid.rollback (s : Session) (h : AllValid host s) :
    AllValid host { s with rows := s.committed } := ⟨h.committed, h.committed⟩

/-- `create_tool` stores what it has validated. -/
theorem keeps_createTool {name description toolType : String} {config : List (String × Json)}
    (hhost : SameResolver resolver host) :
    Keeps (AllValid resolver) (createTool host tenantId name description toolType config) := by
  refine Leads.ofExcept (fun _ hs => hs) fun _ hvalid => ?_
  refine keeps_scalarOneOrNone.bind fun _ => keeps_raiseIf.bind fun _ => ?_
  have hinsert : Keeps (AllValid resolver)
      (orNameTaken name do
        insert .tools {
          id := host.freshId, tenantId, name, description, toolType, config, isActive := true
          createdAt := host.now, updatedAt := host.now } (sameActiveName tenantId name)
        commit) := by
    refine Leads.orNameTaken ((keeps_insert fun _ => ?_).bind fun _ => keeps_commit)
      AllValid.rollback
    show validateConfig resolver toolType config = .ok ()
    rw [← hhost.validateConfig]
    exact hvalid
  exact hinsert.bind fun _ => keeps_refresh.bind fun _ => keeps_ofExcept

/-- What a call of a tenant does with the tool it has found. -/
theorem Leads.getTool {α : Type} {f : ToolRegistry → Service α}
    (hf : ∀ tool, tool.isActive = true → tool.Valid resolver →
      Leads (fun s => AllValid resolver s ∧ tool ∈ (s.rows .tools).rows) (AllValid resolver)
        (f tool)) :
    Keeps (AllValid resolver) (getTool tenantId toolId >>= f) := by
  intro s hs
  rw [exec_bind]
  have hkeeps : Keeps (AllValid resolver) (Tenancy.getTool tenantId toolId) := keeps_getTool
  have hs' := hkeeps s hs
  rcases hr : exec (Tenancy.getTool tenantId toolId) s with ⟨_ | tool, s'⟩
  · rw [hr] at hs'
    exact hs'
  · obtain ⟨rfl, hmem, -, -, hactive⟩ := getTool_ok hr
    exact hf tool hactive (hs.rows tool hmem) s' ⟨hs, hmem⟩

/-- The flush of a tool that is valid then. -/
theorem leads_save {tool : ToolRegistry} {c : Change .tools}
    (hc : (touch host.now .tools (c.apply tool) : ToolRegistry).Valid resolver) :
    Leads (fun s => AllValid resolver s ∧ tool ∈ (s.rows .tools).rows) (AllValid resolver)
      (save host .tools tool c) := by
  rintro s ⟨hs, htool⟩
  refine ⟨fun y hy => ?_, hs.committed⟩
  change y ∈ (s.rows.update .tools (fun z => decide (rowId .tools z = rowId .tools tool))
    (c.flushed host).apply (c.flushed host).rowId_apply .tools).rows at hy
  rw [Tables.update_self, Table.rows_update] at hy
  obtain ⟨z, hz, rfl⟩ := List.mem_map.mp hy
  split
  · rename_i hid
    -- the key is that of one row only
    obtain rfl : z = tool :=
      List.inj_on_of_nodup_map (s.rows .tools).nodup hz htool (of_decide_eq_true hid)
    show ToolRegistry.Valid resolver
      (if host.changed z (c.apply z) then touch host.now .tools (c.apply z) else z)
    split
    · exact hc
    · exact hs.rows z hz
  · exact hs.rows z hz

/-- A merged configuration that has been validated. -/
theorem validated {toolType : String} {merge : Except Exn (List (String × Json))}
    {merged : List (String × Json)}
    (h : (do
      let config ← merge
      validateConfig host toolType config
      pure config) = Except.ok merged) : validateConfig host toolType merged = .ok () := by
  rcases merge with e | config
  · cases h
  change (do
    validateConfig host toolType config
    pure config) = Except.ok merged at h
  rcases hvalid : validateConfig host toolType config with e | _
  · rw [hvalid] at h
    cases h
  · rw [hvalid] at h
    cases h
    exact hvalid

/-- What an update stores is accepted for the type it leaves. -/
theorem validateConfig_updatedConfig {tool : ToolRegistry} {toolType : Option String}
    {config : Option (List (String × Json))} {merged : List (String × Json)}
    (htool : validateConfig host tool.toolType tool.config = .ok ())
    (h : updatedConfig host tool toolType config = .ok merged) :
    validateConfig host (toolType.getD tool.toolType) merged = .ok () := by
  unfold updatedConfig at h
  cases config with
  | none =>
    cases toolType with
    | none =>
      cases h
      exact htool
    | some toolType =>
      dsimp only [Option.getD_some] at h ⊢
      rcases hvalid : validateConfig host toolType tool.config with e | _
      · simp only [Option.isSome_some, if_true, hvalid] at h
        cases h
      · simp only [Option.isSome_some, if_true, hvalid] at h
        cases h
        exact hvalid
  | some config =>
    -- whichever way it is merged, the result is what is validated
    dsimp only at h
    split at h
    · exact validated h
    · split at h
      · exact validated h
      · exact validated h

/-- `update_tool` validates what it merges, and an old configuration for a new type. -/
theorem keeps_updateTool {name description toolType : Option String}
    {config : Option (List (String × Json))} (hhost : SameResolver resolver host) :
    Keeps (AllValid resolver)
      (updateTool host tenantId toolId name description toolType config) := by
  unfold updateTool
  refine Leads.getTool fun tool hactive hvalid => ?_
  have hname : ∀ {I : Session → Prop},
      Keeps I ((name.filter (· ≠ tool.name)).forM (checkToolName tenantId toolId)) := by
    intro I
    cases name.filter (· ≠ tool.name) with
    | none => exact keeps_pure
    | some name => exact keeps_scalarOneOrNone.bind fun _ => keeps_raiseIf
  refine Leads.bind hname (fun _ hs => hs.1) fun _ => ?_
  refine Leads.ofExcept (fun _ hs => hs.1) fun merged hmerged => ?_
  have hnew := validateConfig_updatedConfig (hhost.validateConfig ▸ hvalid hactive) hmerged
  rw [hhost.validateConfig] at hnew
  have hflush : Leads (fun s => AllValid resolver s ∧ tool ∈ (s.rows .tools).rows)
      (AllValid resolver) (flushTool host tool name description toolType merged) := by
    refine Leads.bind keeps_select (fun _ hs => hs.1) fun _ => ?_
    refine Leads.bind keeps_raiseIf (fun _ hs => hs.1) fun _ => ?_
    exact (leads_save fun _ => hnew).andThen fun _ => keeps_commit
  exact (hflush.orNameTaken AllValid.rollback).andThen fun _ =>
    keeps_refresh.bind fun _ => keeps_ofExcept

/-- `delete_tool` leaves a tool that is not active. -/
theorem keeps_deleteTool : Keeps (AllValid resolver) (deleteTool host tenantId toolId) :=
  keeps_getTool.bind fun _ => (keeps_save fun _ _ hactive => nomatch hactive).bind fun _ =>
    keeps_commit

end Calls

/-- The calls of a tenant's users. -/
inductive ToolRequest where
  | create (name description toolType : String) (config : List (String × Json))
  | update (toolId : Uuid) (name description toolType : Option String)
      (config : Option (List (String × Json)))
  | delete (toolId : Uuid)

def ToolRequest.program (host : Host) (tenantId : Uuid) : ToolRequest → Service Unit
  | .create name description toolType config =>
    discard (createTool host tenantId name description toolType config)
  | .update toolId name description toolType config =>
    discard (updateTool host tenantId toolId name description toolType config)
  | .delete toolId => deleteTool host tenantId toolId

theorem keeps_toolRequest {resolver host : Host} {tenantId : Uuid} {r : ToolRequest}
    (hhost : SameResolver resolver host) : Keeps (AllValid resolver) (r.program host tenantId) := by
  cases r with
  | create name description toolType config => exact keeps_discard (keeps_createTool hhost)
  | update toolId name description toolType config =>
    exact keeps_discard (keeps_updateTool hhost)
  | delete toolId => exact keeps_deleteTool

end GraphPilot.Tenancy

namespace GraphPilot.Doctor

open Python Relational Concurrency Orm
open Tenancy (TableName ToolRegistry AcceptsUrl AcceptsMethod validateConfig validateConfig_api)

/-! ### What a patch leaves of a configuration -/

/-- Two values that no check for a string tells apart. -/
structure SameText (a b : Option Json) : Prop where
  absent : a = none ↔ b = none
  text : ∀ s, a = some (.str s) ↔ b = some (.str s)

namespace SameText

variable {a b c : Option Json}

theorem refl : SameText a a := ⟨.rfl, fun _ => .rfl⟩

theorem trans (h : SameText a b) (h' : SameText b c) : SameText a c :=
  ⟨h.absent.trans h'.absent, fun s => (h.text s).trans (h'.text s)⟩

theorem symm (h : SameText a b) : SameText b a := ⟨h.absent.symm, fun s => (h.text s).symm⟩

theorem acceptsUrl {host : Tenancy.Host} (h : SameText a b) (ha : AcceptsUrl host a) :
    AcceptsUrl host b := by
  obtain ⟨url, hurl, hrest⟩ := ha
  exact ⟨url, (h.text url).mp hurl, hrest⟩

theorem acceptsMethod {host : Tenancy.Host} (h : SameText a b) (ha : AcceptsMethod host a) :
    AcceptsMethod host b := by
  obtain ⟨method, hmethod, hmem⟩ := ha
  refine ⟨method, ?_, hmem⟩
  cases a with
  | none =>
    rw [h.absent.mp rfl]
    exact hmethod
  | some value =>
    rw [(h.text method).mp (congrArg some hmethod)]
    rfl

end SameText

/-- The host's `==` is that of dictionaries: equal ones have the same keys, and under a key
with a string the same string. -/
def Host.ComparesItems (host : Host) : Prop :=
  ∀ a b : List (String × Json), host.equal (.obj a) (.obj b) = true →
    ∀ k, SameText (Json.lookup k a) (Json.lookup k b)

section Given

variable (host : Host) (id : Uuid) (path : String)

/-- The value that an operation gives to a path of a tool. -/
def given? (operation : List (String × Json)) : Option Json :=
  if str? (Json.getD "target_type" operation) = some "tool" ∧
      (str? (Json.getD "target_id" operation)).bind host.uuid = some id ∧
      str? (Json.getD "path" operation) = some path then Json.lookup "value" operation
  else none

/-- The last value that the operations give to a path of a tool. -/
def lastGiven? (operations : List (List (String × Json))) : Option Json :=
  operations.reverse.findSome? (given? host id path)

variable {host id path} {operations : List (List (String × Json))}
variable {operation : List (String × Json)}

theorem lastGiven?_concat : lastGiven? host id path (operations ++ [operation]) =
    (given? host id path operation).or (lastGiven? host id path operations) := by
  unfold lastGiven?
  rw [List.reverse_append, List.reverse_singleton, List.singleton_append, List.findSome?_cons]
  cases given? host id path operation <;> rfl

/-- What an operation on this tool gives. -/
theorem given?_of_tool {key path' : String} (h : ToolOperation host operation id key)
    (hpath : Json.lookup "path" operation = some (.str path')) : given? host id path operation =
      if path' = path then Json.lookup "value" operation else none := by
  obtain ⟨text, htext, huuid⟩ := h.target
  unfold given?
  rw [getD_eq_str.mpr h.kind, getD_eq_str.mpr htext, getD_eq_str.mpr hpath]
  simp [str?, huuid]

/-- What an operation gives that is not on this tool. -/
theorem given?_of_not (h : ¬ On host "tool" id operation) : given? host id path operation = none :=
  if_neg fun hon => h ⟨hon.1, hon.2.1⟩

end Given

/-- The configuration `c'` of a tool after operations on `c`. -/
structure Repatched (host : Host) (id : Uuid) (operations : List (List (String × Json)))
    (c c' : List (String × Json)) : Prop where
  url : SameText ((lastGiven? host id "/config/url" operations).or (Json.lookup "url" c))
    (Json.lookup "url" c')
  method : SameText ((lastGiven? host id "/config/method" operations).or (Json.lookup "method" c))
    (Json.lookup "method" c')
  others : ∀ k, k ≠ "url" → k ≠ "method" → Json.lookup k c' = Json.lookup k c

namespace Repatched

variable {host : Host} {id : Uuid} {operations : List (List (String × Json))}
variable {operation c c₁ c₂ : List (String × Json)}

theorem nil : Repatched host id [] c c := ⟨.refl, .refl, fun _ _ _ => rfl⟩

/-- An operation that gives nothing to this tool. -/
theorem skip (h : Repatched host id operations c c₁)
    (hnone : ∀ path, given? host id path operation = none) :
    Repatched host id (operations ++ [operation]) c c₁ := by
  refine ⟨?_, ?_, h.others⟩
  · rw [lastGiven?_concat, hnone]
    exact h.url
  · rw [lastGiven?_concat, hnone]
    exact h.method

/-- An operation on this tool. -/
theorem patch {key : String} {value : Json} (h : Repatched host id operations c c₁)
    (hop : ToolOperation host operation id key)
    (hvalue : Json.lookup "value" operation = some value) :
    Repatched host id (operations ++ [operation]) c (Json.assign key value c₁) := by
  have hgiven : ∀ {path' : String}, Json.lookup "path" operation = some (.str path') →
      ∀ path, given? host id path operation =
        if path' = path then Json.lookup "value" operation else none :=
    fun hpath _ => given?_of_tool hop hpath
  rcases hop.path with ⟨rfl, hpath⟩ | ⟨rfl, hpath⟩
  · refine ⟨?_, ?_, fun k hurl hmethod => ?_⟩
    · rw [lastGiven?_concat, hgiven hpath, if_pos rfl, hvalue, Json.lookup_assign_same]
      exact .refl
    · rw [lastGiven?_concat, hgiven hpath, if_neg (by decide), Json.lookup_assign_ne _ _ (by decide)]
      exact h.method
    · rw [Json.lookup_assign_ne _ _ hurl]
      exact h.others k hurl hmethod
  · refine ⟨?_, ?_, fun k hurl hmethod => ?_⟩
    · rw [lastGiven?_concat, hgiven hpath, if_neg (by decide), Json.lookup_assign_ne _ _ (by decide)]
      exact h.url
    · rw [lastGiven?_concat, hgiven hpath, if_pos rfl, hvalue, Json.lookup_assign_same]
      exact .refl
    · rw [Json.lookup_assign_ne _ _ hmethod]
      exact h.others k hurl hmethod

/-- A change that the ORM does not see, since the dictionaries are equal. -/
theorem unflushed (h₁ : Repatched host id operations c c₁)
    (h₂ : Repatched host id (operations ++ [operation]) c c₂)
    (heq : ∀ k, SameText (Json.lookup k c₁) (Json.lookup k c₂)) :
    Repatched host id (operations ++ [operation]) c c₁ :=
  ⟨h₂.url.trans (heq "url").symm, h₂.method.trans (heq "method").symm, h₁.others⟩

end Repatched

/-- The row `x'` of a tool after operations on the row `x`. -/
structure PatchedTool (host : Host) (operations : List (List (String × Json)))
    (x x' : ToolRegistry) : Prop where
  id : x'.id = x.id
  toolType : x'.toolType = x.toolType
  isActive : x'.isActive = x.isActive
  config : Repatched host x.id operations x.config x'.config

/-- The tools after operations on those of `db`. -/
def PatchedTools (host : Host) (operations : List (List (String × Json))) (db db' : Database) :
    Prop :=
  ∀ x' ∈ (db' .tools).rows, ∃ x ∈ (db .tools).rows, PatchedTool host operations x x'

/-! ### The operations of a patch -/

section Operations

variable {host : Host} {tenantId id : Uuid} {d d' : Database} {t t' : Targets}
variable {operations done : List (List (String × Json))} {operation : List (String × Json)}
variable {c? : Option (List (String × Json))}

/-- The configuration of a target after operations; where there is no such target, no operation
is on it. -/
structure Follows (host : Host) (id : Uuid) (operations : List (List (String × Json)))
    (c? c'? : Option (List (String × Json))) : Prop where
  config : Option.Rel (Repatched host id operations) c? c'?
  absent : c? = none → ∀ c, Repatched host id operations c c

/-- An operation that is not on this tool. -/
theorem Follows.skip {c'? : Option (List (String × Json))} (h : Follows host id done c? c'?)
    (hon : ¬ On host "tool" id operation) : Follows host id (done ++ [operation]) c? c'? := by
  have hgiven : ∀ path, given? host id path operation = none := fun path => given?_of_not hon
  obtain ⟨hconfig, habsent⟩ := h
  constructor
  · cases hconfig with
    | none => exact .none
    | some hrepatched => exact .some (hrepatched.skip hgiven)
  · intro hnone c
    exact (habsent hnone c).skip hgiven

/-- One operation. -/
theorem Follows.patch (hequal : host.ComparesItems) (hvalid : ValidOperation host operation)
    (ht : t.patch host operation = .ok t') (h : Follows host id done c? (t.config id)) :
    Follows host id (done ++ [operation]) c? (t'.config id) := by
  rcases hvalid with ⟨text, target, hop⟩ | ⟨target, key, hop⟩
  · obtain ⟨-, model, -, -, rfl⟩ := (patch_agent hop).mp ht
    refine h.skip fun hon => ?_
    -- the operation is on an agent
    have hkind := hon.kind
    rw [getD_eq_str.mpr hop.kind] at hkind
    exact absurd hkind (by decide)
  · obtain ⟨old, value, hold, hvalue, rfl⟩ := (patch_tool hop).mp ht
    by_cases hid : id = target
    · subst hid
      obtain ⟨hconfig, habsent⟩ := h
      rw [hold] at hconfig
      cases hconfig with
      | some hrepatched =>
        have hpatched := hrepatched.patch hop hvalue
        refine ⟨?_, fun hnone => absurd hnone (Option.some_ne_none _)⟩
        split
        · rename_i heq
          rw [hold]
          exact .some (hrepatched.unflushed hpatched (hequal _ _ heq))
        · show Option.Rel _ _ (Function.update t.config id _ id)
          rw [Function.update_self]
          exact .some hpatched
    · have hsame : (if host.equal (.obj old) (.obj (Json.assign key value old)) then t
          else t.setConfig target (Json.assign key value old)).config id = t.config id := by
        split
        · rfl
        · exact Function.update_of_ne hid _ _
      rw [hsame]
      refine h.skip fun hon => hid ?_
      -- the target of the operation is another tool
      obtain ⟨text, htext, huuid⟩ := hop.target
      have htarget := hon.id
      rw [getD_eq_str.mpr htext] at htarget
      exact Option.some.inj (htarget.symm.trans huuid)

/-- The loop over the operations. -/
theorem Follows.applyOperations (hequal : host.ComparesItems)
    (hvalid : ∀ x ∈ operations, ValidOperation host x)
    (ht : applyOperations host t operations = .ok t') (h : Follows host id done c? (t.config id)) :
    Follows host id (done ++ operations) c? (t'.config id) := by
  unfold Doctor.applyOperations at ht
  induction operations generalizing done t with
  | nil =>
    cases ht
    rw [List.append_nil]
    exact h
  | cons operation rest ih =>
    rw [List.foldlM_cons] at ht
    obtain ⟨t₁, hstep, hrest⟩ := Attempt.bind_eq_ok.mp ht
    have hnext := h.patch hequal (hvalid operation List.mem_cons_self) hstep
    have hall := ih (fun x hx => hvalid x (List.mem_cons_of_mem _ hx)) hrest hnext
    rw [List.append_assoc, List.singleton_append] at hall
    exact hall

/-- The tools that the loop leaves. -/
theorem patchedTools_of_framed (hequal : host.ComparesItems)
    (hvalid : ∀ x ∈ operations, ValidOperation host x)
    (ht : applyOperations host (targets tenantId d) operations = .ok (targets tenantId d'))
    (hframed : Framed host tenantId operations d d') : PatchedTools host operations d d' := by
  intro x' hx'
  have hfind' : (d' .tools).find? x'.id = some x' := Table.find?_of_mem hx'
  have hrel := hframed.tools x'.id
  rw [hfind'] at hrel
  rcases hfind : (d .tools).find? x'.id with _ | x
  · rw [hfind] at hrel
    cases hrel
  rw [hfind] at hrel
  cases hrel with
  | some hframe =>
    have hid : x'.id = x.id := by rw [hframe.row]
    have htenant : x'.tenantId = x.tenantId := by rw [hframe.row]
    have hactive : x'.isActive = x.isActive := by rw [hframe.row]
    have htype : x'.toolType = x.toolType := by rw [hframe.row]
    refine ⟨x, Table.mem_of_find? hfind, hid, htype, hactive, ?_⟩
    rw [hid] at hfind hfind'
    -- the loop starts from the configuration that is stored
    have hstart : Follows host x.id [] ((targets tenantId d).config x.id)
        ((targets tenantId d).config x.id) :=
      ⟨rel_refl (fun _ => .nil) _, fun _ _ => .nil⟩
    have hend := hstart.applyOperations hequal hvalid ht
    rw [List.nil_append] at hend
    have hconfig : ∀ {db : Database} {y : ToolRegistry}, (db .tools).find? x.id = some y →
        (targets tenantId db).config x.id = if (decide (y.id = x.id) &&
          decide (y.tenantId = tenantId) && y.isActive) = true then some y.config else none := by
      intro db y hy
      show Option.map _ (Option.filter _ _) = _
      rw [hy]
      exact Option.map_if
    rw [hconfig hfind, hconfig hfind', hid, htenant, hactive] at hend
    by_cases htarget : (decide (x.id = x.id) && decide (x.tenantId = tenantId) &&
        x.isActive) = true
    · rw [if_pos htarget, if_pos htarget] at hend
      cases hend.config with
      | some hrepatched => exact hrepatched
    · rw [if_neg htarget, if_neg htarget] at hend
      rcases hframe.changed with hsame | ⟨howner, hon, -⟩
      · rw [hsame]
        exact hend.absent rfl x.config
      · exact absurd (by simp [howner, hon]) htarget

/-- A call of `apply_suggestion`, on the committed rows. -/
theorem applySuggestion_tools {suggestionId userId : Uuid} {retry : Bool}
    {cs : List (Sql.Choice Exn (Sql.Input Answer))} {r : Option (Except Exn Applied)}
    (hequal : host.ComparesItems)
    (h : Sql.Serves service.backend (applySuggestion host tenantId suggestionId userId retry) d
      cs r d') :
    d' = d ∨ (∃ a, r = some (.ok a)) ∧ ∃ y ∈ (d .suggestions).rows, y.id = suggestionId ∧
      PatchedTools host (operationsOf y.patch) d d' := by
  obtain ⟨hok, hnot, -⟩ := applySuggestion_serves h
  by_cases hr : ∃ a, r = some (.ok a)
  · obtain ⟨a, ha⟩ := hr
    obtain ⟨y, t, hchecks, -, -, happlied⟩ := hok a ha
    obtain ⟨hfound, -, hvalid, ht, -⟩ := applyChecks_eq_ok.mp hchecks
    obtain ⟨hfind, hid, -⟩ := suggestionOf?_eq_some hfound
    refine .inr ⟨⟨a, ha⟩, y, Table.mem_of_find? hfind, hid, ?_⟩
    rw [← happlied.targets] at ht
    exact patchedTools_of_framed hequal (validatePatchOperations_eq_ok hvalid) ht happlied.framed
  · exact .inl (hnot fun a ha => hr ⟨a, ha⟩)

end Operations

end GraphPilot.Doctor

namespace GraphPilot.Tenancy

open Python Relational Concurrency

/-! ### Valid tools after a patch -/

/-- The other types have checks of their own keys only. -/
theorem validateConfig_of_lookup {host : Host} {toolType : String}
    {c c' : List (String × Json)} (htype : toolType ≠ "api")
    (hothers : ∀ k, k ≠ "url" → k ≠ "method" → Json.lookup k c' = Json.lookup k c) :
    validateConfig host toolType c' = validateConfig host toolType c := by
  have hrequire : ∀ {key}, key ≠ "url" → key ≠ "method" →
      requireConfig key toolType c' = requireConfig key toolType c := by
    intro key hurl hmethod
    unfold requireConfig Json.getD
    rw [hothers key hurl hmethod]
  unfold validateConfig
  split
  · exact absurd rfl htype
  · exact hrequire (by decide) (by decide)
  · exact hrequire (by decide) (by decide)
  · rfl

/-- A valid tool stays valid where the last values of its URL and its method, if it is an
API tool, are accepted. -/
theorem ToolRegistry.Valid.patched {host : Host} {doctor : Doctor.Host} {x x' : ToolRegistry}
    {operations : List (List (String × Json))} (hx : x.Valid host)
    (hpatched : Doctor.PatchedTool doctor operations x x')
    (hurl : x.isActive = true → x.toolType = "api" → ∀ value,
      Doctor.lastGiven? doctor x.id "/config/url" operations = some value →
        AcceptsUrl host (some value))
    (hmethod : x.isActive = true → x.toolType = "api" → ∀ value,
      Doctor.lastGiven? doctor x.id "/config/method" operations = some value →
        AcceptsMethod host (some value)) : x'.Valid host := by
  intro hactive
  rw [hpatched.isActive] at hactive
  have hvalid := hx hactive
  rw [hpatched.toolType]
  by_cases hapi : x.toolType = "api"
  · rw [hapi] at hvalid ⊢
    obtain ⟨hold, hold'⟩ := validateConfig_api.mp hvalid
    refine validateConfig_api.mpr ⟨hpatched.config.url.acceptsUrl ?_,
      hpatched.config.method.acceptsMethod ?_⟩
    · cases hlast : Doctor.lastGiven? doctor x.id "/config/url" operations with
      | none => exact hold
      | some value => exact hurl hactive hapi value hlast
    · cases hlast : Doctor.lastGiven? doctor x.id "/config/method" operations with
      | none => exact hold'
      | some value => exact hmethod hactive hapi value hlast
  · rw [validateConfig_of_lookup hapi hpatched.config.others]
    exact hvalid

/-! ### Runs -/

/-- A condition on the application of a suggestion, on the rows before it. -/
abbrev ApplyCondition : Type := Host → Doctor.Host → Uuid → Database → Prop

/-- One call of a service, alone on the committed rows, or a change that leaves the
tools. -/
inductive ToolStep (resolver : Host) (cond : ApplyCondition) : State → State → Prop where
  | request {s : State} {host : Host} (tenantId : Uuid) (r : ToolRequest)
      (hhost : SameResolver resolver host) :
      ToolStep resolver cond s (run (r.program host tenantId) s).2
  | apply {s : State} {doctor : Doctor.Host} {tenantId suggestionId userId : Uuid} {retry : Bool}
      {cs : List (Sql.Choice Exn (Sql.Input Doctor.Answer))}
      {r : Option (Except Exn Doctor.Applied)} {after : Database}
      (hequal : doctor.ComparesItems)
      (h : Sql.Serves Doctor.service.backend
        (Doctor.applySuggestion doctor tenantId suggestionId userId retry) s.db cs r after)
      (hcond : ∀ a, r = some (.ok a) → cond resolver doctor suggestionId s.db) :
      ToolStep resolver cond s ⟨after, s.active⟩
  | elsewhere {s s' : State} (htools : s'.db .tools = s.db .tools) : ToolStep resolver cond s s'

/-- The states that are reached. -/
abbrev ToolRun (resolver : Host) (cond : ApplyCondition) : State → State → Prop :=
  Relation.ReflTransGen (ToolStep resolver cond)

/-- The claim that every active tool stays valid. -/
def ToolsStayValid (cond : ApplyCondition) : Prop :=
  ∀ (resolver : Host) (s s' : State), (∀ x ∈ (s.db .tools).rows, x.Valid resolver) →
    ToolRun resolver cond s s' → ∀ x ∈ (s'.db .tools).rows, x.Valid resolver

/-- The condition: of every active API tool, the last values that the patch gives to its
URL and to its method are accepted. -/
def PatchAccepted (host : Host) (doctor : Doctor.Host) (suggestionId : Uuid) (db : Database) :
    Prop :=
  ∀ y ∈ (db .suggestions).rows, y.id = suggestionId → ∀ x ∈ (db .tools).rows,
    x.isActive = true → x.toolType = "api" →
      (∀ value, Doctor.lastGiven? doctor x.id "/config/url" (Doctor.operationsOf y.patch) =
        some value → AcceptsUrl host (some value)) ∧
      ∀ value, Doctor.lastGiven? doctor x.id "/config/method" (Doctor.operationsOf y.patch) =
        some value → AcceptsMethod host (some value)

theorem ToolStep.valid {resolver : Host} {s s' : State} (h : ToolStep resolver PatchAccepted s s')
    (hs : ∀ x ∈ (s.db .tools).rows, x.Valid resolver) :
    ∀ x ∈ (s'.db .tools).rows, x.Valid resolver := by
  cases h with
  | request tenantId r hhost => exact rows_of_run (keeps_toolRequest hhost) hs
  | apply hequal h hcond =>
    rcases Doctor.applySuggestion_tools hequal h with rfl | ⟨⟨a, hr⟩, y, hy, hid, hpatched⟩
    · exact hs
    · intro x' hx'
      obtain ⟨x, hx, hxx'⟩ := hpatched x' hx'
      have haccepted := fun hactive hapi => hcond a hr y hy hid x hx hactive hapi
      exact (hs x hx).patched hxx' (fun hactive hapi => (haccepted hactive hapi).1)
        fun hactive hapi => (haccepted hactive hapi).2
  | elsewhere htools =>
    rw [htools]
    exact hs

/-- Every active tool stays valid where the patches that are applied are accepted. -/
theorem tools_stay_valid (resolver : Host) (s s' : State)
    (hs : ∀ x ∈ (s.db .tools).rows, x.Valid resolver)
    (h : ToolRun resolver PatchAccepted s s') : ∀ x ∈ (s'.db .tools).rows, x.Valid resolver := by
  induction h with
  | refl => exact hs
  | tail _ hstep ih => exact hstep.valid ih

/-! ### A patch of the method -/

namespace Sample

/-- A host that finds one public address. -/
def publicHost : Host :=
  { host with
    urlparse := fun _ => .ok ⟨"https", some "api.example.com", none, none, .ok none⟩
    ipAddress := fun value =>
      if value = "93.184.216.34" then some ⟨false, false, false, false, false, false⟩ else none
    getaddrinfo := fun _ _ => .ok ["93.184.216.34"] }

def apiConfig (method : String) : List (String × Json) :=
  [("url", .str "https://api.example.com/v1"), ("method", .str method)]

def toolRequest : ToolRequest := .create "search" "" "api" (apiConfig "GET")

/-- A tenant without tools. -/
def toolless : State where
  db := Tables.insert (fun _ => .empty) .tenants
    { toTenant := ⟨⟨"t"⟩, "pro", 0, 0⟩, maxWorkflows := 10, maxAgentsPerWorkflow := 10 }
  active _ := none

/-- The tool of the request. -/
def tool (method : String) : ToolRegistry :=
  ⟨⟨"r"⟩, ⟨"t"⟩, "search", "", "api", apiConfig method, true, host.now, host.now⟩

def created : State := (run (toolRequest.program publicHost ⟨"t"⟩) toolless).2

theorem created_tools : (created.db .tools).rows = [tool "GET"] := by
  with_unfolding_all rfl

/-- The suggestion to replace the method of the tool. -/
def methodSuggestion (method : String) : WorkflowFixSuggestion :=
  { Doctor.Sample.suggestion with
    patch := .obj [("operations", .arr [.obj [("op", .str "replace"), ("target_type", .str "tool"),
      ("target_id", .str "r"), ("path", .str "/config/method"), ("value", .str method)]])] }

/-- Its rows. -/
def suggested (method : String) : State :=
  { created with db := created.db.insert .suggestions (methodSuggestion method) }

/-- The host of the doctor. -/
def doctorHost : Doctor.Host :=
  { Doctor.Sample.host with
    equal := fun a b => match a, b with
      | .null, .null => true
      | _, _ => false }

/-- The choices of the environment for a suggestion of one operation. -/
def applying : List (Sql.Choice Exn (Sql.Input Doctor.Answer)) :=
  [.ok .nothing, .ok .nothing, .ok (.answers (Doctor.Sample.world "r0")), .ok .nothing,
    .ok (.answers (Doctor.Sample.world "r0")), .ok (.answers (Doctor.Sample.world "r0")),
    .ok .nothing, .ok .nothing]

/-- The tools after the suggestion has been applied. -/
def patched? (method : String) : Option (List ToolRegistry) :=
  ((Doctor.applySuggestion doctorHost ⟨"t"⟩ ⟨"s"⟩ ⟨"u"⟩ false).steps
    (Doctor.service.backend.perform 0) applying .fresh (.initial (suggested method).db)).map
    fun x => (x.2.2.db .tools).rows

theorem patched_eq (method : String) : patched? method = some [tool method] := by
  with_unfolding_all rfl

theorem suggested_tools (method : String) : (suggested method).db .tools = created.db .tools := by
  have hne : TableName.tools ≠ .suggestions := by decide
  exact Tables.insert_of_ne (r := methodSuggestion method) hne

theorem suggested_suggestions (method : String) :
    ((suggested method).db .suggestions).rows = [methodSuggestion method] := by
  with_unfolding_all rfl

theorem doctorHost_comparesItems : doctorHost.ComparesItems := fun _ _ h => nomatch h

/-- The tool is created, and the suggestion appears and is applied. -/
theorem toolRun {cond : ApplyCondition} {method : String}
    (hcond : cond publicHost doctorHost ⟨"s"⟩ (suggested method).db) :
    ∃ s', ToolRun publicHost cond toolless s' ∧ (s'.db .tools).rows = [tool method] := by
  obtain ⟨⟨p', s', sv'⟩, hsteps, hrows⟩ := Option.map_eq_some_iff.mp (patched_eq method)
  refine ⟨⟨sv'.db, (suggested method).active⟩, ?_, hrows⟩
  have hcreate : ToolStep publicHost cond toolless created := .request ⟨"t"⟩ toolRequest (.refl _)
  have hsuggest : ToolStep publicHost cond created (suggested method) :=
    .elsewhere (suggested_tools method)
  have happly : ToolStep publicHost cond (suggested method) ⟨sv'.db, (suggested method).active⟩ :=
    .apply doctorHost_comparesItems ⟨p', s', sv', hsteps, rfl, rfl⟩ fun _ _ => hcond
  exact ((Relation.ReflTransGen.single hcreate).tail hsuggest).tail happly

end Sample

theorem toolless_valid {resolver : Host} :
    ∀ x ∈ (Sample.toolless.db .tools).rows, x.Valid resolver := by
  intro x hx
  cases hx

/-- A patch gives an API tool a method that `_validate_config` refuses. -/
theorem tools_go_bad : ¬ ToolsStayValid fun _ _ _ _ => True := by
  intro h
  obtain ⟨s', hrun, hrows⟩ : ∃ s', ToolRun Sample.publicHost (fun _ _ _ _ => True)
      Sample.toolless s' ∧ (s'.db .tools).rows = [Sample.tool "PATCH"] := Sample.toolRun trivial
  have hvalid := h _ _ _ toolless_valid hrun (Sample.tool "PATCH")
    (by rw [hrows]; exact List.mem_cons_self)
  obtain ⟨-, method, hmethod, hmem⟩ := validateConfig_api.mp (hvalid rfl)
  obtain rfl : "PATCH" = method := by
    cases hmethod
    rfl
  exact absurd hmem (by decide)

/-- The same patch with a method that is accepted. -/
theorem tools_stay_valid_post : ∃ s', ToolRun Sample.publicHost PatchAccepted Sample.toolless s' ∧
    (s'.db .tools).rows = [Sample.tool "POST"] ∧
    ∀ x ∈ (s'.db .tools).rows, x.Valid Sample.publicHost := by
  have haccepted : PatchAccepted Sample.publicHost Sample.doctorHost ⟨"s"⟩
      (Sample.suggested "POST").db := by
    intro y hy _ x hx _ _
    rw [Sample.suggested_suggestions] at hy
    obtain rfl := List.mem_singleton.mp hy
    rw [Sample.suggested_tools, Sample.created_tools] at hx
    obtain rfl := List.mem_singleton.mp hx
    constructor
    · intro value hvalue
      cases hvalue
    · intro value hvalue
      cases hvalue
      exact ⟨"POST", rfl, by decide⟩
  obtain ⟨s', hrun, hrows⟩ := Sample.toolRun haccepted
  exact ⟨s', hrun, hrows, tools_stay_valid _ _ _ toolless_valid hrun⟩

end GraphPilot.Tenancy
