/-
Tools that cannot be shown.

`_validate_config` asks of a database tool only that its connection string is truthy, and
the response is masked after the commit.  A connection string that is no text is therefore
stored, and then neither this call nor any listing of the tenant's tools returns.

* `createTool_raises_iff` — which calls of `create_tool` raise after their commit;
* `stored_tools_shown` — where no call stores such a connection string, every listing
  returns one response for each active tool.
-/
import GraphPilot.Properties.ToolConfigs
import GraphPilot.Tenancy.Masking

namespace GraphPilot.Tenancy

open Python Relational
open TwoRuns (exec exec_bind)
open Python.Json (lookup Distinct)

/-- A connection string that `_validate_config` accepts and that cannot be masked. -/
def Unshowable (toolType : String) (config : List (String × Json)) : Prop :=
  toolType = "database" ∧ (Json.getD "connection_string" config).truthy = true ∧
    ∀ text, Json.getD "connection_string" config ≠ .str text

/-- An active tool can be shown. -/
def ToolRegistry.Shown (x : ToolRegistry) : Prop :=
  x.isActive = true → Showable x.toolType x.config

section Shown

variable {host : Host} {tenantId : Uuid} {toolType : String} {config : List (String × Json)}

theorem getD_of_lookup {k : String} {v : Json} (h : lookup k config = some v) :
    Json.getD k config = v := by
  unfold Json.getD
  rw [h, Option.getD_some]

/-- What has been validated can be shown unless it is such a configuration. -/
theorem showable_iff (hvalid : validateConfig host toolType config = .ok ()) :
    Showable toolType config ↔ ¬ Unshowable toolType config := by
  constructor
  · rintro hshow ⟨rfl, htruthy, hno⟩
    cases hlookup : lookup "connection_string" config with
    | none =>
      unfold Json.getD at htruthy
      rw [hlookup] at htruthy
      cases htruthy
    | some v =>
      obtain ⟨text, rfl⟩ := hshow rfl v hlookup
      exact hno text (getD_of_lookup hlookup)
  · rintro hnot rfl v hv
    have htruthy : (Json.getD "connection_string" config).truthy = true := by
      change requireConfig "connection_string" "database" config = .ok () at hvalid
      unfold requireConfig at hvalid
      split at hvalid
      · assumption
      · cases hvalid
    by_contra hno
    refine hnot ⟨rfl, htruthy, fun text htext => hno ⟨text, ?_⟩⟩
    rw [← htext, getD_of_lookup hv]

/-- Such a configuration is valid. -/
theorem validateConfig_of_unshowable (h : Unshowable toolType config) :
    validateConfig host toolType config = .ok () := by
  obtain ⟨rfl, htruthy, -⟩ := h
  show requireConfig "connection_string" "database" config = .ok ()
  unfold requireConfig
  rw [if_pos htruthy]
  rfl

theorem toolResponse_returns {x : ToolRegistry} :
    (∃ response, toolResponse host x = .ok response) ↔ Showable x.toolType x.config := by
  rw [← @maskConfig_returns host]
  unfold toolResponse
  constructor
  · rintro ⟨response, h⟩
    obtain ⟨shown, hshown, -⟩ := Attempt.bind_eq_ok.mp h
    exact ⟨shown, hshown⟩
  · rintro ⟨shown, hshown⟩
    rw [hshown]
    exact ⟨_, rfl⟩

/-! ### Creation -/

/-- A call that raises has committed nothing. -/
def RaisesClean (host : Host) (tenantId : Uuid) (name description toolType : String)
    (config : List (String × Json)) : Prop :=
  ∀ s : State, ∀ e, (run (createTool host tenantId name description toolType config) s).1 =
    .error e → (run (createTool host tenantId name description toolType config) s).2.db .tools =
      s.db .tools

/-- A tenant that has nothing. -/
def newTenant (tenantId : Uuid) : RowOf .tenants where
  toTenant := ⟨tenantId, "", 0, 0⟩
  maxWorkflows := 0
  maxAgentsPerWorkflow := 0

def vacant (tenantId : Uuid) : State where
  db := Tables.insert (fun _ => .empty) .tenants (newTenant tenantId)
  active _ := none

theorem vacant_tools : ((vacant tenantId).db .tools).rows = [] := by
  with_unfolding_all rfl

theorem vacant_has : (vacant tenantId).db.has (.tenants, tenantId) = true := by
  have hrows : ((vacant tenantId).db .tenants).rows = [newTenant tenantId] := by
    with_unfolding_all rfl
  have hfind : ((vacant tenantId).db .tenants).find? tenantId = some (newTenant tenantId) :=
    Table.find?_of_mem (by rw [hrows]; exact List.mem_cons_self)
  unfold Database.has
  rw [hfind]
  rfl

/-- A row of a table without rows is inserted if the rows that it refers to are there. -/
theorem exec_insert_of_empty {n : TableName} {x : RowOf n} {clash : RowOf n → Bool} {s : Session}
    (hrows : (s.rows n).rows = []) (hrefs : s.rows.hasAll (references n x) = true) :
    exec (insert n x clash) s = (.ok (), { s with rows := s.rows.insert n x }) := by
  have hselect : exec (select n fun y => rowId n y = rowId n x || clash y) s = (.ok [], s) := by
    show (Except.ok ((s.rows n).rows.filter _), s) = _
    rw [hrows]
    rfl
  have hcheck : exec (checkReferences (references n x)) s = (.ok (), s) := by
    have hhas : exec (hasReferences (references n x)) s = (.ok true, s) := by
      show (Except.ok (s.rows.hasAll (references n x)), s) = _
      rw [hrefs]
    unfold checkReferences
    rw [exec_bind, hhas]
    rfl
  unfold insert
  rw [exec_bind, hselect]
  dsimp only
  rw [exec_bind, show exec (raiseIf (([] : List (RowOf n)) ≠ []) integrityError) s = (.ok (), s) from
    congrArg (exec · s) (if_neg (not_not.mpr rfl))]
  dsimp only
  rw [exec_bind, hcheck]
  rfl

/-- A tool that is valid is committed where there is no other. -/
theorem createTool_commits {name description : String} {s : Session}
    (hvalid : validateConfig host toolType config = .ok ()) (hrows : (s.rows .tools).rows = [])
    (htenant : s.rows.has (.tenants, tenantId) = true) :
    (exec (createTool host tenantId name description toolType config) s).2.committed =
      s.rows.insert .tools (newTool host tenantId name description toolType config) := by
  have hvalidate : exec (ofExcept (validateConfig host toolType config)) s = (.ok (), s) := by
    rw [hvalid]
    rfl
  have hselect : exec (select .tools (sameActiveName tenantId name)) s = (.ok [], s) := by
    show (Except.ok ((s.rows .tools).rows.filter _), s) = _
    rw [hrows]
    rfl
  have hname : exec (scalarOneOrNone .tools (sameActiveName tenantId name)) s = (.ok none, s) := by
    unfold scalarOneOrNone
    rw [exec_bind, hselect]
    rfl
  have hrefs : s.rows.hasAll (references .tools
      (newTool host tenantId name description toolType config)) = true := by
    show ([(TableName.tenants, tenantId)].all s.rows.has) = true
    rw [List.all_cons, htenant]
    rfl
  have hflush : exec (orNameTaken name do
      insert .tools (newTool host tenantId name description toolType config)
        (sameActiveName tenantId name)
      commit) s =
      (.ok (), ⟨s.rows.insert .tools (newTool host tenantId name description toolType config),
        s.rows.insert .tools (newTool host tenantId name description toolType config),
        s.active⟩) := by
    unfold orNameTaken
    rw [TwoRuns.exec_tryCatch, exec_bind, exec_insert_of_empty hrows hrefs]
    rfl
  have hends : Ends (fun _ s' => s'.committed =
      s.rows.insert .tools (newTool host tenantId name description toolType config))
      (createTool host tenantId name description toolType config) s := by
    unfold createTool
    refine Ends.of_ok hvalidate (Ends.of_ok hname (Ends.of_ok (a := ()) rfl
      (Ends.of_ok hflush ?_)))
    -- nothing is written behind the commit
    exact (keeps_refresh.bind fun _ => keeps_ofExcept :
      Keeps (fun s' => s'.committed = _) _) _ rfl
  exact hends

/-- **A call of `create_tool` that raises has committed nothing, exactly if it is not for such
a configuration.** -/
theorem raisesClean_iff {name description : String} :
    RaisesClean host tenantId name description toolType config ↔ ¬ Unshowable toolType config := by
  constructor
  · intro hclean hno
    have hvalid : validateConfig host toolType config = .ok () := validateConfig_of_unshowable hno
    have hempty : ((vacant tenantId).db .tools).rows = [] := vacant_tools
    have hcommits : (run (createTool host tenantId name description toolType config)
        (vacant tenantId)).2.db =
          (vacant tenantId).db.insert .tools (newTool host tenantId name description toolType config) :=
      createTool_commits (s := ⟨(vacant tenantId).db, (vacant tenantId).db, (vacant tenantId).active⟩)
        hvalid hempty vacant_has
    have hcases := createTool_cases host tenantId name description toolType config
      ⟨(vacant tenantId).db, (vacant tenantId).db, (vacant tenantId).active⟩
    have hraises : ∃ e, (run (createTool host tenantId name description toolType config)
        (vacant tenantId)).1 = .error e := by
      rcases hcases with ⟨⟨e, hraise⟩, -⟩ | ⟨-, -, hret, -⟩
      · exact ⟨e, hraise⟩
      · cases hresponse :
            toolResponse host (newTool host tenantId name description toolType config) with
        | error e => exact ⟨e, hret.trans hresponse⟩
        | ok response =>
          exact absurd hno ((showable_iff hvalid).mp (toolResponse_returns.mp ⟨_, hresponse⟩))
    obtain ⟨e, hraise⟩ := hraises
    have hrows := congrArg Table.rows (hclean (vacant tenantId) e hraise)
    rw [hcommits, hempty, Tables.insert_self, Table.rows_insert, hempty] at hrows
    · exact absurd hrows (List.append_ne_nil_of_right_ne_nil _ (List.cons_ne_nil _ _))
    · rw [Table.find?_eq_none]
      intro hmem
      change _ ∈ (((vacant tenantId).db .tools).rows).map _ at hmem
      rw [hempty] at hmem
      cases hmem
  · intro hcond s e hraise
    rcases createTool_cases host tenantId name description toolType config
      ⟨s.db, s.db, s.active⟩ with ⟨-, hcommitted⟩ | ⟨hvalid, -, hret, -⟩
    · exact congrFun hcommitted .tools
    · obtain ⟨response, hresponse⟩ : ∃ response,
          toolResponse host (newTool host tenantId name description toolType config) =
            .ok response := toolResponse_returns.mpr ((showable_iff hvalid).mpr hcond)
      cases hraise.symm.trans (hret.trans hresponse)

/-! ### Updates -/

/-- What a call gives is a dictionary. -/
def ToolRequest.IsDict : ToolRequest → Prop
  | .update _ _ _ _ (some config) => Distinct config
  | _ => True

/-- A call does not give an active tool such a configuration, for the type that it leaves. -/
def ToolRequest.Clean (db : Database) : ToolRequest → Prop
  | .create _ _ toolType config => ¬ Unshowable toolType config
  | .update toolId _ _ toolType config => ∀ x ∈ (db .tools).rows, x.id = toolId →
      x.isActive = true → ¬ Unshowable (toolType.getD x.toolType) (config.getD x.config)
  | .delete _ => True

section Updates

variable {tool : ToolRegistry} {newType : Option String} {incoming : Option (List (String × Json))}
variable {merged : List (String × Json)}

/-- A merged connection string is a text if the one that is given is. -/
theorem showable_merged {stored : List (String × Json)} (hdistinct : Distinct config)
    (hstored : Showable "database" stored) (hgiven : ¬ Unshowable "database" config)
    (hvalid : validateConfig host "database" (mergeDatabaseConfig stored config) = .ok ()) :
    Showable "database" (mergeDatabaseConfig stored config) := by
  intro _ v hv
  have hlookup : lookup "connection_string" (mergeDatabaseConfig stored config) = _ :=
    lookup_mergeDatabaseConfig hdistinct "connection_string"
  rw [hv] at hlookup
  cases hgivenValue : lookup "connection_string" config with
  | none =>
    rw [hgivenValue] at hlookup
    exact hstored rfl v hlookup.symm
  | some u =>
    rw [hgivenValue, Option.elim_some] at hlookup
    by_contra hno
    have hu : ∀ text, u ≠ .str text := by
      rintro text rfl
      rw [mergedValue] at hlookup
      split at hlookup
      · exact hno (hstored rfl v hlookup.symm)
      · exact hno ⟨text, Option.some.inj hlookup⟩
    -- a value that is no text is neither restored nor accepted
    have hkept : mergedValue "database" "connection_string" (lookup "connection_string" stored) u =
        some u := by
      cases u with
      | str text => exact absurd rfl (hu text)
      | obj kvs => rw [mergedValue, if_neg fun h => absurd h.1 (by decide)]
      | _ => rfl
    rw [hkept] at hlookup
    obtain rfl := Option.some.inj hlookup
    refine absurd ((showable_iff hvalid).mpr fun hmerged => hgiven ⟨rfl, ?_, ?_⟩) ?_
    · rw [getD_of_lookup hgivenValue, ← getD_of_lookup hv]
      exact hmerged.2.1
    · rw [getD_of_lookup hgivenValue]
      exact hu
    · exact fun hshow => hno (hshow rfl v hv)

/-- What an update leaves can be shown. -/
theorem showable_updatedConfig (hdict : ∀ config, incoming = some config → Distinct config)
    (htool : Showable tool.toolType tool.config)
    (hclean : ¬ Unshowable (newType.getD tool.toolType) (incoming.getD tool.config))
    (h : updatedConfig host tool newType incoming = .ok merged) :
    Showable (newType.getD tool.toolType) merged := by
  cases incoming with
  | none =>
    unfold updatedConfig at h
    cases newType with
    | none =>
      cases h
      exact htool
    | some newType =>
      obtain ⟨_, hvalid, hret⟩ := Attempt.bind_eq_ok.mp h
      cases hret
      exact (showable_iff hvalid).mpr hclean
  | some config =>
    unfold updatedConfig at h
    dsimp only [Option.getD_some] at h hclean
    split at h
    · rename_i hapi
      exact fun hdatabase => nomatch hapi.2.symm.trans hdatabase
    · split at h
      · rename_i hdatabase
        obtain ⟨merged', hmerge, hrest⟩ := Attempt.bind_eq_ok.mp h
        obtain ⟨_, hvalid, hret⟩ := Attempt.bind_eq_ok.mp hrest
        cases hret
        cases hmerge
        rw [hdatabase.2] at hvalid hclean ⊢
        rw [hdatabase.1] at htool
        exact showable_merged (hdict config rfl) htool hclean hvalid
      · obtain ⟨merged', hmerge, hrest⟩ := Attempt.bind_eq_ok.mp h
        obtain ⟨_, hvalid, hret⟩ := Attempt.bind_eq_ok.mp hrest
        cases hret
        cases hmerge
        exact (showable_iff hvalid).mpr hclean

theorem run_discard {α : Type} (m : Service α) (s : State) :
    (run (discard m) s).2 = (run m s).2 := by
  unfold run
  dsimp only
  rw [show discard m = m >>= fun _ => pure () from rfl, exec_bind]
  rcases exec m ⟨s.db, s.db, s.active⟩ with ⟨_ | a, s'⟩
  · rfl
  · rfl

/-- A call that gives no such configuration leaves tools that can be shown. -/
theorem shown_of_request {s : State} {r : ToolRequest} (hdict : r.IsDict) (hclean : r.Clean s.db)
    (hs : ∀ x ∈ (s.db .tools).rows, x.Shown) :
    ∀ x ∈ ((run (r.program host tenantId) s).2.db .tools).rows, x.Shown := by
  cases r with
  | create name description toolType config =>
    show ∀ x ∈ ((run (discard _) s).2.db .tools).rows, x.Shown
    rw [run_discard]
    rcases createTool_cases host tenantId name description toolType config
      ⟨s.db, s.db, s.active⟩ with ⟨-, hcommitted⟩ | ⟨hvalid, hnew, -, hcommitted⟩
    · change (run (createTool host tenantId name description toolType config) s).2.db = _ at hcommitted
      rw [hcommitted]
      exact hs
    · change (run (createTool host tenantId name description toolType config) s).2.db = _ at hcommitted
      rw [hcommitted, Tables.insert_self]
      have hfind : (s.db .tools).find?
          (Keyed.key (newTool host tenantId name description toolType config)) = none := by
        rw [Table.find?_eq_none]
        intro hmem
        obtain ⟨y, hy, hid⟩ := List.mem_map.mp hmem
        exact hnew y hy hid
      rw [Table.rows_insert hfind]
      intro x hx
      rcases List.mem_append.mp hx with hx | hx
      · exact hs x hx
      · rw [List.mem_singleton.mp hx]
        exact fun _ => (showable_iff hvalid).mpr hclean
  | update toolId name description toolType config =>
    show ∀ x ∈ ((run (discard _) s).2.db .tools).rows, x.Shown
    rw [run_discard]
    rcases updateTool_cases host tenantId toolId name description toolType config
      ⟨s.db, s.db, s.active⟩ with
      ⟨-, hcommitted⟩ | ⟨tool, hmem, hid, -, hactive, merged, hmerged, -, hcommitted⟩
    · change (run (updateTool host tenantId toolId name description toolType config) s).2.db = _
        at hcommitted
      rw [hcommitted]
      exact hs
    · change (run (updateTool host tenantId toolId name description toolType config) s).2.db = _
        at hcommitted
      rw [hcommitted, rows_updatedRows]
      intro x hx
      obtain ⟨y, hy, rfl⟩ := List.mem_map.mp hx
      by_cases hyid : y.id = toolId
      · obtain rfl : y = tool :=
          List.inj_on_of_nodup_map (s.db .tools).nodup hy hmem (hyid.trans hid.symm)
        rw [if_pos hyid]
        rcases updatedTool_cases host name description toolType merged y with
          ⟨-, hsame⟩ | ⟨htype, hconfig, -⟩
        · rw [hsame]
          exact hs y hy
        · intro _
          rw [htype, hconfig]
          refine showable_updatedConfig (fun c hc => ?_) (hs y hy hactive)
            (hclean y hy hyid hactive) hmerged
          rw [hc] at hdict
          exact hdict
      · rw [if_neg hyid]
        exact hs y hy
  | delete toolId =>
    have hkeeps : Keeps (AllRows .tools ToolRegistry.Shown) (deleteTool host tenantId toolId) :=
      keeps_getTool.bind fun _ => (keeps_save fun _ _ hactive => nomatch hactive).bind fun _ =>
        keeps_commit
    exact rows_of_run hkeeps hs

end Updates

/-! ### Listings -/

/-- The listing of a tenant's tools returns one response for each that is active. -/
def ListsAll (host : Host) (tenantId : Uuid) (s : State) : Prop :=
  ∃ responses, (run (listTools host tenantId) s).1 = .ok responses ∧
    (responses.map ToolRegistry.id).Perm
      (((s.db .tools).rows.filter fun x => x.tenantId = tenantId && x.isActive).map ToolRegistry.id)

/-- There is one response for each tool. -/
theorem responses_ids {tools responses : List ToolRegistry}
    (h : tools.mapM (toolResponse host) = .ok responses) :
    responses.map ToolRegistry.id = tools.map ToolRegistry.id := by
  rw [Attempt.mapM_eq_ok] at h
  induction h with
  | nil => rfl
  | cons hx _ ih =>
    obtain ⟨shown, -, hret⟩ := Attempt.bind_eq_ok.mp hx
    cases hret
    rw [List.map_cons, List.map_cons, ih]

theorem listsAll_of_shown {s : State} (hs : ∀ x ∈ (s.db .tools).rows, x.Shown) :
    ListsAll host tenantId s := by
  let found := (s.db .tools).rows.filter fun x => x.tenantId = tenantId && x.isActive
  let tools := found.insertionSort fun x y => x.createdAt ≤ y.createdAt
  have hperm : tools.Perm found := List.perm_insertionSort _ found
  have hreturns : Attempt.Returns (tools.mapM (toolResponse host)) := by
    refine Attempt.returns_mapM.mpr fun x hx => toolResponse_returns.mpr ?_
    obtain ⟨hmem, hp⟩ := List.mem_filter.mp (hperm.mem_iff.mp hx)
    rw [Bool.and_eq_true] at hp
    exact hs x hmem hp.2
  obtain ⟨responses, hresponses⟩ := hreturns
  refine ⟨responses, ?_, ?_⟩
  · have hlist : (run (listTools host tenantId) s).1 =
        (exec (ofExcept (tools.mapM (toolResponse host))) ⟨s.db, s.db, s.active⟩).1 := rfl
    rw [hlist, hresponses]
    rfl
  · rw [responses_ids hresponses]
    exact hperm.map _

/-! ### Runs -/

/-- One call of a tenant's users, or a change that leaves the tools. -/
inductive StoreStep : State → State → Prop where
  | request {s : State} {host : Host} (tenantId : Uuid) (r : ToolRequest) (hdict : r.IsDict)
      (hclean : r.Clean s.db) : StoreStep s (run (r.program host tenantId) s).2
  | elsewhere {s s' : State} (htools : s'.db .tools = s.db .tools) : StoreStep s s'

/-- The states that are reached. -/
abbrev StoreRun : State → State → Prop := Relation.ReflTransGen StoreStep

theorem StoreRun.shown {s s' : State} (h : StoreRun s s')
    (hs : ∀ x ∈ (s.db .tools).rows, x.Shown) : ∀ x ∈ (s'.db .tools).rows, x.Shown := by
  induction h with
  | refl => exact hs
  | tail _ hstep ih =>
    cases hstep with
    | request tenantId r hdict hclean => exact shown_of_request hdict hclean ih
    | elsewhere htools =>
      rw [htools]
      exact ih

end Shown

namespace Sample

/-- A database tool that is created with a number for a connection string. -/
def createNumber : Service ToolRegistry :=
  createTool host ⟨"t"⟩ "rows" "" "database" [("connection_string", .int 1)]

theorem createNumber_raises : ∃ e, (run createNumber (vacant ⟨"t"⟩)).1 = .error e :=
  ⟨_, by with_unfolding_all rfl⟩

theorem createNumber_tools : ((run createNumber (vacant ⟨"t"⟩)).2.db .tools).rows =
    [newTool host ⟨"t"⟩ "rows" "" "database" [("connection_string", .int 1)]] := by
  with_unfolding_all rfl

theorem createNumber_list :
    ∃ e, (run (listTools host ⟨"t"⟩) (run createNumber (vacant ⟨"t"⟩)).2).1 = .error e :=
  ⟨_, by with_unfolding_all rfl⟩

end Sample

end GraphPilot.Tenancy
