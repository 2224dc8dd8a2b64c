/-
Masking and merging, key by key.

A masked configuration has the keys of the stored one, and what it shows under a key
depends on the value there only (`shownValue`, `lookup_maskConfig`).  A merged one has
the keys of both, and what it has under a key of the update depends on the two values
there (`mergedValue`, `lookup_updatedConfig`).

* `maskConfig_returns` — masking fails on a connection string that is no text, and on
  nothing else;
* `updatedConfig_eq_self` — an update that gives back what is stored changes nothing.
-/
import GraphPilot.Python.Attempt
import GraphPilot.Python.Equality
import GraphPilot.Tenancy.Agents

namespace GraphPilot.Tenancy

open Python
open Python.Json (lookup assign Distinct mapValues lookup_mapValues)
open Attempt (bind_eq_ok mapM_eq_ok)

variable {host : Host} {toolType k : String} {v w : Json} {config shown : List (String × Json)}

/-! ### What is shown -/

/-- What is shown of a header. -/
def shownHeader (host : Host) (k : String) (v : Json) : Json :=
  if host.lower k ∈ sensitiveKeys then .str "****" else v

/-- What is shown under a key. -/
def shownValue (host : Host) (toolType k : String) : Json → Json
  | .str s =>
    if toolType = "database" ∧ k = "connection_string" then
      .str (String.ofList (maskCredentials s.length s.toList))
    else .str s
  | .obj kvs =>
    if toolType = "api" ∧ k = "headers" then .obj (mapValues (shownHeader host) kvs) else .obj kvs
  | v => v

/-- Another type, or another key, is shown as it is. -/
theorem shownValue_of_ne (hdatabase : ¬ (toolType = "database" ∧ k = "connection_string"))
    (hapi : ¬ (toolType = "api" ∧ k = "headers")) (v : Json) : shownValue host toolType k v = v := by
  cases v with
  | str s => exact if_neg hdatabase
  | obj kvs => exact if_neg hapi
  | _ => rfl

theorem shownValue_of_num {q : ℚ} (h : v.num? = some q) : shownValue host toolType k v = v := by
  cases v with
  | str s => cases h
  | obj kvs => cases h
  | _ => rfl

theorem map_shownValue_of_ne (hdatabase : ¬ (toolType = "database" ∧ k = "connection_string"))
    (hapi : ¬ (toolType = "api" ∧ k = "headers")) (x : Option Json) :
    x.map (shownValue host toolType k) = x := by
  rw [show shownValue host toolType k = id from funext (shownValue_of_ne hdatabase hapi),
    Option.map_id, id]

theorem map_shownHeader (kvs : List (String × Json)) :
    (kvs.map fun (k, v) => if host.lower k ∈ sensitiveKeys then (k, .str "****") else (k, v)) =
      mapValues (shownHeader host) kvs := by
  refine List.map_congr_left fun x _ => ?_
  obtain ⟨k, v⟩ := x
  dsimp only
  unfold shownHeader
  split
  · rfl
  · rfl

theorem lookup_maskHeaders : lookup k (maskHeaders host config) =
    (lookup k config).map (shownValue host "api" k) := by
  have hdatabase : ¬ ("api" = "database" ∧ k = "connection_string") := fun h => nomatch h.1
  unfold maskHeaders
  split
  · rename_i kvs hheaders
    rw [Json.lookup_assign]
    split
    · rename_i hk
      rw [hk, hheaders, Option.map_some, shownValue, if_pos ⟨rfl, rfl⟩, map_shownHeader]
    · rename_i hk
      exact (map_shownValue_of_ne hdatabase (fun h => hk h.2) _).symm
  · rename_i hno
    by_cases hk : k = "headers"
    · subst hk
      cases hv : lookup "headers" config with
      | none => rfl
      | some v =>
        cases v with
        | obj kvs => exact absurd hv (hno kvs)
        | str s => rw [Option.map_some, shownValue, if_neg hdatabase]
        | _ => rfl
    · exact (map_shownValue_of_ne hdatabase (fun h => hk h.2) _).symm

theorem lookup_maskConnectionString (h : maskConnectionString config = .ok shown) :
    lookup k shown = (lookup k config).map (shownValue host "database" k) := by
  have hapi : ¬ ("database" = "api" ∧ k = "headers") := fun h => nomatch h.1
  unfold maskConnectionString at h
  split at h
  · rename_i hnone
    cases h
    by_cases hk : k = "connection_string"
    · rw [hk, hnone]
      rfl
    · exact (map_shownValue_of_ne (fun h => hk h.2) hapi _).symm
  · rename_i s hs
    cases h
    rw [Json.lookup_assign]
    split
    · rename_i hk
      rw [hk, hs]
      rfl
    · rename_i hk
      exact (map_shownValue_of_ne (fun h => hk h.2) hapi _).symm
  · cases h

/-- **What a masked configuration has under a key.** -/
theorem lookup_maskConfig (h : maskConfig host config toolType = .ok shown) (k : String) :
    lookup k shown = (lookup k config).map (shownValue host toolType k) := by
  unfold maskConfig at h
  split at h
  · exact lookup_maskConnectionString h
  · cases h
    exact lookup_maskHeaders
  · rename_i hdatabase hapi
    cases h
    exact (map_shownValue_of_ne (fun h => hdatabase h.1) (fun h => hapi h.1) _).symm

/-- The connection string of a database, if it has one, is a text. -/
def Showable (toolType : String) (config : List (String × Json)) : Prop :=
  toolType = "database" → ∀ v, lookup "connection_string" config = some v → ∃ s, v = .str s

/-- Only a connection string that is no text cannot be masked. -/
theorem maskConfig_returns :
    (∃ shown, maskConfig host config toolType = .ok shown) ↔ Showable toolType config := by
  unfold Showable maskConfig
  split
  · unfold maskConnectionString
    split
    · rename_i hnone
      refine iff_of_true ⟨_, rfl⟩ fun _ v hv => ?_
      rw [hnone] at hv
      cases hv
    · rename_i s hs
      refine iff_of_true ⟨_, rfl⟩ fun _ v hv => ?_
      rw [hs] at hv
      cases hv
      exact ⟨s, rfl⟩
    · rename_i v hno hv
      refine iff_of_false nofun fun h => ?_
      obtain ⟨s, rfl⟩ := h rfl v hv
      exact hno s rfl
  · exact iff_of_true ⟨_, rfl⟩ fun h => nomatch h
  · rename_i hdatabase _
    exact iff_of_true ⟨_, rfl⟩ fun h => absurd h hdatabase

/-- Equal values are shown as equal ones. -/
theorem shownValue_same (h : Json.Same v w) :
    Json.Same (shownValue host toolType k v) (shownValue host toolType k w) := by
  cases h with
  | null => exact .refl _
  | str s => exact .refl _
  | arr hlength helems => exact .arr hlength helems
  | num ha hb =>
    rw [shownValue_of_num ha, shownValue_of_num hb]
    exact .num ha hb
  | obj hkeys hvalues =>
    rw [shownValue, shownValue]
    split
    · refine .obj (fun j => ?_) fun j v w hv hw => ?_
      · rw [lookup_mapValues, lookup_mapValues, Option.isSome_map, Option.isSome_map, hkeys]
      · rw [lookup_mapValues] at hv hw
        obtain ⟨v', hv', rfl⟩ := Option.map_eq_some_iff.mp hv
        obtain ⟨w', hw', rfl⟩ := Option.map_eq_some_iff.mp hw
        unfold shownHeader
        split
        · exact .refl _
        · exact hvalues j v' w' hv' hw'
    · exact .obj hkeys hvalues

/-! ### What is merged -/

/-- The stored header of this name. -/
def storedHeader (k : String) : Json → Option Json
  | .obj kvs => lookup k kvs
  | _ => none

/-- What a merge makes of a header. -/
def mergedHeader (existing : Json) (k : String) (v : Json) : Json :=
  if isMaskedPlaceholder v then (storedHeader k existing).getD v else v

/-- What a merge leaves under a key of the update. -/
def mergedValue (toolType k : String) (stored : Option Json) : Json → Option Json
  | .str s =>
    if toolType = "database" ∧ k = "connection_string" ∧ isMaskedPlaceholder (.str s) then stored
    else some (.str s)
  | .obj kvs =>
    if toolType = "api" ∧ k = "headers" then
      some (.obj (mapValues (mergedHeader (stored.getD (.obj []))) kvs))
    else some (.obj kvs)
  | v => some v

theorem existingHeader_ok {existing : Json} {x : Option Json}
    (h : existingHeader k existing = .ok x) : x = storedHeader k existing := by
  unfold existingHeader at h
  split at h
  · cases h
    rfl
  · split at h
    · cases h
    · cases h
      rfl
  · split at h
    · cases h
    · cases h
      rfl
  · cases h

theorem mergeHeader_ok {existing : Json} {x y : String × Json}
    (h : mergeHeader existing x = .ok y) : y = (x.1, mergedHeader existing x.1 x.2) := by
  obtain ⟨k, v⟩ := x
  unfold mergeHeader at h
  unfold mergedHeader
  dsimp only at h ⊢
  split at h
  · rename_i hmasked
    obtain ⟨x, hx, hret⟩ := bind_eq_ok.mp h
    obtain rfl := existingHeader_ok hx
    cases hret
    rw [if_pos hmasked]
  · rename_i hplain
    cases h
    rw [if_neg hplain]

theorem mergeHeaders_ok {existing : Json} {incoming headers : List (String × Json)}
    (h : incoming.mapM (mergeHeader existing) = .ok headers) :
    headers = mapValues (mergedHeader existing) incoming := by
  rw [mapM_eq_ok] at h
  unfold mapValues
  induction h with
  | nil => rfl
  | cons hx _ ih =>
    rw [List.map_cons, ← ih, mergeHeader_ok hx]

/-- One entry of a merge. -/
theorem mergeApiConfig_cons {stored rest merged : List (String × Json)}
    (h : mergeApiConfig host stored ((k, v) :: rest) = .ok merged) :
    ∃ w, mergedValue "api" k (lookup k stored) v = some w ∧
      mergeApiConfig host (assign k w stored) rest = .ok merged := by
  have hdatabase : ∀ {P : Prop}, ¬ ("api" = "database" ∧ P) := fun h => nomatch h.1
  unfold mergeApiConfig at h
  split at h
  · rename_i heq
    cases heq
  · rename_i incoming rest' heq
    cases heq
    obtain ⟨headers, hheaders, hrest⟩ := bind_eq_ok.mp h
    rw [mergedValue, if_pos ⟨rfl, rfl⟩, ← mergeHeaders_ok hheaders]
    exact ⟨_, rfl, hrest⟩
  · rename_i url rest' heq
    cases heq
    obtain ⟨_, -, hrest⟩ := bind_eq_ok.mp h
    rw [mergedValue, if_neg hdatabase]
    exact ⟨_, rfl, hrest⟩
  · rename_i k' v' rest' hheaders hurl heq
    cases heq
    refine ⟨v, ?_, h⟩
    cases v with
    | str s => rw [mergedValue, if_neg hdatabase]
    | obj kvs => rw [mergedValue, if_neg fun hk => hheaders kvs hk.2 rfl]
    | _ => rfl

theorem lookup_mergeApiConfig {stored incoming merged : List (String × Json)}
    (hdistinct : Distinct incoming) (h : mergeApiConfig host stored incoming = .ok merged)
    (k : String) : lookup k merged =
      (lookup k incoming).elim (lookup k stored) (mergedValue "api" k (lookup k stored)) := by
  induction incoming generalizing stored with
  | nil =>
    cases h
    rfl
  | cons x rest ih =>
    obtain ⟨k', v⟩ := x
    obtain ⟨hnot, hrest⟩ := hdistinct.cons
    obtain ⟨w, hw, hmerge⟩ := mergeApiConfig_cons h
    rw [ih hrest hmerge, lookup, Json.lookup_assign]
    by_cases hk : k' = k
    · subst hk
      rw [if_pos rfl, if_pos rfl, Json.lookup_eq_none.mpr hnot]
      exact hw.symm
    · rw [if_neg hk, if_neg (Ne.symm hk)]

/-- One entry of a merge. -/
theorem mergeDatabaseConfig_cons (stored rest : List (String × Json)) (k : String) (v : Json) :
    ∃ next, mergeDatabaseConfig stored ((k, v) :: rest) = mergeDatabaseConfig next rest ∧
      (mergedValue "database" k (lookup k stored) v = lookup k stored → next = stored) ∧
      ∀ j, lookup j next =
        if j = k then mergedValue "database" k (lookup k stored) v else lookup j stored := by
  have hapi : ∀ {P : Prop}, ¬ ("database" = "api" ∧ P) := fun h => nomatch h.1
  by_cases hmasked : k = "connection_string" ∧ isMaskedPlaceholder v = true
  · have hvalue : mergedValue "database" k (lookup k stored) v = lookup k stored := by
      obtain ⟨hk, hv⟩ := hmasked
      cases v with
      | str s => rw [mergedValue, if_pos ⟨rfl, hk, hv⟩]
      | _ => cases hv
    refine ⟨stored, ?_, fun _ => rfl, fun j => ?_⟩
    · show mergeDatabaseConfig (if k = "connection_string" && isMaskedPlaceholder v then stored
        else assign k v stored) rest = _
      rw [if_pos (by rw [Bool.and_eq_true, decide_eq_true_eq]; exact hmasked)]
    · rw [hvalue]
      split
      · rename_i hj
        rw [hj]
      · rfl
  · have hvalue : mergedValue "database" k (lookup k stored) v = some v := by
      cases v with
      | str s => rw [mergedValue, if_neg fun h => hmasked h.2]
      | obj kvs => rw [mergedValue, if_neg hapi]
      | _ => rfl
    refine ⟨assign k v stored, ?_, fun h => ?_, fun j => ?_⟩
    · show mergeDatabaseConfig (if k = "connection_string" && isMaskedPlaceholder v then stored
        else assign k v stored) rest = _
      rw [if_neg (by rw [Bool.and_eq_true, decide_eq_true_eq]; exact hmasked)]
    · rw [hvalue] at h
      exact Json.assign_of_lookup h.symm
    · rw [hvalue, Json.lookup_assign]

theorem lookup_mergeDatabaseConfig {stored incoming : List (String × Json)}
    (hdistinct : Distinct incoming) (k : String) :
    lookup k (mergeDatabaseConfig stored incoming) =
      (lookup k incoming).elim (lookup k stored)
        (mergedValue "database" k (lookup k stored)) := by
  induction incoming generalizing stored with
  | nil => rfl
  | cons x rest ih =>
    obtain ⟨k', v⟩ := x
    obtain ⟨hnot, hrest⟩ := hdistinct.cons
    obtain ⟨next, hmerge, -, hnext⟩ := mergeDatabaseConfig_cons stored rest k' v
    rw [hmerge, ih hrest, lookup, hnext]
    by_cases hk : k' = k
    · subst hk
      rw [if_pos rfl, if_pos rfl, Json.lookup_eq_none.mpr hnot]
      rfl
    · rw [if_neg hk, if_neg (Ne.symm hk)]

/-- A merge that leaves what is stored under each key of the update leaves it all. -/
theorem mergeApiConfig_eq_self {stored incoming merged : List (String × Json)}
    (hsame : ∀ x ∈ incoming, mergedValue "api" x.1 (lookup x.1 stored) x.2 = lookup x.1 stored)
    (h : mergeApiConfig host stored incoming = .ok merged) : merged = stored := by
  induction incoming with
  | nil =>
    cases h
    rfl
  | cons x rest ih =>
    obtain ⟨k, v⟩ := x
    obtain ⟨w, hw, hmerge⟩ := mergeApiConfig_cons h
    have hstored := hsame (k, v) List.mem_cons_self
    dsimp only at hstored
    rw [hw] at hstored
    rw [Json.assign_of_lookup hstored.symm] at hmerge
    exact ih (fun x hx => hsame x (List.mem_cons_of_mem _ hx)) hmerge

theorem mergeDatabaseConfig_eq_self {stored incoming : List (String × Json)}
    (hsame : ∀ x ∈ incoming,
      mergedValue "database" x.1 (lookup x.1 stored) x.2 = lookup x.1 stored) :
    mergeDatabaseConfig stored incoming = stored := by
  induction incoming with
  | nil => rfl
  | cons x rest ih =>
    obtain ⟨k, v⟩ := x
    obtain ⟨next, hmerge, hnext, -⟩ := mergeDatabaseConfig_cons stored rest k v
    rw [hmerge, hnext (hsame (k, v) List.mem_cons_self)]
    exact ih fun x hx => hsame x (List.mem_cons_of_mem _ hx)

/-! ### Updates that keep the type -/

section Updates

variable {tool : ToolRegistry} {newType : Option String} {merged : List (String × Json)}

/-- Where the type stays, the configurations are merged, and the result is validated. -/
theorem updatedConfig_kept (hkind : tool.toolType = "api" ∨ tool.toolType = "database")
    (htype : newType.getD tool.toolType = tool.toolType)
    (h : updatedConfig host tool newType (some config) = .ok merged) :
    (tool.toolType = "api" ∧ mergeApiConfig host tool.config config = .ok merged ∨
        tool.toolType = "database" ∧ merged = mergeDatabaseConfig tool.config config) ∧
      validateConfig host tool.toolType merged = .ok () := by
  unfold updatedConfig at h
  dsimp only at h
  rw [htype] at h
  rcases hkind with hkind | hkind
  · rw [hkind, if_pos ⟨rfl, rfl⟩] at h
    obtain ⟨merged', hmerge, hrest⟩ := bind_eq_ok.mp h
    obtain ⟨_, hvalid, hret⟩ := bind_eq_ok.mp hrest
    cases hret
    rw [hkind]
    exact ⟨.inl ⟨rfl, hmerge⟩, hvalid⟩
  · rw [hkind, if_neg (by simp), if_pos ⟨rfl, rfl⟩] at h
    obtain ⟨merged', hmerge, hrest⟩ := bind_eq_ok.mp h
    obtain ⟨_, hvalid, hret⟩ := bind_eq_ok.mp hrest
    cases hret
    cases hmerge
    rw [hkind]
    exact ⟨.inr ⟨rfl, rfl⟩, hvalid⟩

/-- **What an update leaves under a key.** -/
theorem lookup_updatedConfig (hkind : tool.toolType = "api" ∨ tool.toolType = "database")
    (htype : newType.getD tool.toolType = tool.toolType) (hdistinct : Distinct config)
    (h : updatedConfig host tool newType (some config) = .ok merged) (k : String) :
    lookup k merged = (lookup k config).elim (lookup k tool.config)
      (mergedValue tool.toolType k (lookup k tool.config)) := by
  obtain ⟨⟨hapi, hmerge⟩ | ⟨hdatabase, rfl⟩, -⟩ := updatedConfig_kept hkind htype h
  · rw [hapi]
    exact lookup_mergeApiConfig hdistinct hmerge k
  · rw [hdatabase]
    exact lookup_mergeDatabaseConfig hdistinct k

theorem updatedConfig_eq_self (hkind : tool.toolType = "api" ∨ tool.toolType = "database")
    (htype : newType.getD tool.toolType = tool.toolType)
    (hsame : ∀ x ∈ config,
      mergedValue tool.toolType x.1 (lookup x.1 tool.config) x.2 = lookup x.1 tool.config)
    (h : updatedConfig host tool newType (some config) = .ok merged) : merged = tool.config := by
  obtain ⟨⟨hapi, hmerge⟩ | ⟨hdatabase, rfl⟩, -⟩ := updatedConfig_kept hkind htype h
  · rw [hapi] at hsame
    exact mergeApiConfig_eq_self hsame hmerge
  · rw [hdatabase] at hsame
    exact mergeDatabaseConfig_eq_self hsame

end Updates

end GraphPilot.Tenancy
