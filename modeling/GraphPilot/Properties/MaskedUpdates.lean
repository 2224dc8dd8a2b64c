/-
Updates of masked configurations.

A client is shown a masked configuration and sends it back, with its edits.  The merge
takes every value that contains `****` for one that has not been edited, and puts the
stored one in its place.

What is sent back as it was shown therefore changes nothing (`masked_update_keeps`), as
long as the tool keeps its type: for another type nothing is merged, and the masks are
stored.  An edit around a mask, or one that contains the mask itself, is dropped:
`response_shows_iff` says exactly which edits are shown.
-/
import GraphPilot.Properties.ConnectionStrings
import GraphPilot.Tenancy.Masking
import GraphPilot.Tenancy.ToolCalls

namespace GraphPilot.Tenancy

open Python Relational
open Python.Json (lookup assign Distinct mapValues lookup_mapValues)

/-! ### The mask in a text -/

section Stars

variable {xs ys : List Char}

theorem isInfix_append_left (zs : List Char) (h : isInfix xs ys = true) :
    isInfix xs (zs ++ ys) = true := by
  induction zs with
  | nil => exact h
  | cons z zs ih =>
    rw [List.cons_append, isInfix, ih, Bool.or_true]

theorem isInfix_of_isPrefixOf (h : xs.isPrefixOf ys = true) : isInfix xs ys = true := by
  cases ys with
  | nil =>
    cases xs with
    | nil => rfl
    | cons x xs => cases h
  | cons y ys => rw [isInfix, h, Bool.true_or]

/-- What does not show the mask has not been masked. -/
theorem masked_eq_self (n : ℕ) : ∀ cs : List Char, cs.length ≤ n →
    isInfix "****".toList (masked cs) = false → masked cs = cs := by
  induction n with
  | zero =>
    intro cs hlength _
    rw [List.eq_nil_of_length_eq_zero (Nat.le_zero.mp hlength)]
    rfl
  | succ n ih =>
    intro cs hlength hplain
    cases cs with
    | nil => rfl
    | cons c cs =>
      rw [List.length_cons] at hlength
      cases hmatch : matchCredentials (c :: cs) with
      | none =>
        rw [masked_of_none hmatch] at hplain ⊢
        rw [isInfix, Bool.or_eq_false_iff] at hplain
        rw [ih cs (by omega) hplain.2]
      | some x =>
        -- a match leaves the mask
        obtain ⟨group, tail⟩ := x
        rw [masked_of_match hmatch, List.append_assoc] at hplain
        have hstars : isInfix "****".toList (group ++ ("****@".toList ++ masked tail)) = true :=
          isInfix_append_left group (isInfix_of_isPrefixOf rfl)
        rw [hstars] at hplain
        cases hplain

end Stars

/-! ### Values that are sent back -/

section Restored

variable {host : Host} {toolType k : String} {u v : Json} {old kvs : List (String × Json)}

/-- A header that is sent back as it is shown is restored, or it is shown as it is. -/
theorem mergedHeader_shown (hu : lookup k old = some u) (h : Json.Same v (shownHeader host k u)) :
    mergedHeader (.obj old) k v = u ∨
      mergedHeader (.obj old) k v = v ∧ shownHeader host k u = u := by
  unfold mergedHeader
  split
  · left
    show (lookup k old).getD v = u
    rw [hu, Option.getD_some]
  · rename_i hplain
    refine .inr ⟨rfl, ?_⟩
    unfold shownHeader at h ⊢
    split
    · rename_i hsensitive
      rw [if_pos hsensitive] at h
      rw [h.eq_of_str] at hplain
      exact absurd rfl hplain
    · rfl

/-- A value that is neither a connection string nor a dictionary of headers. -/
theorem mergedValue_of_ne {stored : Option Json}
    (hdatabase : toolType = "database" → k = "connection_string" → ∀ s, v ≠ .str s)
    (hapi : toolType = "api" → k = "headers" → ∀ kvs, v ≠ .obj kvs) :
    mergedValue toolType k stored v = some v := by
  cases v with
  | str s => rw [mergedValue, if_neg fun h => hdatabase h.1 h.2.1 s rfl]
  | obj kvs => rw [mergedValue, if_neg fun h => hapi h.1 h.2 kvs rfl]
  | _ => rfl

/-- What masking does not touch is shown as it is and merged as it is sent. -/
theorem mergedValue_of_shown {stored : Option Json}
    (hdatabase : toolType = "database" → k = "connection_string" → ∀ s, u ≠ .str s)
    (hapi : toolType = "api" → k = "headers" → ∀ kvs, u ≠ .obj kvs)
    (h : Json.Same v (shownValue host toolType k u)) :
    mergedValue toolType k stored v = some v ∧ shownValue host toolType k u = u := by
  have hshown : shownValue host toolType k u = u := by
    cases u with
    | str s => rw [shownValue, if_neg fun h => hdatabase h.1 h.2 s rfl]
    | obj kvs => rw [shownValue, if_neg fun h => hapi h.1 h.2 kvs rfl]
    | _ => rfl
  rw [hshown] at h
  refine ⟨mergedValue_of_ne (fun htype hk s hv => ?_) fun htype hk kvs hv => ?_, hshown⟩
  · rw [hv] at h
    exact hdatabase htype hk s h.symm.eq_of_str
  · rw [hv] at h
    obtain ⟨old, hu⟩ := h.symm.exists_of_obj
    exact hapi htype hk old hu

theorem shownValue_connection (s : String) :
    shownValue host "database" "connection_string" (.str s) =
      .str (String.ofList (masked s.toList)) := by
  rw [shownValue, if_pos ⟨rfl, rfl⟩, masked, String.length_toList]

/-- A connection string that is sent back as it is shown is restored. -/
theorem mergedValue_connection {s : String}
    (h : Json.Same v (shownValue host "database" "connection_string" (.str s))) :
    v = shownValue host "database" "connection_string" (.str s) ∧
      mergedValue "database" "connection_string" (some (.str s)) v = some (.str s) := by
  rw [shownValue_connection] at h ⊢
  refine ⟨h.eq_of_str, ?_⟩
  rw [h.eq_of_str, mergedValue]
  split
  · rfl
  · rename_i hplain
    have hstars : isInfix "****".toList (masked s.toList) = false := by
      rw [← Bool.not_eq_true]
      intro hstars
      refine hplain ⟨rfl, rfl, ?_⟩
      have htext : (String.ofList (masked s.toList)).toList = masked s.toList := String.toList_ofList
      rw [isMaskedPlaceholder, htext]
      exact hstars
    rw [masked_eq_self s.toList.length s.toList le_rfl hstars, String.ofList_toList]

/-- **A value that is sent back as it is shown is restored.** -/
theorem mergedValue_same (hshowable : toolType = "database" → k = "connection_string" →
      ∃ s, u = .str s)
    (h : Json.Same v (shownValue host toolType k u)) :
    ∃ w, mergedValue toolType k (some u) v = some w ∧ Json.Same w u := by
  by_cases hdatabase : toolType = "database" ∧ k = "connection_string"
  · obtain ⟨rfl, rfl⟩ := hdatabase
    obtain ⟨s, rfl⟩ := hshowable rfl rfl
    exact ⟨_, (mergedValue_connection h).2, .refl _⟩
  have hdatabase' : toolType = "database" → k = "connection_string" → ∀ s, u ≠ .str s :=
    fun htype hk => absurd ⟨htype, hk⟩ hdatabase
  by_cases hapi : (toolType = "api" ∧ k = "headers") ∧ ∃ old, u = .obj old
  · obtain ⟨⟨rfl, rfl⟩, old, rfl⟩ := hapi
    rw [shownValue, if_pos ⟨rfl, rfl⟩] at h
    obtain ⟨kvs, rfl⟩ := h.exists_of_obj
    rw [mergedValue, if_pos ⟨rfl, rfl⟩]
    refine ⟨_, rfl, .obj (fun j => ?_) fun j w u hw hu => ?_⟩
    · rw [lookup_mapValues, Option.isSome_map, h.keys, lookup_mapValues, Option.isSome_map]
    · rw [lookup_mapValues] at hw
      obtain ⟨v, hv, rfl⟩ := Option.map_eq_some_iff.mp hw
      obtain ⟨v', hv', hsame⟩ := h.lookup_obj hv
      rw [lookup_mapValues, hu, Option.map_some] at hv'
      cases hv'
      rw [Option.getD_some]
      rcases mergedHeader_shown hu hsame with hrestored | ⟨hkept, hshown⟩
      · rw [hrestored]
        exact .refl u
      · rw [hkept, ← hshown]
        exact hsame
  · have hapi' : toolType = "api" → k = "headers" → ∀ kvs, u ≠ .obj kvs :=
      fun htype hk kvs hu => hapi ⟨⟨htype, hk⟩, kvs, hu⟩
    obtain ⟨hmerged, hshown⟩ := mergedValue_of_shown hdatabase' hapi' h
    rw [hshown] at h
    exact ⟨v, hmerged, h⟩

/-- The very value that is shown is merged to the very value that is stored. -/
theorem mergedValue_eq (hshowable : toolType = "database" → k = "connection_string" →
      ∃ s, u = .str s)
    (hheaders : toolType = "api" → k = "headers" → ∀ old, u = .obj old → Distinct old) :
    mergedValue toolType k (some u) (shownValue host toolType k u) = some u := by
  by_cases hdatabase : toolType = "database" ∧ k = "connection_string"
  · obtain ⟨rfl, rfl⟩ := hdatabase
    obtain ⟨s, rfl⟩ := hshowable rfl rfl
    exact (mergedValue_connection (.refl _)).2
  have hdatabase' : toolType = "database" → k = "connection_string" → ∀ s, u ≠ .str s :=
    fun htype hk => absurd ⟨htype, hk⟩ hdatabase
  by_cases hapi : (toolType = "api" ∧ k = "headers") ∧ ∃ old, u = .obj old
  · obtain ⟨⟨rfl, rfl⟩, old, rfl⟩ := hapi
    have hold := hheaders rfl rfl old rfl
    rw [shownValue, if_pos ⟨rfl, rfl⟩, mergedValue, if_pos ⟨rfl, rfl⟩, Option.getD_some]
    have hsame : mapValues (mergedHeader (.obj old)) (mapValues (shownHeader host) old) = old := by
      unfold mapValues
      rw [List.map_map]
      conv_rhs => rw [← List.map_id old]
      refine List.map_congr_left fun x hx => ?_
      obtain ⟨j, u⟩ := x
      have hu := Json.lookup_of_mem hold hx
      show (j, mergedHeader (.obj old) j (shownHeader host j u)) = (j, u)
      rcases mergedHeader_shown hu (.refl _) with hrestored | ⟨hkept, hshown⟩
      · rw [hrestored]
      · rw [hkept, hshown]
    rw [hsame]
  · have hapi' : toolType = "api" → k = "headers" → ∀ kvs, u ≠ .obj kvs :=
      fun htype hk kvs hu => hapi ⟨⟨htype, hk⟩, kvs, hu⟩
    obtain ⟨hmerged, hshown⟩ := mergedValue_of_shown hdatabase' hapi' (.refl _)
    rw [hmerged, hshown]

end Restored

/-! ### Updates -/

/-- A configuration as the host holds it: its keys are there once, and so are the names of
its headers. -/
structure IsDict (config : List (String × Json)) : Prop where
  keys : Distinct config
  headers : ∀ kvs, lookup "headers" config = some (.obj kvs) → Distinct kvs

section Updates

variable {host host' : Host} {tenantId : Uuid} {s : State} {tool x : ToolRegistry}
variable {name description newType : Option String} {config shown : List (String × Json)}

/-- A row of a table is known by its key. -/
theorem tool_eq_of_id {db : Database} {x y : ToolRegistry} (hx : x ∈ (db .tools).rows)
    (hy : y ∈ (db .tools).rows) (hid : x.id = y.id) : x = y :=
  List.inj_on_of_nodup_map (db .tools).nodup hx hy hid

/-- The configuration of a tool after an update is the old one, or the merged one. -/
theorem config_after {incoming : Option (List (String × Json))}
    (htool : tool ∈ (s.db .tools).rows)
    (hx : x ∈ ((run (updateTool host tenantId tool.id name description newType incoming) s).2.db
      .tools).rows) (hid : x.id = tool.id) :
    x = tool ∨ ∃ merged, updatedConfig host tool newType incoming = .ok merged ∧
      x.config = merged := by
  have hcases := updateTool_cases host tenantId tool.id name description newType incoming
    ⟨s.db, s.db, s.active⟩
  unfold Ends at hcases
  rcases hcases with ⟨-, hcommitted⟩ | ⟨found, hfound, hfoundId, -, -, merged, hmerged, -, hcommitted⟩
  · change x ∈ (Session.committed _ .tools).rows at hx
    rw [hcommitted] at hx
    exact .inl (tool_eq_of_id hx htool hid)
  · obtain rfl : found = tool := tool_eq_of_id hfound htool hfoundId
    change x ∈ (Session.committed _ .tools).rows at hx
    rw [hcommitted, rows_updatedRows] at hx
    obtain ⟨y, hy, rfl⟩ := List.mem_map.mp hx
    by_cases hyid : y.id = found.id
    · obtain rfl : y = found := tool_eq_of_id hy htool hyid
      rw [if_pos rfl]
      rcases updatedTool_cases host name description newType merged y with ⟨-, hsame⟩ | ⟨-, hconfig, -⟩
      · exact .inl hsame
      · exact .inr ⟨merged, hmerged, hconfig⟩
    · rw [if_neg hyid] at hid
      exact absurd hid hyid

/-- What is merged of a configuration that is sent back as it is shown. -/
theorem updatedConfig_shown {merged : List (String × Json)}
    (hkind : tool.toolType = "api" ∨ tool.toolType = "database")
    (htype : newType.getD tool.toolType = tool.toolType)
    (hstored : IsDict tool.config) (hconfig : Distinct config)
    (hshown : maskConfig host' tool.config tool.toolType = .ok shown)
    (hsent : Json.Same (.obj config) (.obj shown))
    (h : updatedConfig host tool newType (some config) = .ok merged) :
    Json.Same (.obj merged) (.obj tool.config) ∧ (config = shown → merged = tool.config) := by
  have hlookup := lookup_maskConfig hshown
  have hshowable : ∀ {k u}, lookup k tool.config = some u → tool.toolType = "database" →
      k = "connection_string" → ∃ s, u = .str s := by
    intro k u hu hdatabase hk
    rw [hk] at hu
    exact maskConfig_returns.mp ⟨shown, hshown⟩ hdatabase u hu
  constructor
  · refine .of_lookup fun k => ?_
    rw [lookup_updatedConfig hkind htype hconfig h k]
    cases hk : lookup k config with
    | none =>
      have hnone := hsent.lookup_none hk
      rw [hlookup, Option.map_eq_none_iff] at hnone
      exact .inl ⟨hnone, hnone⟩
    | some v =>
      obtain ⟨w, hw, hvw⟩ := hsent.lookup_obj hk
      rw [hlookup] at hw
      obtain ⟨u, hu, rfl⟩ := Option.map_eq_some_iff.mp hw
      obtain ⟨w, hmerged, hwu⟩ := mergedValue_same (hshowable hu) hvw
      rw [hu]
      exact .inr ⟨w, u, hmerged, rfl, hwu⟩
  · rintro rfl
    refine updatedConfig_eq_self hkind htype (fun x hx => ?_) h
    have hx' := Json.lookup_of_mem hconfig hx
    rw [hlookup] at hx'
    obtain ⟨u, hu, hux⟩ := Option.map_eq_some_iff.mp hx'
    rw [hu, ← hux]
    refine mergedValue_eq (hshowable hu) fun _ hk old hold => hstored.headers old ?_
    rw [← hk, hu, hold]

/-- **A masked configuration that is sent back changes nothing.** -/
theorem masked_update_keeps (host host' : Host) (tenantId : Uuid) (s : State)
    (tool : ToolRegistry) (name description newType : Option String)
    (config shown : List (String × Json)) (htool : tool ∈ (s.db .tools).rows)
    (hkind : tool.toolType = "api" ∨ tool.toolType = "database")
    (htype : newType.getD tool.toolType = tool.toolType)
    (hstored : IsDict tool.config) (hconfig : IsDict config)
    (hshown : maskConfig host' tool.config tool.toolType = .ok shown)
    (hsent : Json.Same (.obj config) (.obj shown)) :
    ∀ x ∈ ((run (updateTool host tenantId tool.id name description newType (some config)) s).2.db
        .tools).rows,
      x.id = tool.id →
        Json.Same (.obj x.config) (.obj tool.config) ∧ (config = shown → x.config = tool.config) := by
  intro x hx hid
  rcases config_after htool hx hid with rfl | ⟨merged, hmerged, hafter⟩
  · exact ⟨.refl _, fun _ => rfl⟩
  · rw [hafter]
    exact updatedConfig_shown hkind htype hstored hconfig.keys hshown hsent hmerged

end Updates

/-! ### Edits that are shown -/

/-- The ORM flushes a row unless its columns are equal to those that it has loaded. -/
def Host.ComparesColumns (host : Host) : Prop :=
  ∀ x y : ToolRegistry, host.changed (n := .tools) x y = false →
    Json.Same (.obj x.config) (.obj y.config)

/-- The answer shows for every key what a masked copy of what has been sent shows. -/
def ShowsEdits (host : Host) (toolType : String) (config answered : List (String × Json)) : Prop :=
  ∃ shown, maskConfig host config toolType = .ok shown ∧
    ∀ k v, lookup k shown = some v → ∃ w, lookup k answered = some w ∧ Json.Same w v

/-- What contains the mask is shown like what is stored: a connection string once both are
masked, and a header that is not secret as it is. -/
structure KeepsEdits (host : Host) (tool : ToolRegistry) (config : List (String × Json)) :
    Prop where
  connection : tool.toolType = "database" → ∀ s t : String,
    lookup "connection_string" config = some (.str s) → isMaskedPlaceholder (.str s) = true →
    lookup "connection_string" tool.config = some (.str t) → masked s.toList = masked t.toList
  header : tool.toolType = "api" → ∀ (kvs old : List (String × Json)) (k : String) (v w : Json),
    lookup "headers" config = some (.obj kvs) → lookup "headers" tool.config = some (.obj old) →
    host.lower k ∉ sensitiveKeys → lookup k kvs = some v → isMaskedPlaceholder v = true →
    lookup k old = some w → w = v

section Edits

variable {host : Host} {tenantId : Uuid} {s : State} {tool response : ToolRegistry}
variable {name description newType : Option String} {config merged : List (String × Json)}

/-- The response is the masked row, which has what has been merged. -/
theorem response_config {incoming : Option (List (String × Json))}
    (htool : tool ∈ (s.db .tools).rows)
    (htype : newType.getD tool.toolType = tool.toolType) (hcompare : host.ComparesColumns)
    (h : (run (updateTool host tenantId tool.id name description newType incoming) s).1 =
      .ok response) :
    ∃ merged row, updatedConfig host tool newType incoming = .ok merged ∧
      Json.Same (.obj row) (.obj merged) ∧
      maskConfig host row tool.toolType = .ok response.config := by
  have hcases := updateTool_cases host tenantId tool.id name description newType incoming
    ⟨s.db, s.db, s.active⟩
  unfold Ends at hcases
  rcases hcases with ⟨⟨e, hraise⟩, -⟩ | ⟨found, hfound, hfoundId, -, -, merged, hmerged, hret, -⟩
  · cases h.symm.trans hraise
  · obtain rfl : found = tool := tool_eq_of_id hfound htool hfoundId
    obtain ⟨answered, hmask, hresponse⟩ := Attempt.bind_eq_ok.mp (hret.symm.trans h)
    cases hresponse
    refine ⟨merged, (updatedTool host name description newType merged found).config, hmerged, ?_⟩
    rcases updatedTool_cases host name description newType merged found with
      ⟨hunchanged, hsame⟩ | ⟨htype', hconfig, -⟩
    · rw [hsame] at hmask ⊢
      exact ⟨hcompare _ _ hunchanged, hmask⟩
    · rw [htype', htype] at hmask
      refine ⟨?_, hmask⟩
      rw [hconfig]
      exact .refl _

/-- A header that is secret, has no mask or is not stored is shown as it is sent. -/
theorem shownHeader_merged {host : Host} {existing v : Json} {k : String}
    (h : host.lower k ∉ sensitiveKeys → isMaskedPlaceholder v = true →
      ∀ w, storedHeader k existing = some w → w = v) :
    shownHeader host k (mergedHeader existing k v) = shownHeader host k v := by
  unfold shownHeader
  split
  · rfl
  · rename_i hplain
    unfold mergedHeader
    split
    · rename_i hmasked
      cases hw : storedHeader k existing with
      | none => rfl
      | some w => exact h hplain hmasked w hw
    · rfl

/-- What is merged under each key of the update is shown like what has been sent. -/
def MergesShown (host : Host) (tool : ToolRegistry) (config : List (String × Json)) : Prop :=
  ∀ k v, lookup k config = some v → ∃ m,
    mergedValue tool.toolType k (lookup k tool.config) v = some m ∧
      Json.Same (shownValue host tool.toolType k m) (shownValue host tool.toolType k v)

section Accepted

variable {row answered : List (String × Json)}
variable (hkind : tool.toolType = "api" ∨ tool.toolType = "database")
variable (htype : newType.getD tool.toolType = tool.toolType)
variable (hmerged : updatedConfig host tool newType (some config) = .ok merged)
variable (hrow : Json.Same (.obj row) (.obj merged))
variable (hanswered : maskConfig host row tool.toolType = .ok answered)
include hkind htype hmerged hrow hanswered

/-- The connection string of an accepted update is a text, sent or stored. -/
theorem merged_connection (hdatabase : tool.toolType = "database") :
    ∃ t, lookup "connection_string" merged = some (.str t) := by
  obtain ⟨-, hvalid⟩ := updatedConfig_kept hkind htype hmerged
  rw [hdatabase] at hvalid
  change requireConfig "connection_string" "database" merged = .ok () at hvalid
  unfold requireConfig Json.getD at hvalid
  cases hlookup : lookup "connection_string" merged with
  | none =>
    rw [hlookup] at hvalid
    cases hvalid
  | some m =>
    obtain ⟨u, hu, hsame⟩ := hrow.symm.lookup_obj hlookup
    obtain ⟨t, rfl⟩ := maskConfig_returns.mp ⟨answered, hanswered⟩ hdatabase u hu
    exact ⟨t, by rw [hsame.eq_of_str]⟩

/-- The answer shows what has been merged. -/
theorem showsEdits_iff (hdistinct : Distinct config) :
    ShowsEdits host tool.toolType config answered ↔
    MergesShown host tool config := by
  have hlookup := lookup_updatedConfig hkind htype hdistinct hmerged
  have hanswer := lookup_maskConfig hanswered
  constructor
  · rintro ⟨shown, hshown, hall⟩ k v hv
    have hvalue := lookup_maskConfig hshown k
    rw [hv, Option.map_some] at hvalue
    obtain ⟨w, hw, hsame⟩ := hall k _ hvalue
    rw [hanswer] at hw
    obtain ⟨u, hu, rfl⟩ := Option.map_eq_some_iff.mp hw
    obtain ⟨m, hm, hum⟩ := hrow.lookup_obj hu
    rw [hlookup, hv] at hm
    exact ⟨m, hm, (shownValue_same hum).symm.trans hsame⟩
  · intro hall
    have hshowable : Showable tool.toolType config := by
      intro hdatabase v hv
      obtain ⟨t, ht⟩ := merged_connection hkind htype hmerged hrow hanswered hdatabase
      by_contra hno
      rw [hlookup, hv, Option.elim_some, mergedValue_of_ne (fun _ _ s hs => hno ⟨s, hs⟩)
        fun hapi => nomatch hapi.symm.trans hdatabase] at ht
      exact hno ⟨t, Option.some.inj ht⟩
    obtain ⟨shown, hshown⟩ := maskConfig_returns.mpr hshowable
    refine ⟨shown, hshown, fun k w hw => ?_⟩
    rw [lookup_maskConfig hshown] at hw
    obtain ⟨v, hv, rfl⟩ := Option.map_eq_some_iff.mp hw
    obtain ⟨m, hm, hsame⟩ := hall k v hv
    have hmerge := hlookup k
    rw [hv] at hmerge
    obtain ⟨u, hu, hum⟩ := hrow.symm.lookup_obj (hmerge.trans hm)
    refine ⟨_, by rw [hanswer, hu, Option.map_some], ?_⟩
    exact (shownValue_same hum).symm.trans hsame

/-- Whether the merge keeps what is sent under a key. -/
theorem mergesShown_iff (hdistinct : Distinct config) :
    MergesShown host tool config ↔ KeepsEdits host tool config := by
  have hlookup := lookup_updatedConfig hkind htype hdistinct hmerged
  constructor
  · intro hall
    refine ⟨fun hdatabase s t hs hmasked ht => ?_,
      fun hapi kvs old k v w hkvs hold hplain hv hmasked hw => ?_⟩
    · obtain ⟨m, hm, hsame⟩ := hall _ _ hs
      rw [hdatabase, mergedValue, if_pos ⟨rfl, rfl, hmasked⟩, ht] at hm
      cases hm
      rw [hdatabase, shownValue_connection, shownValue_connection] at hsame
      exact (String.ofList_inj.mp (Json.str.inj hsame.eq_of_str)).symm
    · obtain ⟨m, hm, hsame⟩ := hall _ _ hkvs
      rw [hapi, mergedValue, if_pos ⟨rfl, rfl⟩, hold, Option.getD_some] at hm
      cases hm
      rw [hapi, shownValue, shownValue, if_pos ⟨rfl, rfl⟩, if_pos ⟨rfl, rfl⟩] at hsame
      have hshown : lookup k (mapValues (shownHeader host) kvs) = some v := by
        rw [lookup_mapValues, hv, Option.map_some, shownHeader, if_neg hplain]
      obtain ⟨u, hu, huv⟩ := hsame.symm.lookup_obj hshown
      rw [lookup_mapValues, lookup_mapValues, hv, Option.map_some, Option.map_some, shownHeader,
        if_neg hplain, mergedHeader, if_pos hmasked] at hu
      cases v with
      | str s =>
        rw [show storedHeader k (.obj old) = lookup k old from rfl, hw] at hu
        cases hu
        exact huv.symm.eq_of_str
      | _ => cases hmasked
  · rintro ⟨hconnection, hheader⟩ k v hv
    cases v with
    | str s =>
      by_cases hmasked : tool.toolType = "database" ∧ k = "connection_string" ∧
          isMaskedPlaceholder (.str s) = true
      · obtain ⟨hdatabase, rfl, hstars⟩ := hmasked
        obtain ⟨t, ht⟩ := merged_connection hkind htype hmerged hrow hanswered hdatabase
        rw [hlookup, hv, Option.elim_some, hdatabase, mergedValue, if_pos ⟨rfl, rfl, hstars⟩] at ht
        refine ⟨.str t, ?_, ?_⟩
        · rw [hdatabase, mergedValue, if_pos ⟨rfl, rfl, hstars⟩, ht]
        · rw [hdatabase, shownValue_connection, shownValue_connection,
            hconnection hdatabase s t hv hstars ht]
          exact .refl _
      · exact ⟨.str s, by rw [mergedValue, if_neg hmasked], .refl _⟩
    | obj kvs =>
      by_cases hheaders : tool.toolType = "api" ∧ k = "headers"
      · obtain ⟨hapi, rfl⟩ := hheaders
        refine ⟨_, by rw [hapi, mergedValue, if_pos ⟨rfl, rfl⟩], ?_⟩
        rw [hapi, shownValue, shownValue, if_pos ⟨rfl, rfl⟩, if_pos ⟨rfl, rfl⟩]
        refine .of_lookup fun j => ?_
        rw [lookup_mapValues, lookup_mapValues, lookup_mapValues]
        cases hj : lookup j kvs with
        | none => exact .inl ⟨rfl, rfl⟩
        | some v =>
          refine .inr ⟨_, _, rfl, rfl, ?_⟩
          have hsame : shownHeader host j (mergedHeader
              ((lookup "headers" tool.config).getD (.obj [])) j v) = shownHeader host j v := by
            refine shownHeader_merged fun hplain hmasked w hw => ?_
            -- the stored headers are a dictionary, since this one is among them
            cases hold : lookup "headers" tool.config with
            | none =>
              rw [hold] at hw
              cases hw
            | some existing =>
              rw [hold] at hw
              cases existing with
              | obj old => exact hheader hapi kvs old j v w hv hold hplain hj hmasked hw
              | _ => cases hw
          rw [hsame]
          exact .refl _
      · exact ⟨.obj kvs, by rw [mergedValue, if_neg hheaders], .refl _⟩
    | _ => exact ⟨_, rfl, .refl _⟩

end Accepted

/-- **The response shows every edit exactly if what contains the mask is shown like what is
stored.** -/
theorem response_shows_iff (host : Host) (tenantId : Uuid) (s : State) (tool : ToolRegistry)
    (name description newType : Option String) (config : List (String × Json))
    (response : ToolRegistry) (htool : tool ∈ (s.db .tools).rows)
    (hkind : tool.toolType = "api" ∨ tool.toolType = "database")
    (htype : newType.getD tool.toolType = tool.toolType) (hconfig : IsDict config)
    (hcompare : host.ComparesColumns)
    (h : (run (updateTool host tenantId tool.id name description newType (some config)) s).1 =
      .ok response) :
    ShowsEdits host tool.toolType config response.config ↔ KeepsEdits host tool config := by
  obtain ⟨merged, row, hmerged, hrow, hanswered⟩ := response_config htool htype hcompare h
  rw [showsEdits_iff hkind htype hmerged hrow hanswered hconfig.keys,
    mergesShown_iff hkind htype hmerged hrow hanswered hconfig.keys]

end Edits

/-- The claim that a masked configuration that is sent back changes nothing, whatever else
the update gives. -/
def MaskedUpdatesKeep : Prop :=
  ∀ (host host' : Host) (tenantId : Uuid) (s : State) (tool : ToolRegistry)
    (name description newType : Option String) (config shown : List (String × Json))
    (response : ToolRegistry), tool ∈ (s.db .tools).rows →
    tool.toolType = "api" ∨ tool.toolType = "database" → IsDict tool.config → IsDict config →
    maskConfig host' tool.config tool.toolType = .ok shown →
    Json.Same (.obj config) (.obj shown) →
    (run (updateTool host tenantId tool.id name description newType (some config)) s).1 =
      .ok response →
    ∀ x ∈ ((run (updateTool host tenantId tool.id name description newType (some config)) s).2.db
        .tools).rows,
      x.id = tool.id → Json.Same (.obj x.config) (.obj tool.config)

namespace Sample

/-- A state with one tool. -/
def storing (tool : ToolRegistry) : State where
  db := Tables.insert (fun _ => .empty) .tools tool
  active _ := none

theorem storing_tools (tool : ToolRegistry) : ((storing tool).db .tools).rows = [tool] := by
  with_unfolding_all rfl

theorem mem_storing (tool : ToolRegistry) : tool ∈ ((storing tool).db .tools).rows := by
  rw [storing_tools]
  exact List.mem_cons_self

/-- The configuration of an API tool that has a path as well. -/
def pathConfig (secret : String) : List (String × Json) :=
  [("url", .str "https://api.example.com"), ("base_path", .str "/data"),
    ("headers", .obj [("authorization", .str secret)])]

theorem pathConfig_isDict (secret : String) : IsDict (pathConfig secret) := by
  refine ⟨by unfold Distinct pathConfig; simp, fun kvs h => ?_⟩
  cases h
  exact List.nodup_singleton _

def pathTool : ToolRegistry :=
  ⟨⟨"r"⟩, ⟨"t"⟩, "search", "", "api", pathConfig "secret", true, host.now, host.now⟩

/-- The row when it has become a tool that reads files. -/
def retypedTool : ToolRegistry :=
  { pathTool with toolType := "file_system", config := pathConfig "****" }

/-- The tool gets this other type, with the configuration that it shows. -/
def retype : Service ToolRegistry :=
  updateTool host ⟨"t"⟩ pathTool.id none none (some "file_system") (some (pathConfig "****"))

theorem retype_returns : (run retype (storing pathTool)).1 = .ok retypedTool := by
  with_unfolding_all rfl

theorem retype_tools : ((run retype (storing pathTool)).2.db .tools).rows = [retypedTool] := by
  with_unfolding_all rfl

/-- A database tool with this connection string. -/
def databaseTool (text : String) : ToolRegistry :=
  ⟨⟨"r"⟩, ⟨"t"⟩, "rows", "", "database", [("connection_string", .str text)], true, host.now,
    host.now⟩

theorem databaseTool_isDict (text : String) : IsDict (databaseTool text).config :=
  ⟨List.nodup_singleton _, fun _ h => nomatch h⟩

end Sample

/-- For another type the masks are stored. -/
theorem not_maskedUpdatesKeep : ¬ MaskedUpdatesKeep := by
  intro h
  have hmem' : Sample.retypedTool ∈
      ((run Sample.retype (Sample.storing Sample.pathTool)).2.db .tools).rows := by
    rw [Sample.retype_tools]
    exact List.mem_cons_self
  have hmask : maskConfig Sample.host Sample.pathTool.config "api" =
      .ok (Sample.pathConfig "****") := by with_unfolding_all rfl
  have hsame := h Sample.host Sample.host ⟨"t"⟩ _ Sample.pathTool none none (some "file_system")
    (Sample.pathConfig "****") (Sample.pathConfig "****") Sample.retypedTool (Sample.mem_storing _)
    (.inl rfl)
    (Sample.pathConfig_isDict "secret") (Sample.pathConfig_isDict "****") hmask (.refl _)
    Sample.retype_returns Sample.retypedTool hmem' rfl
  -- the stored header is the mask
  obtain ⟨headers, hheaders, hvalues⟩ := hsame.lookup_obj
    (k := "headers") (v := .obj [("authorization", .str "****")]) rfl
  cases hheaders
  obtain ⟨value, hvalue, htext⟩ := hvalues.lookup_obj
    (k := "authorization") (v := .str "****") rfl
  cases hvalue
  exact absurd (Json.str.inj htext.symm.eq_of_str) (by decide)

/-- A password that is sent back masked. -/
theorem masked_update_keeps_password :
    Sample.databaseTool "a://u:p@h" ∈
        ((Sample.storing (Sample.databaseTool "a://u:p@h")).db .tools).rows ∧
      ∀ x ∈ ((run (updateTool Sample.host ⟨"t"⟩ ⟨"r"⟩ none none none
          (some (Sample.databaseTool "a://u:****@h").config))
          (Sample.storing (Sample.databaseTool "a://u:p@h"))).2.db .tools).rows,
        x.id = ⟨"r"⟩ →
          Json.Same (.obj x.config) (.obj (Sample.databaseTool "a://u:p@h").config) ∧
          ((Sample.databaseTool "a://u:****@h").config = (Sample.databaseTool "a://u:****@h").config →
            x.config = (Sample.databaseTool "a://u:p@h").config) :=
  ⟨Sample.mem_storing _,
    masked_update_keeps Sample.host Sample.host ⟨"t"⟩ _ (Sample.databaseTool "a://u:p@h") none none
      none (Sample.databaseTool "a://u:****@h").config (Sample.databaseTool "a://u:****@h").config
      (Sample.mem_storing _) (.inr rfl) rfl (Sample.databaseTool_isDict _)
      (Sample.databaseTool_isDict _) (by with_unfolding_all rfl)
      (.refl _)⟩

namespace Sample

/-- The update of a connection string. -/
def reconnect (text : String) : Service ToolRegistry :=
  updateTool host ⟨"t"⟩ ⟨"r"⟩ none none none (some (databaseTool text).config)

/-- A new password is stored, and hidden. -/
theorem reconnect_password : (run (reconnect "a://u:q@h") (storing (databaseTool "a://u:p@h"))).1 =
    .ok (databaseTool "a://u:****@h") := by
  with_unfolding_all rfl

/-- A new host beside the mask is dropped. -/
theorem reconnect_host : (run (reconnect "a://u:****@i") (storing (databaseTool "a://u:p@h"))).1 =
    .ok (databaseTool "a://u:****@h") := by
  with_unfolding_all rfl

end Sample

/-- The response to a new host beside the masked password shows the old one. -/
theorem edit_dropped : ∃ response : ToolRegistry,
    (run (updateTool Sample.host ⟨"t"⟩ (Sample.databaseTool "a://u:p@h").id none none none
      (some (Sample.databaseTool "a://u:****@i").config))
      (Sample.storing (Sample.databaseTool "a://u:p@h"))).1 = .ok response ∧
    ¬ ShowsEdits Sample.host "database" (Sample.databaseTool "a://u:****@i").config
      response.config := by
  refine ⟨_, Sample.reconnect_host, ?_⟩
  rintro ⟨shown, hshown, hall⟩
  have hvalue := lookup_maskConfig hshown "connection_string"
  obtain ⟨w, hw, hsame⟩ := hall "connection_string" (.str "a://u:****@i") (by
    rw [hvalue]
    with_unfolding_all rfl)
  cases hw
  exact absurd (Json.str.inj hsame.eq_of_str) (by decide)

/-- The response to a new password shows the mask. -/
theorem response_shows_password :
    ShowsEdits Sample.host "database" (Sample.databaseTool "a://u:q@h").config
      (Sample.databaseTool "a://u:****@h").config :=
  (response_shows_iff Sample.host ⟨"t"⟩ _ (Sample.databaseTool "a://u:p@h") none none none
    (Sample.databaseTool "a://u:q@h").config (Sample.databaseTool "a://u:****@h")
    (Sample.mem_storing _) (.inr rfl) rfl (Sample.databaseTool_isDict _)
    (fun _ _ h => nomatch h) Sample.reconnect_password).mpr
    ⟨fun _ s t hs hmasked _ => by
      cases hs
      exact absurd hmasked (by decide), fun h => nomatch h⟩

end GraphPilot.Tenancy
