/-
The keys that the rate limiter keeps.

A key is dropped from the log only to be made anew: `_cleanup` is called for the key of
the request that is being judged, and the next line reads this key of a `defaultdict`.
So every key that has ever been seen is still there (`present_run`), and the log has no
idle key exactly if each of them has a request in the last window (`idle_keys_iff`).
-/
import GraphPilot.Properties.RequestRateLimit

namespace GraphPilot.RateLimit

open SlidingWindow

/-- A response is one to a request that has arrived. -/
def Orderly (events : List Event) : Prop :=
  ∀ before request after, events = before ++ .responds request :: after →
    ∃ now, .arrives request now ∈ before

/-- The requests of any key that have been admitted in the window that ends at `now`. -/
def lastWindow (m : Middleware) (now : ℚ) (xs : List (Arrival String ℚ)) :
    List (Arrival String ℚ) :=
  xs.filter fun a => now - m.windowSeconds ≤ a.time ∧ a.time ≤ now

/-- The log keeps no idle keys: each has a time in the window that ends at `now`, and they
are no more than the requests that this window has admitted. -/
structure NoIdleKeys (m : Middleware) (events : List Event) (now : ℚ) : Prop where
  recent : ∀ key times, run m events key = some times →
    ∃ ts ∈ times, now - m.windowSeconds ≤ ts ∧ ts ≤ now
  bounded : ∀ keys : List String, keys.Nodup → (∀ key ∈ keys, run m events key ≠ none) →
    keys.length ≤ (lastWindow m now (history m events)).length

section Present

variable {m : Middleware} {log : Log} {request : Request} {now : ℚ}

theorem Log.put_ne_none {times : List ℚ} {key k : String} :
    log.put key times k ≠ none ↔ k = key ∨ log k ≠ none := by
  unfold Log.put
  by_cases h : k = key
  · subst h
    rw [Function.update_self]
    exact ⟨fun _ => .inl rfl, fun _ => Option.some_ne_none _⟩
  · rw [Function.update_of_ne h]
    exact ⟨.inr, fun hor => hor.resolve_left h⟩

theorem cleanup_of_ne {key k : String} (h : k ≠ key) : cleanup m log key now k = log k := by
  unfold cleanup
  split
  · exact Function.update_of_ne h _ _
  · exact Function.update_of_ne h _ _

/-- The key of a counted request is there after it, and no other has gone. -/
theorem dispatch_ne_none (hcounts : counts request = true) (k : String) :
    (dispatch m request now log).2 k ≠ none ↔ k = getKey m request ∨ log k ≠ none := by
  rw [dispatch_of_counts hcounts]
  dsimp only
  rw [Log.put_ne_none]
  by_cases h : k = getKey m request
  · exact ⟨fun _ => .inl h, fun _ => .inl h⟩
  · rw [cleanup_of_ne h]

theorem respond_ne_none (k : String) : (respond m request log).2 k ≠ none ↔
    (counts request = true ∧ k = getKey m request) ∨ log k ≠ none := by
  unfold respond
  split
  · rename_i hcounts
    dsimp only
    rw [Log.put_ne_none]
    exact or_congr_left ⟨fun h => ⟨hcounts, h⟩, And.right⟩
  · rename_i hcounts
    exact ⟨.inr, fun h => h.resolve_left fun hc => hcounts hc.1⟩

end Present

theorem Orderly.left {events events' : List Event} (h : Orderly (events ++ events')) :
    Orderly events := by
  intro before request after heq
  refine h before request (after ++ events') ?_
  rw [heq, List.append_assoc, List.cons_append]

/-- The keys of the arrivals of a request. -/
theorem mem_arrivals {m : Middleware} {events : List Event} {request : Request} {now : ℚ}
    (h : .arrives request now ∈ events) (hcounts : counts request = true) :
    ⟨getKey m request, now⟩ ∈ arrivals m events :=
  List.mem_filterMap.mpr ⟨_, h, if_pos hcounts⟩

/-- **The log has the keys of all the requests that have ever arrived.** -/
theorem present_run {m : Middleware} {events : List Event} (horderly : Orderly events)
    (k : String) : run m events k ≠ none ↔ ∃ a ∈ arrivals m events, a.key = k := by
  induction events using List.reverseRecOn with
  | nil =>
    refine ⟨fun h => (h rfl).elim, ?_⟩
    rintro ⟨a, ha, -⟩
    cases ha
  | append_singleton events e ih =>
    have hevents := ih horderly.left
    rw [run_append, arrivals_append]
    cases e with
    | arrives request now =>
      show (dispatch m request now (run m events)).2 k ≠ none ↔ _
      rw [arrivals_arrives]
      by_cases hcounts : counts request = true
      · rw [dispatch_ne_none hcounts, if_pos hcounts, hevents]
        constructor
        · rintro (rfl | ⟨a, ha, hk⟩)
          · exact ⟨_, List.mem_append_right _ List.mem_cons_self, rfl⟩
          · exact ⟨a, List.mem_append_left _ ha, hk⟩
        · rintro ⟨a, ha, rfl⟩
          rcases List.mem_append.mp ha with ha | ha
          · exact .inr ⟨a, ha, rfl⟩
          · rw [List.mem_singleton.mp ha]
            exact .inl rfl
      · rw [if_neg hcounts, List.append_nil]
        rw [Bool.not_eq_true] at hcounts
        rw [dispatch_of_not_counts hcounts]
        exact hevents
    | responds request =>
      show (respond m request (run m events)).2 k ≠ none ↔ _
      rw [respond_ne_none, show arrivals m [.responds request] = [] from rfl, List.append_nil,
        hevents]
      refine ⟨fun h => h.elim ?_ id, .inr⟩
      -- the request of this response has put its key there
      rintro ⟨hcounts, rfl⟩
      obtain ⟨now, hmem⟩ := horderly events request [] rfl
      exact ⟨_, mem_arrivals hmem hcounts, rfl⟩

/-- The times of a key that are in the last window are those of its admitted requests. -/
theorem mem_times_iff {m : Middleware} {events : List Event} {now : ℚ} {key : String}
    (hchronological : Chronological m events) (hnow : ∀ a ∈ arrivals m events, a.time ≤ now)
    {ts : ℚ} (hts : now - m.windowSeconds ≤ ts) :
    ts ∈ (run m events).times key ↔ ⟨key, ts⟩ ∈ history m events := by
  obtain ⟨dropped, heq, hold⟩ := (history_eq hchronological).2 now hnow key
  constructor
  · intro hmem
    have hmap : ts ∈ ((history m events).filter (·.key = key)).map (·.time) := by
      rw [heq]
      exact List.mem_append_right _ hmem
    obtain ⟨a, ha, rfl⟩ := List.mem_map.mp hmap
    obtain ⟨ha, hkey⟩ := List.mem_filter.mp ha
    rwa [← of_decide_eq_true hkey]
  · intro hmem
    have hmap : ts ∈ dropped ++ (run m events).times key := by
      rw [← heq]
      exact List.mem_map.mpr ⟨_, List.mem_filter.mpr ⟨hmem, decide_eq_true rfl⟩, rfl⟩
    exact (List.mem_append.mp hmap).resolve_left fun hd => absurd (hold ts hd) (not_lt.mpr hts)

/-- The admitted requests of some keys are at least as many as the keys. -/
theorem length_le_of_keys {xs : List (Arrival String ℚ)} {keys : List String}
    (hnodup : keys.Nodup) (h : ∀ key ∈ keys, ∃ a ∈ xs, a.key = key) : keys.length ≤ xs.length := by
  have hsub : keys ⊆ xs.map (·.key) := fun key hkey => by
    obtain ⟨a, ha, rfl⟩ := h key hkey
    exact List.mem_map_of_mem ha
  have hle := (List.subperm_of_subset hnodup hsub).length_le
  rwa [List.length_map] at hle

/-- **The log keeps no idle keys exactly if every key that has ever been seen has an
admitted request in the last window.** -/
theorem idle_keys_iff (m : Middleware) (events : List Event) (request : Request) (now : ℚ)
    (hcounts : counts request = true)
    (hchronological : Chronological m (events ++ [.arrives request now]))
    (horderly : Orderly (events ++ [.arrives request now])) :
    NoIdleKeys m (events ++ [.arrives request now]) now ↔
      ∀ a ∈ arrivals m (events ++ [.arrives request now]),
        ∃ b ∈ lastWindow m now (admitted m.maxRequests.toNat (m.windowSeconds : ℚ)
          (arrivals m (events ++ [.arrives request now]))), b.key = a.key := by
  -- the last request is the latest
  have hnow : ∀ a ∈ arrivals m (events ++ [Event.arrives request now]), a.time ≤ now := by
    intro a ha
    unfold Chronological at hchronological
    rw [arrivals_append, arrivals_arrives, if_pos hcounts] at hchronological ha
    rcases List.mem_append.mp ha with ha | ha
    · exact (List.pairwise_append.mp hchronological).2.2 a ha _ List.mem_cons_self
    · rw [List.mem_singleton.mp ha]
  generalize events ++ [Event.arrives request now] = events at hchronological horderly hnow ⊢
  rw [← (history_eq hchronological).1]
  constructor
  · rintro ⟨hrecent, -⟩ a ha
    have hpresent := (present_run horderly a.key).mpr ⟨a, ha, rfl⟩
    obtain ⟨times, htimes⟩ := Option.ne_none_iff_exists'.mp hpresent
    obtain ⟨ts, hts, hfrom, hto⟩ := hrecent a.key times htimes
    refine ⟨⟨a.key, ts⟩, List.mem_filter.mpr ⟨?_, decide_eq_true ⟨hfrom, hto⟩⟩, rfl⟩
    rw [← mem_times_iff hchronological hnow hfrom, Log.times, htimes]
    exact hts
  · intro hseen
    have hkeys : ∀ key, run m events key ≠ none →
        ∃ b ∈ lastWindow m now (history m events), b.key = key := by
      intro key hkey
      obtain ⟨a, ha, rfl⟩ := (present_run horderly key).mp hkey
      exact hseen a ha
    refine ⟨?_, fun keys hnodup hpresent => ?_⟩
    · intro key times htimes
      have hkey : run m events key ≠ none := by
        rw [htimes]
        exact Option.some_ne_none _
      obtain ⟨b, hb, rfl⟩ := hkeys key hkey
      obtain ⟨hb, hwindow⟩ := List.mem_filter.mp hb
      obtain ⟨hfrom, hto⟩ := of_decide_eq_true hwindow
      refine ⟨b.time, ?_, hfrom, hto⟩
      have hmem := (mem_times_iff hchronological hnow hfrom).mpr hb
      rwa [Log.times, htimes] at hmem
    · exact length_le_of_keys hnodup fun key hkey => hkeys key (hpresent key hkey)

namespace Sample

/-- A tenant that comes once. -/
def visit : List Event := [.arrives (request "t") 0, .responds (request "t")]

theorem chronological_visit (tenantId : String) (now : ℚ) (hnow : 0 ≤ now) :
    Chronological middleware (visit ++ [Event.arrives (request tenantId) now]) := by
  have harrivals : arrivals middleware (visit ++ [Event.arrives (request tenantId) now]) =
      [⟨getKey middleware (request "t"), 0⟩, ⟨getKey middleware (request tenantId), now⟩] := by
    have hpath : ("/api/v1/tools/".startsWith "/api/" && "GET" ≠ "OPTIONS") = true := by
      decide +kernel
    have hcounts : ∀ t, counts (request t) = true := fun _ => hpath
    rw [arrivals_append, arrivals_arrives, if_pos (hcounts tenantId)]
    show (arrivals middleware
      ([Event.arrives (request "t") 0] ++ [Event.responds (request "t")])) ++ _ = _
    rw [arrivals_append, arrivals_arrives, if_pos (hcounts "t")]
    rfl
  unfold Chronological
  rw [harrivals]
  refine List.pairwise_cons.mpr ⟨fun a ha => ?_, List.pairwise_singleton _ _⟩
  rw [List.mem_singleton.mp ha]
  exact hnow

theorem orderly_visit (tenantId : String) (now : ℚ) :
    Orderly (visit ++ [Event.arrives (request tenantId) now]) := by
  intro before r after heq
  rcases before with _ | ⟨e, _ | ⟨e', _ | ⟨e'', before⟩⟩⟩
  · cases heq
  · obtain ⟨rfl, hrest⟩ := List.cons.inj heq
    obtain ⟨hr, -⟩ := List.cons.inj hrest
    cases hr
    exact ⟨0, List.mem_cons_self⟩
  · cases heq
  · simp [visit] at heq

end Sample

/-- Within the minute the tenant that came once is no idle key. -/
theorem idle_keys_iff_visit :
    NoIdleKeys Sample.middleware (Sample.visit ++ [.arrives (Sample.request "u") 60]) 60 :=
  (idle_keys_iff Sample.middleware Sample.visit (Sample.request "u") 60 (by decide +kernel)
    (Sample.chronological_visit "u" 60 (by norm_num)) (Sample.orderly_visit "u" 60)).mpr
    (by decide +kernel)

/-- After it the tenant that came once is still in the log, with a time of the past. -/
theorem not_noIdleKeys_rotation :
    Chronological Sample.middleware (Sample.visit ++ [.arrives (Sample.request "u") 100]) ∧
      Orderly (Sample.visit ++ [.arrives (Sample.request "u") 100]) ∧
      ¬ NoIdleKeys Sample.middleware (Sample.visit ++ [.arrives (Sample.request "u") 100]) 100 := by
  refine ⟨Sample.chronological_visit "u" 100 (by norm_num), Sample.orderly_visit "u" 100, ?_⟩
  intro h
  have hkept : run Sample.middleware (Sample.visit ++ [.arrives (Sample.request "u") 100])
      "tenant:t" = some [0] := by decide +kernel
  obtain ⟨ts, hts, hfrom, -⟩ := h.recent "tenant:t" [0] hkept
  rw [List.mem_singleton.mp hts] at hfrom
  revert hfrom
  decide +kernel

end GraphPilot.RateLimit
