/-
The rate limiter is an exact log of a sliding window.

The list that the middleware keeps for a key is trimmed only when a request of the key
arrives, and dropped when nothing is left of it.  What has been dropped is always too
old to count (`Tracks`), so that a request is judged by all the requests of its key that
have been admitted in the window that ends with it (`rate_limit_exact`).
-/
import GraphPilot.RateLimit.Middleware
import GraphPilot.Window.SlidingLog

namespace GraphPilot.RateLimit

open SlidingWindow

/-! ### The history -/

/-- The arrival of a request that is rate-limited, with its key. -/
def arrivalOf (m : Middleware) : Event → Option (Arrival String ℚ)
  | .arrives request now => if counts request then some ⟨getKey m request, now⟩ else none
  | .responds _ => none

/-- The arrivals that are rate-limited. -/
def arrivals (m : Middleware) (events : List Event) : List (Arrival String ℚ) :=
  events.filterMap (arrivalOf m)

/-- The request is passed on. -/
def isPassed : Except Exn Verdict → Bool
  | .ok .passed => true
  | _ => false

/-- The log and the requests that have been admitted, after an event. -/
def record (m : Middleware) (s : Log × List (Arrival String ℚ)) :
    Event → Log × List (Arrival String ℚ)
  | .arrives request now =>
    ((dispatch m request now s.1).2,
      if counts request && isPassed (dispatch m request now s.1).1 then
        s.2 ++ [⟨getKey m request, now⟩] else s.2)
  | .responds request => ((respond m request s.1).2, s.2)

/-- The requests that have been admitted. -/
def history (m : Middleware) (events : List Event) : List (Arrival String ℚ) :=
  (events.foldl (record m) (fun _ => none, [])).2

/-- The clock of the arrivals does not go back. -/
def Chronological (m : Middleware) (events : List Event) : Prop :=
  (arrivals m events).Pairwise fun a b => a.time ≤ b.time

/-- An event about this key. -/
def concerns (m : Middleware) (key : String) : Event → Bool
  | .arrives request _ => counts request && getKey m request = key
  | .responds request => counts request && getKey m request = key

/-- The property: verdicts are those of the window, which never holds too many, and keys
do not concern each other. -/
structure ExactLog (m : Middleware) (events : List Event) : Prop where
  admits : ∀ request now, counts request = true → (∀ a ∈ arrivals m events, a.time ≤ now) →
    (isPassed (verdict m events request now) = true ↔
      ((within (getKey m request) (now - m.windowSeconds) now (history m events)).length : ℤ) <
        m.maxRequests)
  bounded : ∀ key a,
    ((within key a (a + (m.windowSeconds : ℚ)) (history m events)).length : ℤ) ≤ m.maxRequests
  separate : ∀ request now, counts request = true → verdict m events request now =
    verdict m (events.filter (concerns m (getKey m request))) request now

section Steps

variable {m : Middleware} {log : Log} {request : Request} {key : String} {now : ℚ}

theorem Log.times_put {times : List ℚ} (k : String) : (log.put key times).times k =
    if k = key then times else log.times k := by
  unfold Log.put Log.times
  by_cases h : k = key
  · subst h
    rw [Function.update_self, if_pos rfl]
    rfl
  · rw [Function.update_of_ne h, if_neg h]

theorem times_cleanup (k : String) : (cleanup m log key now).times k =
    if k = key then (log.times key).drop
      ((log.times key).findIdx fun ts => now - m.windowSeconds ≤ ts) else log.times k := by
  unfold cleanup
  dsimp only
  split
  · exact Log.times_put k
  · rename_i hnil
    rw [not_not] at hnil
    by_cases h : k = key
    · rw [if_pos h, hnil]
      unfold Log.times
      rw [h, Function.update_self]
      rfl
    · rw [if_neg h]
      unfold Log.times
      rw [Function.update_of_ne h]

/-- What is left of the log of a key when one of its requests arrives. -/
def remaining (m : Middleware) (log : Log) (key : String) (now : ℚ) : List ℚ :=
  (log.times key).drop ((log.times key).findIdx fun ts => now - m.windowSeconds ≤ ts)

theorem dispatch_of_counts (hcounts : counts request = true) : dispatch m request now log =
    ((checkLimit m now (remaining m log (getKey m request) now)).1,
      (cleanup m log (getKey m request) now).put (getKey m request)
        (checkLimit m now (remaining m log (getKey m request) now)).2) := by
  have htimes : (cleanup m log (getKey m request) now).times (getKey m request) =
      remaining m log (getKey m request) now := by
    rw [times_cleanup, if_pos rfl]
    rfl
  unfold dispatch
  rw [if_pos hcounts]
  dsimp only
  rw [htimes]

theorem passed_checkLimit (times : List ℚ) :
    isPassed (checkLimit m now times).1 = true ↔ (times.length : ℤ) < m.maxRequests := by
  unfold checkLimit
  split
  · rename_i hfull
    have hnot : ¬ (times.length : ℤ) < m.maxRequests := not_lt.mpr hfull
    cases times with
    | nil => exact ⟨fun h => (Bool.false_ne_true h).elim, fun h => (hnot h).elim⟩
    | cons s times => exact ⟨fun h => (Bool.false_ne_true h).elim, fun h => (hnot h).elim⟩
  · rename_i hfull
    exact ⟨fun _ => not_le.mp hfull, fun _ => rfl⟩

theorem times_checkLimit (times : List ℚ) : (checkLimit m now times).2 =
    times ++ if isPassed (checkLimit m now times).1 then [now] else [] := by
  unfold checkLimit
  split
  · cases times with
    | nil => rfl
    | cons s times => exact (List.append_nil _).symm
  · rfl

/-- A request is passed on if what is left of the log is not full. -/
theorem passed_dispatch (hcounts : counts request = true) :
    isPassed (dispatch m request now log).1 = true ↔
      ((remaining m log (getKey m request) now).length : ℤ) < m.maxRequests := by
  rw [dispatch_of_counts hcounts]
  exact passed_checkLimit _

/-- The log after a request. -/
theorem times_dispatch (hcounts : counts request = true) (k : String) :
    (dispatch m request now log).2.times k =
      if k = getKey m request then
        remaining m log (getKey m request) now ++
          (if isPassed (dispatch m request now log).1 then [now] else [])
      else log.times k := by
  rw [dispatch_of_counts hcounts]
  dsimp only
  rw [Log.times_put]
  split
  · exact times_checkLimit _
  · rename_i hk
    rw [times_cleanup, if_neg hk]

/-- A response leaves the times as they are. -/
theorem times_respond (k : String) : (respond m request log).2.times k = log.times k := by
  unfold respond
  split
  · dsimp only
    rw [Log.times_put]
    split
    · rename_i hk
      rw [hk]
    · rfl
  · rfl

/-- A request that is not counted leaves the log as it is. -/
theorem dispatch_of_not_counts (h : counts request = false) :
    dispatch m request now log = (.ok .passed, log) := by
  unfold dispatch
  rw [if_neg (by rw [h]; exact Bool.false_ne_true)]

end Steps

/-! ### Keys do not concern each other -/

section Separate

variable {m : Middleware} {key : String}

/-- The verdict on a request depends on the log of its key alone. -/
theorem dispatch_congr {log log' : Log} {request : Request} {now : ℚ}
    (h : log.times (getKey m request) = log'.times (getKey m request)) :
    (dispatch m request now log).1 = (dispatch m request now log').1 := by
  by_cases hcounts : counts request = true
  · rw [dispatch_of_counts hcounts, dispatch_of_counts hcounts]
    unfold remaining
    rw [h]
  · rw [Bool.not_eq_true] at hcounts
    rw [dispatch_of_not_counts hcounts, dispatch_of_not_counts hcounts]

/-- One event, seen by one key. -/
theorem times_step (log : Log) (e : Event) :
    (step m log e).times key = if concerns m key e then (step m log e).times key
      else log.times key := by
  split
  · rfl
  · rename_i hnot
    cases e with
    | arrives request now =>
      show (dispatch m request now log).2.times key = log.times key
      by_cases hcounts : counts request = true
      · have hk : key ≠ getKey m request := by
          intro hk
          exact hnot (by simp [concerns, hcounts, hk])
        rw [times_dispatch hcounts, if_neg hk]
      · rw [Bool.not_eq_true] at hcounts
        rw [dispatch_of_not_counts hcounts]
    | responds request => exact times_respond key

/-- Two logs that agree on a key agree on it after an event. -/
theorem times_step_congr {log log' : Log} (h : log.times key = log'.times key) {e : Event}
    (he : concerns m key e = true) : (step m log e).times key = (step m log' e).times key := by
  cases e with
  | arrives request now =>
    simp only [concerns, Bool.and_eq_true, decide_eq_true_eq] at he
    obtain ⟨hcounts, rfl⟩ := he
    show (dispatch m request now log).2.times _ = (dispatch m request now log').2.times _
    rw [times_dispatch hcounts, times_dispatch hcounts, dispatch_congr h]
    unfold remaining
    rw [h]
  | responds request =>
    show (respond m request log).2.times key = (respond m request log').2.times key
    rw [times_respond, times_respond, h]

/-- The log of a key is that of the events about it. -/
theorem times_run (events : List Event) : (run m events).times key =
    (run m (events.filter (concerns m key))).times key := by
  unfold run
  induction events using List.reverseRecOn with
  | nil => rfl
  | append_singleton events e ih =>
    rw [List.foldl_append, List.filter_append, List.foldl_append]
    show (step m (events.foldl (step m) fun _ => none) e).times key = _
    by_cases he : concerns m key e = true
    · rw [show [e].filter (concerns m key) = [e] from List.filter_eq_self.mpr fun x hx => by
        rwa [List.mem_singleton.mp hx]]
      exact times_step_congr ih he
    · rw [show [e].filter (concerns m key) = [] from List.filter_eq_nil_iff.mpr fun x hx => by
        rwa [List.mem_singleton.mp hx]]
      rw [times_step, if_neg he]
      exact ih

end Separate

/-! ### The log holds what still counts -/

/-- The log of each key is the end of its history: all that is missing is too old for any
request that is still to come, at `now` or later. -/
def Tracks (m : Middleware) (log : Log) (admitted : List (Arrival String ℚ)) (now : ℚ) : Prop :=
  ∀ key, ∃ dropped, (admitted.filter (·.key = key)).map (·.time) = dropped ++ log.times key ∧
    ∀ s ∈ dropped, s < now - m.windowSeconds

section Track

variable {m : Middleware} {log : Log} {admitted : List (Arrival String ℚ)} {now now' : ℚ}
variable {request : Request}

theorem Tracks.mono (h : Tracks m log admitted now) (hle : now ≤ now') :
    Tracks m log admitted now' := by
  intro key
  obtain ⟨dropped, heq, hold⟩ := h key
  refine ⟨dropped, heq, fun s hs => (hold s hs).trans_le ?_⟩
  linarith

/-- What is left of the log of a key are the times in the window of the new request. -/
theorem Tracks.remaining (h : Tracks m log admitted now)
    (hsorted : admitted.Pairwise fun a b => a.time ≤ b.time)
    (hle : ∀ a ∈ admitted, a.time ≤ now) (key : String) :
    remaining m log key now =
      (within key (now - m.windowSeconds) now admitted).map (·.time) := by
  obtain ⟨dropped, heq, hold⟩ := h key
  have htimes : ((admitted.filter (·.key = key)).map (·.time)).Pairwise (· ≤ ·) := by
    rw [List.pairwise_map]
    exact hsorted.filter _
  rw [heq] at htimes
  have hkept : (log.times key).filter (fun s => now - m.windowSeconds ≤ s) =
      (dropped ++ log.times key).filter fun s => now - m.windowSeconds ≤ s := by
    have hnone : dropped.filter (fun s => now - m.windowSeconds ≤ s) = [] :=
      List.filter_eq_nil_iff.mpr fun s hs => by
        rw [decide_eq_true_eq, not_le]
        exact hold s hs
    rw [List.filter_append, hnone, List.nil_append]
  unfold RateLimit.remaining within
  rw [drop_findIdx (List.pairwise_append.mp htimes).2.1, hkept, ← heq, List.filter_map,
    List.filter_filter]
  congr 1
  refine List.filter_congr fun a ha => ?_
  rw [Function.comp_apply, Bool.and_comm, ← Bool.decide_and]
  exact decide_eq_decide.mpr ⟨fun h => ⟨h.1, h.2, hle a ha⟩, fun h => ⟨h.1, h.2.1⟩⟩

/-- A counted request keeps the log on the track of the history. -/
theorem Tracks.dispatch (h : Tracks m log admitted now)
    (hcounts : counts request = true) :
    Tracks m (dispatch m request now log).2
      (if isPassed (RateLimit.dispatch m request now log).1 then
        admitted ++ [⟨getKey m request, now⟩] else admitted) now := by
  intro key
  obtain ⟨dropped, heq, hold⟩ := h key
  rw [times_dispatch hcounts]
  by_cases hkey : key = getKey m request
  · subst hkey
    rw [if_pos rfl]
    refine ⟨dropped ++ (log.times (getKey m request)).take ((log.times (getKey m request)).findIdx
      fun ts => now - m.windowSeconds ≤ ts), ?_, ?_⟩
    · have hsplit : dropped ++ (log.times (getKey m request)).take
          ((log.times (getKey m request)).findIdx fun ts => now - m.windowSeconds ≤ ts) ++
            RateLimit.remaining m log (getKey m request) now =
          (admitted.filter (·.key = getKey m request)).map (·.time) := by
        rw [List.append_assoc, heq]
        congr 1
        exact List.take_append_drop _ _
      rw [← List.append_assoc, hsplit]
      split
      · rw [List.filter_append, List.map_append]
        congr 1
        rw [List.filter_cons, if_pos (decide_eq_true rfl)]
        rfl
      · rw [List.append_nil]
    · intro s hs
      rcases List.mem_append.mp hs with hs | hs
      · exact hold s hs
      · have hnot := not_of_mem_take (p := fun ts => decide (now - m.windowSeconds ≤ ts)) hs
        exact not_le.mp (of_decide_eq_false hnot)
  · rw [if_neg hkey]
    refine ⟨dropped, ?_, hold⟩
    rw [← heq]
    split
    · have hnone : [(⟨getKey m request, now⟩ : Arrival String ℚ)].filter (·.key = key) = [] :=
        List.filter_eq_nil_iff.mpr fun a ha => by
          rw [List.mem_singleton.mp ha, decide_eq_true_eq]
          exact fun h => hkey h.symm
      rw [List.filter_append, hnone, List.append_nil]
    · rfl

end Track

/-- The history of some events and one more. -/
theorem fold_record (m : Middleware) (events : List Event) :
    events.foldl (record m) (fun _ => none, []) = (run m events, history m events) := by
  refine Prod.ext ?_ rfl
  unfold run
  induction events using List.reverseRecOn with
  | nil => rfl
  | append_singleton events e ih =>
    rw [List.foldl_append, List.foldl_append]
    show (record m _ e).1 = step m _ e
    have hlog : (events.foldl (record m) (fun _ => none, [])).1 =
        events.foldl (step m) fun _ => none := ih
    rw [← hlog]
    cases e with
    | arrives request now => rfl
    | responds request => rfl

theorem history_append (m : Middleware) (events : List Event) (e : Event) :
    history m (events ++ [e]) = (record m (run m events, history m events) e).2 := by
  unfold history
  rw [List.foldl_append]
  show (record m (events.foldl (record m) (fun _ => none, [])) e).2 = _
  rw [fold_record]

theorem run_append (m : Middleware) (events : List Event) (e : Event) :
    run m (events ++ [e]) = step m (run m events) e := by
  unfold run
  rw [List.foldl_append]
  rfl

theorem arrivals_append (m : Middleware) (events events' : List Event) :
    arrivals m (events ++ events') = arrivals m events ++ arrivals m events' :=
  List.filterMap_append ..

theorem arrivals_arrives (m : Middleware) (request : Request) (now : ℚ) :
    arrivals m [.arrives request now] =
      if counts request then [⟨getKey m request, now⟩] else [] := by
  by_cases hcounts : counts request = true
  · simp [arrivals, arrivalOf, hcounts]
  · simp [arrivals, arrivalOf, hcounts]

/-- The middleware admits what the window admits, and its log stays on the track. -/
theorem history_eq {m : Middleware} {events : List Event} (h : Chronological m events) :
    history m events = admitted m.maxRequests.toNat (m.windowSeconds : ℚ) (arrivals m events) ∧
      ∀ now, (∀ a ∈ arrivals m events, a.time ≤ now) →
        Tracks m (run m events) (history m events) now := by
  induction events using List.reverseRecOn with
  | nil =>
    refine ⟨rfl, fun now _ key => ⟨[], rfl, fun s hs => ?_⟩⟩
    cases hs
  | append_singleton events e ih =>
    unfold Chronological at h
    rw [arrivals_append] at h
    obtain ⟨hevents, -, hlast⟩ := List.pairwise_append.mp h
    obtain ⟨hhistory, htracks⟩ := ih hevents
    rw [history_append, run_append, arrivals_append]
    cases e with
    | responds request =>
      refine ⟨?_, fun now hnow key => ?_⟩
      · rw [show arrivals m [.responds request] = [] from rfl, List.append_nil]
        exact hhistory
      · obtain ⟨dropped, heq, hold⟩ := htracks now (fun a ha =>
          hnow a (List.mem_append_left _ ha)) key
        refine ⟨dropped, ?_, hold⟩
        show _ = dropped ++ (respond m request (run m events)).2.times key
        rw [times_respond]
        exact heq
    | arrives request now =>
      by_cases hcounts : counts request = true
      · have harrives : arrivals m [.arrives request now] = [⟨getKey m request, now⟩] := by
          rw [arrivals_arrives, if_pos hcounts]
        have hrecord : (record m (run m events, history m events) (.arrives request now)).2 =
            if isPassed (dispatch m request now (run m events)).1 then
              history m events ++ [⟨getKey m request, now⟩] else history m events := by
          show (if counts request && _ then _ else _) = _
          rw [hcounts, Bool.true_and]
        have hle : ∀ a ∈ arrivals m events, a.time ≤ now := fun a ha =>
          hlast a ha ⟨getKey m request, now⟩ (by rw [harrives]; exact List.mem_cons_self)
        have hsub : (history m events).Sublist (arrivals m events) := by
          rw [hhistory]
          exact admitted_sublist
        have hleft := (htracks now hle).remaining (hevents.sublist hsub)
          (fun a ha => hle a (hsub.subset ha)) (getKey m request)
        rw [hrecord, harrives]
        refine ⟨?_, fun now' hnow' => ?_⟩
        · rw [admitted_append, ← hhistory, offer]
          have hiff : isPassed (dispatch m request now (run m events)).1 =
              admits m.maxRequests.toNat (m.windowSeconds : ℚ) (history m events)
                ⟨getKey m request, now⟩ := by
            rw [Bool.eq_iff_iff, passed_dispatch hcounts, hleft, List.length_map]
            unfold admits
            rw [decide_eq_true_eq]
            dsimp only
            omega
          rw [hiff]
        · exact ((htracks now hle).dispatch hcounts).mono
            (hnow' ⟨getKey m request, now⟩ (List.mem_append_right _ List.mem_cons_self))
      · rw [Bool.not_eq_true] at hcounts
        have harrives : arrivals m [.arrives request now] = [] := by
          rw [arrivals_arrives, hcounts, if_neg Bool.false_ne_true]
        have hrecord : (record m (run m events, history m events) (.arrives request now)).2 =
            history m events := by
          show (if counts request && _ then _ else _) = _
          rw [hcounts, Bool.false_and, if_neg Bool.false_ne_true]
        have hstep : step m (run m events) (.arrives request now) = run m events := by
          show (dispatch m request now (run m events)).2 = _
          rw [dispatch_of_not_counts hcounts]
        rw [hrecord, harrives, List.append_nil, hstep]
        exact ⟨hhistory, htracks⟩

/-- **The rate limiter is an exact sliding-window log.** -/
theorem rate_limit_exact (m : Middleware) (events : List Event) (hmax : 1 ≤ m.maxRequests)
    (hchronological : Chronological m events) : ExactLog m events := by
  obtain ⟨hhistory, htracks⟩ := history_eq hchronological
  have hsub : (history m events).Sublist (arrivals m events) := by
    rw [hhistory]
    exact admitted_sublist
  refine ⟨?_, ?_, ?_⟩
  · intro request now hcounts hnow
    have hleft := (htracks now hnow).remaining (hchronological.sublist hsub)
      (fun a ha => hnow a (hsub.subset ha)) (getKey m request)
    unfold verdict
    rw [passed_dispatch hcounts, hleft, List.length_map]
  · intro key a
    have hlength : (within key a (a + (m.windowSeconds : ℚ)) (admitted m.maxRequests.toNat
        (m.windowSeconds : ℚ) (arrivals m events))).length ≤ m.maxRequests.toNat :=
      length_within_le hchronological key a
    rw [← hhistory] at hlength
    omega
  · intro request now hcounts
    exact dispatch_congr (times_run events)

namespace Sample

/-- One request a minute, for each tenant. -/
def middleware : Middleware := ⟨1, 60, false, id⟩

def request (tenantId : String) : Request := ⟨"/api/v1/tools/", "GET", some tenantId, none, none⟩

/-- Three requests of a tenant within a minute, and one of another. -/
def burst : List Event :=
  [.arrives (request "t") 0, .arrives (request "t") 30, .responds (request "t"),
    .arrives (request "u") 30, .arrives (request "t") 60]

end Sample

/-- The first request of the minute is admitted, and the next only after it. -/
theorem rate_limit_exact_burst : ExactLog Sample.middleware Sample.burst :=
  rate_limit_exact Sample.middleware Sample.burst (by decide)
    (by unfold Chronological; decide +kernel)

end GraphPilot.RateLimit
