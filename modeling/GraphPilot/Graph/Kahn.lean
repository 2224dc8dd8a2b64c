/-
Kahn's algorithm with mutable in-degrees.

The loop takes the first vertex of a queue, lowers the in-degree of its
successors one by one, and appends a successor to the queue when its in-degree
reaches zero.  `kahn` runs it on the in-degrees of an edge list and puts the
vertices the loop never reached behind the rest, in the order given.

* `kahn_perm` — the result is a permutation of the vertices;
* `kahn_topological` — on an acyclic graph every vertex comes after all its
  predecessors;
* `kahn_split` — in general the vertices come first that no cycle leads to;
* `kahn_turns` — the loop empties its queue.

Parallel edges are counted with their multiplicity, in both tables alike.
-/
import Mathlib.Data.List.Perm.Basic
import Mathlib.Data.List.Count
import Mathlib.Data.List.Dedup
import Mathlib.Logic.Function.Basic
import Mathlib.Order.WellFoundedSet
import Mathlib.Tactic.Linarith

namespace Graph

variable {α : Type} [DecidableEq α]

/-! ### The algorithm -/

/-- Lower the in-degree of the vertices `ns` one after the other; a vertex whose
in-degree reaches zero joins the queue. -/
def relax : List α → List α → (α → ℤ) → List α × (α → ℤ)
  | [], queue, indeg => (queue, indeg)
  | n :: ns, queue, indeg =>
    let indeg' := Function.update indeg n (indeg n - 1)
    relax ns (if indeg' n = 0 then queue ++ [n] else queue) indeg'

/-- The main loop; `done` is the result so far. -/
def kahnLoop (succ : α → List α) : ℕ → List α → (α → ℤ) → List α → List α
  | 0, _, _, done => done
  | _ + 1, [], _, done => done
  | fuel + 1, node :: queue, indeg, done =>
    let (queue', indeg') := relax (succ node) queue indeg
    kahnLoop succ fuel queue' indeg' (done ++ [node])

/-- The edges between the vertices `ids`. -/
def known (ids : List α) (edges : List (α × α)) : List (α × α) :=
  edges.filter fun e => e.1 ∈ ids ∧ e.2 ∈ ids

/-- The targets of the edges leaving `u`, in order. -/
def successors (edges : List (α × α)) (u : α) : List α :=
  (edges.filter fun e => e.1 = u).map Prod.snd

/-- The number of edges entering `v`. -/
def inDegree (edges : List (α × α)) (v : α) : ℤ := (edges.map Prod.snd).count v

/-- Kahn's order of the vertices `ids`; what the loop does not reach is put
behind the rest. -/
def kahn (ids : List α) (edges : List (α × α)) : List α :=
  let es := known ids edges
  let result := kahnLoop (successors es) ids.length
    (ids.filter fun v => inDegree es v = 0) (inDegree es) []
  result ++ ids.filter fun v => v ∉ result

/-! ### One relaxation -/

theorem relax_indeg (ns queue : List α) (indeg : α → ℤ) (v : α) :
    (relax ns queue indeg).2 v = indeg v - ns.count v := by
  induction ns generalizing queue indeg with
  | nil => simp [relax]
  | cons n ns ih =>
    simp only [relax, ih]
    by_cases h : v = n
    · subst h
      simp only [Function.update_self, List.count_cons_self]
      push_cast
      omega
    · rw [Function.update_of_ne h, List.count_cons_of_ne (Ne.symm h)]

/-- A vertex joins the queue exactly when its in-degree comes down to zero. -/
theorem mem_relax (ns queue : List α) (indeg : α → ℤ) (v : α) :
    v ∈ (relax ns queue indeg).1 ↔
      v ∈ queue ∨ (0 < indeg v ∧ indeg v - ns.count v ≤ 0) := by
  induction ns generalizing queue indeg with
  | nil =>
    simp only [relax, List.count_nil]
    constructor
    · exact Or.inl
    · rintro (h | ⟨h, h'⟩)
      · exact h
      · omega
  | cons n ns ih =>
    simp only [relax, ih, Function.update_self]
    by_cases h : v = n
    · subst h
      rw [Function.update_self, List.count_cons_self]
      push_cast
      split
      · rename_i h0
        simp only [List.mem_append, List.mem_singleton, or_true, true_or, true_iff]
        right
        omega
      · rename_i h0
        constructor
        · rintro (hq | ⟨h1, h2⟩)
          · exact Or.inl hq
          · exact Or.inr ⟨by omega, by omega⟩
        · rintro (hq | ⟨h1, h2⟩)
          · exact Or.inl hq
          · exact Or.inr ⟨by omega, by omega⟩
    · rw [Function.update_of_ne h, List.count_cons_of_ne (Ne.symm h)]
      split <;> simp [h]

theorem nodup_relax {ns queue : List α} {indeg : α → ℤ} (hq : queue.Nodup)
    (hz : ∀ v ∈ queue, indeg v ≤ 0) : (relax ns queue indeg).1.Nodup := by
  induction ns generalizing queue indeg with
  | nil => exact hq
  | cons n ns ih =>
    simp only [relax, Function.update_self]
    refine ih ?_ ?_
    · split
      · rename_i h0
        have hn : n ∉ queue := fun hmem => by
          have := hz n hmem
          omega
        refine List.nodup_append.mpr ⟨hq, by simp, ?_⟩
        rintro a ha b hb rfl
        exact hn (List.mem_singleton.mp hb ▸ ha)
      · exact hq
    · intro v hv
      by_cases h : v = n
      · subst h
        rw [Function.update_self]
        split at hv
        · omega
        · have := hz v hv
          omega
      · rw [Function.update_of_ne h]
        refine hz v ?_
        split at hv
        · simpa [h] using hv
        · exact hv

/-! ### Fuel -/

/-- The vertices that may still join the queue. -/
def waiting (ids : List α) (indeg : α → ℤ) : List α := ids.dedup.filter fun v => 0 < indeg v

theorem length_relax (ids ns queue : List α) (indeg : α → ℤ) (hns : ∀ n ∈ ns, n ∈ ids) :
    (relax ns queue indeg).1.length + (waiting ids (relax ns queue indeg).2).length =
      queue.length + (waiting ids indeg).length := by
  induction ns generalizing queue indeg with
  | nil => rfl
  | cons n ns ih =>
    have hn : n ∈ ids.dedup := List.mem_dedup.mpr (hns n (by simp))
    have hkey : (waiting ids indeg).length =
        (waiting ids (Function.update indeg n (indeg n - 1))).length +
          if indeg n - 1 = 0 then 1 else 0 := by
      unfold waiting
      generalize hd : ids.dedup = d at hn
      have hnd : d.Nodup := hd ▸ List.nodup_dedup ids
      clear hd
      induction d with
      | nil => simp at hn
      | cons a d ihd =>
        rw [List.nodup_cons] at hnd
        rw [List.filter_cons, List.filter_cons]
        by_cases ha : n = a
        · subst ha
          have htail : (d.filter fun v => decide (0 < Function.update indeg n (indeg n - 1) v)) =
              d.filter fun v => decide (0 < indeg v) := by
            refine List.filter_congr fun v hv => ?_
            have hne : v ≠ n := by
              rintro rfl
              exact hnd.1 hv
            rw [Function.update_of_ne hne]
          rw [htail]
          simp only [Function.update_self, decide_eq_true_eq]
          split_ifs <;> simp <;> omega
        · have hmem : n ∈ d := by simpa [ha] using hn
          have := ihd hmem hnd.2
          rw [Function.update_of_ne (Ne.symm ha)]
          by_cases hpos : 0 < indeg a
          · simp only [hpos, decide_true, if_true, List.length_cons]
            omega
          · simpa only [hpos, decide_false, Bool.false_eq_true, if_false] using this
    simp only [relax, Function.update_self]
    rw [ih _ _ fun m hm => hns m (by simp [hm]), hkey]
    split
    · rw [List.length_append, List.length_singleton]
      omega
    · omega

/-! ### What the loop keeps true -/

/-- The state of the loop: the tables agree with the vertices already taken. -/
structure Running (ids : List α) (edges : List (α × α)) (done queue : List α)
    (indeg : α → ℤ) : Prop where
  nodup : (done ++ queue).Nodup
  subset : ∀ v ∈ done ++ queue, v ∈ ids
  indeg_eq : ∀ v, indeg v = ((edges.filter fun e => e.1 ∉ done).map Prod.snd).count v
  ready : ∀ v ∈ ids, v ∈ done ++ queue ↔ indeg v = 0
  ordered : ∀ l₁ v l₂, done = l₁ ++ v :: l₂ → ∀ u, (u, v) ∈ edges → u ∈ l₁

theorem Running.preds {ids : List α} {edges : List (α × α)} {done queue : List α}
    {indeg : α → ℤ} (h : Running ids edges done queue indeg) {u v : α}
    (hv : indeg v = 0) (he : (u, v) ∈ edges) : u ∈ done := by
  by_contra hu
  rw [h.indeg_eq v, Int.natCast_eq_zero, List.count_eq_zero] at hv
  exact hv (List.mem_map.mpr ⟨(u, v), by simp [he, hu], rfl⟩)

/-- Taking a vertex out of the waiting edges lowers in-degrees by the number of
edges to each of its successors. -/
theorem count_filter_append (edges : List (α × α)) {done : List α} {node : α}
    (hn : node ∉ done) (v : α) :
    (((edges.filter fun e => e.1 ∉ done).map Prod.snd).count v : ℤ) =
      ((edges.filter fun e => e.1 ∉ done ++ [node]).map Prod.snd).count v +
        (successors edges node).count v := by
  induction edges with
  | nil => simp [successors]
  | cons e edges ih =>
    unfold successors at ih ⊢
    by_cases h1 : e.1 = node
    · have hd : e.1 ∉ done := h1 ▸ hn
      have ha : ¬ e.1 ∉ done ++ [node] := by simp [h1]
      simp only [List.filter_cons, h1, decide_true, if_true, List.map_cons, List.count_cons]
      rw [h1] at hd ha
      simp only [hd, ha, not_false_eq_true, decide_true, if_true, decide_false, List.map_cons,
        List.count_cons, Bool.false_eq_true, if_false]
      push_cast
      omega
    · by_cases h2 : e.1 ∈ done
      · simpa [List.filter_cons, h1, h2] using ih
      · simp only [List.filter_cons, h1, h2, List.mem_append, List.mem_singleton, or_self,
          not_false_eq_true, decide_true, if_true, List.map_cons, List.count_cons, decide_false,
          Bool.false_eq_true, if_false]
        push_cast
        simp only [List.mem_append, List.mem_singleton] at ih
        omega

/-- One turn of the loop. -/
theorem Running.step {ids : List α} {edges : List (α × α)} {done queue : List α} {node : α}
    {indeg : α → ℤ} (h : Running ids edges done (node :: queue) indeg)
    (hknown : ∀ e ∈ edges, e.2 ∈ ids) :
    Running ids edges (done ++ [node]) (relax (successors edges node) queue indeg).1
      (relax (successors edges node) queue indeg).2 := by
  have hnode : node ∈ ids := h.subset node (by simp)
  have hnd := h.nodup
  rw [List.nodup_append] at hnd
  obtain ⟨hdone, hq, hdisj⟩ := hnd
  rw [List.nodup_cons] at hq
  have hnot : node ∉ done := fun hm => hdisj node hm node (by simp) rfl
  have hzero : ∀ v ∈ done ++ node :: queue, indeg v = 0 := fun v hv =>
    (h.ready v (h.subset v hv)).mp hv
  have hindeg : ∀ v, (relax (successors edges node) queue indeg).2 v =
      ((edges.filter fun e => e.1 ∉ done ++ [node]).map Prod.snd).count v := by
    intro v
    rw [relax_indeg, h.indeg_eq v, count_filter_append edges hnot v]
    omega
  have hnonneg : ∀ v, 0 ≤ (relax (successors edges node) queue indeg).2 v := by
    intro v
    rw [hindeg v]
    positivity
  have hsucc : ∀ v ∈ successors edges node, v ∈ ids := by
    intro v hv
    obtain ⟨e, he, rfl⟩ := List.mem_map.mp hv
    exact hknown e (List.mem_of_mem_filter he)
  refine ⟨?_, ?_, hindeg, ?_, ?_⟩
  · rw [List.nodup_append]
    refine ⟨by simpa using hdone.concat hnot,
      nodup_relax hq.2 fun v hv => (hzero v (by simp [hv])).le, ?_⟩
    rintro a ha b hb rfl
    rcases (mem_relax _ _ _ a).mp hb with hmem | ⟨hpos, -⟩
    · rcases List.mem_append.mp ha with had | had
      · exact hdisj a had a (by simp [hmem]) rfl
      · exact hq.1 (List.mem_singleton.mp had ▸ hmem)
    · have : indeg a = 0 := hzero a (by
        rcases List.mem_append.mp ha with had | had
        · simp [had]
        · simp [List.mem_singleton.mp had])
      omega
  · intro v hv
    rcases List.mem_append.mp hv with hv | hv
    · rcases List.mem_append.mp hv with hv | hv
      · exact h.subset v (by simp [hv])
      · exact List.mem_singleton.mp hv ▸ hnode
    · rcases (mem_relax _ _ _ v).mp hv with hmem | ⟨hpos, hle⟩
      · exact h.subset v (by simp [hmem])
      · have : 0 < (successors edges node).count v := by omega
        exact hsucc v (List.count_pos_iff.mp this)
  · intro v hv
    have hge := hnonneg v
    rw [relax_indeg] at hge ⊢
    rw [List.mem_append, mem_relax]
    have hr := h.ready v hv
    constructor
    · rintro (hm | hm | ⟨hpos, hle⟩)
      · have : indeg v = 0 := hzero v (by
          rcases List.mem_append.mp hm with hm | hm
          · simp [hm]
          · simp [List.mem_singleton.mp hm])
        omega
      · have : indeg v = 0 := hzero v (by simp [hm])
        omega
      · omega
    · intro h0
      by_cases hz : indeg v = 0
      · rcases List.mem_append.mp (hr.mpr hz) with hm | hm
        · exact Or.inl (by simp [hm])
        · rcases List.mem_cons.mp hm with rfl | hm
          · exact Or.inl (by simp)
          · exact Or.inr (Or.inl hm)
      · exact Or.inr (Or.inr ⟨by
          have := h.indeg_eq v
          omega, h0.le⟩)
  · intro l₁ v l₂ heq u he
    rcases List.eq_nil_or_concat l₂ with rfl | ⟨l₂', x, rfl⟩
    · obtain ⟨rfl, hv⟩ := List.append_inj' heq rfl
      have hv : node = v := by simpa using hv
      subst hv
      exact h.preds (hzero node (by simp)) he
    · have : done ++ [node] = (l₁ ++ v :: l₂') ++ [x] := by simpa using heq
      obtain ⟨hd, -⟩ := List.append_inj' this rfl
      exact h.ordered l₁ v l₂' hd u he

/-- The state in which the loop ends: nothing is queued. -/
theorem Running.loop {ids : List α} {edges : List (α × α)} (hknown : ∀ e ∈ edges, e.2 ∈ ids)
    {fuel : ℕ} {done queue : List α} {indeg : α → ℤ}
    (h : Running ids edges done queue indeg)
    (hfuel : queue.length + (waiting ids indeg).length ≤ fuel) :
    ∃ indeg', Running ids edges (kahnLoop (successors edges) fuel queue indeg done) [] indeg' := by
  induction fuel generalizing done queue indeg with
  | zero =>
    have : queue = [] := List.length_eq_zero_iff.mp (by omega)
    subst this
    exact ⟨indeg, h⟩
  | succ fuel ih =>
    cases queue with
    | nil => exact ⟨indeg, h⟩
    | cons node queue =>
      refine ih (h.step hknown) ?_
      rw [length_relax ids _ _ _ fun v hv => by
        obtain ⟨e, he, rfl⟩ := List.mem_map.mp hv
        exact hknown e (List.mem_of_mem_filter he)]
      simp only [List.length_cons] at hfuel
      omega

/-! ### Kahn's order -/

/-- Each vertex of `l` comes after all its predecessors. -/
def TopologicalOrder (edges : List (α × α)) (l : List α) : Prop :=
  ∀ l₁ v l₂, l = l₁ ++ v :: l₂ → ∀ u, (u, v) ∈ edges → u ∈ l₁

/-- No vertex reaches itself along one or more edges. -/
def Acyclic (edges : List (α × α)) : Prop :=
  ∀ v, ¬ Relation.TransGen (fun a b => (a, b) ∈ edges) v v

variable {ids : List α} {edges : List (α × α)}

theorem waiting_add_ready (hids : ids.Nodup) (indeg : α → ℤ) (hnn : ∀ v, 0 ≤ indeg v) :
    (ids.filter fun v => indeg v = 0).length + (waiting ids indeg).length = ids.length := by
  unfold waiting
  rw [hids.dedup]
  have hsplit := List.length_eq_length_filter_add (l := ids) fun v => decide (indeg v = 0)
  have hneg : (ids.filter fun v => decide (0 < indeg v)) =
      ids.filter fun v => !decide (indeg v = 0) := by
    refine List.filter_congr fun v _ => ?_
    have := hnn v
    by_cases h : indeg v = 0
    · simp [h]
    · have : 0 < indeg v := by omega
      simp [h, this]
  rw [hneg, ← hsplit]

/-- The loop of `kahn` ends with nothing queued. -/
theorem kahn_running (hids : ids.Nodup) (edges : List (α × α)) : ∃ indeg',
    Running ids (known ids edges) (kahnLoop (successors (known ids edges)) ids.length
      (ids.filter fun v => inDegree (known ids edges) v = 0) (inDegree (known ids edges)) [])
      [] indeg' := by
  have hnn : ∀ v, 0 ≤ inDegree (known ids edges) v := fun v => by
    unfold inDegree
    positivity
  refine Running.loop (fun e he => ?_) ⟨?_, ?_, ?_, ?_, ?_⟩
    (waiting_add_ready hids _ hnn).le
  · simpa using (List.mem_filter.mp he).2 |> fun h => (of_decide_eq_true h).2
  · simpa using hids.filter _
  · intro v hv
    simp only [List.nil_append] at hv
    exact List.mem_of_mem_filter hv
  · intro v
    simp [inDegree]
  · intro v hv
    simp [hv]
  · intro l₁ v l₂ heq
    simp at heq

/-- The result lists every vertex once. -/
theorem kahn_perm (hids : ids.Nodup) : (kahn ids edges).Perm ids := by
  obtain ⟨indeg', hr⟩ := kahn_running hids edges
  refine (List.perm_ext_iff_of_nodup ?_ hids).mpr fun v => ?_
  · refine List.nodup_append.mpr ⟨by simpa using hr.nodup, hids.filter _, ?_⟩
    rintro a ha b hb rfl
    have := (List.mem_filter.mp hb).2
    exact (of_decide_eq_true this) ha
  · simp only [kahn, List.mem_append, List.mem_filter, decide_eq_true_eq]
    constructor
    · rintro (h | h)
      · exact hr.subset v (by simpa using h)
      · exact h.1
    · intro h
      by_cases hv : v ∈ kahnLoop (successors (known ids edges)) ids.length
          (ids.filter fun v => inDegree (known ids edges) v = 0) (inDegree (known ids edges)) []
      · exact Or.inl hv
      · exact Or.inr ⟨h, hv⟩

/-- On an acyclic graph the loop reaches every vertex. -/
theorem Running.complete {done : List α} {indeg : α → ℤ}
    (h : Running ids (known ids edges) done [] indeg) (hacyc : Acyclic edges) :
    ∀ v ∈ ids, v ∈ done := by
  by_contra hex
  push Not at hex
  obtain ⟨v₀, hv₀, hnot₀⟩ := hex
  -- a vertex left over has a predecessor left over, and there is a least one
  let r : α → α → Prop := Relation.TransGen fun a b => (a, b) ∈ edges
  have : IsStrictOrder α r :=
    { irrefl := hacyc
      trans := fun _ _ _ => Relation.TransGen.trans }
  let left : Set α := {v | v ∈ ids ∧ v ∉ done}
  have hfin : left.Finite := (List.finite_toSet ids).subset fun v hv => hv.1
  have hwf : left.WellFoundedOn r := hfin.wellFoundedOn
  obtain ⟨m, ⟨hm, hmd⟩, hmin⟩ :=
    (Set.wellFoundedOn_iff.mp hwf).has_min left ⟨v₀, hv₀, hnot₀⟩
  have hpos : indeg m ≠ 0 := fun h0 => hmd (by simpa using (h.ready m hm).mpr h0)
  rw [h.indeg_eq m, Ne, Int.natCast_eq_zero, List.count_eq_zero, not_not] at hpos
  obtain ⟨⟨u, w⟩, hew, rfl⟩ := List.mem_map.mp hpos
  obtain ⟨hek, hud⟩ := List.mem_filter.mp hew
  obtain ⟨he, hkn⟩ := List.mem_filter.mp hek
  have hu : u ∈ left := ⟨(of_decide_eq_true hkn).1, of_decide_eq_true hud⟩
  exact hmin u hu ⟨Relation.TransGen.single he, hu, hm, hmd⟩

theorem kahn_topological (hids : ids.Nodup) (hedges : ∀ e ∈ edges, e.1 ∈ ids ∧ e.2 ∈ ids)
    (hacyc : Acyclic edges) : TopologicalOrder edges (kahn ids edges) := by
  obtain ⟨indeg', hr⟩ := kahn_running hids edges
  have hknown : known ids edges = edges :=
    List.filter_eq_self.mpr fun e he => decide_eq_true (hedges e he)
  have hall := hr.complete hacyc
  have hrest : (ids.filter fun v => v ∉ kahnLoop (successors (known ids edges)) ids.length
      (ids.filter fun v => inDegree (known ids edges) v = 0) (inDegree (known ids edges)) []) = [] :=
    List.filter_eq_nil_iff.mpr fun v hv => by simpa using hall v hv
  intro l₁ v l₂ heq u he
  refine hr.ordered l₁ v l₂ ?_ u (hknown.symm ▸ he)
  rw [← heq, kahn]
  simp only [hrest, List.append_nil]

/-! ### Cycles -/

/-- The vertex is on a cycle, or reachable from one. -/
def Tangled (edges : List (α × α)) (v : α) : Prop :=
  ∃ u, Relation.TransGen (fun a b => (a, b) ∈ edges) u u ∧
    Relation.ReflTransGen (fun a b => (a, b) ∈ edges) u v

section Cycles

variable {done : List α} {indeg : α → ℤ} {u v : α}

omit [DecidableEq α] in
theorem Tangled.of_edge (hu : Tangled edges u) (he : (u, v) ∈ edges) : Tangled edges v := by
  obtain ⟨w, hcycle, hreach⟩ := hu
  exact ⟨w, hcycle, hreach.tail he⟩

/-- What the loop has taken comes after its predecessors. -/
theorem Running.before (h : Running ids edges done [] indeg) (hv : v ∈ done)
    (he : (u, v) ∈ edges) : u ∈ done ∧ done.idxOf u < done.idxOf v := by
  obtain ⟨l₁, l₂, rfl, hfresh⟩ := List.eq_append_cons_of_mem hv
  have hu : u ∈ l₁ := h.ordered l₁ v l₂ rfl u he
  refine ⟨List.mem_append_left _ hu, ?_⟩
  rw [List.idxOf_append_of_mem hu, List.idxOf_append_of_notMem hfresh, List.idxOf_cons_self,
    Nat.add_zero]
  exact List.idxOf_lt_length_of_mem hu

theorem Running.path_before (h : Running ids edges done [] indeg) (hv : v ∈ done)
    (hpath : Relation.TransGen (fun a b => (a, b) ∈ edges) u v) :
    u ∈ done ∧ done.idxOf u < done.idxOf v := by
  induction hpath with
  | single he => exact h.before hv he
  | tail _ he ih =>
    obtain ⟨hw, hlt⟩ := h.before hv he
    obtain ⟨hu, hlt'⟩ := ih hw
    exact ⟨hu, hlt'.trans hlt⟩

/-- The loop takes exactly the vertices that no cycle leads to. -/
theorem Running.mem_done_iff (h : Running ids edges done [] indeg)
    (hknown : ∀ e ∈ edges, e.1 ∈ ids) (hv : v ∈ ids) : v ∈ done ↔ ¬ Tangled edges v := by
  constructor
  · rintro hdone ⟨w, hcycle, hreach⟩
    have hw : w ∈ done := by
      rcases Relation.reflTransGen_iff_eq_or_transGen.mp hreach with rfl | hpath
      · exact hdone
      · exact (h.path_before hdone hpath).1
    exact absurd (h.path_before hw hcycle).2 (lt_irrefl _)
  · intro hfree
    by_contra hnot
    -- of the vertices left over that no cycle leads to, take a least one
    let r : α → α → Prop := fun a b =>
      Relation.TransGen (fun a b => (a, b) ∈ edges) a b ∧ ¬ Tangled edges b
    have : IsStrictOrder α r :=
      { irrefl := fun a ⟨hcycle, hfree⟩ => hfree ⟨a, hcycle, .refl⟩
        trans := fun _ _ _ hab hbc => ⟨hab.1.trans hbc.1, hbc.2⟩ }
    let left : Set α := {w | w ∈ ids ∧ w ∉ done ∧ ¬ Tangled edges w}
    have hfin : left.Finite := (List.finite_toSet ids).subset fun w hw => hw.1
    have hwf : left.WellFoundedOn r := hfin.wellFoundedOn
    obtain ⟨m, ⟨hm, hmd, hmfree⟩, hmin⟩ :=
      (Set.wellFoundedOn_iff.mp hwf).has_min left ⟨v, hv, hnot, hfree⟩
    have hpos : indeg m ≠ 0 := by
      intro hzero
      have hmem := (h.ready m hm).mpr hzero
      rw [List.append_nil] at hmem
      exact hmd hmem
    rw [h.indeg_eq m, Ne, Int.natCast_eq_zero, List.count_eq_zero, not_not] at hpos
    obtain ⟨⟨w, x⟩, hew, rfl⟩ := List.mem_map.mp hpos
    obtain ⟨he, hwd⟩ := List.mem_filter.mp hew
    have hw : w ∈ left :=
      ⟨hknown _ he, of_decide_eq_true hwd, fun hw => hmfree (hw.of_edge he)⟩
    exact hmin w hw ⟨⟨.single he, hmfree⟩, hw, hm, hmd, hmfree⟩

end Cycles

theorem known_mem {e : α × α} (he : e ∈ known ids edges) : e.1 ∈ ids ∧ e.2 ∈ ids :=
  of_decide_eq_true (List.mem_filter.mp he).2

/-- First the vertices that no cycle leads to, each after its predecessors; then the
others as they were given. -/
theorem kahn_split (hids : ids.Nodup) : ∃ first, kahn ids edges = first ++ ids.filter (· ∉ first) ∧
    (∀ v, v ∈ first ↔ v ∈ ids ∧ ¬ Tangled (known ids edges) v) ∧
    TopologicalOrder (known ids edges) first := by
  obtain ⟨indeg', hr⟩ := kahn_running hids edges
  refine ⟨_, rfl, fun v => ?_, hr.ordered⟩
  constructor
  · intro hv
    have hmem : v ∈ ids := hr.subset v (List.mem_append_left _ hv)
    exact ⟨hmem, (hr.mem_done_iff (fun e he => (known_mem he).1) hmem).mp hv⟩
  · rintro ⟨hv, hfree⟩
    exact (hr.mem_done_iff (fun e he => (known_mem he).1) hv).mpr hfree

/-- Where the known edges form no cycle, all of the result respects them. -/
theorem kahn_ordered (hids : ids.Nodup) (hacyc : Acyclic (known ids edges)) :
    TopologicalOrder (known ids edges) (kahn ids edges) := by
  obtain ⟨first, heq, hfirst, hordered⟩ := @kahn_split _ _ ids edges hids
  have hrest : ids.filter (· ∉ first) = [] := by
    refine List.filter_eq_nil_iff.mpr fun v hv => ?_
    rw [decide_eq_true_eq, not_not]
    refine (hfirst v).mpr ⟨hv, ?_⟩
    rintro ⟨u, hcycle, -⟩
    exact hacyc u hcycle
  rw [heq, hrest, List.append_nil]
  exact hordered

/-! ### The loop comes to an end -/

/-- One turn of the loop, on the queue, the in-degrees and the result so far. -/
def Turn (succ : α → List α) (a b : List α × (α → ℤ) × List α) : Prop :=
  ∃ node queue, a.1 = node :: queue ∧
    b = ((relax (succ node) queue a.2.1).1, (relax (succ node) queue a.2.1).2, a.2.2 ++ [node])

theorem turns_kahnLoop {succ : α → List α} (hsucc : ∀ u, ∀ v ∈ succ u, v ∈ ids) {fuel : ℕ}
    {queue done : List α} {indeg : α → ℤ}
    (hfuel : queue.length + (waiting ids indeg).length ≤ fuel) : ∃ indeg',
    Relation.ReflTransGen (Turn succ) (queue, indeg, done)
      ([], indeg', kahnLoop succ fuel queue indeg done) := by
  induction fuel generalizing queue indeg done with
  | zero =>
    have hqueue : queue = [] := List.length_eq_zero_iff.mp (by omega)
    subst hqueue
    exact ⟨indeg, .refl⟩
  | succ fuel ih =>
    cases queue with
    | nil => exact ⟨indeg, .refl⟩
    | cons node queue =>
      have hleft : (relax (succ node) queue indeg).1.length +
          (waiting ids (relax (succ node) queue indeg).2).length ≤ fuel := by
        rw [length_relax ids _ _ _ (hsucc node)]
        rw [List.length_cons] at hfuel
        omega
      obtain ⟨indeg', hturns⟩ := @ih _ (done ++ [node]) _ hleft
      exact ⟨indeg', .head ⟨node, queue, rfl, rfl⟩ hturns⟩

/-- With what is queued and what waits there are no more turns than ids, however often an
id occurs. -/
theorem ready_add_waiting_le (indeg : α → ℤ) :
    (ids.filter fun v => indeg v = 0).length + (waiting ids indeg).length ≤ ids.length := by
  have hwaiting : (waiting ids indeg).length ≤ (ids.filter fun v => 0 < indeg v).length :=
    ((List.dedup_sublist ids).filter _).length_le
  have hpositive : (ids.filter fun v => 0 < indeg v).length ≤
      (ids.filter fun v => !decide (indeg v = 0)).length := by
    refine (List.monotone_filter_right ids fun v hv => ?_).length_le
    have hpos : 0 < indeg v := of_decide_eq_true hv
    simp [hpos.ne']
  have hsplit := List.length_eq_length_filter_add (l := ids) fun v => decide (indeg v = 0)
  omega

/-- From the tables that it starts with, the loop empties its queue. -/
theorem kahn_turns : ∃ indeg',
    Relation.ReflTransGen (Turn (successors (known ids edges)))
      (ids.filter fun v => inDegree (known ids edges) v = 0, inDegree (known ids edges), [])
      ([], indeg', kahnLoop (successors (known ids edges)) ids.length
        (ids.filter fun v => inDegree (known ids edges) v = 0) (inDegree (known ids edges)) []) := by
  refine turns_kahnLoop (fun u v hv => ?_) (@ready_add_waiting_le _ _ ids _)
  obtain ⟨e, he, rfl⟩ := List.mem_map.mp hv
  exact (known_mem (List.mem_of_mem_filter he)).2

end Graph
