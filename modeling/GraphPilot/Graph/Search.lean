/-
Searches of a graph with mutable marks.

`hasCycle` is a depth-first search that colours a vertex gray while its successors are
being visited and black when they are done; it answers as soon as it meets a gray
vertex.  `reached` is a breadth-first search, with the vertices it has visited in the
order it found them.

* `hasCycle_eq_false` — where the search finds nothing, the graph is acyclic, and the
  order in which the vertices turn black puts each after its successors;
* `hasCycle_searches`, `reached_walks` — the two searches run to their ends;
* `hasCycle_iff` — the first finds a cycle if and only if there is one;
* `Walks.mem_iff` — the second visits what a path from the start leads to.
-/
import GraphPilot.Graph.Kahn

namespace Graph

variable {α : Type} [DecidableEq α]

/-! ### Depth first -/

inductive Color where
  | white
  | gray
  | black
deriving DecidableEq

/-- Visit the vertices that are white, until a gray one turns up. -/
def scan (visit : α → (α → Option Color) → Bool × (α → Option Color)) :
    List α → (α → Option Color) → Bool × (α → Option Color)
  | [], color => (false, color)
  | v :: vs, color =>
    if color v = some .gray then (true, color)
    else if color v = some .white then
      match visit v color with
      | (true, color') => (true, color')
      | (false, color') => scan visit vs color'
    else scan visit vs color

/-- The visit of a vertex: whether a cycle has been found, and the colours then. -/
def dfs (succ : α → List α) : ℕ → α → (α → Option Color) → Bool × (α → Option Color)
  | 0, _, color => (true, color)
  | fuel + 1, v, color =>
    match scan (dfs succ fuel) (succ v) (Function.update color v (some .gray)) with
    | (true, color') => (true, color')
    | (false, color') => (false, Function.update color' v (some .black))

/-- Visit the vertices that are still white, until a cycle has been found. -/
def searchFrom (visit : α → (α → Option Color) → Bool × (α → Option Color)) :
    List α → (α → Option Color) → Bool
  | [], _ => false
  | v :: vs, color =>
    if color v = some .white then
      match visit v color with
      | (true, _) => true
      | (false, color') => searchFrom visit vs color'
    else searchFrom visit vs color

/-- All vertices are white. -/
def unvisited (ids : List α) (v : α) : Option Color := if v ∈ ids then some .white else none

/-- Whether the search finds a cycle. -/
def hasCycle (ids : List α) (succ : α → List α) : Bool :=
  searchFrom (dfs succ ids.length) ids (unvisited ids)

/-! ### What a visit leaves -/

/-- The vertices `done` are black, each after its successors, and all others of the
vertices `ids` are white or gray. -/
structure Explored (ids : List α) (succ : α → List α) (done : List α) (color : α → Option Color) :
    Prop where
  colored : ∀ v, color v = none ↔ v ∉ ids
  black : ∀ v, color v = some .black ↔ v ∈ done
  ordered : ∀ l₁ v l₂, done = l₁ ++ v :: l₂ → ∀ w ∈ succ v, w ∈ ids → w ∈ l₁

variable {ids : List α} {succ : α → List α} {done : List α} {color color' : α → Option Color}

/-- What a visit that finds no cycle does: more vertices are black, and the gray ones are
those that were. -/
structure Leaves (ids : List α) (succ : α → List α) (done more : List α)
    (color color' : α → Option Color) : Prop where
  explored : Explored ids succ (done ++ more) color'
  gray : ∀ v, color' v = some .gray ↔ color v = some .gray

omit [DecidableEq α] in
/-- One of the vertices that is neither gray nor white. -/
theorem Explored.mem_done {v : α} (h : Explored ids succ done color) (hids : v ∈ ids)
    (hgray : color v ≠ some .gray) (hwhite : color v ≠ some .white) : v ∈ done := by
  rw [← h.black v]
  cases hc : color v with
  | none => exact absurd hids ((h.colored v).mp hc)
  | some c =>
    cases c with
    | white => exact absurd hc hwhite
    | gray => exact absurd hc hgray
    | black => rfl

omit [DecidableEq α] in
theorem Leaves.refl (h : Explored ids succ done color) : Leaves ids succ done [] color color :=
  ⟨by rw [List.append_nil]; exact h, fun _ => .rfl⟩

omit [DecidableEq α] in
theorem Leaves.trans {more more' : List α} {color'' : α → Option Color}
    (h : Leaves ids succ done more color color')
    (h' : Leaves ids succ (done ++ more) more' color' color'') :
    Leaves ids succ done (more ++ more') color color'' :=
  ⟨by rw [← List.append_assoc]; exact h'.explored, fun v => (h'.gray v).trans (h.gray v)⟩

/-- A visit that finds no cycle blackens its vertex. -/
def Visits (ids : List α) (succ : α → List α)
    (visit : α → (α → Option Color) → Bool × (α → Option Color)) : Prop :=
  ∀ done v color color', Explored ids succ done color → color v = some .white →
    visit v color = (false, color') →
    ∃ more, Leaves ids succ done more color color' ∧ v ∈ done ++ more

omit [DecidableEq α] in
/-- A scan that finds no cycle leaves its vertices black. -/
theorem scan_leaves {visit : α → (α → Option Color) → Bool × (α → Option Color)}
    (hvisit : Visits ids succ visit) {vs : List α} (h : Explored ids succ done color)
    (hscan : scan visit vs color = (false, color')) :
    ∃ more, Leaves ids succ done more color color' ∧ ∀ v ∈ vs, v ∈ ids → v ∈ done ++ more := by
  induction vs generalizing done color with
  | nil =>
    cases hscan
    exact ⟨[], .refl h, fun v hv => by cases hv⟩
  | cons v vs ih =>
    simp only [scan] at hscan
    split at hscan
    · cases hscan
    rename_i hgray
    split at hscan
    · rename_i hwhite
      split at hscan
      · cases hscan
      rename_i color₁ hv
      obtain ⟨more, hleaves, hmem⟩ := hvisit done v color color₁ h hwhite hv
      obtain ⟨more', hleaves', hrest⟩ := ih hleaves.explored hscan
      refine ⟨more ++ more', hleaves.trans hleaves', fun w hw hids => ?_⟩
      rw [← List.append_assoc]
      rcases List.mem_cons.mp hw with rfl | hw
      · exact List.mem_append_left _ hmem
      · exact hrest w hw hids
    · rename_i hwhite
      obtain ⟨more, hleaves, hrest⟩ := ih h hscan
      refine ⟨more, hleaves, fun w hw hids => ?_⟩
      rcases List.mem_cons.mp hw with rfl | hw
      · exact List.mem_append_left _ (h.mem_done hids hgray hwhite)
      · exact hrest w hw hids

/-- A visit that finds no cycle puts its vertex behind its successors. -/
theorem dfs_visits (fuel : ℕ) : Visits ids succ (dfs succ fuel) := by
  induction fuel with
  | zero =>
    intro done v color color' _ _ hdfs
    cases hdfs
  | succ fuel ih =>
    intro done v color color' h hwhite hdfs
    simp only [dfs] at hdfs
    split at hdfs
    · cases hdfs
    rename_i color₁ hscan
    cases hdfs
    have hids : v ∈ ids := by
      by_contra hnot
      rw [(h.colored v).mpr hnot] at hwhite
      cases hwhite
    have hgray : Explored ids succ done (Function.update color v (some .gray)) := by
      refine ⟨fun w => ?_, fun w => ?_, h.ordered⟩
      · by_cases hw : w = v
        · subst hw
          simp [hids]
        · rw [Function.update_of_ne hw]
          exact h.colored w
      · by_cases hw : w = v
        · subst hw
          rw [Function.update_self, ← h.black w, hwhite]
          simp
        · rw [Function.update_of_ne hw]
          exact h.black w
    obtain ⟨more, hleaves, hsucc⟩ := scan_leaves ih hgray hscan
    have hv : color₁ v = some .gray := (hleaves.gray v).mpr (Function.update_self ..)
    have hnot : v ∉ done ++ more := by
      rw [← hleaves.explored.black v, hv]
      simp
    refine ⟨more ++ [v], ⟨⟨fun w => ?_, fun w => ?_, fun l₁ w l₂ heq => ?_⟩, fun w => ?_⟩, ?_⟩
    · by_cases hw : w = v
      · subst hw
        simp [hids]
      · rw [Function.update_of_ne hw]
        exact hleaves.explored.colored w
    · by_cases hw : w = v
      · subst hw
        simp
      · rw [Function.update_of_ne hw, hleaves.explored.black w, ← List.append_assoc,
          List.mem_append (s := done ++ more), List.mem_singleton]
        simp [hw]
    · rw [← List.append_assoc] at heq
      rcases List.eq_nil_or_concat l₂ with rfl | ⟨l, b, rfl⟩
      · -- the vertex itself
        obtain ⟨rfl, hlast⟩ := List.append_inj' heq rfl
        obtain rfl : v = w := by simpa using hlast
        exact hsucc
      · have hinit : done ++ more = l₁ ++ w :: l := by
          rw [List.concat_eq_append, ← List.cons_append, ← List.append_assoc] at heq
          exact (List.append_inj' heq rfl).1
        exact hleaves.explored.ordered l₁ w l hinit
    · by_cases hw : w = v
      · subst hw
        rw [Function.update_self, hwhite]
        simp
      · rw [Function.update_of_ne hw, hleaves.gray w, Function.update_of_ne hw]
    · simp

omit [DecidableEq α] in
/-- A search that finds no cycle leaves all vertices black. -/
theorem searchFrom_leaves {visit : α → (α → Option Color) → Bool × (α → Option Color)}
    (hvisit : Visits ids succ visit) {vs : List α} (h : Explored ids succ done color)
    (hgray : ∀ v, color v ≠ some .gray) (hsearch : searchFrom visit vs color = false) :
    ∃ more color', Leaves ids succ done more color color' ∧
      ∀ v ∈ vs, v ∈ ids → v ∈ done ++ more := by
  induction vs generalizing done color with
  | nil => exact ⟨[], color, .refl h, fun v hv => by cases hv⟩
  | cons v vs ih =>
    simp only [searchFrom] at hsearch
    split at hsearch
    · rename_i hwhite
      split at hsearch
      · cases hsearch
      rename_i color₁ hv
      obtain ⟨more, hleaves, hmem⟩ := hvisit done v color color₁ h hwhite hv
      have hgray₁ : ∀ w, color₁ w ≠ some .gray := fun w hw => hgray w ((hleaves.gray w).mp hw)
      obtain ⟨more', color', hleaves', hrest⟩ := ih hleaves.explored hgray₁ hsearch
      refine ⟨more ++ more', color', hleaves.trans hleaves', fun w hw hids => ?_⟩
      rw [← List.append_assoc]
      rcases List.mem_cons.mp hw with rfl | hw
      · exact List.mem_append_left _ hmem
      · exact hrest w hw hids
    · rename_i hwhite
      obtain ⟨more, color', hleaves, hrest⟩ := ih h hgray hsearch
      refine ⟨more, color', hleaves, fun w hw hids => ?_⟩
      rcases List.mem_cons.mp hw with rfl | hw
      · exact List.mem_append_left _ (h.mem_done hids (hgray w) hwhite)
      · exact hrest w hw hids

theorem mem_of_unvisited {w : α} (h : unvisited ids w = some .white) : w ∈ ids := by
  by_contra hnot
  rw [unvisited, if_neg hnot] at h
  cases h

theorem explored_unvisited : Explored ids succ [] (unvisited ids) := by
  refine ⟨fun v => ?_, fun v => ?_, fun l₁ v l₂ heq => by simp at heq⟩
  · unfold unvisited
    split
    · rename_i hv
      simp [hv]
    · rename_i hv
      simp [hv]
  · unfold unvisited
    split <;> simp

/-- Where the search finds no cycle, the vertices have an order in which each comes after
its successors. -/
theorem hasCycle_eq_false (h : hasCycle ids succ = false) : ∃ done, (∀ v ∈ ids, v ∈ done) ∧
    ∀ l₁ v l₂, done = l₁ ++ v :: l₂ → ∀ w ∈ succ v, w ∈ ids → w ∈ l₁ := by
  have hgray : ∀ v, unvisited ids v ≠ some .gray := by
    intro v
    unfold unvisited
    split <;> simp
  obtain ⟨more, color', hleaves, hall⟩ :=
    searchFrom_leaves (dfs_visits ids.length) explored_unvisited hgray h
  exact ⟨more, fun v hv => hall v hv hv, hleaves.explored.ordered⟩

/-- A vertex of the graph and one of its successors in the graph. -/
def Arrow (ids : List α) (succ : α → List α) (u v : α) : Prop :=
  u ∈ ids ∧ v ∈ ids ∧ v ∈ succ u

/-- In such an order no vertex reaches itself. -/
theorem not_cycle_of_order (hall : ∀ v ∈ ids, v ∈ done)
    (hordered : ∀ l₁ v l₂, done = l₁ ++ v :: l₂ → ∀ w ∈ succ v, w ∈ ids → w ∈ l₁) {v : α} :
    ¬ Relation.TransGen (Arrow ids succ) v v := by
  -- an edge leads to a vertex that occurs before its source for the first time
  have hedge : ∀ a b, Arrow ids succ a b → done.idxOf b < done.idxOf a := by
    intro a b hab
    obtain ⟨ha, hb, hsucc⟩ := hab
    obtain ⟨l₁, l₂, hsplit, hfirst⟩ := List.eq_append_cons_of_mem (hall a ha)
    have hmem : b ∈ l₁ := hordered l₁ a l₂ hsplit b hsucc hb
    have hidx : done.idxOf a = l₁.length := by
      rw [hsplit, List.idxOf_append_of_notMem hfirst, List.idxOf_cons_self, Nat.add_zero]
    rw [hidx, hsplit, List.idxOf_append_of_mem hmem]
    exact List.idxOf_lt_length_of_mem hmem
  intro hcycle
  have hless : ∀ w, Relation.TransGen (Arrow ids succ) v w → done.idxOf w < done.idxOf v := by
    intro w hpath
    induction hpath with
    | single he => exact hedge _ _ he
    | tail _ he ih => exact (hedge _ _ he).trans ih
  exact lt_irrefl _ (hless v hcycle)

/-- Then the graph is acyclic. -/
theorem acyclic_of_hasCycle {edges : List (α × α)} (hedges : ∀ e ∈ edges, e.1 ∈ ids ∧ e.2 ∈ ids)
    (hsucc : ∀ e ∈ edges, e.2 ∈ succ e.1) (h : hasCycle ids succ = false) : Acyclic edges := by
  obtain ⟨done, hall, hordered⟩ := hasCycle_eq_false h
  intro v hcycle
  refine not_cycle_of_order hall hordered (hcycle.lift id fun a b hab => ?_)
  exact ⟨(hedges (a, b) hab).1, (hedges (a, b) hab).2, hsucc (a, b) hab⟩

/-! ### Fuel -/

/-- The vertices that are still white. -/
def whites (ids : List α) (color : α → Option Color) : List α :=
  ids.dedup.filter fun v => color v = some .white

omit [DecidableEq α] in
theorem scan_white {visit : α → (α → Option Color) → Bool × (α → Option Color)}
    (hvisit : ∀ v color w, (visit v color).2 w = some .white → color w = some .white)
    {vs : List α} {w : α} (h : (scan visit vs color).2 w = some .white) :
    color w = some .white := by
  induction vs generalizing color with
  | nil => exact h
  | cons v vs ih =>
    simp only [scan] at h
    split at h
    · exact h
    · split at h
      · have hv := hvisit v color w
        split at h
        · rename_i color₁ heq
          rw [heq] at hv
          exact hv h
        · rename_i color₁ heq
          rw [heq] at hv
          exact hv (ih h)
      · exact ih h

/-- A visit whitens nothing. -/
theorem dfs_white (fuel : ℕ) (v : α) (color : α → Option Color) (w : α)
    (h : (dfs succ fuel v color).2 w = some .white) : color w = some .white := by
  induction fuel generalizing v color w with
  | zero => exact h
  | succ fuel ih =>
    have hupdate : ∀ {c : α → Option Color} {x : Color}, x ≠ .white →
        Function.update c v (some x) w = some .white → c w = some .white := by
      intro c x hx hw
      by_cases hv : w = v
      · subst hv
        rw [Function.update_self, Option.some.injEq] at hw
        exact absurd hw hx
      · rwa [Function.update_of_ne hv] at hw
    have hscan : (scan (dfs succ fuel) (succ v) (Function.update color v (some .gray))).2 w =
        some .white → color w = some .white :=
      fun hw => hupdate (by decide) (scan_white ih hw)
    simp only [dfs] at h
    split at h
    · rename_i color₁ heq
      rw [heq] at hscan
      exact hscan h
    · rename_i color₁ heq
      rw [heq] at hscan
      exact hscan (hupdate (by decide) h)

theorem length_whites_le {color' : α → Option Color}
    (h : ∀ w, color' w = some .white → color w = some .white) :
    (whites ids color').length ≤ (whites ids color).length := by
  refine (List.monotone_filter_right _ fun w hw => ?_).length_le
  exact decide_eq_true (h w (of_decide_eq_true hw))

/-- One vertex of the white ones turns gray. -/
theorem length_whites_update {v : α} (hv : v ∈ ids) (hwhite : color v = some .white) :
    (whites ids (Function.update color v (some .gray))).length < (whites ids color).length := by
  unfold whites
  have hsub : ids.dedup.filter (fun w => Function.update color v (some .gray) w = some .white) =
      (ids.dedup.filter fun w => color w = some .white).filter (· ≠ v) := by
    rw [List.filter_filter]
    refine List.filter_congr fun w _ => ?_
    by_cases hw : w = v
    · subst hw
      simp
    · simp [hw]
  rw [hsub]
  refine List.length_filter_lt_length_iff_exists.mpr ⟨v, ?_, by simp⟩
  exact List.mem_filter.mpr ⟨List.mem_dedup.mpr hv, decide_eq_true hwhite⟩

/-! ### Runs of the depth-first search -/

/-- The run of a loop over the successors, with the runs of the visits it makes: the loop
ends with these colours, and has found a cycle or not. -/
inductive Scans (succ : α → List α) :
    List α → (α → Option Color) → Bool → (α → Option Color) → Prop
  | nil {color : α → Option Color} : Scans succ [] color false color
  | gray {v : α} {vs : List α} {color : α → Option Color} (hgray : color v = some .gray) :
      Scans succ (v :: vs) color true color
  | found {v : α} {vs : List α} {color color' : α → Option Color}
      (hwhite : color v = some .white)
      (hvisit : Scans succ (succ v) (Function.update color v (some .gray)) true color') :
      Scans succ (v :: vs) color true color'
  | visited {v : α} {vs : List α} {color color' color'' : α → Option Color} {b : Bool}
      (hwhite : color v = some .white)
      (hvisit : Scans succ (succ v) (Function.update color v (some .gray)) false color')
      (hrest : Scans succ vs (Function.update color' v (some .black)) b color'') :
      Scans succ (v :: vs) color b color''
  | skip {v : α} {vs : List α} {color color' : α → Option Color} {b : Bool}
      (hgray : color v ≠ some .gray) (hwhite : color v ≠ some .white)
      (hrest : Scans succ vs color b color') : Scans succ (v :: vs) color b color'

/-- The run of the loop over all vertices. -/
inductive Searches (succ : α → List α) : List α → (α → Option Color) → Bool → Prop
  | nil {color : α → Option Color} : Searches succ [] color false
  | found {v : α} {vs : List α} {color color' : α → Option Color}
      (hwhite : color v = some .white)
      (hvisit : Scans succ (succ v) (Function.update color v (some .gray)) true color') :
      Searches succ (v :: vs) color true
  | visited {v : α} {vs : List α} {color color' : α → Option Color} {b : Bool}
      (hwhite : color v = some .white)
      (hvisit : Scans succ (succ v) (Function.update color v (some .gray)) false color')
      (hrest : Searches succ vs (Function.update color' v (some .black)) b) :
      Searches succ (v :: vs) color b
  | skip {v : α} {vs : List α} {color : α → Option Color} {b : Bool}
      (hwhite : color v ≠ some .white) (hrest : Searches succ vs color b) :
      Searches succ (v :: vs) color b

/-- Where few vertices are white, a visit follows a run to its end. -/
def Follows (ids : List α) (succ : α → List α) (n : ℕ)
    (visit : α → (α → Option Color) → Bool × (α → Option Color)) : Prop :=
  ∀ v color, (∀ w, color w = some .white → w ∈ ids) → color v = some .white →
    (whites ids color).length ≤ n →
    ∃ b color', Scans succ (succ v) (Function.update color v (some .gray)) b color' ∧
      visit v color = (b, if b then color' else Function.update color' v (some .black))

theorem scan_scans {visit : α → (α → Option Color) → Bool × (α → Option Color)} {n : ℕ}
    (hwhites : ∀ v color w, (visit v color).2 w = some .white → color w = some .white)
    (hvisit : Follows ids succ n visit) (vs : List α)
    (hids : ∀ w, color w = some .white → w ∈ ids) (hn : (whites ids color).length ≤ n) :
    Scans succ vs color (scan visit vs color).1 (scan visit vs color).2 := by
  induction vs generalizing color with
  | nil => exact .nil
  | cons v vs ih =>
    simp only [scan]
    split
    · rename_i hgray
      exact .gray hgray
    rename_i hgray
    split
    · rename_i hwhite
      obtain ⟨b, color', hrun, heq⟩ := hvisit v color hids hwhite hn
      have hmono := hwhites v color
      rw [heq] at hmono ⊢
      cases b with
      | true => exact .found hwhite hrun
      | false =>
        exact .visited hwhite hrun
          (ih (fun w hw => hids w (hmono w hw)) ((length_whites_le hmono).trans hn))
    · rename_i hwhite
      exact .skip hgray hwhite (ih hids hn)

/-- Fuel for the white vertices is enough for a run to its end. -/
theorem dfs_follows (fuel : ℕ) : Follows ids succ fuel (dfs succ fuel) := by
  induction fuel with
  | zero =>
    intro v color hids hwhite hn
    have hlt := length_whites_update (hids v hwhite) hwhite
    omega
  | succ fuel ih =>
    intro v color hids hwhite hn
    have hlt := length_whites_update (hids v hwhite) hwhite
    have hgray : ∀ w, Function.update color v (some .gray) w = some .white → w ∈ ids := by
      intro w hw
      by_cases hwv : w = v
      · exact hwv ▸ hids v hwhite
      · rw [Function.update_of_ne hwv] at hw
        exact hids w hw
    have hrun := scan_scans (dfs_white fuel) ih (succ v) hgray (by omega)
    refine ⟨_, _, hrun, ?_⟩
    simp only [dfs]
    rcases scan (dfs succ fuel) (succ v) (Function.update color v (some .gray)) with ⟨b, color'⟩
    cases b <;> rfl

theorem searchFrom_searches {visit : α → (α → Option Color) → Bool × (α → Option Color)} {n : ℕ}
    (hwhites : ∀ v color w, (visit v color).2 w = some .white → color w = some .white)
    (hvisit : Follows ids succ n visit) {vs : List α}
    (hids : ∀ w, color w = some .white → w ∈ ids) (hn : (whites ids color).length ≤ n) :
    Searches succ vs color (searchFrom visit vs color) := by
  induction vs generalizing color with
  | nil => exact .nil
  | cons v vs ih =>
    simp only [searchFrom]
    split
    · rename_i hwhite
      obtain ⟨b, color', hrun, heq⟩ := hvisit v color hids hwhite hn
      have hmono := hwhites v color
      rw [heq] at hmono ⊢
      cases b with
      | true => exact .found hwhite hrun
      | false =>
        exact .visited hwhite hrun
          (ih (fun w hw => hids w (hmono w hw)) ((length_whites_le hmono).trans hn))
    · rename_i hwhite
      exact .skip hwhite (ih hids hn)

/-- The search runs to its end, with the answer of `hasCycle`. -/
theorem hasCycle_searches : Searches succ ids (unvisited ids) (hasCycle ids succ) :=
  searchFrom_searches (dfs_white _) (dfs_follows _) (fun _ => mem_of_unvisited)
    ((List.length_filter_le _ _).trans (List.dedup_sublist ids).length_le)

/-! ### What a cycle that has been found is -/

/-- The vertices with a colour are those of the graph, and the gray ones have a property. -/
structure Grays (ids : List α) (P : α → Prop) (color : α → Option Color) : Prop where
  colored : ∀ v, color v ≠ none → v ∈ ids
  gray : ∀ v, color v = some .gray → P v

/-- A vertex that is being visited is one of the gray ones. -/
theorem Grays.visit {P Q : α → Prop} {v : α} (h : Grays ids P color) (hids : v ∈ ids) (hv : Q v)
    (hPQ : ∀ w, P w → Q w) : Grays ids Q (Function.update color v (some .gray)) := by
  refine ⟨fun w hw => ?_, fun w hw => ?_⟩
  · by_cases hwv : w = v
    · rwa [hwv]
    · rw [Function.update_of_ne hwv] at hw
      exact h.colored w hw
  · by_cases hwv : w = v
    · rwa [hwv]
    · rw [Function.update_of_ne hwv] at hw
      exact hPQ w (h.gray w hw)

/-- A run that finds nothing leaves the same vertices gray. -/
theorem Scans.gray_of_false {vs : List α} {b : Bool} (h : Scans succ vs color b color')
    (hb : b = false) : ∀ w, (color' w = some .gray → color w = some .gray) ∧
      (color' w ≠ none → color w ≠ none) := by
  induction h with
  | nil => exact fun w => ⟨id, id⟩
  | gray => cases hb
  | found => cases hb
  | skip _ _ _ ih => exact ih hb
  | @visited v vs color color' color'' b hwhite _ _ ihvisit ihrest =>
    intro w
    have hvisit := ihvisit rfl w
    have hrest := ihrest hb w
    by_cases hw : w = v
    · -- the vertex itself ends up black
      subst hw
      rw [Function.update_self] at hrest
      exact ⟨fun h => absurd (hrest.1 h) (by decide), fun _ => by simp [hwhite]⟩
    · rw [Function.update_of_ne hw] at hvisit hrest
      exact ⟨fun h => hvisit.1 (hrest.1 h), fun h => hvisit.2 (hrest.2 h)⟩

/-- After such a visit the gray vertices are those that were gray before it. -/
theorem Grays.after {P : α → Prop} {v : α} (h : Grays ids P color)
    (hrun : Scans succ (succ v) (Function.update color v (some .gray)) false color')
    (hwhite : color v = some .white) :
    Grays ids P (Function.update color' v (some .black)) := by
  have hkept := hrun.gray_of_false rfl
  refine ⟨fun w hw => ?_, fun w hw => ?_⟩
  · by_cases hwv : w = v
    · exact h.colored w (by simp [hwv, hwhite])
    · have hcolored := (hkept w).2
      rw [Function.update_of_ne hwv] at hw hcolored
      exact h.colored w (hcolored hw)
  · by_cases hwv : w = v
    · rw [hwv, Function.update_self] at hw
      cases hw
    · have hgray := (hkept w).1
      rw [Function.update_of_ne hwv] at hw hgray
      exact h.gray w (hgray hw)

/-- While `u` is visited the gray vertices are on the path to `u`: a visit that finds
something has found a cycle. -/
theorem Scans.cycle {vs : List α} {b : Bool} (h : Scans succ vs color b color') (hb : b = true)
    {u : α} (hu : u ∈ ids) (hvs : ∀ v ∈ vs, v ∈ succ u)
    (hpath : Grays ids (fun v => Relation.ReflTransGen (Arrow ids succ) v u) color) :
    ∃ v, Relation.TransGen (Arrow ids succ) v v := by
  induction h generalizing u with
  | nil => cases hb
  | @gray v vs color hgray =>
    -- the successor is on the path, and the edge to it closes the cycle
    have hids : v ∈ ids := hpath.colored v (by simp [hgray])
    have harrow : Arrow ids succ u v := ⟨hu, hids, hvs v List.mem_cons_self⟩
    exact ⟨u, Relation.TransGen.head' harrow (hpath.gray v hgray)⟩
  | @found v vs color color' hwhite _ ih =>
    have hids : v ∈ ids := hpath.colored v (by simp [hwhite])
    have harrow : Arrow ids succ u v := ⟨hu, hids, hvs v List.mem_cons_self⟩
    exact ih rfl hids (fun _ hw => hw) (hpath.visit hids .refl fun _ hw => hw.tail harrow)
  | @visited v vs color color' color'' b hwhite hvisit _ _ ih =>
    exact ih hb hu (fun w hw => hvs w (List.mem_cons_of_mem _ hw)) (hpath.after hvisit hwhite)
  | skip _ _ _ ih => exact ih hb hu (fun w hw => hvs w (List.mem_cons_of_mem _ hw)) hpath

/-- Between the visits of the loop over all vertices none is gray. -/
theorem Searches.cycle {vs : List α} {b : Bool} (h : Searches succ vs color b) (hb : b = true)
    (hnone : Grays ids (fun _ => False) color) : ∃ v, Relation.TransGen (Arrow ids succ) v v := by
  induction h with
  | nil => cases hb
  | skip _ _ ih => exact ih hb hnone
  | @found v vs color color' hwhite hvisit =>
    have hids : v ∈ ids := hnone.colored v (by simp [hwhite])
    exact hvisit.cycle rfl hids (fun _ hw => hw) (hnone.visit hids .refl fun _ hw => hw.elim)
  | @visited v vs color color' b hwhite hvisit _ ih => exact ih hb (hnone.after hvisit hwhite)

theorem grays_unvisited : Grays ids (fun _ => False) (unvisited ids) := by
  refine ⟨fun v hv => ?_, fun v hv => ?_⟩
  · by_contra hnot
    exact hv (if_neg hnot)
  · unfold unvisited at hv
    split at hv
    · cases hv
    · cases hv

/-- The search finds a cycle where there is one, and only there. -/
theorem hasCycle_iff : hasCycle ids succ = true ↔ ∃ v, Relation.TransGen (Arrow ids succ) v v := by
  constructor
  · intro h
    exact hasCycle_searches.cycle h grays_unvisited
  · rintro ⟨v, hcycle⟩
    by_contra hfalse
    rw [Bool.not_eq_true] at hfalse
    obtain ⟨done, hall, hordered⟩ := hasCycle_eq_false hfalse
    exact not_cycle_of_order hall hordered hcycle

/-! ### Breadth first -/

/-- Queue the neighbours that have not been visited. -/
def enqueue : List α → List α → List α → List α × List α
  | [], queue, visited => (queue, visited)
  | v :: vs, queue, visited =>
    if v ∈ visited then enqueue vs queue visited else enqueue vs (queue ++ [v]) (visited ++ [v])

/-- The main loop; the vertices that have been visited in the end. -/
def bfsLoop (adj : α → List α) : ℕ → List α → List α → List α
  | 0, _, visited => visited
  | _ + 1, [], visited => visited
  | fuel + 1, v :: queue, visited =>
    let (queue', visited') := enqueue (adj v) queue visited
    bfsLoop adj fuel queue' visited'

/-- The vertices that the search from `start` visits, with fuel for all the vertices. -/
def reached (adj : α → List α) (vertices : List α) (start : α) : List α :=
  bfsLoop adj vertices.length [start] [start]

/-- The vertices that have not been visited. -/
def remaining (vertices visited : List α) : List α := vertices.dedup.filter fun v => v ∉ visited

theorem length_remaining {vertices visited : List α} {v : α} (hv : v ∈ vertices)
    (hnew : v ∉ visited) :
    (remaining vertices (visited ++ [v])).length + 1 = (remaining vertices visited).length := by
  have hmem : v ∈ remaining vertices visited :=
    List.mem_filter.mpr ⟨List.mem_dedup.mpr hv, decide_eq_true hnew⟩
  have hnodup : (remaining vertices visited).Nodup := (List.nodup_dedup _).filter _
  have hfilter : remaining vertices (visited ++ [v]) = (remaining vertices visited).erase v := by
    rw [hnodup.erase_eq_filter]
    unfold remaining
    rw [List.filter_filter]
    refine List.filter_congr fun w _ => ?_
    by_cases hw : w = v <;> simp [hw]
  have hpos : 0 < (remaining vertices visited).length := List.length_pos_of_mem hmem
  rw [hfilter, List.length_erase_of_mem hmem]
  omega

theorem length_enqueue {vertices vs queue visited : List α} (hvs : ∀ v ∈ vs, v ∈ vertices) :
    (enqueue vs queue visited).1.length + (remaining vertices (enqueue vs queue visited).2).length =
      queue.length + (remaining vertices visited).length := by
  induction vs generalizing queue visited with
  | nil => rfl
  | cons v vs ih =>
    have hrest : ∀ w ∈ vs, w ∈ vertices := fun w hw => hvs w (List.mem_cons_of_mem _ hw)
    simp only [enqueue]
    split
    · exact ih hrest
    · rename_i hnew
      rw [ih hrest, List.length_append, List.length_singleton, Nat.add_assoc, Nat.add_comm 1,
        length_remaining (hvs v List.mem_cons_self) hnew]

theorem length_remaining_start {vertices : List α} {start : α} (hstart : start ∈ vertices) :
    [start].length + (remaining vertices [start]).length ≤ vertices.length := by
  have hfirst : (remaining vertices ([] ++ [start])).length + 1 = (remaining vertices []).length :=
    length_remaining hstart List.not_mem_nil
  have hall : (remaining vertices []).length ≤ vertices.length :=
    (List.length_filter_le _ _).trans (List.dedup_sublist vertices).length_le
  rw [List.nil_append] at hfirst
  rw [List.length_singleton]
  omega

/-! ### Runs of the breadth-first search -/

/-- The run of the main loop until the queue is empty. -/
inductive Walks (adj : α → List α) : List α → List α → List α → Prop
  | done {visited : List α} : Walks adj [] visited visited
  | next {v : α} {queue visited final : List α}
      (hrest : Walks adj (enqueue (adj v) queue visited).1 (enqueue (adj v) queue visited).2 final) :
      Walks adj (v :: queue) visited final

theorem bfsLoop_walks {vertices : List α} {adj : α → List α}
    (hadj : ∀ u, ∀ v ∈ adj u, v ∈ vertices) {fuel : ℕ} {queue visited : List α}
    (h : queue.length + (remaining vertices visited).length ≤ fuel) :
    Walks adj queue visited (bfsLoop adj fuel queue visited) := by
  induction fuel generalizing queue visited with
  | zero =>
    obtain rfl : queue = [] := List.length_eq_zero_iff.mp (by omega)
    exact .done
  | succ fuel ih =>
    cases queue with
    | nil => exact .done
    | cons v queue =>
      refine .next (ih ?_)
      rw [length_enqueue (hadj v)]
      rw [List.length_cons] at h
      omega

/-- The search from `start` runs to its end. -/
theorem reached_walks {vertices : List α} {adj : α → List α} {start : α}
    (hstart : start ∈ vertices) (hadj : ∀ u, ∀ v ∈ adj u, v ∈ vertices) :
    Walks adj [start] [start] (reached adj vertices start) :=
  bfsLoop_walks hadj (length_remaining_start hstart)

theorem mem_enqueue_visited {vs queue visited : List α} {w : α} :
    w ∈ (enqueue vs queue visited).2 ↔ w ∈ visited ∨ w ∈ vs := by
  induction vs generalizing queue visited with
  | nil => simp [enqueue]
  | cons v vs ih =>
    simp only [enqueue]
    split
    · rename_i hv
      rw [ih, List.mem_cons]
      constructor
      · rintro (hw | hw)
        · exact Or.inl hw
        · exact Or.inr (Or.inr hw)
      · rintro (hw | rfl | hw)
        · exact Or.inl hw
        · exact Or.inl hv
        · exact Or.inr hw
    · rw [ih, List.mem_append, List.mem_singleton, List.mem_cons, or_assoc]

/-- What is queued: the vertices that have not been visited. -/
theorem mem_enqueue_queue {vs queue visited : List α} {w : α} :
    w ∈ (enqueue vs queue visited).1 ↔ w ∈ queue ∨ w ∈ vs ∧ w ∉ visited := by
  induction vs generalizing queue visited with
  | nil => simp [enqueue]
  | cons v vs ih =>
    simp only [enqueue]
    by_cases hw : w = v
    · subst hw
      split
      · rename_i hv
        simp [ih, hv]
      · rename_i hv
        simp [ih, hv]
    · split
      · simp [ih, hw]
      · simp [ih, hw]

theorem nodup_enqueue {vs queue visited : List α} (h : visited.Nodup) :
    (enqueue vs queue visited).2.Nodup := by
  induction vs generalizing queue visited with
  | nil => exact h
  | cons v vs ih =>
    simp only [enqueue]
    split
    · exact ih h
    · rename_i hv
      exact ih (List.nodup_append_comm.mp (List.nodup_cons.mpr ⟨hv, h⟩))

variable {adj : α → List α} {queue visited final : List α}

/-- No vertex is visited twice. -/
theorem Walks.nodup (h : Walks adj queue visited final) (hvisited : visited.Nodup) :
    final.Nodup := by
  induction h with
  | done => exact hvisited
  | next _ ih => exact ih (nodup_enqueue hvisited)

theorem Walks.mem_of_visited (h : Walks adj queue visited final) :
    ∀ v ∈ visited, v ∈ final := by
  induction h with
  | done => exact fun v hv => hv
  | next _ ih => exact fun v hv => ih v (mem_enqueue_visited.mpr (Or.inl hv))

/-- What holds of the start and goes from a vertex to its neighbours holds of all. -/
theorem Walks.forall (h : Walks adj queue visited final) {P : α → Prop}
    (hadj : ∀ u, P u → ∀ v ∈ adj u, P v) (hqueue : ∀ v ∈ queue, P v)
    (hvisited : ∀ v ∈ visited, P v) : ∀ v ∈ final, P v := by
  induction h with
  | done => exact hvisited
  | @next u queue visited final _ ih =>
    have hu : P u := hqueue u List.mem_cons_self
    refine ih (fun v hv => ?_) (fun v hv => ?_)
    · rcases mem_enqueue_queue.mp hv with hv | ⟨hv, -⟩
      · exact hqueue v (List.mem_cons_of_mem _ hv)
      · exact hadj u hu v hv
    · rcases mem_enqueue_visited.mp hv with hv | hv
      · exact hvisited v hv
      · exact hadj u hu v hv

/-- In the end the neighbours of all vertices have been visited. -/
theorem Walks.closed (h : Walks adj queue visited final)
    (hopen : ∀ u ∈ visited, u ∈ queue ∨ ∀ v ∈ adj u, v ∈ visited) :
    ∀ u ∈ final, ∀ v ∈ adj u, v ∈ final := by
  induction h with
  | done => exact fun u hu => (hopen u hu).resolve_left List.not_mem_nil
  | @next w queue visited final _ ih =>
    refine ih fun u hu => ?_
    rw [mem_enqueue_queue]
    by_cases hold : u ∈ visited
    · rcases hopen u hold with hqueue | hclosed
      · rcases List.mem_cons.mp hqueue with rfl | hqueue
        · -- the vertex that leaves the queue: all its neighbours are visited now
          exact Or.inr fun v hv => mem_enqueue_visited.mpr (Or.inr hv)
        · exact Or.inl (Or.inl hqueue)
      · exact Or.inr fun v hv => mem_enqueue_visited.mpr (Or.inl (hclosed v hv))
    · have hnew : u ∈ adj w := (mem_enqueue_visited.mp hu).resolve_left hold
      exact Or.inl (Or.inr ⟨hnew, hold⟩)

/-- The vertices visited are those that a path from the start leads to. -/
theorem Walks.mem_iff {start : α} (h : Walks adj [start] [start] final) {v : α} :
    v ∈ final ↔ Relation.ReflTransGen (fun a b => b ∈ adj a) start v := by
  constructor
  · refine h.forall (P := Relation.ReflTransGen (fun a b => b ∈ adj a) start)
      (fun _ hu _ hv => hu.tail hv) (fun w hw => ?_) (fun w hw => ?_) v
    · rw [List.mem_singleton.mp hw]
    · rw [List.mem_singleton.mp hw]
  · have hclosed := h.closed fun u hu => Or.inl hu
    intro hpath
    induction hpath with
    | refl => exact h.mem_of_visited start List.mem_cons_self
    | tail _ hstep ih => exact hclosed _ ih _ hstep

end Graph
