/-
Counting rows by key.

A loop that counts looks up the entry of a row's key, puts a fresh one there if there is
none, and changes the entry in its place.

* `touch` — one such step;
* `totalOn` — a count, summed over the entries of some keys;
* `totalOn_tally` — after the loop it has grown by the rows with such a key that count;
* `keys_tally` — rows of keys that are there leave the keys alone.
-/
import Mathlib

namespace Python.Tally

variable {κ β ρ : Type} [DecidableEq κ]

/-- `entry = d.setdefault(k, fresh)`, and what is done to the entry. -/
def touch (k : κ) (fresh : β) (f : β → β) : List (κ × β) → List (κ × β)
  | [] => [(k, f fresh)]
  | (j, v) :: d => if j = k then (j, f v) :: d else (j, v) :: touch k fresh f d

/-- `d[k] = v`. -/
def put (k : κ) (v : β) : List (κ × β) → List (κ × β) := touch k v fun _ => v

/-- Count the rows, one after the other. -/
def tally (key : ρ → κ) (fresh : β) (count : ρ → β → β) (rows : List ρ) (d : List (κ × β)) :
    List (κ × β) :=
  rows.foldl (fun d row => touch (key row) fresh (count row) d) d

/-- The sum of a count over the entries of some keys. -/
def totalOn (p : κ → Bool) (m : β → ℕ) (d : List (κ × β)) : ℕ :=
  ((d.filter fun x => p x.1).map fun x => m x.2).sum

variable {k : κ} {v fresh : β} {f : β → β} {d : List (κ × β)} {p : κ → Bool} {m : β → ℕ} {n : ℕ}

/-! ### One step -/

omit [DecidableEq κ] in
theorem totalOn_cons (x : κ × β) (d : List (κ × β)) :
    totalOn p m (x :: d) = (if p x.1 then m x.2 else 0) + totalOn p m d := by
  unfold totalOn
  rw [List.filter_cons]
  split
  · rw [List.map_cons, List.sum_cons]
  · rw [Nat.zero_add]

theorem totalOn_touch (hfresh : m fresh = 0) (hf : ∀ v, m (f v) = m v + n) :
    totalOn p m (touch k fresh f d) = totalOn p m d + if p k then n else 0 := by
  induction d with
  | nil =>
    rw [touch, totalOn_cons, hf, hfresh, Nat.zero_add, Nat.add_comm]
  | cons x d ih =>
    obtain ⟨j, v⟩ := x
    rw [touch]
    split
    · rename_i hj
      rw [totalOn_cons, totalOn_cons, hf, ← hj]
      dsimp only
      split
      · omega
      · omega
    · rw [totalOn_cons, totalOn_cons, ih]
      omega

theorem keys_touch_of_mem (h : k ∈ d.map Prod.fst) :
    (touch k fresh f d).map Prod.fst = d.map Prod.fst := by
  induction d with
  | nil => cases h
  | cons x d ih =>
    rw [touch]
    split
    · rw [List.map_cons, List.map_cons]
    · rename_i hne
      rw [List.map_cons, List.mem_cons] at h
      rw [List.map_cons, List.map_cons, ih (h.resolve_left (Ne.symm hne))]

theorem nodup_touch (h : (d.map Prod.fst).Nodup) :
    ((touch k fresh f d).map Prod.fst).Nodup := by
  by_cases hk : k ∈ d.map Prod.fst
  · rw [keys_touch_of_mem hk]
    exact h
  · have hkeys : (touch k fresh f d).map Prod.fst = d.map Prod.fst ++ [k] := by
      clear h
      induction d with
      | nil => rfl
      | cons x d ih =>
        rw [List.map_cons, List.mem_cons, not_or] at hk
        rw [touch, if_neg (Ne.symm hk.1), List.map_cons, ih hk.2, List.map_cons, List.cons_append]
    rw [hkeys]
    exact List.nodup_append.mpr ⟨h, List.nodup_singleton k, by
      intro a ha b hb
      rw [List.mem_singleton] at hb
      rw [hb]
      rintro rfl
      exact hk ha⟩

theorem put_of_notMem (h : k ∉ d.map Prod.fst) : put k v d = d ++ [(k, v)] := by
  induction d with
  | nil => rfl
  | cons x d ih =>
    rw [List.map_cons, List.mem_cons, not_or] at h
    unfold put at ih ⊢
    rw [touch, if_neg (Ne.symm h.1), ih h.2, List.cons_append]

/-! ### The loop -/

variable {key : ρ → κ} {count : ρ → β → β} {c : ρ → Bool}

/-- A count has grown by the rows that count, of the keys it is summed over. -/
theorem totalOn_tally (hfresh : m fresh = 0)
    (hcount : ∀ row v, m (count row v) = m v + if c row then 1 else 0) (rows : List ρ)
    (d : List (κ × β)) :
    totalOn p m (tally key fresh count rows d) =
      totalOn p m d + rows.countP fun row => p (key row) && c row := by
  induction rows generalizing d with
  | nil => rfl
  | cons row rows ih =>
    have hstep : totalOn p m (touch (key row) fresh (count row) d) =
        totalOn p m d + if p (key row) then (if c row then 1 else 0) else 0 :=
      totalOn_touch hfresh (hcount row)
    show totalOn p m (tally key fresh count rows (touch (key row) fresh (count row) d)) = _
    rw [ih, hstep, List.countP_cons, Nat.add_assoc, Nat.add_comm (List.countP _ rows)]
    cases p (key row) with
    | true => rfl
    | false => rfl

theorem keys_tally {rows : List ρ} (h : ∀ row ∈ rows, key row ∈ d.map Prod.fst) :
    (tally key fresh count rows d).map Prod.fst = d.map Prod.fst := by
  induction rows generalizing d with
  | nil => rfl
  | cons row rows ih =>
    have hkeys : (touch (key row) fresh (count row) d).map Prod.fst = d.map Prod.fst :=
      keys_touch_of_mem (h row List.mem_cons_self)
    show (tally key fresh count rows (touch (key row) fresh (count row) d)).map Prod.fst = _
    rw [ih, hkeys]
    intro r hr
    rw [hkeys]
    exact h r (List.mem_cons_of_mem _ hr)

theorem nodup_tally (rows : List ρ) (h : (d.map Prod.fst).Nodup) :
    ((tally key fresh count rows d).map Prod.fst).Nodup := by
  induction rows generalizing d with
  | nil => exact h
  | cons row rows ih => exact ih (nodup_touch h)

/-! ### What is read of it -/

omit [DecidableEq κ] in
theorem totalOn_true (d : List (κ × β)) :
    totalOn (fun _ => true) m d = (d.map fun x => m x.2).sum := by
  unfold totalOn
  rw [List.filter_true]

omit [DecidableEq κ] in
theorem totalOn_eq_zero (h : ∀ x ∈ d, m x.2 = 0) : totalOn p m d = 0 := by
  unfold totalOn
  rw [List.sum_eq_zero]
  intro n hn
  obtain ⟨x, hx, rfl⟩ := List.mem_map.mp hn
  exact h x (List.mem_filter.mp hx).1

/-- The entry of one key, where each key is there once. -/
theorem totalOn_eq {x : κ × β} (hnodup : (d.map Prod.fst).Nodup) (hx : x ∈ d) :
    totalOn (fun j => j = x.1) m d = m x.2 := by
  induction d with
  | nil => cases hx
  | cons y d ih =>
    rw [List.map_cons, List.nodup_cons] at hnodup
    rw [totalOn_cons]
    rcases List.mem_cons.mp hx with rfl | hmem
    · -- no entry behind it has the key
      have hrest : totalOn (fun j => j = x.1) m d = 0 := by
        unfold totalOn
        have hnone : (d.filter fun y => y.1 = x.1) = [] := by
          rw [List.filter_eq_nil_iff]
          intro y hy heq
          exact hnodup.1 (List.mem_map.mpr ⟨y, hy, of_decide_eq_true heq⟩)
        rw [hnone]
        rfl
      rw [hrest]
      simp
    · have hne : y.1 ≠ x.1 := by
        intro heq
        exact hnodup.1 (List.mem_map.mpr ⟨x, hmem, heq.symm⟩)
      rw [ih hnodup.2 hmem]
      simp [hne]

end Python.Tally
