/-
Tables with a primary key.

A `Table` is its list of rows together with the proof that no two rows share a
key, so a lookup by key is unambiguous.  `modify` changes the row of one key,
`insert` adds a row under a new key; both keep the rows in place.

* `find?_modify`, `find?_insert` — lookup after a change;
* `sum_modify`, `sum_insert` — a sum over a part of the table after a change;
* `count_modify`, `count_insert` — the same for counts.
-/
import Mathlib.Algebra.BigOperators.Group.List.Basic
import Mathlib.Algebra.Order.Ring.Int
import Mathlib.Data.List.Nodup

namespace Relational

/-- Rows `ρ` with a key in `κ`. -/
class Keyed (ρ : Type) (κ : outParam Type) where
  key : ρ → κ

/-- The rows of a table, no two with the same key. -/
structure Table (ρ : Type) {κ : Type} [Keyed ρ κ] where
  rows : List ρ
  nodup : (rows.map Keyed.key).Nodup

variable {ρ κ : Type} [Keyed ρ κ]

namespace Table

/-- The table without rows. -/
def empty : Table ρ := ⟨[], by simp⟩

/-- The sum of `f` over the rows satisfying `p`. -/
def sum (t : Table ρ) (p : ρ → Bool) (f : ρ → ℤ) : ℤ := ((t.rows.filter p).map f).sum

/-- The number of rows satisfying `p`. -/
def count (t : Table ρ) (p : ρ → Bool) : ℕ := t.rows.countP p

theorem count_eq_zero {t : Table ρ} {p : ρ → Bool} :
    t.count p = 0 ↔ ∀ r ∈ t.rows, ¬ p r := by
  simp [count]

variable [DecidableEq κ]

/-- The row of a key. -/
def find? (t : Table ρ) (k : κ) : Option ρ := t.rows.find? fun r => Keyed.key r = k

/-- Change the row of the key `k`, keeping its key. -/
def modify (t : Table ρ) (k : κ) (f : ρ → ρ) (hf : ∀ r, Keyed.key (f r) = Keyed.key r) :
    Table ρ where
  rows := t.rows.map fun r => if Keyed.key r = k then f r else r
  nodup := by
    have hkeys : (t.rows.map fun r => if Keyed.key r = k then f r else r).map Keyed.key =
        t.rows.map Keyed.key := by
      rw [List.map_map]
      refine List.map_congr_left fun r _ => ?_
      by_cases h : Keyed.key r = k <;> simp [h, hf]
    rw [hkeys]
    exact t.nodup

/-- Add a row under a new key; under a key in use nothing happens. -/
def insert (t : Table ρ) (r : ρ) : Table ρ :=
  if h : Keyed.key r ∈ t.rows.map Keyed.key then t
  else
    { rows := t.rows ++ [r]
      nodup := by
        rw [List.map_append, List.map_singleton]
        simpa using t.nodup.concat h }

variable {t : Table ρ} {k j : κ} {r : ρ} {f : ρ → ρ}
variable (hf : ∀ r, Keyed.key (f r) = Keyed.key r)

theorem key_of_find? (h : t.find? k = some r) : Keyed.key r = k := by
  simpa using List.find?_some h

theorem mem_of_find? (h : t.find? k = some r) : r ∈ t.rows := List.mem_of_find?_eq_some h

/-- A row of the table is what its key finds. -/
theorem find?_of_mem (h : r ∈ t.rows) : t.find? (Keyed.key r) = some r := by
  obtain ⟨rows, hnd⟩ := t
  simp only [find?] at h ⊢
  induction rows with
  | nil => simp at h
  | cons a rows ih =>
    rw [List.map_cons, List.nodup_cons] at hnd
    by_cases ha : Keyed.key a = Keyed.key r
    · rcases List.mem_cons.mp h with rfl | hr
      · simp
      · exact absurd (List.mem_map.mpr ⟨r, hr, ha.symm⟩) hnd.1
    · rcases List.mem_cons.mp h with rfl | hr
      · exact absurd rfl ha
      · rw [List.find?_cons_of_neg (by simpa using ha)]
        exact ih hnd.2 hr

theorem find?_eq_none : t.find? k = none ↔ k ∉ t.rows.map Keyed.key := by
  simp [find?]

theorem find?_modify :
    (t.modify k f hf).find? j = if j = k then (t.find? k).map f else t.find? j := by
  obtain ⟨rows, hnd⟩ := t
  simp only [find?, modify]
  clear hnd
  induction rows with
  | nil => simp
  | cons a rows ih =>
    rw [List.map_cons]
    by_cases hk : Keyed.key a = k
    · by_cases hj : j = k
      · subst hj
        simp [hk, hf]
      · have hne : ¬ Keyed.key a = j := fun h => hj (h ▸ hk)
        rw [if_pos hk, List.find?_cons_of_neg (by simp [hf, hne]), ih, if_neg hj, if_neg hj,
          List.find?_cons_of_neg (by simp [hne])]
    · rw [if_neg hk, List.find?_cons_of_neg (a := a) (p := fun r => decide (Keyed.key r = k))
        (by simpa using hk)]
      by_cases hj : Keyed.key a = j
      · have hne : ¬ j = k := fun h => hk (hj.trans h)
        simp [hj, hne]
      · rw [List.find?_cons_of_neg (by simpa using hj), ih,
          List.find?_cons_of_neg (by simpa using hj)]

theorem find?_insert (h : t.find? (Keyed.key r) = none) :
    (t.insert r).find? j = if j = Keyed.key r then some r else t.find? j := by
  have hnew := find?_eq_none.mp h
  simp only [insert, hnew, dite_false, find?, List.find?_append]
  by_cases hj : j = Keyed.key r
  · subst hj
    rw [show t.rows.find? (fun x => decide (Keyed.key x = Keyed.key r)) = none from h]
    simp
  · simp [hj, Ne.symm hj]

theorem insert_of_mem (h : (t.find? (Keyed.key r)).isSome) : t.insert r = t := by
  have : Keyed.key r ∈ t.rows.map Keyed.key := by
    by_contra hn
    rw [find?_eq_none.mpr hn] at h
    simp at h
  simp only [insert, this, dite_true]

/-- Lookup after an insertion, whether or not the key is in use. -/
theorem find?_insert_eq : (t.insert r).find? j =
    if j = Keyed.key r ∧ t.find? (Keyed.key r) = none then some r else t.find? j := by
  cases h : t.find? (Keyed.key r) with
  | none => simpa using find?_insert h
  | some y => simp [insert_of_mem (t := t) (r := r) (by simp [h])]

theorem rows_insert (h : t.find? (Keyed.key r) = none) : (t.insert r).rows = t.rows ++ [r] := by
  simp only [insert, find?_eq_none.mp h, dite_false]

theorem modify_of_none (h : t.find? k = none) : t.modify k f hf = t := by
  obtain ⟨rows, hnd⟩ := t
  have hk := find?_eq_none.mp h
  simp only [modify, Table.mk.injEq]
  refine (List.map_congr_left fun r hr => ?_).trans (List.map_id rows)
  have : ¬ Keyed.key r = k := fun he => hk (List.mem_map.mpr ⟨r, hr, he⟩)
  simp [this]

/-! ### Sums and counts -/

/-- A sum after one row has changed: only that row's contribution changes. -/
theorem sum_modify {p : ρ → Bool} {g : ρ → ℤ} (h : t.find? k = some r) :
    (t.modify k f hf).sum p g =
      t.sum p g - (if p r then g r else 0) + (if p (f r) then g (f r) else 0) := by
  obtain ⟨rows, hnd⟩ := t
  simp only [find?, sum, modify] at h ⊢
  induction rows with
  | nil => simp at h
  | cons a rows ih =>
    rw [List.map_cons, List.nodup_cons] at hnd
    rw [List.map_cons]
    by_cases hk : Keyed.key a = k
    · rw [List.find?_cons_of_pos (by simpa using hk), Option.some.injEq] at h
      subst h
      have hrest : (rows.map fun r => if Keyed.key r = k then f r else r) = rows := by
        refine (List.map_congr_left fun r hr => ?_).trans (List.map_id rows)
        have : ¬ Keyed.key r = k := fun he =>
          hnd.1 (List.mem_map.mpr ⟨r, hr, he.trans hk.symm⟩)
        simp [this]
      rw [hrest, if_pos hk, List.filter_cons, List.filter_cons]
      split <;> split <;> simp <;> omega
    · rw [List.find?_cons_of_neg (by simpa using hk)] at h
      have := ih hnd.2 h
      rw [if_neg hk, List.filter_cons, List.filter_cons]
      by_cases hp : p a
      · simp only [hp, if_true, List.map_cons, List.sum_cons]
        omega
      · simpa only [hp, Bool.false_eq_true, if_false] using this

/-- A change that the summand does not see. -/
theorem sum_modify_same {p : ρ → Bool} {g : ρ → ℤ} (hp : ∀ r, p (f r) = p r)
    (hg : ∀ r, p r = true → g (f r) = g r) : (t.modify k f hf).sum p g = t.sum p g := by
  cases h : t.find? k with
  | none => rw [modify_of_none hf h]
  | some r =>
    rw [sum_modify hf h, hp]
    split
    · rename_i hpr
      rw [hg r hpr]
      omega
    · omega

theorem sum_insert {p : ρ → Bool} {g : ρ → ℤ} (h : t.find? (Keyed.key r) = none) :
    (t.insert r).sum p g = t.sum p g + if p r then g r else 0 := by
  simp only [sum, rows_insert h, List.filter_append, List.map_append, List.sum_append]
  by_cases hp : p r <;> simp [hp]

theorem count_insert {p : ρ → Bool} (h : t.find? (Keyed.key r) = none) :
    (t.insert r).count p = t.count p + if p r then 1 else 0 := by
  simp only [count, rows_insert h, List.countP_append, List.countP_singleton]

theorem count_modify {p : ρ → Bool} (hp : ∀ r, p (f r) = p r) :
    (t.modify k f hf).count p = t.count p := by
  simp only [count, modify, List.countP_map]
  refine List.countP_congr fun r _ => ?_
  simp only [Function.comp_apply]
  split <;> simp [hp]

end Table

end Relational
