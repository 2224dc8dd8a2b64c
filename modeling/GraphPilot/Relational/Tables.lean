/-
Changes to tables, and databases of named tables.

* `Table.update`, `Table.delete` — the statements that select rows by a
  predicate; an update keeps the keys;
* `Tables` — a table for each name, changed one name at a time.
-/
import GraphPilot.Relational.Table

namespace Relational

/-! ### `UPDATE` and `DELETE` -/

namespace Table

variable {ρ κ : Type} [Keyed ρ κ] (t : Table ρ) (p : ρ → Bool) (f : ρ → ρ)
variable (hf : ∀ r, Keyed.key (f r) = Keyed.key r)

/-- Change the rows satisfying `p`, keeping their keys. -/
def update : Table ρ where
  rows := t.rows.map fun r => if p r then f r else r
  nodup := by
    have hkeys : (t.rows.map fun r => if p r then f r else r).map Keyed.key =
        t.rows.map Keyed.key := by
      rw [List.map_map]
      refine List.map_congr_left fun r _ => ?_
      show Keyed.key (if p r then f r else r) = Keyed.key r
      split
      · exact hf r
      · rfl
    rw [hkeys]
    exact t.nodup

/-- Remove the rows satisfying `p`. -/
def delete : Table ρ where
  rows := t.rows.filter fun r => !p r
  nodup := t.nodup.sublist (List.filter_sublist.map _)

theorem rows_update : (t.update p f hf).rows = t.rows.map fun r => if p r then f r else r := rfl

theorem rows_delete : (t.delete p).rows = t.rows.filter fun r => !p r := rfl

/-- A selection that finds the row of one key at most. -/
theorem filter_of_key [DecidableEq κ] {t : Table ρ} {p : ρ → Bool} {k : κ}
    (hp : ∀ r, p r → Keyed.key r = k) : t.rows.filter p = ((t.find? k).filter p).toList := by
  obtain ⟨rows, hnd⟩ := t
  simp only [find?]
  induction rows with
  | nil => rfl
  | cons a rows ih =>
    rw [List.map_cons, List.nodup_cons] at hnd
    by_cases hk : Keyed.key a = k
    · -- no other row has the key
      have hrest : rows.filter p = [] := by
        refine List.filter_eq_nil_iff.mpr fun r hr hpr => hnd.1 ?_
        exact List.mem_map.mpr ⟨r, hr, (hp r hpr).trans hk.symm⟩
      rw [List.find?_cons_of_pos (by simpa using hk), List.filter_cons, hrest]
      cases hpa : p a <;> simp [Option.filter, hpa]
    · have hpa : p a = false := by
        by_contra hpa
        exact hk (hp a (by simpa using hpa))
      rw [List.find?_cons_of_neg (by simpa using hk), List.filter_cons, hpa]
      exact ih hnd.2

/-- Where a change makes no row satisfy `q` that did not, fewer rows do. -/
theorem count_update_le {q : ρ → Bool} (h : ∀ r, q (f r) → q r) :
    (t.update p f hf).count q ≤ t.count q := by
  simp only [count, rows_update, List.countP_map]
  refine List.countP_mono_left fun r _ hr => ?_
  simp only [Function.comp_apply] at hr
  split at hr
  · exact h r hr
  · exact hr

theorem count_delete_le {q : ρ → Bool} : (t.delete p).count q ≤ t.count q :=
  List.filter_sublist.countP_le

theorem count_insert_le [DecidableEq κ] {r : ρ} {q : ρ → Bool} :
    (t.insert r).count q ≤ t.count q + if q r then 1 else 0 := by
  cases h : t.find? (Keyed.key r) with
  | none => rw [count_insert h]
  | some y =>
    rw [insert_of_mem (by simp [h])]
    omega

/-- A row is the only one under its key. -/
theorem eq_of_key {r r' : ρ} {t : Table ρ} (hr : r ∈ t.rows) (hr' : r' ∈ t.rows)
    (h : Keyed.key r = Keyed.key r') : r = r' :=
  List.inj_on_of_nodup_map t.nodup hr hr' h

end Table

/-! ### Databases -/

variable {ι κ : Type} {Row : ι → Type} [∀ n, Keyed (Row n) κ]

/-- A table for each name. -/
abbrev Tables (Row : ι → Type) {κ : Type} [∀ n, Keyed (Row n) κ] : Type :=
  ∀ n, Table (Row n)

namespace Tables

variable [DecidableEq ι]

/-- `UPDATE n SET f WHERE p`. -/
def update (db : Tables Row) (n : ι) (p : Row n → Bool) (f : Row n → Row n)
    (hf : ∀ r, Keyed.key (f r) = Keyed.key r) : Tables Row :=
  Function.update db n ((db n).update p f hf)

/-- `INSERT INTO n`. -/
def insert [DecidableEq κ] (db : Tables Row) (n : ι) (r : Row n) : Tables Row :=
  Function.update db n ((db n).insert r)

/-- `DELETE FROM n WHERE p`. -/
def delete (db : Tables Row) (n : ι) (p : Row n → Bool) : Tables Row :=
  Function.update db n ((db n).delete p)

variable {db : Tables Row} {n m : ι} {p : Row n → Bool} {f : Row n → Row n} {r : Row n}
variable {hf : ∀ r, Keyed.key (f r) = Keyed.key r}

@[simp] theorem update_self : db.update n p f hf n = (db n).update p f hf :=
  Function.update_self ..

@[simp] theorem update_of_ne (h : m ≠ n) : db.update n p f hf m = db m :=
  Function.update_of_ne h ..

@[simp] theorem insert_self [DecidableEq κ] : db.insert n r n = (db n).insert r := Function.update_self ..

@[simp] theorem insert_of_ne [DecidableEq κ] (h : m ≠ n) : db.insert n r m = db m :=
  Function.update_of_ne h ..

@[simp] theorem delete_self : db.delete n p n = (db n).delete p := Function.update_self ..

@[simp] theorem delete_of_ne (h : m ≠ n) : db.delete n p m = db m := Function.update_of_ne h ..

end Tables

end Relational
