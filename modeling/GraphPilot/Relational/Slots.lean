/-
Rows that occupy slots.

A row may occupy a slot, which a function `slot` of the row names: an open row
the key it is open for, a pending row the thing it is pending for.  A table is
`Exclusive` if no slot is occupied twice; nothing in the table itself enforces
that.

* `Exclusive.insert` — a row is inserted while its slot is free;
* `Exclusive.update` — rows are changed that keep their slots or give them up;
* `Exclusive.count_le_one` — what a query for the slot finds.
-/
import GraphPilot.Relational.Tables

namespace Relational

variable {ρ κ σ : Type} [Keyed ρ κ]

/-- No slot is occupied by two rows. -/
def Exclusive (slot : ρ → Option σ) (t : Table ρ) : Prop :=
  ∀ x ∈ t.rows, ∀ y ∈ t.rows, ∀ s, slot x = some s → slot y = some s → x = y

namespace Exclusive

variable {slot : ρ → Option σ} {t : Table ρ}

/-- The rows in one slot. -/
theorem count_le_one [DecidableEq σ] (h : Exclusive slot t) (s : σ) :
    t.count (fun x => slot x = some s) ≤ 1 := by
  have hnodup : t.rows.Nodup := List.Nodup.of_map _ t.nodup
  rw [Table.count, List.countP_eq_length_filter]
  by_contra hlt
  obtain ⟨x, y, rest, hrows⟩ : ∃ x y rest,
      t.rows.filter (fun x => decide (slot x = some s)) = x :: y :: rest := by
    rcases hl : t.rows.filter (fun x => decide (slot x = some s)) with _ | ⟨x, _ | ⟨y, rest⟩⟩
    · simp [hl] at hlt
    · simp [hl] at hlt
    · exact ⟨x, y, rest, rfl⟩
  obtain ⟨hx, hxs⟩ := List.mem_filter.mp (hrows ▸ List.mem_cons_self)
  obtain ⟨hy, hys⟩ := List.mem_filter.mp (hrows ▸ List.mem_cons_of_mem _ List.mem_cons_self)
  have hne : x ≠ y := by
    intro heq
    have hsub := hnodup.filter fun x => decide (slot x = some s)
    rw [hrows, heq] at hsub
    simp at hsub
  exact hne (h x hx y hy s (of_decide_eq_true hxs) (of_decide_eq_true hys))

/-- A table in which every slot is occupied once at most is exclusive. -/
theorem of_count_le_one [DecidableEq σ]
    (h : ∀ s, t.count (fun x => slot x = some s) ≤ 1) : Exclusive slot t := by
  intro x hx y hy s hxs hys
  have hs := h s
  rw [Table.count, List.countP_eq_length_filter] at hs
  have hx' : x ∈ t.rows.filter fun x => decide (slot x = some s) := by simp [hx, hxs]
  have hy' : y ∈ t.rows.filter fun x => decide (slot x = some s) := by simp [hy, hys]
  rcases hl : t.rows.filter (fun x => decide (slot x = some s)) with _ | ⟨z, _ | ⟨z', rest⟩⟩
  · rw [hl] at hx'
    cases hx'
  · rw [hl] at hx' hy'
    rw [List.mem_singleton.mp hx', List.mem_singleton.mp hy']
  · rw [hl] at hs
    simp at hs

variable [DecidableEq κ] {r : ρ} {f : ρ → ρ}

theorem insert (h : Exclusive slot t)
    (hfree : ∀ s, slot r = some s → ∀ x ∈ t.rows, slot x ≠ some s) :
    Exclusive slot (t.insert r) := by
  unfold Table.insert
  split
  · exact h
  · intro x hx y hy s hxs hys
    rcases List.mem_append.mp hx with hx | hx <;> rcases List.mem_append.mp hy with hy | hy
    · exact h x hx y hy s hxs hys
    · rw [List.mem_singleton.mp hy] at hys
      exact absurd hxs (hfree s hys x hx)
    · rw [List.mem_singleton.mp hx] at hxs
      exact absurd hys (hfree s hxs y hy)
    · rw [List.mem_singleton.mp hx, List.mem_singleton.mp hy]

omit [DecidableEq κ] in
/-- A change of rows, none of which occupies a slot it did not occupy before. -/
theorem update (h : Exclusive slot t) {p : ρ → Bool} (hf : ∀ r, Keyed.key (f r) = Keyed.key r)
    (hslot : ∀ r s, slot (f r) = some s → slot r = some s) :
    Exclusive slot (t.update p f hf) := by
  -- a row of the new table comes from one of the old that occupies the same slot
  have hold : ∀ x ∈ (t.update p f hf).rows, ∀ s, slot x = some s →
      ∃ x₀ ∈ t.rows, slot x₀ = some s ∧ x = if p x₀ then f x₀ else x₀ := by
    intro x hx s hs
    obtain ⟨x₀, hx₀, rfl⟩ := List.mem_map.mp hx
    refine ⟨x₀, hx₀, ?_, rfl⟩
    split at hs
    · exact hslot x₀ s hs
    · exact hs
  intro x hx y hy s hxs hys
  obtain ⟨x₀, hx₀, hs, rfl⟩ := hold x hx s hxs
  obtain ⟨y₀, hy₀, hs', rfl⟩ := hold y hy s hys
  rw [h x₀ hx₀ y₀ hy₀ s hs hs']

end Exclusive

end Relational
