/-
The items of dictionaries.

A dictionary has each key once (`Distinct`), so that an item is what is found under its
key (`lookup_of_mem`), and what is found can be assigned again (`assign_of_lookup`).

* `assigned` — the items after `d[k] = v` for each entry in turn;
* `length_assigned` — there are as many items as entries exactly when no key is given
  twice;
* `assigned_of_nodup` — and then the items are the entries.
-/
import GraphPilot.Python.Json
import Mathlib.Data.List.Induction
import Mathlib.Data.List.Nodup

namespace Python.Json

variable {k : String} {v : Json} {kvs xs : List (String × Json)} {x : String × Json}

/-- Every key is there once. -/
def Distinct (kvs : List (String × Json)) : Prop := (kvs.map Prod.fst).Nodup

theorem lookup_eq_none : lookup k kvs = none ↔ k ∉ kvs.map Prod.fst := by
  induction kvs with
  | nil => exact ⟨fun _ => List.not_mem_nil, fun _ => rfl⟩
  | cons p kvs ih =>
    obtain ⟨k', v'⟩ := p
    rw [lookup, List.map_cons, List.mem_cons, not_or]
    split
    · rename_i hk
      exact iff_of_false (Option.some_ne_none _) fun h => h.1 hk.symm
    · rename_i hk
      rw [ih]
      exact ⟨fun h => ⟨Ne.symm hk, h⟩, fun h => h.2⟩

theorem mem_of_lookup (h : lookup k kvs = some v) : (k, v) ∈ kvs := by
  induction kvs with
  | nil => cases h
  | cons p kvs ih =>
    obtain ⟨k', v'⟩ := p
    rw [lookup] at h
    split at h
    · rename_i hk
      cases h
      rw [hk]
      exact List.mem_cons_self
    · exact List.mem_cons_of_mem _ (ih h)

theorem Distinct.cons (h : Distinct (x :: kvs)) : x.1 ∉ kvs.map Prod.fst ∧ Distinct kvs :=
  List.nodup_cons.mp h

theorem lookup_of_mem (hdistinct : Distinct kvs) (h : (k, v) ∈ kvs) : lookup k kvs = some v := by
  induction kvs with
  | nil => cases h
  | cons p kvs ih =>
    obtain ⟨hnot, hrest⟩ := hdistinct.cons
    rcases List.mem_cons.mp h with rfl | hmem
    · rw [lookup, if_pos rfl]
    · have hne : p.1 ≠ k := by
        rintro rfl
        exact hnot (List.mem_map.mpr ⟨_, hmem, rfl⟩)
      rw [lookup, if_neg hne, ih hrest hmem]

/-- What is there already can be assigned again. -/
theorem assign_of_lookup (h : lookup k kvs = some v) : assign k v kvs = kvs := by
  induction kvs with
  | nil => cases h
  | cons p kvs ih =>
    obtain ⟨k', v'⟩ := p
    rw [lookup] at h
    rw [assign]
    split
    · rename_i hk
      rw [if_pos hk] at h
      cases h
      rw [hk]
    · rename_i hk
      rw [if_neg hk] at h
      rw [ih h]

/-- A value that is replaced does not matter. -/
theorem assign_assign (k : String) (v w : Json) (kvs : List (String × Json)) :
    assign k w (assign k v kvs) = assign k w kvs := by
  induction kvs with
  | nil => simp [assign]
  | cons x kvs ih =>
    obtain ⟨k', v'⟩ := x
    by_cases hk : k' = k
    · simp [assign, hk]
    · simp [assign, hk, ih]

/-- New values under the old keys. -/
def mapValues (f : String → Json → Json) (kvs : List (String × Json)) : List (String × Json) :=
  kvs.map fun x => (x.1, f x.1 x.2)

theorem lookup_mapValues (f : String → Json → Json) :
    lookup k (mapValues f kvs) = (lookup k kvs).map (f k) := by
  induction kvs with
  | nil => rfl
  | cons x kvs ih =>
    obtain ⟨k', v'⟩ := x
    show (if k' = k then some (f k' v') else lookup k (mapValues f kvs)) =
      (if k' = k then some v' else lookup k kvs).map (f k)
    split
    · rename_i hk
      rw [hk, Option.map_some]
    · exact ih

/-- A new key goes to the end. -/
theorem assign_of_notMem (h : k ∉ kvs.map Prod.fst) : assign k v kvs = kvs ++ [(k, v)] := by
  induction kvs with
  | nil => rfl
  | cons p rest ih =>
    rw [List.map_cons, List.mem_cons, not_or] at h
    rw [assign, if_neg (Ne.symm h.1), ih h.2]
    rfl

/-- A key that is there already keeps its place. -/
theorem keys_assign_of_mem (h : k ∈ kvs.map Prod.fst) :
    (assign k v kvs).map Prod.fst = kvs.map Prod.fst := by
  induction kvs with
  | nil => cases h
  | cons p rest ih =>
    rw [assign]
    split
    · rename_i heq
      rw [List.map_cons, List.map_cons, ← heq]
    · rename_i hne
      rw [List.map_cons, List.mem_cons] at h
      rw [List.map_cons, List.map_cons, ih (h.resolve_left (Ne.symm hne))]

theorem mem_keys_assign {j : String} :
    j ∈ (assign k v kvs).map Prod.fst ↔ j ∈ kvs.map Prod.fst ∨ j = k := by
  by_cases h : k ∈ kvs.map Prod.fst
  · rw [keys_assign_of_mem h]
    constructor
    · exact .inl
    · rintro (hj | rfl)
      · exact hj
      · exact h
  · rw [assign_of_notMem h, List.map_append, List.mem_append, List.map_singleton,
      List.mem_singleton]

theorem length_assign_of_mem (h : k ∈ kvs.map Prod.fst) :
    (assign k v kvs).length = kvs.length := by
  rw [← List.length_map (f := Prod.fst), keys_assign_of_mem h, List.length_map]

/-- The items of a dictionary that has got these entries, one after the other. -/
def assigned (xs : List (String × Json)) : List (String × Json) :=
  xs.foldl (fun kvs x => assign x.1 x.2 kvs) []

@[simp] theorem assigned_nil : assigned [] = [] := rfl

@[simp] theorem assigned_concat : assigned (xs ++ [x]) = assign x.1 x.2 (assigned xs) := by
  unfold assigned
  rw [List.foldl_append]
  rfl

/-- The keys are those of the entries. -/
theorem mem_keys_assigned : k ∈ (assigned xs).map Prod.fst ↔ k ∈ xs.map Prod.fst := by
  induction xs using List.reverseRecOn with
  | nil => exact Iff.rfl
  | append_singleton xs x ih =>
    rw [assigned_concat, mem_keys_assign, ih, List.map_append, List.mem_append,
      List.map_singleton, List.mem_singleton]

theorem length_assigned_le : (assigned xs).length ≤ xs.length := by
  induction xs using List.reverseRecOn with
  | nil => exact le_refl 0
  | append_singleton xs x ih =>
    rw [assigned_concat, List.length_append, List.length_singleton]
    by_cases h : x.1 ∈ (assigned xs).map Prod.fst
    · rw [length_assign_of_mem h]
      omega
    · rw [assign_of_notMem h, List.length_append, List.length_singleton]
      omega

theorem nodup_concat_iff : ((xs ++ [x]).map Prod.fst).Nodup ↔
    (xs.map Prod.fst).Nodup ∧ x.1 ∉ xs.map Prod.fst := by
  rw [List.map_append, List.map_singleton, List.nodup_append]
  constructor
  · rintro ⟨hxs, -, hne⟩
    exact ⟨hxs, fun hmem => hne _ hmem _ List.mem_cons_self rfl⟩
  · rintro ⟨hxs, hx⟩
    refine ⟨hxs, List.nodup_singleton _, fun j hj i hi => ?_⟩
    rw [List.mem_singleton.mp hi]
    rintro rfl
    exact hx hj

/-- **No entry is lost exactly when no key is given twice.** -/
theorem length_assigned : (assigned xs).length = xs.length ↔ (xs.map Prod.fst).Nodup := by
  induction xs using List.reverseRecOn with
  | nil => exact ⟨fun _ => List.nodup_nil, fun _ => rfl⟩
  | append_singleton xs x ih =>
    rw [nodup_concat_iff, ← ih, ← mem_keys_assigned, assigned_concat, List.length_append,
      List.length_singleton]
    have hle : (assigned xs).length ≤ xs.length := length_assigned_le
    by_cases h : x.1 ∈ (assigned xs).map Prod.fst
    · rw [length_assign_of_mem h]
      constructor
      · intro heq
        omega
      · exact fun hboth => absurd h hboth.2
    · rw [assign_of_notMem h, List.length_append, List.length_singleton]
      constructor
      · intro heq
        exact ⟨by omega, h⟩
      · rintro ⟨heq, -⟩
        omega

theorem assigned_of_nodup (h : (xs.map Prod.fst).Nodup) : assigned xs = xs := by
  induction xs using List.reverseRecOn with
  | nil => rfl
  | append_singleton xs x ih =>
    obtain ⟨hxs, hx⟩ := nodup_concat_iff.mp h
    rw [assigned_concat, ih hxs, assign_of_notMem hx]

end Python.Json
