/-
Sequences of the host language, cut at a separator, and dictionaries of any entries.

* `cut`, `partition`, `splitMax` — `s.partition(sep)` and `s.split(sep, n)`, for texts and
  for bytes;
* `cut_eq_some`, `cut_append`, `cut_append_of_step` — what is cut, and where;
* `setItem`, `update` — `d[k] = v`, for one entry and for a list of them;
* `update_perm` — after an update a dictionary has the entries that are not replaced, and
  the new ones.
-/
import Mathlib.Data.List.Basic
import Mathlib.Data.List.Perm.Basic
import Mathlib.Data.List.Nodup

namespace Python

variable {α β : Type} [DecidableEq α]

/-! ### Separators -/

/-- What is before the first `sep`, and what is after it. -/
def cut (sep : List α) : List α → Option (List α × List α)
  | [] => none
  | x :: xs =>
    if sep.isPrefixOf (x :: xs) then some ([], (x :: xs).drop sep.length)
    else (cut sep xs).map fun y => (x :: y.1, y.2)

/-- `s.partition(sep)`, without the separator. -/
def partition (sep xs : List α) : List α × List α := (cut sep xs).getD (xs, [])

/-- `s.split(sep, n)`. -/
def splitMax (sep : List α) : ℕ → List α → List (List α)
  | 0, xs => [xs]
  | n + 1, xs =>
    match cut sep xs with
    | some (a, b) => a :: splitMax sep n b
    | none => [xs]

variable {s x : α} {sep xs a b : List α}

theorem cut_of_prefix (b : List α) (hsep : sep ≠ []) : cut sep (sep ++ b) = some ([], b) := by
  cases sep with
  | nil => exact absurd rfl hsep
  | cons s sep =>
    have hpre : (s :: sep).isPrefixOf (s :: sep ++ b) = true :=
      List.isPrefixOf_iff_prefix.mpr (List.prefix_append _ _)
    rw [List.cons_append] at hpre ⊢
    rw [cut, if_pos hpre, ← List.cons_append, List.drop_left]

/-- One element that no separator starts with. -/
theorem cut_cons (h : ¬ sep <+: x :: xs) :
    cut sep (x :: xs) = (cut sep xs).map fun y => (x :: y.1, y.2) := by
  rw [cut, if_neg]
  intro hpre
  exact h (List.isPrefixOf_iff_prefix.mp hpre)

theorem cut_eq_some (h : cut sep xs = some (a, b)) : xs = a ++ (sep ++ b) := by
  induction xs generalizing a with
  | nil => cases h
  | cons x xs ih =>
    rw [cut] at h
    split at h
    · rename_i hpre
      cases h
      obtain ⟨t, ht⟩ := List.isPrefixOf_iff_prefix.mp hpre
      rw [← ht, List.drop_left]
      rfl
    · obtain ⟨⟨a', b'⟩, hcut, heq⟩ := Option.map_eq_some_iff.mp h
      cases heq
      rw [List.cons_append, ← ih hcut]

/-- Up to a place the separator has started nowhere. -/
theorem cut_append_of_step {c : List α}
    (h : ∀ a₁ x a₂, a = a₁ ++ x :: a₂ → ¬ sep <+: x :: (a₂ ++ c)) :
    cut sep (a ++ c) = (cut sep c).map fun y => (a ++ y.1, y.2) := by
  induction a with
  | nil =>
    show cut sep c = _
    cases cut sep c with
    | none => rfl
    | some y => rfl
  | cons x a ih =>
    have hx : ¬ sep <+: x :: (a ++ c) := h [] x a rfl
    have ha : cut sep (a ++ c) = (cut sep c).map fun y => (a ++ y.1, y.2) := by
      refine ih fun a₁ y a₂ heq => h (x :: a₁) y a₂ ?_
      rw [heq, List.cons_append]
    rw [List.cons_append, cut_cons hx, ha, Option.map_map]
    rfl

/-- The first element of the separator does not occur before it. -/
theorem cut_append (b : List α) (h : s ∉ a) : cut (s :: sep) (a ++ (s :: sep ++ b)) = some (a, b) := by
  rw [cut_append_of_step, cut_of_prefix b (List.cons_ne_nil s sep), Option.map_some,
    List.append_nil]
  rintro a₁ x a₂ rfl hpre
  have hx : s = x := (List.cons_prefix_cons.mp hpre).1
  refine h ?_
  rw [hx]
  exact List.mem_append_right _ List.mem_cons_self

theorem cut_eq_none (h : s ∉ xs) : cut (s :: sep) xs = none := by
  induction xs with
  | nil => rfl
  | cons x xs ih =>
    rw [List.mem_cons, not_or] at h
    rw [cut_cons, ih h.2, Option.map_none]
    intro hpre
    exact h.1 (List.cons_prefix_cons.mp hpre).1

/-! ### Dictionaries -/

/-- `d[k] = v`: a key that is there keeps its place. -/
def setItem (k : α) (v : β) : List (α × β) → List (α × β)
  | [] => [(k, v)]
  | (k', v') :: rest => if k' = k then (k, v) :: rest else (k', v') :: setItem k v rest

/-- `d[k] = v` for each entry in turn. -/
def update (d entries : List (α × β)) : List (α × β) :=
  entries.foldl (fun d x => setItem x.1 x.2 d) d

variable {k : α} {v : β} {d entries : List (α × β)}

/-- A new key goes to the end. -/
theorem setItem_of_notMem (h : k ∉ d.map Prod.fst) : setItem k v d = d ++ [(k, v)] := by
  induction d with
  | nil => rfl
  | cons x d ih =>
    rw [List.map_cons, List.mem_cons, not_or] at h
    rw [setItem, if_neg (Ne.symm h.1), ih h.2, List.cons_append]

/-- The entries but for the one under the key, and the new one. -/
theorem setItem_perm (h : (d.map Prod.fst).Nodup) :
    (setItem k v d).Perm (d.filter (fun x => x.1 ≠ k) ++ [(k, v)]) := by
  induction d with
  | nil => exact List.Perm.refl _
  | cons x d ih =>
    obtain ⟨k', v'⟩ := x
    obtain ⟨hnot, hrest⟩ := List.nodup_cons.mp h
    rw [setItem]
    split
    · rename_i hk
      subst hk
      have hfilter : d.filter (fun x => x.1 ≠ k') = d := by
        refine List.filter_eq_self.mpr fun y hy => decide_eq_true ?_
        intro hk
        rw [← hk] at hnot
        exact hnot (List.mem_map.mpr ⟨y, hy, rfl⟩)
      rw [List.filter_cons_of_neg (by simp), hfilter]
      exact (List.perm_append_singleton (k', v) d).symm
    · rename_i hk
      rw [List.filter_cons_of_pos (by simpa using hk), List.cons_append]
      exact (ih hrest).cons _

theorem keys_setItem_nodup (h : (d.map Prod.fst).Nodup) :
    ((setItem k v d).map Prod.fst).Nodup := by
  have hperm := (setItem_perm (k := k) (v := v) h).map Prod.fst
  rw [hperm.nodup_iff, List.map_append, List.nodup_append]
  refine ⟨h.sublist (List.filter_sublist.map _), List.nodup_singleton _, ?_⟩
  rintro j hj i hi rfl
  obtain ⟨y, hy, rfl⟩ := List.mem_map.mp hj
  have hne : y.1 ≠ k := of_decide_eq_true (List.mem_filter.mp hy).2
  exact hne (List.mem_singleton.mp hi)

/-- **The entries that are not replaced, and the new ones.** -/
theorem update_perm (hd : (d.map Prod.fst).Nodup) (he : (entries.map Prod.fst).Nodup) :
    (update d entries).Perm (d.filter (fun x => x.1 ∉ entries.map Prod.fst) ++ entries) := by
  induction entries generalizing d with
  | nil =>
    have hall : d.filter (fun x => x.1 ∉ ([] : List (α × β)).map Prod.fst) = d := by
      refine List.filter_eq_self.mpr fun y _ => ?_
      exact decide_eq_true List.not_mem_nil
    rw [hall, List.append_nil]
    exact List.Perm.refl d
  | cons x entries ih =>
    obtain ⟨hx, hrest⟩ := List.nodup_cons.mp he
    have hkeep : (d.filter (fun y => y.1 ≠ x.1)).filter (fun y => y.1 ∉ entries.map Prod.fst) =
        d.filter fun y => y.1 ∉ (x :: entries).map Prod.fst := by
      rw [List.filter_filter]
      refine List.filter_congr fun y _ => ?_
      rw [List.map_cons]
      by_cases hy : y.1 = x.1
      · simp [hy]
      · simp [hy, List.mem_cons]
    have hnew : [(x.1, x.2)].filter (fun y => y.1 ∉ entries.map Prod.fst) = [x] :=
      List.filter_cons_of_pos (decide_eq_true hx)
    refine (ih (keys_setItem_nodup hd) hrest).trans ?_
    have hset := (setItem_perm (k := x.1) (v := x.2) hd).filter
      fun y => y.1 ∉ entries.map Prod.fst
    rw [List.filter_append, hkeep, hnew] at hset
    have hboth := hset.append_right entries
    rwa [List.append_assoc, List.singleton_append] at hboth

end Python
