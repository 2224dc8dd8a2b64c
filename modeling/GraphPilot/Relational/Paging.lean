/-
Pages of a sorted query.

`ORDER BY key DESC` leaves open which of two rows with one key comes first, and each query
for a page may choose anew.  A page is what `OFFSET` and `LIMIT` cut out of such an answer.

* `take_perm` — where no group of equal keys straddles a cut, all answers have the same rows
  before it;
* `pages_perm` — so the pages of any answers have every row once;
* `exists_repeated` — where a group straddles a cut, some answers show a row on two pages.
-/
import Mathlib.Data.List.Nodup
import Mathlib.Data.List.Perm.Basic
import Mathlib.Data.List.Sort

namespace Paging

variable {α κ : Type} [LinearOrder κ] (key : α → κ)

/-- A list of the rows that `ORDER BY key DESC` allows. -/
structure Answers (rows l : List α) : Prop where
  perm : l.Perm rows
  sorted : l.Pairwise fun x y => key y ≤ key x

/-- The `k`-th page, the first one being page zero. -/
def page (size k : ℕ) (l : List α) : List α := (l.drop (k * size)).take size

/-- How many rows have a greater key. -/
def above (v : κ) (l : List α) : ℕ := l.countP fun x => v < key x

/-- How many rows have this key or a greater one. -/
def atLeast (v : κ) (l : List α) : ℕ := l.countP fun x => v ≤ key x

/-- The rows with one key do not all stand on one side of the end of a page. -/
def Straddles (size : ℕ) (rows : List α) : Prop :=
  ∃ v k, above key v rows < k * size ∧ k * size < atLeast key v rows

variable {key} {rows l l' : List α} {size b n : ℕ}

/-! ### Where nothing straddles -/

/-- The rows with a greater key stand at the front. -/
theorem take_above (h : l.Pairwise fun x y => key y ≤ key x) (v : κ) :
    l.take (above key v l) = l.filter fun x => v < key x := by
  induction l with
  | nil => rfl
  | cons x l ih =>
    obtain ⟨hx, hl⟩ := List.pairwise_cons.mp h
    by_cases hv : v < key x
    · have habove : above key v (x :: l) = above key v l + 1 := by
        simp [above, hv]
      rw [habove, List.take_succ_cons, ih hl]
      simp [hv]
    · -- nor has any of the rows that follow
      have hnone : ∀ y ∈ x :: l, ¬ v < key y := by
        intro y hy
        rcases List.mem_cons.mp hy with rfl | hy
        · exact hv
        · exact fun hlt => hv (hlt.trans_le (hx y hy))
      have habove : above key v (x :: l) = 0 := by
        unfold above
        rw [List.countP_eq_zero]
        intro y hy hlt
        exact hnone y hy (of_decide_eq_true hlt)
      have hfilter : (x :: l).filter (fun y => v < key y) = [] := by
        rw [List.filter_eq_nil_iff]
        intro y hy hlt
        exact hnone y hy (of_decide_eq_true hlt)
      rw [habove, hfilter, List.take_zero]

/-- The key of the row behind a cut has so many greater ones, or it straddles the cut. -/
theorem above_eq_of_cut (h : l.Pairwise fun x y => key y ≤ key x) (hb : b < l.length)
    (hcut : ¬ (above key (key l[b]) l < b ∧ b < atLeast key (key l[b]) l)) :
    above key (key l[b]) l = b := by
  have hdrop : l.drop b = l[b] :: l.drop (b + 1) := List.drop_eq_getElem_cons hb
  obtain ⟨-, hsuffix, hcross⟩ : (l.take b).Pairwise _ ∧ (l.drop b).Pairwise _ ∧ _ := by
    rw [← List.take_append_drop b l] at h
    exact List.pairwise_append.mp h
  have hle : above key (key l[b]) l ≤ b := by
    have hsplit : (l.take b ++ l.drop b).countP (fun x => decide (key l[b] < key x)) = _ :=
      List.countP_append
    rw [List.take_append_drop] at hsplit
    have hnone : (l.drop b).countP (fun x => decide (key l[b] < key x)) = 0 := by
      rw [List.countP_eq_zero, hdrop]
      rw [hdrop] at hsuffix
      intro x hx hlt
      rcases List.mem_cons.mp hx with rfl | hx
      · exact lt_irrefl _ (of_decide_eq_true hlt)
      · exact absurd (of_decide_eq_true hlt) (not_lt.mpr ((List.pairwise_cons.mp hsuffix).1 x hx))
    have htake : (l.take b).countP (fun x => decide (key l[b] < key x)) ≤ b :=
      List.countP_le_length.trans (List.length_take_le b l)
    unfold above
    omega
  have hlt : b < atLeast key (key l[b]) l := by
    have hsplit : (l.take b ++ l.drop b).countP (fun x => decide (key l[b] ≤ key x)) = _ :=
      List.countP_append
    rw [List.take_append_drop] at hsplit
    have htake : (l.take b).countP (fun x => decide (key l[b] ≤ key x)) = b := by
      have hall : (l.take b).countP (fun x => decide (key l[b] ≤ key x)) = (l.take b).length := by
        rw [List.countP_eq_length]
        intro x hx
        refine decide_eq_true (hcross x hx _ ?_)
        rw [hdrop]
        exact List.mem_cons_self
      rw [hall, List.length_take, Nat.min_eq_left hb.le]
    have hself : 0 < (l.drop b).countP (fun x => decide (key l[b] ≤ key x)) := by
      rw [List.countP_pos_iff, hdrop]
      exact ⟨_, List.mem_cons_self, decide_eq_true le_rfl⟩
    unfold atLeast
    omega
  by_contra hne
  exact hcut ⟨by omega, hlt⟩

theorem Answers.above_eq (h : Answers key rows l) (v : κ) : above key v l = above key v rows :=
  h.perm.countP_eq _

theorem Answers.atLeast_eq (h : Answers key rows l) (v : κ) :
    atLeast key v l = atLeast key v rows := h.perm.countP_eq _

/-- **Before a cut that nothing straddles, all answers have the same rows.** -/
theorem take_perm (h : Answers key rows l) (h' : Answers key rows l')
    (hcut : ∀ v, ¬ (above key v rows < b ∧ b < atLeast key v rows)) :
    (l.take b).Perm (l'.take b) := by
  by_cases hb : b < l.length
  · have habove : above key (key l[b]) l = b := by
      refine above_eq_of_cut h.sorted hb ?_
      rw [h.above_eq, h.atLeast_eq]
      exact hcut _
    have habove' : above key (key l[b]) l' = b := by
      rw [h'.above_eq, ← h.above_eq, habove]
    have hl := take_above h.sorted (key l[b])
    have hl' := take_above h'.sorted (key l[b])
    rw [habove] at hl
    rw [habove'] at hl'
    rw [hl, hl']
    exact (h.perm.trans h'.perm.symm).filter _
  · have hlength : l.length = l'.length := (h.perm.trans h'.perm.symm).length_eq
    rw [List.take_of_length_le (by omega), List.take_of_length_le (by omega)]
    exact h.perm.trans h'.perm.symm

/-- The rows before the end of a page are those before it, and those on it. -/
theorem take_page (size k : ℕ) (l : List α) :
    l.take ((k + 1) * size) = l.take (k * size) ++ page size k l := by
  unfold page
  rw [Nat.add_mul, Nat.one_mul, List.take_add]

/-- **The pages of any answers have the rows of the first pages of one.** -/
theorem pages_perm {order : ℕ → List α} (hnot : ¬ Straddles key size rows)
    (h : Answers key rows l) (horder : ∀ k, Answers key rows (order k)) (n : ℕ) :
    ((List.range n).flatMap fun k => page size k (order k)).Perm (l.take (n * size)) := by
  have hcut : ∀ k v, ¬ (above key v rows < k * size ∧ k * size < atLeast key v rows) :=
    fun k v hv => hnot ⟨v, k, hv⟩
  induction n with
  | zero =>
    rw [Nat.zero_mul, List.take_zero]
    rfl
  | succ n ih =>
    rw [List.range_succ, List.flatMap_append, List.flatMap_singleton]
    -- before the page, and with it, its answer has the rows that the other one has
    have hbefore := take_perm (horder n) h (hcut n)
    have hafter := take_perm (horder n) h (hcut (n + 1))
    rw [take_page, take_page] at hafter
    rw [take_page]
    exact (ih.trans hbefore.symm).append_right _ |>.trans hafter

/-! ### Where a group straddles -/

theorem exists_answers (key : α → κ) (rows : List α) : ∃ l, Answers key rows l := by
  refine ⟨rows.mergeSort fun x y => key y ≤ key x, List.mergeSort_perm _ _, ?_⟩
  have hsorted : (rows.mergeSort fun x y => key y ≤ key x).Pairwise fun x y =>
      decide (key y ≤ key x) = true := List.pairwise_mergeSort
    (by simpa using fun x y z h h' => le_trans h' h) (by simpa using fun x y => le_total _ _) rows
  simpa using hsorted

/-- Around the cut there are two rows with one key. -/
theorem exists_equal (h : l.Pairwise fun x y => key y ≤ key x) {v : κ} (hb : 0 < b)
    (habove : above key v l < b) (hatLeast : b < atLeast key v l) :
    ∃ (before after : List α) (x y : α), l = before ++ x :: y :: after ∧
      before.length + 1 = b ∧ key x = key y := by
  have hlength : b < l.length := hatLeast.trans_le List.countP_le_length
  have hx : l.drop (b - 1) = l[b - 1] :: l.drop b := by
    rw [List.drop_eq_getElem_cons (by omega), Nat.sub_add_cancel hb]
  have hy : l.drop b = l[b] :: l.drop (b + 1) := List.drop_eq_getElem_cons hlength
  have hsplit : l = l.take (b - 1) ++ l[b - 1] :: l[b] :: l.drop (b + 1) := by
    rw [← hy, ← hx, List.take_append_drop]
  have hbefore : (l.take (b - 1)).length + 1 = b := by
    rw [List.length_take]
    omega
  refine ⟨_, _, _, _, hsplit, hbefore, ?_⟩
  generalize l.take (b - 1) = before at hsplit hbefore
  generalize l[b - 1] = x at hsplit
  generalize l[b] = y at hsplit
  generalize l.drop (b + 1) = after at hsplit
  rw [hsplit] at h habove hatLeast
  obtain ⟨-, hrest, hcross⟩ := List.pairwise_append.mp h
  obtain ⟨hxs, hys⟩ := List.pairwise_cons.mp hrest
  refine le_antisymm ?_ (hxs y List.mem_cons_self)
  -- if the first key is greater than the other one, the value is not between them
  by_contra hlt
  rw [not_le] at hlt
  rcases lt_or_ge v (key x) with hv | hv
  · have hall : before.countP (fun z => decide (v < key z)) = before.length := by
      rw [List.countP_eq_length]
      intro z hz
      exact decide_eq_true (hv.trans_le (hcross z hz x List.mem_cons_self))
    unfold above at habove
    rw [List.countP_append, hall, List.countP_cons_of_pos (by simpa using hv)] at habove
    omega
  · have hnone : (y :: after).countP (fun z => decide (v ≤ key z)) = 0 := by
      rw [List.countP_eq_zero]
      intro z hz hle
      have hzy : key z ≤ key y := by
        rcases List.mem_cons.mp hz with rfl | hz
        · exact le_rfl
        · exact (List.pairwise_cons.mp hys).1 z hz
      exact absurd (of_decide_eq_true hle) (not_le.mpr (hzy.trans_lt (hlt.trans_le hv)))
    have hle : before.countP (fun z => decide (v ≤ key z)) ≤ before.length :=
      List.countP_le_length
    unfold atLeast at hatLeast
    rw [List.countP_append, List.countP_cons, hnone] at hatLeast
    split at hatLeast <;> omega

/-- **A group that straddles a cut can show a row on both sides.** -/
theorem exists_repeated (hsize : 0 < size) (h : Straddles key size rows) :
    ∃ (l l' : List α) (k : ℕ) (x : α), Answers key rows l ∧ Answers key rows l' ∧
      x ∈ page size k l ∧ x ∈ page size (k + 1) l' := by
  obtain ⟨v, k, habove, hatLeast⟩ := h
  obtain ⟨l, hl⟩ := exists_answers key rows
  have hb : 0 < k * size := by omega
  rw [← hl.above_eq] at habove
  rw [← hl.atLeast_eq] at hatLeast
  obtain ⟨before, after, x, y, rfl, hlength, hxy⟩ := exists_equal hl.sorted hb habove hatLeast
  obtain ⟨j, rfl⟩ : ∃ j, k = j + 1 := by
    cases k with
    | zero => omega
    | succ j => exact ⟨j, rfl⟩
  -- the other answer has the two rows the other way round
  refine ⟨before ++ x :: y :: after, before ++ y :: x :: after, j, x, hl, ⟨?_, ?_⟩, ?_, ?_⟩
  · exact ((List.Perm.swap x y after).append_left before).trans hl.perm
  · have hsorted := hl.sorted
    simp only [List.pairwise_append, List.pairwise_cons, List.mem_cons] at hsorted ⊢
    obtain ⟨hbefore, ⟨hx, hy, hafter⟩, hcross⟩ := hsorted
    refine ⟨hbefore, ⟨?_, ?_, hafter⟩, ?_⟩
    · rintro z (rfl | hz)
      · exact hxy.le
      · exact hy z hz
    · intro z hz
      exact hx z (.inr hz)
    · rintro z hz w (rfl | rfl | hw)
      · exact hcross z hz w (.inr (.inl rfl))
      · exact hcross z hz w (.inl rfl)
      · exact hcross z hz w (.inr (.inr hw))
  · -- the last row of one page
    have hlast : j * size + (size - 1) = before.length := by
      rw [Nat.add_mul, Nat.one_mul] at hlength
      omega
    refine List.mem_of_getElem? (i := size - 1) ?_
    unfold page
    rw [List.getElem?_take_of_lt (by omega), List.getElem?_drop, hlast,
      List.getElem?_append_right le_rfl, Nat.sub_self]
    rfl
  · -- and the first one of the next
    refine List.mem_of_getElem? (i := 0) ?_
    unfold page
    rw [List.getElem?_take_of_lt hsize, List.getElem?_drop, Nat.add_zero, ← hlength,
      List.getElem?_append_right (Nat.le_add_right _ 1), Nat.add_sub_cancel_left]
    rfl

/-- **The pages of all answers have every row once** if and only if no rows with one key stand
on both sides of the end of a page. -/
theorem pages_perm_iff (hsize : 0 < size) (hrows : rows.Nodup) :
    (∀ order : ℕ → List α, (∀ k, Answers key rows (order k)) → ∀ n, rows.length ≤ n * size →
        ((List.range n).flatMap fun k => page size k (order k)).Perm rows) ↔
      ¬ Straddles key size rows := by
  constructor
  · intro h hstraddles
    obtain ⟨l, l', k, x, hl, hl', hx, hx'⟩ := exists_repeated hsize hstraddles
    have horder : ∀ i, Answers key rows (if i = k then l else l') := by
      intro i
      split
      · exact hl
      · exact hl'
    have hlength : rows.length ≤ (rows.length + (k + 2)) * size := by
      calc rows.length ≤ rows.length * size := Nat.le_mul_of_pos_right _ hsize
        _ ≤ (rows.length + (k + 2)) * size := Nat.mul_le_mul_right _ (Nat.le_add_right _ _)
    have hperm := h _ horder (rows.length + (k + 2)) hlength
    -- two of the pages have a row in common
    have hnodup := hperm.nodup_iff.mpr hrows
    have hdisjoint := (List.nodup_flatMap.mp hnodup).2
    have hapart := List.pairwise_iff_getElem.mp hdisjoint k (k + 1)
      (by rw [List.length_range]; omega) (by rw [List.length_range]; omega) (by omega)
    simp only [List.getElem_range] at hapart
    refine hapart (a := x) ?_ ?_
    · dsimp only
      rw [if_pos rfl]
      exact hx
    · dsimp only
      rw [if_neg (by omega)]
      exact hx'
  · intro hnot order horder n hn
    obtain ⟨l, hl⟩ := exists_answers key rows
    have hpages := pages_perm hnot hl horder n
    rw [List.take_of_length_le (by rw [hl.perm.length_eq]; exact hn)] at hpages
    exact hpages.trans hl.perm

end Paging
