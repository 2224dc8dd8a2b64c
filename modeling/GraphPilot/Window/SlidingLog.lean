/-
Sliding windows over a history of arrivals.

Arrivals carry a key and a time.  An arrival is admitted if fewer than `max` arrivals of
its key have been admitted in the window of length `w` that ends with it; one that is
refused leaves no trace.

* `length_within_le` — no window of this length has more than `max` admitted arrivals;
* `drop_findIdx` — trimming a sorted log is filtering it.
-/
import Mathlib.Algebra.Order.Group.Defs
import Mathlib.Algebra.Order.Monoid.Unbundled.Basic
import Mathlib.Data.List.Induction
import Mathlib.Data.List.Pairwise

namespace SlidingWindow

structure Arrival (κ T : Type) where
  key : κ
  time : T
deriving DecidableEq

section Trim

variable {T : Type} [LinearOrder T]

/-- What is left of a sorted log after a cutoff. -/
theorem drop_findIdx {times : List T} (hsorted : times.Pairwise (· ≤ ·)) (cutoff : T) :
    times.drop (times.findIdx fun s => cutoff ≤ s) = times.filter fun s => cutoff ≤ s := by
  induction times with
  | nil => rfl
  | cons s times ih =>
    obtain ⟨hle, hsorted⟩ := List.pairwise_cons.mp hsorted
    rw [List.findIdx_cons, List.filter_cons]
    by_cases h : cutoff ≤ s
    · -- all that follows is later
      rw [decide_eq_true h]
      have hall : times.filter (fun s => cutoff ≤ s) = times :=
        List.filter_eq_self.mpr fun s' hs' => decide_eq_true (h.trans (hle s' hs'))
      rw [if_pos rfl, hall]
      rfl
    · rw [decide_eq_false h]
      exact ih hsorted

omit [LinearOrder T] in
/-- What comes before the first element of a kind is not of this kind. -/
theorem not_of_mem_take {p : T → Bool} {times : List T} {s : T}
    (h : s ∈ times.take (times.findIdx p)) : p s = false := by
  induction times with
  | nil => cases h
  | cons s' times ih =>
    rw [List.findIdx_cons] at h
    by_cases hs' : p s' = true
    · rw [hs'] at h
      cases h
    · rw [Bool.not_eq_true] at hs'
      rw [hs'] at h
      rcases List.mem_cons.mp h with rfl | h
      · exact hs'
      · exact ih h

end Trim

variable {κ T : Type} [DecidableEq κ] [AddCommGroup T] [LinearOrder T]

/-- The arrivals of a key from one time to another, both included. -/
def within (k : κ) (a b : T) (xs : List (Arrival κ T)) : List (Arrival κ T) :=
  xs.filter fun x => x.key = k ∧ a ≤ x.time ∧ x.time ≤ b

/-- Whether an arrival is admitted after those that have been. -/
def admits (max : ℕ) (w : T) (before : List (Arrival κ T)) (x : Arrival κ T) : Bool :=
  (within x.key (x.time - w) x.time before).length < max

/-- The arrivals that have been admitted, after one more. -/
def offer (max : ℕ) (w : T) (before : List (Arrival κ T)) (x : Arrival κ T) :
    List (Arrival κ T) :=
  if admits max w before x then before ++ [x] else before

/-- The arrivals that are admitted. -/
def admitted (max : ℕ) (w : T) (xs : List (Arrival κ T)) : List (Arrival κ T) :=
  xs.foldl (offer max w) []

variable {max : ℕ} {w : T} {xs before : List (Arrival κ T)}

theorem admitted_append (x : Arrival κ T) :
    admitted max w (xs ++ [x]) = offer max w (admitted max w xs) x := by
  unfold admitted
  rw [List.foldl_append]
  rfl

omit [AddCommGroup T] in
theorem within_append (k : κ) (a b : T) (ys zs : List (Arrival κ T)) :
    within k a b (ys ++ zs) = within k a b ys ++ within k a b zs :=
  List.filter_append ..

/-- What is admitted has arrived, in this order. -/
theorem admitted_sublist : (admitted max w xs).Sublist xs := by
  induction xs using List.reverseRecOn with
  | nil => exact .slnil
  | append_singleton xs x ih =>
    rw [admitted_append, offer]
    split
    · exact ih.append (.refl _)
    · exact ih.trans (List.sublist_append_left _ _)

/-- **No window has more admitted arrivals of a key than are allowed.** -/
theorem length_within_le [IsOrderedAddMonoid T]
    (hsorted : xs.Pairwise fun x y => x.time ≤ y.time) (k : κ) (a : T) :
    (within k a (a + w) (admitted max w xs)).length ≤ max := by
  induction xs using List.reverseRecOn with
  | nil => exact Nat.zero_le _
  | append_singleton xs x ih =>
    obtain ⟨hxs, -, hlast⟩ := List.pairwise_append.mp hsorted
    have hle : ∀ y ∈ admitted max w xs, y.time ≤ x.time := fun y hy =>
      hlast y (admitted_sublist.subset hy) x List.mem_cons_self
    rw [admitted_append, offer]
    by_cases hadmits : admits max w (admitted max w xs) x = true
    · rw [if_pos hadmits, within_append]
      by_cases hin : x.key = k ∧ a ≤ x.time ∧ x.time ≤ a + w
      · -- whatever else is in the window is in the one that ends with the new arrival
        have hlength : (within k a (a + w) (admitted max w xs)).length ≤
            (within x.key (x.time - w) x.time (admitted max w xs)).length := by
          unfold within
          rw [← List.countP_eq_length_filter, ← List.countP_eq_length_filter]
          refine List.countP_mono_left fun y hy hwindow => ?_
          obtain ⟨hkey, hfrom, -⟩ := of_decide_eq_true hwindow
          have hstart : x.time - w ≤ a := sub_le_iff_le_add.mpr hin.2.2
          exact decide_eq_true ⟨hkey.trans hin.1.symm, hstart.trans hfrom, hle y hy⟩
        have hone : within k a (a + w) [x] = [x] := List.filter_eq_self.mpr fun y hy => by
          obtain rfl := List.mem_singleton.mp hy
          exact decide_eq_true hin
        have hcount := of_decide_eq_true hadmits
        rw [hone, List.length_append, List.length_singleton]
        omega
      · have hnone : within k a (a + w) [x] = [] := List.filter_eq_nil_iff.mpr fun y hy => by
          obtain rfl := List.mem_singleton.mp hy
          rwa [decide_eq_true_eq]
        rw [hnone, List.append_nil]
        exact ih hxs
    · rw [if_neg hadmits]
      exact ih hxs

end SlidingWindow
