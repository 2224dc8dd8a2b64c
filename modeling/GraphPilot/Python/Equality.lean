/-
`==` of JSON values.

Numbers are compared by value, so that `1`, `1.0` and `True` are equal; lists by their
elements in order, and dictionaries by their keys with the values under them, in any
order.
-/
import GraphPilot.Python.Dict

namespace Python.Json

/-- The value of a number. -/
def num? : Json → Option ℚ
  | .bool b => some (if b then 1 else 0)
  | .int n => some n
  | .float q => some q
  | _ => none

/-- `a == b`. -/
inductive Same : Json → Json → Prop where
  | null : Same .null .null
  | num {a b : Json} {q : ℚ} (ha : a.num? = some q) (hb : b.num? = some q) : Same a b
  | str (s : String) : Same (.str s) (.str s)
  | arr {xs ys : List Json} (hlength : xs.length = ys.length)
      (helems : ∀ (i : ℕ) (v w : Json), xs[i]? = some v → ys[i]? = some w → Same v w) : Same (.arr xs) (.arr ys)
  | obj {xs ys : List (String × Json)}
      (hkeys : ∀ k : String, (lookup k xs).isSome = (lookup k ys).isSome)
      (hvalues : ∀ (k : String) (v w : Json), lookup k xs = some v → lookup k ys = some w → Same v w) :
      Same (.obj xs) (.obj ys)

namespace Same

variable {a b c : Json} {s : String} {xs ys : List (String × Json)}

protected theorem refl : ∀ a : Json, Same a a
  | .null => .null
  | .bool _ => .num rfl rfl
  | .int _ => .num rfl rfl
  | .float _ => .num rfl rfl
  | .str s => .str s
  | .arr xs => .arr rfl fun i v w hv hw => by
    obtain rfl := Option.some.inj (hv.symm.trans hw)
    have := List.sizeOf_lt_of_mem (List.mem_of_getElem? hv)
    exact Same.refl v
  | .obj kvs => .obj (fun _ => rfl) fun k v w hv hw => by
    obtain rfl := Option.some.inj (hv.symm.trans hw)
    have hlt := List.sizeOf_lt_of_mem (mem_of_lookup hv)
    have hpair : sizeOf (k, v) = 1 + sizeOf k + sizeOf v := Prod.mk.sizeOf_spec k v
    exact Same.refl v
  termination_by a => sizeOf a
  decreasing_by
    all_goals simp_wf
    · omega
    · omega

theorem symm (h : Same a b) : Same b a := by
  induction h with
  | null => exact .null
  | num ha hb => exact .num hb ha
  | str s => exact .str s
  | arr hlength _ ih => exact .arr hlength.symm fun i v w hv hw => ih i w v hw hv
  | obj hkeys _ ih => exact .obj (fun k => (hkeys k).symm) fun k v w hv hw => ih k w v hw hv

/-- A number is equal to numbers only. -/
theorem num_of_num {q : ℚ} (h : Same a b) (ha : a.num? = some q) : b.num? = some q := by
  cases h with
  | num ha' hb => rw [hb, ← ha', ha]
  | _ => cases ha

theorem trans (h : Same a b) (h' : Same b c) : Same a c := by
  induction h generalizing c with
  | null => exact h'
  | num ha hb => exact .num ha (h'.num_of_num hb)
  | str s => exact h'
  | arr hlength helems ih =>
    cases h' with
    | num hb => cases hb
    | arr hlength' helems' =>
      refine .arr (hlength.trans hlength') fun i u w hu hw => ?_
      have hi := (List.getElem?_eq_some_iff.mp hu).1
      rw [hlength] at hi
      have hv := List.getElem?_eq_getElem hi
      exact ih i u _ hu hv (helems' i _ w hv hw)
  | obj hkeys hvalues ih =>
    cases h' with
    | num hb => cases hb
    | obj hkeys' hvalues' =>
      refine .obj (fun k => (hkeys k).trans (hkeys' k)) fun k u w hu hw => ?_
      have hv := hkeys k
      rw [hu] at hv
      obtain ⟨v, hv⟩ := Option.isSome_iff_exists.mp hv.symm
      exact ih k u v hu hv (hvalues' k v w hv hw)

/-- A text is equal to itself only. -/
theorem eq_of_str (h : Same a (.str s)) : a = .str s := by
  cases h with
  | num _ hb => cases hb
  | str => rfl

theorem exists_of_obj (h : Same a (.obj ys)) : ∃ xs, a = .obj xs := by
  cases h with
  | num _ hb => cases hb
  | obj => exact ⟨_, rfl⟩

theorem keys (h : Same (.obj xs) (.obj ys)) (k : String) :
    (lookup k xs).isSome = (lookup k ys).isSome := by
  cases h with
  | num ha => cases ha
  | obj hkeys => exact hkeys k

/-- What equal dictionaries have under a key. -/
theorem lookup_obj (h : Same (.obj xs) (.obj ys)) {k : String} {v : Json}
    (hv : lookup k xs = some v) : ∃ w, lookup k ys = some w ∧ Same v w := by
  cases h with
  | num ha => cases ha
  | obj hkeys hvalues =>
    have hw := hkeys k
    rw [hv] at hw
    obtain ⟨w, hw⟩ := Option.isSome_iff_exists.mp hw.symm
    exact ⟨w, hw, hvalues k v w hv hw⟩

theorem lookup_none (h : Same (.obj xs) (.obj ys)) {k : String} (hnone : lookup k xs = none) :
    lookup k ys = none := by
  cases h with
  | num ha => cases ha
  | obj hkeys _ =>
    have hw := hkeys k
    rw [hnone] at hw
    exact Option.isNone_iff_eq_none.mp (by rw [← Option.not_isSome, ← hw]; rfl)

/-- Dictionaries that have equal values under each key. -/
theorem of_lookup (h : ∀ k, lookup k xs = none ∧ lookup k ys = none ∨
    ∃ v w, lookup k xs = some v ∧ lookup k ys = some w ∧ Same v w) :
    Same (.obj xs) (.obj ys) := by
  refine .obj (fun k => ?_) fun k v w hv hw => ?_
  · rcases h k with ⟨hx, hy⟩ | ⟨v, w, hx, hy, -⟩
    · rw [hx, hy]
    · rw [hx, hy]
      rfl
  · rcases h k with ⟨hx, -⟩ | ⟨v', w', hx, hy, hsame⟩
    · rw [hx] at hv
      cases hv
    · rw [hx] at hv
      rw [hy] at hw
      cases hv
      cases hw
      exact hsame

end Same

end Python.Json
