/-
JSON values as the host language holds them.

`json.loads` gives `None`, booleans, integers, floats, strings, lists and
dictionaries; a dictionary keeps its keys in insertion order and each key
once.  Floats are exact rationals here: only their truncation and their
equality are ever used.

* `get` / `set` — `d.get(k)` and `d[k] = v`, with the read-after-write laws;
* `truthy` — the truth value of `x or y` and `if x`;
* `int?` — `int(x)`, where `none` is a `TypeError` or `ValueError`;
* `Key` — hashable scalars up to `==`, the keys of dictionaries and sets.
-/
import Mathlib.Data.Rat.Floor
import Mathlib.Data.List.Basic

namespace Python

/-- A JSON value. -/
inductive Json where
  | null
  | bool (b : Bool)
  | int (n : ℤ)
  | float (q : ℚ)
  | str (s : String)
  | arr (xs : List Json)
  | obj (kvs : List (String × Json))

namespace Json

instance : Inhabited Json := ⟨.null⟩

/-- Lookup in the items of a dictionary. -/
def lookup (k : String) : List (String × Json) → Option Json
  | [] => none
  | (k', v) :: rest => if k' = k then some v else lookup k rest

/-- Assignment into the items of a dictionary: an existing key keeps its
place. -/
def assign (k : String) (v : Json) : List (String × Json) → List (String × Json)
  | [] => [(k, v)]
  | (k', v') :: rest => if k' = k then (k, v) :: rest else (k', v') :: assign k v rest

@[simp] theorem lookup_assign_same (k : String) (v : Json) (kvs : List (String × Json)) :
    lookup k (assign k v kvs) = some v := by
  induction kvs with
  | nil => simp [assign, lookup]
  | cons p rest ih =>
    obtain ⟨k', v'⟩ := p
    by_cases h : k' = k <;> simp [assign, lookup, h, ih]

theorem lookup_assign_ne {k j : String} (v : Json) (kvs : List (String × Json)) (h : j ≠ k) :
    lookup j (assign k v kvs) = lookup j kvs := by
  induction kvs with
  | nil => simp [assign, lookup, Ne.symm h]
  | cons p rest ih =>
    obtain ⟨k', v'⟩ := p
    by_cases hk : k' = k
    · subst hk
      simp [assign, lookup, Ne.symm h]
    · by_cases hj : k' = j
      · subst hj
        simp [assign, lookup, hk]
      · simp [assign, lookup, hk, hj, ih]

@[simp] theorem lookup_assign (k j : String) (v : Json) (kvs : List (String × Json)) :
    lookup j (assign k v kvs) = if j = k then some v else lookup j kvs := by
  by_cases h : j = k
  · subst h
    simp
  · simp [lookup_assign_ne v kvs h, h]

/-- `isinstance(x, dict)`, with the items. -/
def items? : Json → Option (List (String × Json))
  | .obj kvs => some kvs
  | _ => none

/-- `x if isinstance(x, dict) else {}`. -/
def dictOrEmpty (j : Json) : List (String × Json) := j.items?.getD []

@[simp] theorem dictOrEmpty_obj (kvs : List (String × Json)) :
    (obj kvs).dictOrEmpty = kvs := rfl

/-- The truth value of a JSON value. -/
def truthy : Json → Bool
  | .null => false
  | .bool b => b
  | .int n => n != 0
  | .float q => q != 0
  | .str s => s != ""
  | .arr xs => !xs.isEmpty
  | .obj kvs => !kvs.isEmpty

/-- `d.get(k)` used as a truth value or a default: `None` when absent. -/
def getD (k : String) (kvs : List (String × Json)) : Json := (lookup k kvs).getD .null

@[simp] theorem getD_assign (k j : String) (v : Json) (kvs : List (String × Json)) :
    getD j (assign k v kvs) = if j = k then v else getD j kvs := by
  by_cases h : j = k <;> simp [getD, h]

end Json

/-! ### `int(x)` -/

/-- ASCII whitespace, as `str.strip` removes it. -/
def isSpace (c : Char) : Bool :=
  c = ' ' || c = '\t' || c = '\n' || c = '\r' || c = '\x0b' || c = '\x0c'

/-- The value of a decimal digit. -/
def digit? (c : Char) : Option ℕ :=
  if '0' ≤ c ∧ c ≤ '9' then some (c.toNat - '0'.toNat) else none

/-- The digits of an integer literal, single underscores allowed between
them; `acc` is the value so far. -/
def digits? (acc : ℕ) : List Char → Option ℕ
  | [] => some acc
  | '_' :: c :: cs => do
    let d ← digit? c
    digits? (10 * acc + d) cs
  | c :: cs => do
    let d ← digit? c
    digits? (10 * acc + d) cs

/-- An unsigned integer literal: at least one digit, first. -/
def natLiteral? : List Char → Option ℕ
  | [] => none
  | c :: cs => do
    let d ← digit? c
    digits? d cs

/-- `int(s)` of a string. -/
def intOfString? (s : String) : Option ℤ :=
  match ((s.toList.dropWhile isSpace).reverse.dropWhile isSpace).reverse with
  | '-' :: cs => (natLiteral? cs).map fun n => -(n : ℤ)
  | '+' :: cs => (natLiteral? cs).map fun n => (n : ℤ)
  | cs => (natLiteral? cs).map fun n => (n : ℤ)

/-- `int(x)`: truncation of a float, a literal in a string; `none` when it
raises `TypeError` or `ValueError`. -/
def Json.int? : Json → Option ℤ
  | .bool b => some (if b then 1 else 0)
  | .int n => some n
  | .float q => some (if 0 ≤ q then ⌊q⌋ else ⌈q⌉)
  | .str s => intOfString? s
  | .null => none
  | .arr _ => none
  | .obj _ => none

/-! ### Dictionary keys -/

/-- Hashable scalars up to `==`: as keys `1`, `1.0` and `True` are one. -/
inductive Key where
  | none
  | num (q : ℚ)
  | str (s : String)
deriving DecidableEq

/-- The truth value of a key. -/
def Key.truthy : Key → Bool
  | .none => false
  | .num q => q != 0
  | .str s => s != ""

/-- The key that a JSON value is; a list or a dictionary is not hashable. -/
def Json.key? : Json → Option Key
  | .null => some .none
  | .bool b => some (.num (if b then 1 else 0))
  | .int n => some (.num n)
  | .float q => some (.num q)
  | .str s => some (.str s)
  | .arr _ => Option.none
  | .obj _ => Option.none

end Python
