/-
Values of JavaScript.

A text is a list of code units, which need not be well-formed Unicode.  An object is a
list of its properties in order.  `image` is what is left of a value that is written as
JSON and read again: numbers that are not finite become `null`, `-0` becomes `0`, and
properties without a value are dropped.

* `head?_trim`, `trim_trim` — what is left of a text without the space around it;
* `image_image` — an image is its own image.
-/
import Mathlib.Data.List.DropRight
import Mathlib.Data.Rat.Defs

namespace Js

/-! ### Texts -/

abbrev Text := List UInt16

/-- A literal of ASCII characters. -/
def text (s : String) : Text := s.toList.map fun c => c.toNat.toUInt16

/-- The code points of white space and of line terminators. -/
def spaces : List ℕ :=
  [0x9, 0xA, 0xB, 0xC, 0xD, 0x20, 0xA0, 0x1680, 0x2000, 0x2001, 0x2002, 0x2003, 0x2004, 0x2005,
    0x2006, 0x2007, 0x2008, 0x2009, 0x200A, 0x2028, 0x2029, 0x202F, 0x205F, 0x3000, 0xFEFF]

section Trim

variable {α : Type} {space : α → Bool} {l : List α}

/-- `text.trim()`, for texts of characters or code units. -/
def trim (space : α → Bool) (l : List α) : List α := (l.dropWhile space).rdropWhile space

/-- The first character that is left is the first one that is no space. -/
theorem head?_trim : (trim space l).head? = (l.dropWhile space).head? := by
  unfold trim
  cases hdrop : l.dropWhile space with
  | nil => rfl
  | cons c rest =>
    have hnot := List.head?_dropWhile_not space l
    rw [hdrop] at hnot
    -- the spaces behind it end before it
    obtain ⟨tail, hstem⟩ := List.rdropWhile_prefix space (c :: rest)
    cases hleft : (c :: rest).rdropWhile space with
    | nil =>
      have hall := (List.rdropWhile_eq_nil_iff).mp hleft c List.mem_cons_self
      rw [show space c = false from hnot] at hall
      cases hall
    | cons d left =>
      rw [hleft, List.cons_append] at hstem
      rw [(List.cons.inj hstem).1]
      rfl

/-- No space is in front of what has been trimmed. -/
theorem dropWhile_trim : (trim space l).dropWhile space = trim space l := by
  cases htrim : trim space l with
  | nil => rfl
  | cons c rest =>
    have hhead : (l.dropWhile space).head? = some c := by
      rw [← head?_trim, htrim]
      rfl
    have hnot := List.head?_dropWhile_not space l
    rw [hhead] at hnot
    exact List.dropWhile_cons_of_neg (by simp [hnot])

theorem trim_trim : trim space (trim space l) = trim space l := by
  have hidem : (trim space l).rdropWhile space = trim space l :=
    List.rdropWhile_idempotent space _
  calc trim space (trim space l)
      = ((trim space l).dropWhile space).rdropWhile space := rfl
    _ = trim space l := by rw [dropWhile_trim, hidem]

end Trim

/-! ### Values -/

/-- A number: not a number, infinite, `-0` or a finite number. -/
inductive Number where
  | nan
  | inf (negative : Bool)
  | negZero
  | fin (q : ℚ)
deriving DecidableEq

inductive Value where
  | undefined
  | null
  | bool (b : Bool)
  | num (n : Number)
  | str (s : Text)
  | arr (items : List Value)
  | obj (fields : List (Text × Value))

namespace Value

/-- The truth value of a value. -/
def truthy : Value → Bool
  | undefined => false
  | null => false
  | bool b => b
  | num .nan => false
  | num .negZero => false
  | num (.fin q) => q ≠ 0
  | str s => s ≠ []
  | _ => true

/-- `a || b` -/
def or (a b : Value) : Value := if a.truthy then a else b

/-- `a ?? b` -/
def nullish : Value → Value → Value
  | undefined, b => b
  | null, b => b
  | a, _ => a

/-- The value of a property in a list of properties. -/
def lookup (key : Text) : List (Text × Value) → Value
  | [] => undefined
  | (k, v) :: fields => if k = key then v else lookup key fields

/-- `value?.key` -/
def get (key : Text) : Value → Value
  | obj fields => lookup key fields
  | _ => undefined

/-- Whether a value that JSON has is an object. -/
def isObject : Value → Bool
  | obj _ => true
  | _ => false

/-! ### Images -/

/-- An item of an array, which has no holes in JSON. -/
def orNull : Value → Value
  | undefined => null
  | v => v

/-- Put a property in front of others, if it has a value. -/
def putField (k : Text) : Value → List (Text × Value) → List (Text × Value)
  | undefined, fields => fields
  | v, fields => (k, v) :: fields

/-- A number in JSON. -/
def imageNum : Number → Value
  | .nan => null
  | .inf _ => null
  | .negZero => num (.fin 0)
  | .fin q => num (.fin q)

mutual

/-- A value that has been written as JSON and read again. -/
def image : Value → Value
  | undefined => undefined
  | null => null
  | bool b => bool b
  | num n => imageNum n
  | str s => str s
  | arr items => arr (imageItems items)
  | obj fields => obj (imageFields fields)

def imageItems : List Value → List Value
  | [] => []
  | v :: vs => orNull (image v) :: imageItems vs

def imageFields : List (Text × Value) → List (Text × Value)
  | [] => []
  | (k, v) :: fields => putField k (image v) (imageFields fields)

end

theorem image_imageNum (n : Number) : image (imageNum n) = imageNum n := by
  cases n <;> rfl

theorem orNull_orNull (v : Value) : orNull (orNull v) = orNull v := by
  cases v <;> rfl

theorem image_orNull (v : Value) : image (orNull v) = orNull (image v) := by
  cases v with
  | num n => cases n <;> rfl
  | undefined | null | bool | str | arr | obj => rfl

theorem imageFields_putField (k : Text) (v : Value) (fields : List (Text × Value)) :
    imageFields (putField k v fields) = putField k (image v) (imageFields fields) := by
  cases v with
  | undefined => rfl
  | null | bool | num | str | arr | obj => rfl

mutual

/-- What has been through JSON once is not changed by it. -/
theorem image_image : ∀ v : Value, image (image v) = image v
  | undefined => rfl
  | null => rfl
  | bool _ => rfl
  | num n => image_imageNum n
  | str _ => rfl
  | arr items => congrArg arr (imageItems_imageItems items)
  | obj fields => congrArg obj (imageFields_imageFields fields)

theorem imageItems_imageItems : ∀ vs : List Value, imageItems (imageItems vs) = imageItems vs
  | [] => rfl
  | v :: vs => by
    show orNull (image (orNull (image v))) :: imageItems (imageItems vs) =
      orNull (image v) :: imageItems vs
    rw [image_orNull, image_image v, imageItems_imageItems vs, orNull_orNull]

theorem imageFields_imageFields :
    ∀ fields : List (Text × Value), imageFields (imageFields fields) = imageFields fields
  | [] => rfl
  | (k, v) :: fields => by
    show imageFields (putField k (image v) (imageFields fields)) = _
    rw [imageFields_putField, image_image v, imageFields_imageFields fields]
    rfl

end

end Value

end Js
