/-
What the ORM and the helpers of the services add to the statements: the results
of a `SELECT`, `db.refresh`, the columns that a flush writes, and the exceptions of
a check.

The rules are for postconditions that allow an exception.
-/
import GraphPilot.Concurrency.Reading
import GraphPilot.Tenancy.Session

namespace GraphPilot.Orm

open Relational Concurrency
open Tenancy (multipleResultsFound noResultFound)

section Checks

variable {O α : Type} {Ans : O → Type}

/-- Raise what a query answers, if it is an exception. -/
def ofExcept : Except Exn α → Prog Ans Exn α
  | .ok a => .ret a
  | .error e => .raise e

/-- Raise when a check fails. -/
def raiseIf (c : Prop) [Decidable c] (e : Exn) : Prog Ans Exn Unit :=
  if c then .raise e else .ret ()

/-- Raise what a check answers, if anything. -/
def check : Option Exn → Prog Ans Exn Unit
  | none => .ret ()
  | some e => .raise e

/-- `if x is None: raise`. -/
def found (e : Exn) : Option α → Prog Ans Exn α
  | none => .raise e
  | some a => .ret a

/-- `scalar_one_or_none()`. -/
def scalarOneOrNone : List α → Prog Ans Exn (Option α)
  | [] => .ret none
  | [x] => .ret (some x)
  | _ => .raise multipleResultsFound

end Checks

/-! ### Columns -/

/-- The value of a column in an `UPDATE`, which names it only if it differs. -/
def changed {α : Type} [DecidableEq α] (old new : α) : Option α :=
  if new = old then none else some new

/-! ### Rows -/

variable {ι κ Ask M α β : Type} {Row Values : ι → Type} [Schema Row Values κ]
variable {Answer : Ask → Type}

/-- `db.refresh(x)`, of the row under this key. -/
def refresh [DecidableEq κ] (n : ι) (k : κ) :
    Prog (Sql.Ans (Q := Sql.Query Row Values κ Ask) (Sql.Result Answer) (M := M)) Exn (Row n) :=
  (Prog.call (Sql.Op.query (.select n fun x => decide (Keyed.key x = k)))).bind fun rows =>
    found noResultFound (rows : List (Row n)).head?

/-! ### Rules -/

section Rules

variable [DecidableEq ι] [DecidableEq κ] {S : Sql.Service Row Answer Exn M}
variable {P : Sql.Promise (R := ι × κ) (Tables Row) M} {Call : Type}
variable {program : Call → S.Program Unit} {admits : Tables Row → Call → Bool}
variable {cond : S.Condition} {t : ℕ} {ws : List (Sql.RowWrite Row Values κ)}
variable {sv : Sql.Server (Tables Row) (ι × κ) M}
variable {Post : Except Exn α → Sql.Tx (Sql.RowWrite Row Values κ) →
  Sql.Server (Tables Row) (ι × κ) M → Prop} [Sql.Raises ws Post]

theorem follows_ofExcept {r : Except Exn β} {f : β → S.Program α}
    (h : ∀ b, Sql.Follows S P program admits cond t Post (f b) ws sv) :
    Sql.Follows S P program admits cond t Post ((ofExcept r).bind f) ws sv := by
  cases r with
  | ok b => exact h b
  | error e => exact Sql.Raises.raise e sv

theorem follows_raiseIf {c : Prop} [Decidable c] {e : Exn} {f : Unit → S.Program α}
    (h : ¬ c → Sql.Follows S P program admits cond t Post (f ()) ws sv) :
    Sql.Follows S P program admits cond t Post ((raiseIf c e).bind f) ws sv := by
  unfold raiseIf
  split
  · exact Sql.Raises.raise e sv
  · rename_i hc
    exact h hc

theorem follows_check {e? : Option Exn} {f : Unit → S.Program α}
    (h : Sql.Follows S P program admits cond t Post (f ()) ws sv) :
    Sql.Follows S P program admits cond t Post ((check e?).bind f) ws sv := by
  cases e? with
  | none => exact h
  | some e => exact Sql.Raises.raise e sv

theorem follows_found {e : Exn} {x? : Option β} {f : β → S.Program α}
    (h : ∀ x, x? = some x → Sql.Follows S P program admits cond t Post (f x) ws sv) :
    Sql.Follows S P program admits cond t Post ((found e x?).bind f) ws sv := by
  cases x? with
  | none => exact Sql.Raises.raise e sv
  | some x => exact h x rfl

theorem follows_scalarOneOrNone {xs : List β} {f : Option β → S.Program α}
    (h : ∀ x, (∀ y, x = some y → y ∈ xs) → Sql.Follows S P program admits cond t Post (f x) ws sv) :
    Sql.Follows S P program admits cond t Post ((scalarOneOrNone xs).bind f) ws sv := by
  cases xs with
  | nil => exact h none fun y hy => by cases hy
  | cons x xs =>
    cases xs with
    | nil =>
      refine h (some x) fun y hy => ?_
      cases hy
      exact List.mem_cons_self
    | cons y ys => exact Sql.Raises.raise _ sv

omit [Sql.Raises ws Post] in
/-- The row that is loaded again, at the end of a call of which nothing is asked. -/
theorem ends_refresh {n : ι} {k : κ} :
    Sql.Follows S P program admits cond t Concurrency.Ends (refresh n k) ws sv := by
  refine Sql.Follows.select fun sv₁ _ _ => ?_
  cases List.head? _ with
  | none => trivial
  | some x => trivial

end Rules

/-! ### Rules for code that only reads -/

section Reading

variable {d : Tables Row}

/-- What `scalar_one_or_none()` answers. -/
def oneOrNone : List α → Except Exn (Option α)
  | [] => .ok none
  | [x] => .ok (some x)
  | _ => .error multipleResultsFound

theorem answers_scalarOneOrNone (xs : List α) :
    Sql.Answers d (scalarOneOrNone xs : Prog (Sql.Ans (Q := Sql.Query Row Values κ Ask)
      (Sql.Result Answer) (M := M)) Exn (Option α)) (oneOrNone xs) := by
  cases xs with
  | nil => exact .ret none
  | cons x xs =>
    cases xs with
    | nil => exact .ret (some x)
    | cons y ys => exact .raise multipleResultsFound

/-- A `SELECT` of the row under one key. -/
theorem answers_selectOne [DecidableEq κ] {n : ι} {k : κ} {p : Row n → Bool} {r : Except Exn α}
    {f : Option (Row n) → Prog (Sql.Ans (Q := Sql.Query Row Values κ Ask) (Sql.Result Answer)
      (M := M)) Exn α}
    (hp : ∀ r, p r → Keyed.key r = k) (h : Sql.Answers d (f (((d n).find? k).filter p)) r) :
    Sql.Answers d ((Prog.call (.query (.select n p))).bind fun rows =>
      (scalarOneOrNone (rows : List (Row n))).bind f) r := by
  refine .select ?_
  rw [Table.filter_of_key hp]
  generalize ((d n).find? k).filter p = x? at h ⊢
  cases x? with
  | none => exact h
  | some x => exact h

end Reading

/-! ### Rules for code that is alone -/

section Alone

variable {Q I D W R V : Type} {Res : Q → Type} [DecidableEq R]
variable {B : Sql.Backend Res Exn I D W R V M} {t : ℕ} {Mid : D → List M → Prop}
variable {Post : Except Exn α → Sql.Tx W → D → List M → Prop} {s : Sql.Tx W} {d : D} {h : List M}

theorem alone_ofExcept {r : Except Exn β} {f : β → Prog (Sql.Ans Res (M := M)) Exn α}
    (hok : ∀ b, r = .ok b → Sql.Alone B t Mid Post (f b) s d h)
    (hraise : ∀ e, r = .error e → Post (.error e) s d h) :
    Sql.Alone B t Mid Post ((ofExcept r).bind f) s d h := by
  cases r with
  | ok b => exact hok b rfl
  | error e => exact .raise (hraise e rfl)

theorem alone_raiseIf {c : Prop} [Decidable c] {e : Exn}
    {f : Unit → Prog (Sql.Ans Res (M := M)) Exn α}
    (hok : ¬ c → Sql.Alone B t Mid Post (f ()) s d h) (hraise : c → Post (.error e) s d h) :
    Sql.Alone B t Mid Post ((raiseIf c e).bind f) s d h := by
  unfold raiseIf
  split
  · rename_i hc
    exact .raise (hraise hc)
  · rename_i hc
    exact hok hc

theorem alone_check {e? : Option Exn} {f : Unit → Prog (Sql.Ans Res (M := M)) Exn α}
    (hok : e? = none → Sql.Alone B t Mid Post (f ()) s d h)
    (hraise : ∀ e, e? = some e → Post (.error e) s d h) :
    Sql.Alone B t Mid Post ((check e?).bind f) s d h := by
  cases e? with
  | none => exact hok rfl
  | some e => exact .raise (hraise e rfl)

theorem alone_found {e : Exn} {x? : Option β} {f : β → Prog (Sql.Ans Res (M := M)) Exn α}
    (hok : ∀ x, x? = some x → Sql.Alone B t Mid Post (f x) s d h)
    (hraise : x? = none → Post (.error e) s d h) :
    Sql.Alone B t Mid Post ((found e x?).bind f) s d h := by
  cases x? with
  | none => exact .raise (hraise rfl)
  | some x => exact hok x rfl

theorem alone_scalarOneOrNone {xs : List β}
    {f : Option β → Prog (Sql.Ans Res (M := M)) Exn α}
    (hnone : xs = [] → Sql.Alone B t Mid Post (f none) s d h)
    (hone : ∀ x, xs = [x] → Sql.Alone B t Mid Post (f (some x)) s d h)
    (hraise : 2 ≤ xs.length → Post (.error multipleResultsFound) s d h) :
    Sql.Alone B t Mid Post ((scalarOneOrNone xs).bind f) s d h := by
  cases xs with
  | nil => exact hnone rfl
  | cons x xs =>
    cases xs with
    | nil => exact hone x rfl
    | cons y ys => exact .raise (hraise (by simp))

end Alone

/-- A `SELECT` of the row under one key. -/
theorem alone_selectOne [DecidableEq ι] [DecidableEq κ] {S : Sql.Service Row Answer Exn M} {t : ℕ}
    {Mid : Tables Row → List M → Prop}
    {Post : Except Exn α → Sql.Tx (Sql.RowWrite Row Values κ) → Tables Row → List M → Prop}
    [Sql.Alone.Fails Mid Post] {ws : List (Sql.RowWrite Row Values κ)} {d : Tables Row}
    {h : List M} {n : ι} {k : κ} {p : Row n → Bool} {f : Option (Row n) → S.Program α}
    (hp : ∀ r, p r → Keyed.key r = k) (hmid : Mid d h)
    (hok : Sql.Alone S.backend t Mid Post
      (f (((S.backend.store.applyAll ws d n).find? k).filter p)) ⟨ws, false⟩ d h) :
    Sql.Alone S.backend t Mid Post ((Prog.call (.query (.select n p))).bind fun rows =>
      (scalarOneOrNone (rows : List (Row n))).bind f) ⟨ws, false⟩ d h := by
  refine Sql.Alone.select hmid ?_
  rw [Table.filter_of_key hp]
  generalize ((S.backend.store.applyAll ws d n).find? k).filter p = x? at hok ⊢
  cases x? with
  | none => exact hok
  | some x => exact hok

/-- A row that is there is loaded again. -/
theorem alone_refresh [DecidableEq ι] [DecidableEq κ] {S : Sql.Service Row Answer Exn M} {t : ℕ}
    {Mid : Tables Row → List M → Prop}
    {Post : Except Exn α → Sql.Tx (Sql.RowWrite Row Values κ) → Tables Row → List M → Prop}
    [Sql.Alone.Fails Mid Post] {ws : List (Sql.RowWrite Row Values κ)} {d : Tables Row}
    {h : List M} {n : ι} {k : κ} {x : Row n} {f : Row n → S.Program α}
    (hx : (S.backend.store.applyAll ws d n).find? k = some x) (hmid : Mid d h)
    (hok : Sql.Alone S.backend t Mid Post (f x) ⟨ws, false⟩ d h) :
    Sql.Alone S.backend t Mid Post ((refresh n k).bind f) ⟨ws, false⟩ d h := by
  unfold refresh
  simp only [Prog.bind_assoc]
  refine Sql.Alone.select hmid ?_
  have hrows : (S.backend.store.applyAll ws d n).rows.filter
      (fun y => decide (Keyed.key y = k)) = [x] := by
    rw [Table.filter_of_key (k := k) fun y hy => of_decide_eq_true hy, hx]
    have hkey : decide (Keyed.key x = k) = true := decide_eq_true (Table.key_of_find? hx)
    have hfilter : (some x).filter (fun y => decide (Keyed.key y = k)) = some x :=
      Option.filter_eq_some_iff.mpr ⟨rfl, hkey⟩
    rw [hfilter]
    rfl
  rw [hrows]
  exact hok

end GraphPilot.Orm
