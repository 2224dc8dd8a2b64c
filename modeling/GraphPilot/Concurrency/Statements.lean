/-
SQL statements on tables.

`Schema` says what the tables of a service are: the key of a row, the columns
an `UPDATE` may set, and the unique indexes beside the primary key.  A service
then is a program of a few kinds of statements, `Query`, and of questions
`ask`, which the environment answers.

* `RowWrite`, `rows` — the row changes as a `Store`;
* `run`, `backend` — the statements as a `Sql.Backend`;
* `Outline.select`, `Outline.lockRow`, `Outline.insert`, `Outline.update`,
  `Outline.delete`, `Outline.askFor` — what each of them does to a session.

An `INSERT` under a key in use or against a unique index has no answer, and so
it fails, as does the `UPDATE` of a row that is gone; a `DELETE` that finds no
row changes nothing.
-/
import GraphPilot.Concurrency.Sql
import GraphPilot.Relational.Tables

namespace Concurrency

open Relational

/-- Tables with a row type for each name. -/
class Schema {ι : Type} (Row : ι → Type) (Values : outParam (ι → Type))
    (κ : outParam Type) where
  key : ∀ n, Row n → κ
  apply : ∀ n, Values n → Row n → Row n
  key_apply : ∀ n v x, key n (apply n v x) = key n x
  /-- a unique index keeps the rows from being in the table together -/
  clashes : ∀ n, Row n → Row n → Bool

namespace Sql

variable {ι κ : Type} {Row Values : ι → Type} [Schema Row Values κ]

instance (n : ι) : Keyed (Row n) κ := ⟨Schema.key n⟩

/-- One row change. -/
inductive RowWrite {ι : Type} (Row Values : ι → Type) (κ : Type) where
  | insert (n : ι) (x : Row n)
  | update (n : ι) (k : κ) (v : Values n)
  | delete (n : ι) (k : κ)

namespace RowWrite

/-- The row that a write changes. -/
def row : RowWrite Row Values κ → ι × κ
  | .insert n x => (n, Keyed.key x)
  | .update n k _ => (n, k)
  | .delete n k => (n, k)

variable [DecidableEq ι] [DecidableEq κ]

def apply (w : RowWrite Row Values κ) (db : Tables Row) : Tables Row :=
  match w with
  | .insert n x => db.insert n x
  | .update n k v =>
    db.update n (fun x => Keyed.key x = k) (Schema.apply n v) (Schema.key_apply n v)
  | .delete n k => db.delete n fun x => Keyed.key x = k

end RowWrite

/-! ### Rows after a write -/

section Find

variable {ρ : Type} [Keyed ρ κ] [DecidableEq κ] {t : Table ρ} {f : ρ → ρ} {j k : κ}

theorem find?_update (hf : ∀ r, Keyed.key (f r) = Keyed.key r) :
    (t.update (fun x => Keyed.key x = k) f hf).find? j =
      if j = k then (t.find? k).map f else t.find? j := by
  rw [← Table.find?_modify hf]
  congr 1
  simp [Table.update, Table.modify]

theorem find?_delete : (t.delete fun x => Keyed.key x = k).find? j =
    if j = k then none else t.find? j := by
  simp only [Table.find?, Table.rows_delete, List.find?_filter]
  split
  · rename_i h
    subst h
    exact List.find?_eq_none.mpr fun x _ => by simp
  · rename_i h
    congr 1
    funext x
    by_cases hx : Keyed.key x = j
    · simp [hx, h]
    · simp [hx]

end Find

section Rows

variable [DecidableEq ι] [DecidableEq κ]

/-- The row under a key of a table. -/
def rowAt (db : Tables Row) (r : ι × κ) : Σ n, Option (Row n) := ⟨r.1, (db r.1).find? r.2⟩

omit [DecidableEq ι] in
theorem rowAt_eq {db db' : Tables Row} {n : ι} {k : κ} :
    rowAt db (n, k) = rowAt db' (n, k) ↔ (db n).find? k = (db' n).find? k := by
  simp [rowAt]

/-- A write leaves every other row alone. -/
theorem rowAt_apply_of_ne {w : RowWrite Row Values κ} {db : Tables Row} {n : ι} {k : κ}
    (h : w.row ≠ (n, k)) : rowAt (w.apply db) (n, k) = rowAt db (n, k) := by
  refine rowAt_eq.mpr ?_
  cases w with
  | insert m x =>
    by_cases hm : n = m
    · subst hm
      have hk : k ≠ Keyed.key x := fun hk => h (by rw [hk]; rfl)
      simp only [RowWrite.apply, Tables.insert_self, Table.find?_insert_eq, hk, false_and, if_false]
    · rw [RowWrite.apply, Tables.insert_of_ne hm]
  | update m j v =>
    by_cases hm : n = m
    · subst hm
      have hk : k ≠ j := fun hk => h (by rw [hk]; rfl)
      simp only [RowWrite.apply, Tables.update_self, find?_update, hk, if_false]
    · rw [RowWrite.apply, Tables.update_of_ne hm]
  | delete m j =>
    by_cases hm : n = m
    · subst hm
      have hk : k ≠ j := fun hk => h (by rw [hk]; rfl)
      simp only [RowWrite.apply, Tables.delete_self, find?_delete, hk, if_false]
    · rw [RowWrite.apply, Tables.delete_of_ne hm]

/-- A write leaves every other table alone. -/
theorem apply_of_ne {w : RowWrite Row Values κ} {db : Tables Row} {n : ι} (h : w.row.1 ≠ n) :
    w.apply db n = db n := by
  cases w with
  | insert m x => exact Tables.insert_of_ne h.symm
  | update m k v => exact Tables.update_of_ne h.symm
  | delete m k => exact Tables.delete_of_ne h.symm

/-- What a write makes of a row depends on that row only. -/
theorem rowAt_apply_congr {w : RowWrite Row Values κ} {db db' : Tables Row} {n : ι} {k : κ}
    (h : rowAt db (n, k) = rowAt db' (n, k)) :
    rowAt (w.apply db) (n, k) = rowAt (w.apply db') (n, k) := by
  by_cases hrow : w.row = (n, k)
  · have h := rowAt_eq.mp h
    refine rowAt_eq.mpr ?_
    cases w with
    | insert m x =>
      obtain ⟨rfl, rfl⟩ := Prod.mk.inj hrow
      simp only [RowWrite.apply, Tables.insert_self, Table.find?_insert_eq, h]
    | update m j v =>
      obtain ⟨rfl, rfl⟩ := Prod.mk.inj hrow
      simp only [RowWrite.apply, Tables.update_self, find?_update, h]
    | delete m j =>
      obtain ⟨rfl, rfl⟩ := Prod.mk.inj hrow
      simp only [RowWrite.apply, Tables.delete_self, find?_delete, h]
  · rw [rowAt_apply_of_ne hrow, rowAt_apply_of_ne hrow, h]

/-- The writes with the rows they lock. -/
def rows : Store (RowWrite Row Values κ) (Tables Row) (ι × κ) (Σ n, Option (Row n)) where
  apply := RowWrite.apply
  row? := fun w => some w.row
  value := rowAt
  value_apply_of_ne := fun h => rowAt_apply_of_ne fun he => h (congrArg some he)
  value_apply_congr := rowAt_apply_congr

end Rows

/-! ### Statements -/

/-- The statements, and the questions `Ask` to the environment. -/
inductive Query {ι : Type} (Row Values : ι → Type) (κ Ask : Type) where
  | select (n : ι) (p : Row n → Bool)
  | selectForUpdate (n : ι) (k : κ)
  | insert (n : ι) (x : Row n)
  | update (n : ι) (k : κ) (v : Values n)
  | delete (n : ι) (k : κ)
  | ask (a : Ask)

variable {Ask : Type} {Answer : Ask → Type}

/-- What a query answers. -/
abbrev Result (Answer : Ask → Type) : Query Row Values κ Ask → Type
  | .select n _ => List (Row n)
  | .selectForUpdate n _ => Option (Row n)
  | .insert _ _ => Unit
  | .update _ _ _ => Unit
  | .delete _ _ => Unit
  | .ask a => Answer a

/-- What the environment supplies: nothing to a statement. -/
inductive Input {Ask : Type} (Answer : Ask → Type) where
  | nothing
  | answers (f : ∀ a, Answer a)

section Run

variable [DecidableEq κ]

/-- What a query locks, writes and answers. -/
def run : (q : Query Row Values κ Ask) → Input Answer → Tables Row →
    Option (Response (RowWrite Row Values κ) (ι × κ) (Result Answer q))
  | .select n p, .nothing, db => some ⟨[], [], (db n).rows.filter p⟩
  | .selectForUpdate n k, .nothing, db =>
    match (db n).find? k with
    | some x => some ⟨[(n, k)], [], some x⟩
    | none => some ⟨[], [], none⟩
  | .insert n x, .nothing, db =>
    if ((db n).find? (Keyed.key x)).isNone && !(db n).rows.any (Schema.clashes n x) then
      some ⟨[(n, Keyed.key x)], [.insert n x], ()⟩
    else none
  | .update n k v, .nothing, db =>
    if ((db n).find? k).isSome then some ⟨[(n, k)], [.update n k v], ()⟩ else none
  | .delete n k, .nothing, db =>
    if ((db n).find? k).isSome then some ⟨[(n, k)], [.delete n k], ()⟩ else some ⟨[], [], ()⟩
  | .ask a, .answers f, _ => some ⟨[], [], f a⟩
  | _, _, _ => none

/-- Queries to the database, among them the questions that `statement` says. -/
def Query.isStatement (statement : Ask → Bool) : Query Row Values κ Ask → Bool
  | .ask a => statement a
  | _ => true

variable {inp : Input Answer} {db : Tables Row} {n : ι} {k : κ}

theorem run_select {p : Row n → Bool}
    {resp : Response (RowWrite Row Values κ) (ι × κ) (List (Row n))}
    (h : run (.select n p : Query Row Values κ Ask) inp db = some resp) :
    resp = ⟨[], [], (db n).rows.filter p⟩ := by
  cases inp <;> cases h
  rfl

theorem run_selectForUpdate {resp : Response (RowWrite Row Values κ) (ι × κ) (Option (Row n))}
    (h : run (.selectForUpdate n k : Query Row Values κ Ask) inp db = some resp) :
    (∃ x, (db n).find? k = some x ∧ resp = ⟨[(n, k)], [], some x⟩) ∨
      (db n).find? k = none ∧ resp = ⟨[], [], none⟩ := by
  cases inp with
  | nothing =>
    simp only [run] at h
    split at h
    · rename_i x hx
      cases h
      exact .inl ⟨x, hx, rfl⟩
    · rename_i hx
      cases h
      exact .inr ⟨hx, rfl⟩
  | answers f => cases h

theorem run_insert {x : Row n} {resp : Response (RowWrite Row Values κ) (ι × κ) Unit}
    (h : run (.insert n x : Query Row Values κ Ask) inp db = some resp) :
    (db n).find? (Keyed.key x) = none ∧ (∀ y ∈ (db n).rows, Schema.clashes n x y = false) ∧
      resp = ⟨[(n, Keyed.key x)], [.insert n x], ()⟩ := by
  cases inp with
  | nothing =>
    simp only [run] at h
    split at h
    · rename_i hfree
      cases h
      simp only [Bool.and_eq_true, Option.isNone_iff_eq_none, Bool.not_eq_true', List.any_eq_false,
        Bool.not_eq_true] at hfree
      exact ⟨hfree.1, hfree.2, rfl⟩
    · cases h
  | answers f => cases h

theorem run_update {v : Values n} {resp : Response (RowWrite Row Values κ) (ι × κ) Unit}
    (h : run (.update n k v : Query Row Values κ Ask) inp db = some resp) :
    ((db n).find? k).isSome ∧ resp = ⟨[(n, k)], [.update n k v], ()⟩ := by
  cases inp with
  | nothing =>
    simp only [run] at h
    split at h
    · rename_i hsome
      cases h
      exact ⟨hsome, rfl⟩
    · cases h
  | answers f => cases h

theorem run_delete {resp : Response (RowWrite Row Values κ) (ι × κ) Unit}
    (h : run (.delete n k : Query Row Values κ Ask) inp db = some resp) :
    resp = ⟨[(n, k)], [.delete n k], ()⟩ ∨ (db n).find? k = none ∧ resp = ⟨[], [], ()⟩ := by
  cases inp with
  | nothing =>
    simp only [run] at h
    split at h
    · cases h
      exact .inl rfl
    · rename_i hnone
      cases h
      exact .inr ⟨by simpa using hnone, rfl⟩
  | answers f => cases h

theorem run_ask {a : Ask} {resp : Response (RowWrite Row Values κ) (ι × κ) (Answer a)}
    (h : run (.ask a : Query Row Values κ Ask) inp db = some resp) :
    resp = ⟨[], [], resp.answer⟩ := by
  cases inp <;> cases h
  rfl

/-- Whatever a query writes, it locks. -/
theorem locks_of_run {q : Query Row Values κ Ask}
    {resp : Response (RowWrite Row Values κ) (ι × κ) (Result Answer q)}
    (h : run q inp db = some resp) {w : RowWrite Row Values κ} (hw : w ∈ resp.writes) :
    w.row ∈ resp.locks := by
  cases q with
  | select n p =>
    rw [run_select h] at hw
    cases hw
  | selectForUpdate n k =>
    rcases run_selectForUpdate h with ⟨x, -, rfl⟩ | ⟨-, rfl⟩ <;> cases hw
  | insert n x =>
    obtain ⟨-, -, rfl⟩ := run_insert h
    rw [List.mem_singleton.mp hw]
    exact List.mem_singleton.mpr rfl
  | update n k v =>
    obtain ⟨-, rfl⟩ := run_update h
    rw [List.mem_singleton.mp hw]
    exact List.mem_singleton.mpr rfl
  | delete n k =>
    rcases run_delete h with rfl | ⟨-, rfl⟩
    · rw [List.mem_singleton.mp hw]
      exact List.mem_singleton.mpr rfl
    · cases hw
  | ask a =>
    rw [run_ask h] at hw
    cases hw

/-- The table that a query writes. -/
def Query.table? : Query Row Values κ Ask → Option ι
  | .insert n _ => some n
  | .update n _ _ => some n
  | .delete n _ => some n
  | _ => none

/-- It writes no other one. -/
theorem table_of_run {q : Query Row Values κ Ask}
    {resp : Response (RowWrite Row Values κ) (ι × κ) (Result Answer q)}
    (h : run q inp db = some resp) {w : RowWrite Row Values κ} (hw : w ∈ resp.writes) :
    q.table? = some w.row.1 := by
  cases q with
  | select n p =>
    rw [run_select h] at hw
    cases hw
  | selectForUpdate n k =>
    rcases run_selectForUpdate h with ⟨x, -, rfl⟩ | ⟨-, rfl⟩ <;> cases hw
  | insert n x =>
    obtain ⟨-, -, rfl⟩ := run_insert h
    rw [List.mem_singleton.mp hw]
    rfl
  | update n k v =>
    obtain ⟨-, rfl⟩ := run_update h
    rw [List.mem_singleton.mp hw]
    rfl
  | delete n k =>
    rcases run_delete h with rfl | ⟨-, rfl⟩
    · rw [List.mem_singleton.mp hw]
      rfl
    · cases hw
  | ask a =>
    rw [run_ask h] at hw
    cases hw

end Run

/-- An action that does not write the table. -/
def Op.Spares {M : Type} (n : ι) : Op (Query Row Values κ Ask) M → Prop
  | .query q => q.table? ≠ some n
  | _ => True

/-! ### The backend -/

variable {ε M : Type} [DecidableEq ι] [DecidableEq κ]

/-- What a service has beside its tables: the exception of a broken session, the
questions that are statements too, and what a commit adds to the history. -/
structure Service {ι κ Ask : Type} (Row : ι → Type) {Values : ι → Type} [Schema Row Values κ]
    (Answer : Ask → Type) (ε M : Type) where
  refused : ε
  statement : Ask → Bool
  publish : ℕ → Tables Row → List (RowWrite Row Values κ) → List M

/-- The service with its statements. -/
def Service.backend (S : Service Row Answer ε M) :
    Backend (Q := Query Row Values κ Ask) (Result Answer) ε (Input Answer) (Tables Row)
      (RowWrite Row Values κ) (ι × κ) (Σ n, Option (Row n)) M where
  store := rows
  statement := Query.isStatement S.statement
  run := run
  refused := S.refused
  publish := S.publish
  locks_writes := by
    intro q inp db resp h w hw r hr
    rw [← Option.some.inj (show some w.row = some r from hr)]
    exact locks_of_run h hw
  ask := by
    intro q inp db resp h hq
    cases q with
    | ask a => exact run_ask (a := a) h
    | _ => cases hq

/-- Code of a service. -/
abbrev Service.Program {Row Values : ι → Type} [Schema Row Values κ] {Answer : Ask → Type}
    (_ : Service Row Answer ε M) (α : Type) : Type :=
  Prog (Ans (Q := Query Row Values κ Ask) (Result Answer) (M := M)) ε α

/-- The database server of a service. -/
abbrev Service.Server {Row Values : ι → Type} [Schema Row Values κ] {Answer : Ask → Type}
    (_ : Service Row Answer ε M) : Type :=
  Sql.Server (Tables Row) (ι × κ) M

/-- The server and the calls on it. -/
abbrev Service.Configuration {Row Values : ι → Type} [Schema Row Values κ]
    {Answer : Ask → Type} (_ : Service Row Answer ε M) : Type :=
  Config (Ans (Q := Query Row Values κ Ask) (Result Answer) (M := M)) ε
    (Tx (RowWrite Row Values κ)) (Sql.Server (Tables Row) (ι × κ) M)

/-- The configuration before any call. -/
def Service.initial {Row Values : ι → Type} [Schema Row Values κ] {Answer : Ask → Type}
    (S : Service Row Answer ε M) (db : Tables Row) : S.Configuration :=
  ⟨[], .initial db⟩

/-- Conditions on the states in which the statements and commits strike. -/
abbrev Service.Condition {Row Values : ι → Type} [Schema Row Values κ] {Answer : Ask → Type}
    (_ : Service Row Answer ε M) : Type :=
  System.Condition (Op (Query Row Values κ Ask) M) (Choice ε (Input Answer))
    (Tx (RowWrite Row Values κ)) (Sql.Server (Tables Row) (ι × κ) M)

/-- A condition on the commits that succeed: on what is written, and on the
committed rows. -/
def Service.atCommit (S : Service Row Answer ε M)
    (p : List (RowWrite Row Values κ) → Tables Row → Prop) : S.Condition := fun _ x s sv =>
  match x with
  | some (.commit, .ok _) => p s.writes sv.db
  | _ => True

instance (S : Service Row Answer ε M) (p : List (RowWrite Row Values κ) → Tables Row → Prop)
    [∀ ws db, Decidable (p ws db)] (t : ℕ)
    (x : Option (Op (Query Row Values κ Ask) M × Choice ε (Input Answer)))
    (s : Tx (RowWrite Row Values κ)) (sv : Sql.Server (Tables Row) (ι × κ) M) :
    Decidable (S.atCommit p t x s sv) :=
  match x with
  | some (.commit, .ok _) => inferInstanceAs (Decidable (p _ _))
  | some (.commit, .fail _) => .isTrue trivial
  | some (.query _, _) => .isTrue trivial
  | some (.rollback, _) => .isTrue trivial
  | some (.note _, _) => .isTrue trivial
  | none => .isTrue trivial

/-! ### Rules -/

section Rules

variable {S : Service Row Answer ε M} {P : Promise (R := ι × κ) (Tables Row) M} {Call α : Type}
variable {program : Call → S.Program Unit} {admits : Tables Row → Call → Bool}
variable {cond : S.Condition}
variable {Post : Except ε α → Tx (RowWrite Row Values κ) → Server (Tables Row) (ι × κ) M → Prop}
variable {t : ℕ} {ws : List (RowWrite Row Values κ)} {sv : Server (Tables Row) (ι × κ) M}

/-- A proof of what is left of a call, in a session that is not broken. -/
abbrev Follows (S : Service Row Answer ε M) (P : Promise (R := ι × κ) (Tables Row) M)
    (program : Call → S.Program Unit) (admits : Tables Row → Call → Bool) (cond : S.Condition)
    (t : ℕ)
    (Post : Except ε α → Tx (RowWrite Row Values κ) → Server (Tables Row) (ι × κ) M → Prop)
    (p : S.Program α) (ws : List (RowWrite Row Values κ)) (sv : Server (Tables Row) (ι × κ) M) :
    Prop :=
  Outline (P.contract S.backend program admits cond) t Post p ⟨ws, false⟩ sv

/-- The postcondition allows an exception in a session with the writes `ws`. -/
class Raises (ws : List (RowWrite Row Values κ)) (Post : Except ε α → Tx (RowWrite Row Values κ) →
    Server (Tables Row) (ι × κ) M → Prop) : Prop extends Fails Post where
  raise : ∀ e sv, Post (.error e) ⟨ws, false⟩ sv

instance : Raises ws (Ends : Except ε α → Tx (RowWrite Row Values κ) →
    Server (Tables Row) (ι × κ) M → Prop) := ⟨fun _ _ => trivial⟩

instance (Post : α → Tx (RowWrite Row Values κ) → Server (Tables Row) (ι × κ) M → Prop) :
    Raises (ε := ε) ws (OnOk Post) := ⟨fun _ _ _ ha => by cases ha⟩

namespace Follows

variable [Fails Post] {n : ι} {k : κ}

/-- A `SELECT` answers the rows as the session sees them. -/
theorem select {p : Row n → Bool} {f : List (Row n) → S.Program α}
    (hok : ∀ sv₁, Relies S.backend P t sv sv₁ → P.inv sv₁.db sv₁.history →
      Follows S P program admits cond t Post (f ((S.backend.view ws sv₁ n).rows.filter p)) ws sv₁) :
    Follows S P program admits cond t Post ((Prog.call (.query (.select n p))).bind f) ws sv := by
  refine Outline.read (fun inp d resp hrun => ?_) fun sv₁ hrely hinv inp a hrun => ?_
  · rw [run_select hrun]
  · obtain rfl : (S.backend.view ws sv₁ n).rows.filter p = a :=
      (congrArg Response.answer (run_select hrun)).symm
    exact hok sv₁ hrely hinv

/-- A `SELECT ... FOR UPDATE` of one row holds its lock. -/
theorem lockRow {f : Option (Row n) → S.Program α}
    (hok : ∀ sv₁ x, Relies S.backend P t sv sv₁ → P.inv sv₁.db sv₁.history →
      (S.backend.view ws sv₁ n).find? k = some x → sv₁.lockable t (n, k) = true →
      Follows S P program admits cond t Post (f (some x)) ws (sv₁.lock t [(n, k)]))
    (hnone : ∀ sv₁, Relies S.backend P t sv sv₁ →
      Follows S P program admits cond t Post (f none) ws sv₁) :
    Follows S P program admits cond t Post ((Prog.call (.query (.selectForUpdate n k))).bind f)
      ws sv := by
  refine Outline.await fun sv₁ hrely hinv _ inp resp _ hrun hl => ?_
  rcases run_selectForUpdate hrun with ⟨x, hx, rfl⟩ | ⟨-, rfl⟩
  · rw [List.append_nil]
    exact hok sv₁ x hrely hinv hx (hl _ List.mem_cons_self)
  · rw [List.append_nil, show sv₁.lock t [] = sv₁ by simp [Server.lock]]
    exact hnone sv₁ hrely

/-- An `INSERT` under a key that is not in use. -/
theorem insert {x : Row n} {f : Unit → S.Program α}
    (hok : ∀ sv₁, Relies S.backend P t sv sv₁ → P.inv sv₁.db sv₁.history →
      (S.backend.view ws sv₁ n).find? (Keyed.key x) = none →
      (∀ r, sv₁.Held t r → (sv₁.lock t [(n, Keyed.key x)]).Held t r) →
      Follows S P program admits cond t Post (f ()) (ws ++ [.insert n x])
        (sv₁.lock t [(n, Keyed.key x)])) :
    Follows S P program admits cond t Post ((Prog.call (.query (.insert n x))).bind f) ws sv := by
  refine Outline.await fun sv₁ hrely hinv _ inp resp _ hrun hl => ?_
  obtain ⟨hnew, -, rfl⟩ := run_insert hrun
  exact hok sv₁ hrely hinv hnew (Frame.lock (B := S.backend) hl).locks

/-- An `UPDATE` of one row. -/
theorem update {v : Values n} {f : Unit → S.Program α}
    (hok : ∀ sv₁, Relies S.backend P t sv sv₁ → P.inv sv₁.db sv₁.history →
      ((S.backend.view ws sv₁ n).find? k).isSome →
      Follows S P program admits cond t Post (f ()) (ws ++ [.update n k v])
        (sv₁.lock t [(n, k)])) :
    Follows S P program admits cond t Post ((Prog.call (.query (.update n k v))).bind f) ws sv := by
  refine Outline.await fun sv₁ hrely hinv _ inp resp _ hrun hl => ?_
  obtain ⟨hsome, rfl⟩ := run_update hrun
  exact hok sv₁ hrely hinv hsome

/-- A `DELETE` of one row, or of none. -/
theorem delete {f : Unit → S.Program α}
    (hok : ∀ ws' sv₁ sv₂, Relies S.backend P t sv sv₁ → P.inv sv₁.db sv₁.history →
      ws' = [RowWrite.delete n k] ∨ ws' = [] →
      Follows S P program admits cond t Post (f ()) (ws ++ ws') sv₂) :
    Follows S P program admits cond t Post ((Prog.call (.query (.delete n k))).bind f) ws sv := by
  refine Outline.await fun sv₁ hrely hinv _ inp resp _ hrun hl => ?_
  rcases run_delete hrun with rfl | ⟨-, rfl⟩
  · exact hok _ sv₁ _ hrely hinv (.inl rfl)
  · exact hok _ sv₁ _ hrely hinv (.inr rfl)

/-- A question to the environment. -/
theorem ask {a : Ask} {f : Answer a → S.Program α}
    (hok : ∀ sv₁ y, Relies S.backend P t sv sv₁ → P.inv sv₁.db sv₁.history →
      Follows S P program admits cond t Post (f y) ws sv₁) :
    Follows S P program admits cond t Post ((Prog.call (.query (.ask a))).bind f) ws sv := by
  refine Outline.read (fun inp d resp hrun => run_ask (a := a) hrun)
    fun sv₁ hrely hinv inp y _ => ?_
  exact hok sv₁ y hrely hinv

end Follows

end Rules

end Sql

end Concurrency
