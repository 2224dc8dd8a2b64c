/-
Code that only reads.

`Answers d p r` says that the program `p` performs no action but `SELECT`, and that it
ends with `r` where `d` are the rows that it sees.

* `Answers.bind`, `Answers.bind_error` — one part after the other;
* `Answers.unique` — there is one answer;
* `answers_bind` — code whose parts only read;
* `Alone.reads` — such code alone, in a session of its own writes.
-/
import GraphPilot.Concurrency.Serial

namespace Concurrency.Sql

open Relational

variable {ι κ ε M α β Ask : Type} {Row Values : ι → Type} [Schema Row Values κ]
variable {Answer : Ask → Type}

/-- What code that only reads answers on the rows `d`. -/
inductive Answers (d : Tables Row) :
    Prog (Ans (Q := Query Row Values κ Ask) (Result Answer) (M := M)) ε α → Except ε α → Prop where
  | ret (a : α) : Answers d (.ret a) (.ok a)
  | raise (e : ε) : Answers d (.raise e) (.error e)
  | act {n : ι} {p : Row n → Bool} {r : Except ε α}
      {k : Except ε (List (Row n)) →
        Prog (Ans (Q := Query Row Values κ Ask) (Result Answer) (M := M)) ε α}
      (hk : ∀ e, k (.error e) = .raise e) (h : Answers d (k (.ok ((d n).rows.filter p))) r) :
      Answers d (.act (.query (.select n p)) k) r

section Parts

variable {d : Tables Row}
variable {p : Prog (Ans (Q := Query Row Values κ Ask) (Result Answer) (M := M)) ε α}
variable {f : α → Prog (Ans (Q := Query Row Values κ Ask) (Result Answer) (M := M)) ε β}

theorem Answers.select {n : ι} {q : Row n → Bool} {r : Except ε α}
    {g : List (Row n) → Prog (Ans (Q := Query Row Values κ Ask) (Result Answer) (M := M)) ε α}
    (h : Answers d (g ((d n).rows.filter q)) r) :
    Answers d ((Prog.call (.query (.select n q))).bind g) r :=
  .act (fun _ => rfl) h

theorem Answers.bind {a : α} {r : Except ε β} (hp : Answers d p (.ok a))
    (hf : Answers d (f a) r) : Answers d (p.bind f) r := by
  generalize hout : (.ok a : Except ε α) = out at hp
  induction hp with
  | ret b =>
    cases hout
    exact hf
  | raise e => cases hout
  | act hk _ ih =>
    refine .act (fun e => ?_) (ih hout)
    rw [hk]
    rfl

theorem Answers.bind_error {e : ε} (hp : Answers d p (.error e)) :
    Answers d (p.bind f) (.error e) := by
  generalize hout : (.error e : Except ε α) = out at hp
  induction hp with
  | ret b => cases hout
  | raise e' =>
    cases hout
    exact .raise e
  | act hk _ ih =>
    refine .act (fun e => ?_) (ih hout)
    rw [hk]
    rfl

/-- There is one answer. -/
theorem Answers.unique {r r' : Except ε α} (h : Answers d p r) (h' : Answers d p r') : r' = r := by
  induction h with
  | ret a =>
    cases h'
    rfl
  | raise e =>
    cases h'
    rfl
  | act _ _ ih =>
    cases h' with
    | act _ h' => exact ih h'

theorem answers_bind (hp : ∃ r, Answers d p r) (hf : ∀ a, ∃ r, Answers d (f a) r) :
    ∃ r, Answers d (p.bind f) r := by
  obtain ⟨r, hp⟩ := hp
  cases r with
  | ok a =>
    obtain ⟨r, hr⟩ := hf a
    exact ⟨r, hp.bind hr⟩
  | error e => exact ⟨_, hp.bind_error⟩

end Parts

variable [DecidableEq ι] [DecidableEq κ] {S : Service Row Answer ε M} {t : ℕ}
variable {Mid : Tables Row → List M → Prop}
variable {Post : Except ε β → Tx (RowWrite Row Values κ) → Tables Row → List M → Prop}
variable {ws : List (RowWrite Row Values κ)} {d : Tables Row} {h : List M}

/-- Code that only reads sees the rows with the writes of its session. -/
theorem Alone.reads [Fails Mid Post] {p : S.Program α} {r : Except ε α} {f : α → S.Program β}
    (hp : Answers (S.backend.store.applyAll ws d) p r) (hmid : Mid d h)
    (hok : ∀ a, r = .ok a → Alone S.backend t Mid Post (f a) ⟨ws, false⟩ d h)
    (herr : ∀ e, r = .error e → Post (.error e) ⟨ws, false⟩ d h) :
    Alone S.backend t Mid Post (p.bind f) ⟨ws, false⟩ d h := by
  induction hp with
  | ret a => exact hok a rfl
  | raise e => exact .raise (herr e rfl)
  | act hk _ ih =>
    rename_i n q r k _
    have hcall : (Prog.act (.query (.select n q)) k).bind f =
        (Prog.call (.query (.select n q))).bind fun rows => (k (.ok rows)).bind f := by
      simp only [Prog.call, Prog.bind]
      congr 1
      funext x
      cases x with
      | ok rows => rfl
      | error e =>
        rw [hk]
        rfl
    rw [hcall]
    exact Alone.select hmid (ih hok herr)

end Concurrency.Sql
