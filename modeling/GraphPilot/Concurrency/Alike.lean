/-
Programs that act alike.

`Alike like agrees R p p'` says that two programs perform like actions, one after the
other, for as long as their answers agree, and that the values they return are related
by `R`.

* `Alike.bind`, `Alike.tryCatch`, `Alike.tryFinally`, `Alike.call` — one rule for each
  construct;
* `Alike.gives` — the traces of the two programs, when the answers to like actions agree
  as far as both traces go: they are of one length, and their actions are alike.
-/
import GraphPilot.Concurrency.Trace

namespace Concurrency

variable {Op : Type} {Ans : Op → Type} {ε α α' β β' γ γ' : Type}

/-- Both return, values related by `R`, or both raise the same. -/
def Likewise (R : α → β → Prop) : Except ε α → Except ε β → Prop
  | .ok a, .ok b => R a b
  | .error e, .error e' => e = e'
  | _, _ => False

section Alike

variable (like : Op → Op → Prop)
variable (agrees : (o : Op) × Except ε (Ans o) → (o : Op) × Except ε (Ans o) → Prop)

/-- The programs perform like actions as long as the answers agree, and return values
related by `R`. -/
def Prog.Alike (R : α → β → Prop) : Prog Ans ε α → Prog Ans ε β → Prop
  | .ret a, .ret b => R a b
  | .raise e, .raise e' => e = e'
  | .act o k, .act o' k' => like o o' ∧
    ∀ r r', agrees ⟨o, r⟩ ⟨o', r'⟩ → (k r).Alike R (k' r')
  | _, _ => False

/-- The actions of two traces agree with their answers, as far as both traces go. -/
def Agreeing : Trace Ans ε → Trace Ans ε → Prop
  | x :: tr, x' :: tr' => agrees x x' ∧ Agreeing tr tr'
  | _, _ => True

end Alike

theorem Agreeing.mono {A B : (o : Op) × Except ε (Ans o) → (o : Op) × Except ε (Ans o) → Prop}
    {tr tr' : Trace Ans ε} (h : Agreeing A tr tr')
    (hAB : ∀ x ∈ tr, ∀ x' ∈ tr', A x x' → B x x') : Agreeing B tr tr' := by
  induction tr generalizing tr' with
  | nil => trivial
  | cons x tr ih =>
    cases tr' with
    | nil => trivial
    | cons x' tr' =>
      refine ⟨hAB x List.mem_cons_self x' List.mem_cons_self h.1, ih h.2 fun y hy y' hy' => ?_⟩
      exact hAB y (List.mem_cons_of_mem _ hy) y' (List.mem_cons_of_mem _ hy')

namespace Prog

variable {like : Op → Op → Prop}
variable {agrees : (o : Op) × Except ε (Ans o) → (o : Op) × Except ε (Ans o) → Prop}
variable {R : α → β → Prop} {R' : α' → β' → Prop} {p : Prog Ans ε α} {p' : Prog Ans ε β}

theorem Alike.bind {f : α → Prog Ans ε α'} {f' : β → Prog Ans ε β'}
    (hp : p.Alike like agrees R p') (hf : ∀ a b, R a b → (f a).Alike like agrees R' (f' b)) :
    (p.bind f).Alike like agrees R' (p'.bind f') := by
  induction p generalizing p' with
  | ret a =>
    cases p' with
    | ret b => exact hf a b hp
    | raise e' => exact hp.elim
    | act o' k' => exact hp.elim
  | raise e =>
    cases p' with
    | ret b => exact hp.elim
    | raise e' => exact hp
    | act o' k' => exact hp.elim
  | act o k ih =>
    cases p' with
    | ret b => exact hp.elim
    | raise e' => exact hp.elim
    | act o' k' => exact ⟨hp.1, fun r r' hr => ih r (hp.2 r r' hr)⟩

theorem Alike.tryCatch {h : ε → Prog Ans ε α} {h' : ε → Prog Ans ε β}
    (hp : p.Alike like agrees R p') (hh : ∀ e, (h e).Alike like agrees R (h' e)) :
    (p.tryCatch h).Alike like agrees R (p'.tryCatch h') := by
  induction p generalizing p' with
  | ret a =>
    cases p' with
    | ret b => exact hp
    | raise e' => exact hp.elim
    | act o' k' => exact hp.elim
  | raise e =>
    cases p' with
    | ret b => exact hp.elim
    | raise e' =>
      obtain rfl : e = e' := hp
      exact hh e
    | act o' k' => exact hp.elim
  | act o k ih =>
    cases p' with
    | ret b => exact hp.elim
    | raise e' => exact hp.elim
    | act o' k' => exact ⟨hp.1, fun r r' hr => ih r (hp.2 r r' hr)⟩

theorem Alike.tryFinally {R₁ : γ → γ' → Prop} {f : Prog Ans ε γ} {f' : Prog Ans ε γ'}
    (hp : p.Alike like agrees R p') (hf : f.Alike like agrees R₁ f') :
    (p.tryFinally f).Alike like agrees R (p'.tryFinally f') := by
  induction p generalizing p' with
  | ret a =>
    cases p' with
    | ret b => exact hf.bind fun _ _ _ => hp
    | raise e' => exact hp.elim
    | act o' k' => exact hp.elim
  | raise e =>
    cases p' with
    | ret b => exact hp.elim
    | raise e' => exact hf.bind fun _ _ _ => hp
    | act o' k' => exact hp.elim
  | act o k ih =>
    cases p' with
    | ret b => exact hp.elim
    | raise e' => exact hp.elim
    | act o' k' => exact ⟨hp.1, fun r r' hr => ih r (hp.2 r r' hr)⟩

/-- Like actions, whose answers are alike when they agree. -/
theorem Alike.call {o o' : Op} {R : Ans o → Ans o' → Prop} (ho : like o o')
    (hr : ∀ r r', agrees ⟨o, r⟩ ⟨o', r'⟩ → Likewise R r r') :
    (call o : Prog Ans ε (Ans o)).Alike like agrees R (call o') := by
  refine ⟨ho, fun r r' hagrees => ?_⟩
  have hlikewise := hr r r' hagrees
  cases r with
  | ok a =>
    cases r' with
    | ok b => exact hlikewise
    | error e' => exact hlikewise.elim
  | error e =>
    cases r' with
    | ok b => exact hlikewise.elim
    | error e' => exact hlikewise

/-- **The traces of programs that act alike.**  By induction on the first program. -/
theorem Alike.gives {tr tr' : Trace Ans ε} {r : Except ε α} {r' : Except ε β}
    (hp : p.Alike like agrees R p') (h : p.Gives tr r) (h' : p'.Gives tr' r')
    (hagree : Agreeing (fun x x' => like x.1 x'.1 → agrees x x') tr tr') :
    List.Forall₂ (fun x x' => like x.1 x'.1 ∧ agrees x x') tr tr' ∧ Likewise R r r' := by
  induction p generalizing p' tr tr' with
  | ret a =>
    cases p' with
    | ret b =>
      obtain ⟨rfl, rfl⟩ := h
      obtain ⟨rfl, rfl⟩ := h'
      exact ⟨.nil, hp⟩
    | raise e' => exact hp.elim
    | act o' k' => exact hp.elim
  | raise e =>
    cases p' with
    | ret b => exact hp.elim
    | raise e' =>
      obtain ⟨rfl, rfl⟩ := h
      obtain ⟨rfl, rfl⟩ := h'
      exact ⟨.nil, hp⟩
    | act o' k' => exact hp.elim
  | act o k ih =>
    cases p' with
    | ret b => exact hp.elim
    | raise e' => exact hp.elim
    | act o' k' =>
      obtain ⟨x, tr₁, rfl, h₁⟩ := h
      obtain ⟨x', tr₁', rfl, h₁'⟩ := h'
      have hagrees := hagree.1 hp.1
      obtain ⟨hall, hresult⟩ := ih x (hp.2 x x' hagrees) h₁ h₁' hagree.2
      exact ⟨.cons ⟨hp.1, hagrees⟩ hall, hresult⟩

end Prog

end Concurrency
