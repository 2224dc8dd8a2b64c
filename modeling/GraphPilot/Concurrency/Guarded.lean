/-
Actions and what has been done before them.

* `Prog.Guards` — every action of a program satisfies a condition that may look at the
  actions before it, with their answers; what follows a part of the program may use the
  trace that the part leaves (`Guards.bind`);
* `Prog.Performs` — a run that returns has performed such an action;
* `Prog.Leads` — what a program is when it comes to the first action of a kind
  (`Leads.of_gives`).
-/
import GraphPilot.Concurrency.Trace

namespace Concurrency

variable {Op : Type} {Ans : Op → Type} {ε α β : Type}

namespace Prog

/-- Every action satisfies `ok`, after what has been done before it. -/
def Guards (ok : Trace Ans ε → Op → Prop) : Trace Ans ε → Prog Ans ε α → Prop
  | _, .ret _ => True
  | _, .raise _ => True
  | before, .act o k => ok before o ∧ ∀ x, (k x).Guards ok (before ++ [⟨o, x⟩])

variable {ok : Trace Ans ε → Op → Prop} {before tr : Trace Ans ε} {p : Prog Ans ε α}
variable {r : Except ε α}

theorem Guards.of_gives {tr₁ tr₂ : Trace Ans ε} {x : (o : Op) × Except ε (Ans o)}
    (hp : p.Guards ok before) (h : p.Gives tr r) (htr : tr = tr₁ ++ x :: tr₂) :
    ok (before ++ tr₁) x.1 := by
  induction p generalizing before tr tr₁ with
  | ret a =>
    rw [h.1] at htr
    cases tr₁ <;> cases htr
  | raise e =>
    rw [h.1] at htr
    cases tr₁ <;> cases htr
  | act o k ih =>
    obtain ⟨y, tr', rfl, hgives⟩ := h
    cases tr₁ with
    | nil =>
      cases htr
      rw [List.append_nil]
      exact hp.1
    | cons z tr₁ =>
      rw [List.cons_append, List.cons.injEq] at htr
      obtain ⟨rfl, htail⟩ := htr
      have hok := ih y (hp.2 y) hgives htail
      rwa [List.append_assoc, List.singleton_append] at hok

theorem Guards.bind {f : α → Prog Ans ε β} (hp : p.Guards ok before)
    (hf : ∀ a tr, p.Gives tr (.ok a) → (f a).Guards ok (before ++ tr)) :
    (p.bind f).Guards ok before := by
  induction p generalizing before with
  | ret a =>
    have h := hf a [] ⟨rfl, rfl⟩
    rwa [List.append_nil] at h
  | raise e => trivial
  | act o k ih =>
    refine ⟨hp.1, fun x => ih x (hp.2 x) fun a tr hgives => ?_⟩
    have h := hf a (⟨o, x⟩ :: tr) ⟨x, tr, rfl, hgives⟩
    rwa [List.append_assoc, List.singleton_append]

/-- A part whose actions satisfy the condition whatever was before them. -/
theorem Uses.guards {P : Op → Prop} (hp : p.Uses P) (h : ∀ b o, P o → ok b o) :
    p.Guards ok before := by
  induction p generalizing before with
  | ret a => trivial
  | raise e => trivial
  | act o k ih => exact ⟨h before o hp.1, fun x => ih x (hp.2 x)⟩

/-- Every run that returns has performed such an action. -/
def Performs (P : Op → Prop) : Prog Ans ε α → Prop
  | .ret _ => False
  | .raise _ => True
  | .act o k => P o ∨ ∀ x, (k x).Performs P

variable {P : Op → Prop}

theorem Performs.left {f : α → Prog Ans ε β} (hp : p.Performs P) : (p.bind f).Performs P := by
  induction p with
  | ret a => exact hp.elim
  | raise e => trivial
  | act o k ih => exact hp.imp_right fun h x => ih x (h x)

theorem Performs.right {f : α → Prog Ans ε β} (hf : ∀ a, (f a).Performs P) :
    (p.bind f).Performs P := by
  induction p with
  | ret a => exact hf a
  | raise e => trivial
  | act o k ih => exact .inr ih

theorem Performs.call {o : Op} (ho : P o) : (call o : Prog Ans ε (Ans o)).Performs P := .inl ho

theorem Performs.of_gives {a : α} (hp : p.Performs P) (h : p.Gives tr (.ok a)) :
    ∃ tr₁ x tr₂, tr = tr₁ ++ x :: tr₂ ∧ P x.1 := by
  induction p generalizing tr with
  | ret b => exact hp.elim
  | raise e => cases h.2
  | act o k ih =>
    obtain ⟨x, tr', rfl, hgives⟩ := h
    rcases hp with ho | hk
    · exact ⟨[], ⟨o, x⟩, tr', rfl, ho⟩
    · obtain ⟨tr₁, y, tr₂, rfl, hy⟩ := ih x (hk x) hgives
      exact ⟨⟨o, x⟩ :: tr₁, y, tr₂, rfl, hy⟩

/-- Where a program comes to an action that is `P`, it is such a program. -/
def Leads (P : Op → Prop) (R : Prog Ans ε α → Prop) : Prog Ans ε α → Prop
  | .ret _ => True
  | .raise _ => True
  | .act o k => (P o ∧ R (.act o k)) ∨ (¬ P o ∧ ∀ x, (k x).Leads P R)

theorem Leads.bind {R : Prog Ans ε β → Prop} {f : α → Prog Ans ε β} (hp : p.Uses fun o => ¬ P o)
    (hf : ∀ a, (f a).Leads P R) : (p.bind f).Leads P R := by
  induction p with
  | ret a => exact hf a
  | raise e => trivial
  | act o k ih => exact .inr ⟨hp.1, fun x => ih x (hp.2 x)⟩

theorem Leads.of_gives {R : Prog Ans ε α → Prop} (hp : p.Leads P R) (h : p.Gives tr r)
    (htr : ∃ x ∈ tr, P x.1) : ∃ q tr₁ tr₂, R q ∧ tr = tr₁ ++ tr₂ ∧ (∀ x ∈ tr₁, ¬ P x.1) ∧
      q.Gives tr₂ r := by
  induction p generalizing tr with
  | ret a =>
    obtain ⟨x, hx, -⟩ := htr
    rw [h.1] at hx
    cases hx
  | raise e =>
    obtain ⟨x, hx, -⟩ := htr
    rw [h.1] at hx
    cases hx
  | act o k ih =>
    rcases hp with ⟨ho, hR⟩ | ⟨ho, hk⟩
    · exact ⟨.act o k, [], tr, hR, rfl, fun x hx => absurd hx List.not_mem_nil, h⟩
    · obtain ⟨y, tr', rfl, hgives⟩ := h
      obtain ⟨x, hx, hP⟩ := htr
      have hmem : x ∈ tr' := by
        rcases List.mem_cons.mp hx with rfl | hx
        · exact absurd hP ho
        · exact hx
      obtain ⟨q, tr₁, tr₂, hR, rfl, hnot, hq⟩ := ih y (hk y) hgives ⟨x, hmem, hP⟩
      refine ⟨q, ⟨o, y⟩ :: tr₁, tr₂, hR, rfl, ?_, hq⟩
      intro z hz
      rcases List.mem_cons.mp hz with rfl | hz
      · exact ho
      · exact hnot z hz

end Prog

end Concurrency
