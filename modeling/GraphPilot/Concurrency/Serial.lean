/-
Calls one after the other.

`Serves B p d cs r d'` is a call whose program is `p`, alone on the committed rows
`d`: the environment resolves its actions by `cs`, it ends with `r` (or has been
stopped, where `r` is `none`), and `d'` is committed then.  `Serial` is any
sequence of such calls.

* `Serves.settled` — what a proof of the program says of the call;
* `Smooth` — nothing that is asked of the database fails, and the session tells (`smooth_iff`);
* `Serves.of_map` — a call of which only the answer differs;
* `Serial.induction`, `Serial.related` — what holds of a whole sequence;
* `Serial.split` — the sequence before, at and after one of its calls;
* `serves_rowsAfter`, `exists_serial` — the call and the sequence that a script of choices
  runs through;
* `Alone.select`, `Alone.insert`, `Alone.update`, `Alone.delete`, `Alone.askFor` — the
  statements of a service, alone;
* `Serves.spared` — the tables that a call leaves alone.
-/
import GraphPilot.Concurrency.Alone
import GraphPilot.Concurrency.Statements

namespace Concurrency

/-- The first action of a script, when it succeeds. -/
theorem Prog.steps_call {Op Choice Loc Sh ε α : Type} {Ans : Op → Type}
    {perform : (o : Op) → Choice → Loc → Sh → Option (Except ε (Ans o) × Loc × Sh)} {o : Op}
    {f : Ans o → Prog Ans ε α} {c : Choice} {cs : List Choice} {loc loc' : Loc} {sh sh' : Sh}
    {a : Ans o} (h : perform o c loc sh = some (.ok a, loc', sh')) :
    ((Prog.call o).bind f).steps perform (c :: cs) loc sh =
      (f a).steps perform cs loc' sh' := by
  simp only [call, bind, steps, step?, h, Option.map_some]

/-- What is left of a program whose answer is put aside. -/
theorem Prog.steps_of_bind_ret {Op Choice Loc Sh ε α β : Type} {Ans : Op → Type}
    {perform : (o : Op) → Choice → Loc → Sh → Option (Except ε (Ans o) × Loc × Sh)}
    {p : Prog Ans ε α} {q : Prog Ans ε β} {f : α → β} {cs : List Choice} {loc loc' : Loc}
    {sh sh' : Sh}
    (h : (p.bind fun a => .ret (f a)).steps perform cs loc sh = some (q, loc', sh')) :
    ∃ p', p.steps perform cs loc sh = some (p', loc', sh') ∧ q = p'.bind fun a => .ret (f a) := by
  induction cs generalizing p loc sh with
  | nil =>
    cases h
    exact ⟨p, rfl, rfl⟩
  | cons c cs ih =>
    cases p with
    | ret a => cases h
    | raise e => cases h
    | act o k =>
      simp only [Prog.bind, Prog.steps, Prog.step?] at h ⊢
      cases hp : perform o c loc sh with
      | none =>
        rw [hp] at h
        cases h
      | some x =>
        rw [hp] at h
        exact ih h

namespace Sql

variable {Q ε I D W R V M α β Call : Type} {Res : Q → Type} [DecidableEq R]
variable {B : Backend Res ε I D W R V M}

/-- A call alone on the committed rows `d`. -/
def Serves (B : Backend Res ε I D W R V M) (p : Prog (Ans Res (M := M)) ε α) (d : D)
    (cs : List (Choice ε I)) (r : Option (Except ε α)) (d' : D) : Prop :=
  ∃ p' s' sv', p.steps (B.perform 0) cs .fresh (.initial d) = some (p', s', sv') ∧
    p'.result? = r ∧ sv'.db = d'

/-- Nothing fails. -/
def Smooth (cs : List (Choice ε I)) : Prop := ∀ c ∈ cs, ∃ inp, c = .ok inp

/-- Where nothing fails a session does not break. -/
theorem unbroken_of_smooth {p p' : Prog (Ans Res (M := M)) ε α} {cs : List (Choice ε I)}
    {s s' : Tx W} {sv sv' : Server D R M} (hs : s.broken = false) (hcs : Smooth cs)
    (h : p.steps (B.perform 0) cs s sv = some (p', s', sv')) : s'.broken = false := by
  induction cs generalizing p s sv with
  | nil =>
    cases h
    exact hs
  | cons c cs ih =>
    simp only [Prog.steps] at h
    split at h
    · rename_i p₁ s₁ sv₁ hstep
      obtain ⟨o, k, r, rfl, hp, rfl⟩ := Prog.step?_eq_some _ hstep
      refine ih ?_ (fun c' hc' => hcs c' (List.mem_cons_of_mem _ hc')) h
      obtain ⟨inp, rfl⟩ := hcs c List.mem_cons_self
      cases perform_acts hp with
      | query inp resp _ hrun hl => exact hs
      | refused inp hs' => exact hs
      | commit inp hs' => rfl
      | rollback inp => rfl
      | note inp mark => exact hs
    · cases h

/-- In code that never rolls back, a failure breaks the session for good. -/
theorem broken_of_fail {p p' : Prog (Ans Res (M := M)) ε α} {cs : List (Choice ε I)}
    {s s' : Tx W} {sv sv' : Server D R M} (hp : p.Uses fun o => o ≠ .rollback)
    (hfail : s.broken = true ∨ ∃ e, .fail e ∈ cs)
    (h : p.steps (B.perform 0) cs s sv = some (p', s', sv')) : s'.broken = true := by
  induction cs generalizing p s sv with
  | nil =>
    cases h
    rcases hfail with hs | ⟨e, he⟩
    · exact hs
    · exact absurd he List.not_mem_nil
  | cons c cs ih =>
    simp only [Prog.steps] at h
    split at h
    · rename_i p₁ s₁ sv₁ hstep
      obtain ⟨o, k, r, rfl, hperform, rfl⟩ := Prog.step?_eq_some _ hstep
      refine ih (hp.2 r) ?_ h
      -- the failure is still to come, or it has just broken the session
      have hlater : ∀ inp, c = .ok inp → s.broken = false → ∃ e, .fail e ∈ cs := by
        intro inp hc hs
        rcases hfail with hb | ⟨e, he⟩
        · exact absurd (hs.symm.trans hb) Bool.false_ne_true
        · rcases List.mem_cons.mp he with heq | he
          · rw [hc] at heq
            cases heq
          · exact ⟨e, he⟩
      by_cases hb : s.broken = true
      · cases perform_acts hperform with
        | query inp resp hs hrun hl => exact .inl hb
        | refused inp hs => exact .inl hb
        | lost e hs => exact .inl rfl
        | commit inp hs => exact absurd (hs.symm.trans hb) Bool.false_ne_true
        | rollback inp => exact absurd rfl hp.1
        | note inp mark => exact .inl hb
      · have hs : s.broken = false := Bool.not_eq_true _ ▸ hb
        cases perform_acts hperform with
        | query inp resp hs' hrun hl => exact .inr (hlater inp rfl hs)
        | refused inp hs' => exact .inl hs'
        | lost e hs' => exact .inl rfl
        | commit inp hs' => exact .inr (hlater inp rfl hs)
        | rollback inp => exact absurd rfl hp.1
        | note inp mark => exact .inr (hlater inp rfl hs)
    · cases h

/-- So the session tells whether anything has failed. -/
theorem smooth_iff {p p' : Prog (Ans Res (M := M)) ε α} {cs : List (Choice ε I)} {s' : Tx W}
    {sv sv' : Server D R M} (hp : p.Uses fun o => o ≠ .rollback)
    (h : p.steps (B.perform 0) cs .fresh sv = some (p', s', sv')) :
    Smooth cs ↔ s'.broken = false := by
  constructor
  · intro hcs
    exact unbroken_of_smooth rfl hcs h
  · intro hs c hc
    cases c with
    | ok inp => exact ⟨inp, rfl⟩
    | fail e =>
      have hb := broken_of_fail hp (.inr ⟨e, hc⟩) h
      exact absurd (hs.symm.trans hb) Bool.false_ne_true

/-- The end of a call: `Mid` holds of what is committed, and `Ok` or `Err` of the
result, unless the session has broken. -/
def Settled (Mid : D → Prop) (Ok : α → D → Prop) (Err : ε → D → Prop) :
    Except ε α → Tx W → D → List M → Prop
  | .ok a, _, d, _ => Mid d ∧ Ok a d
  | .error e, s, d, _ => Mid d ∧ (s.broken = false → Err e d)

instance (Mid : D → Prop) (Ok : α → D → Prop) (Err : ε → D → Prop) :
    Alone.Fails (W := W) (M := M) (fun d _ => Mid d) (Settled Mid Ok Err) :=
  ⟨fun _ _ _ hmid => ⟨hmid, fun hb => by cases hb⟩⟩

/-- What a proof of the program says of the call. -/
theorem Serves.settled {Mid : D → Prop} {Ok : α → D → Prop} {Err : ε → D → Prop}
    {p : Prog (Ans Res (M := M)) ε α} {d d' : D} {cs : List (Choice ε I)}
    {r : Option (Except ε α)}
    (hp : Alone B 0 (fun d _ => Mid d) (Settled Mid Ok Err) p .fresh d [])
    (h : Serves B p d cs r d') :
    Mid d' ∧ (∀ a, r = some (.ok a) → Ok a d') ∧
      (∀ e, r = some (.error e) → Smooth cs → Err e d') := by
  obtain ⟨p', s', sv', hsteps, rfl, rfl⟩ := h
  have hbroken : Smooth cs → s'.broken = false := fun hcs => unbroken_of_smooth rfl hcs hsteps
  rcases hp.stopped hsteps with ⟨r, hr, hpost⟩ | ⟨hr, hmid⟩
  · rw [hr]
    cases r with
    | ok a =>
      refine ⟨hpost.1, ?_, ?_⟩
      · intro b hb
        cases hb
        exact hpost.2
      · intro e he
        cases he
    | error e =>
      refine ⟨hpost.1, ?_, ?_⟩
      · intro b hb
        cases hb
      · intro e' he hcs
        cases he
        exact hpost.2 (hbroken hcs)
  · rw [hr]
    refine ⟨hmid, ?_, ?_⟩
    · intro a ha
      cases ha
    · intro e he
      cases he

/-- A call of which only the answer differs. -/
theorem Serves.of_map {p : Prog (Ans Res (M := M)) ε α} {f : α → β} {d d' : D}
    {cs : List (Choice ε I)} {r : Option (Except ε β)}
    (h : Serves B (p.bind fun a => .ret (f a)) d cs r d') :
    ∃ r', Serves B p d cs r' d' ∧ r = r'.map (Except.map f) := by
  obtain ⟨q, s', sv', hsteps, rfl, hd⟩ := h
  obtain ⟨p', hsteps', rfl⟩ := Prog.steps_of_bind_ret hsteps
  refine ⟨p'.result?, ⟨p', s', sv', hsteps', rfl, hd⟩, ?_⟩
  cases p' with
  | ret a => rfl
  | raise e => rfl
  | act o k => rfl

/-! ### Sequences -/

/-- One call of a sequence. -/
structure Served (Call ε I D α : Type) where
  call : Call
  choices : List (Choice ε I)
  result : Option (Except ε α)
  before : D
  after : D

/-- Calls one after the other, from the committed rows `d` to `d'`. -/
inductive Serial (B : Backend Res ε I D W R V M) (program : Call → Prog (Ans Res (M := M)) ε α) :
    D → List (Served Call ε I D α) → D → Prop where
  | nil {d} : Serial B program d [] d
  | cons {d d' es} (e : Served Call ε I D α) (hbefore : e.before = d)
      (hserves : Serves B (program e.call) d e.choices e.result e.after)
      (hrest : Serial B program e.after es d') : Serial B program d (e :: es) d'

namespace Serial

variable {program : Call → Prog (Ans Res (M := M)) ε α} {d d' : D}
variable {es : List (Served Call ε I D α)}

/-- An invariant that every call keeps. -/
theorem induction {Inv : D → Prop}
    (hstep : ∀ call cs r d d', Inv d → Serves B (program call) d cs r d' → Inv d')
    (h : Serial B program d es d') (hd : Inv d) : Inv d' := by
  induction h with
  | nil => exact hd
  | cons e hbefore hserves hrest ih => exact ih (hstep _ _ _ _ _ hd hserves)

/-- A preorder that every call respects. -/
theorem related (Rel : D → D → Prop) (hrefl : ∀ d, Rel d d)
    (htrans : ∀ {d₁ d₂ d₃}, Rel d₁ d₂ → Rel d₂ d₃ → Rel d₁ d₃)
    (hstep : ∀ call cs r d d', Serves B (program call) d cs r d' → Rel d d')
    (h : Serial B program d es d') : Rel d d' := by
  induction h with
  | nil => exact hrefl _
  | cons e hbefore hserves hrest ih => exact htrans (hstep _ _ _ _ _ hserves) ih

/-- Before, at and after one of the calls. -/
theorem split {es₁ es₂ : List (Served Call ε I D α)} {e : Served Call ε I D α}
    (h : Serial B program d (es₁ ++ e :: es₂) d') :
    Serial B program d es₁ e.before ∧
      Serves B (program e.call) e.before e.choices e.result e.after ∧
      Serial B program e.after es₂ d' := by
  induction es₁ generalizing d with
  | nil =>
    cases h with
    | cons _ hbefore hserves hrest =>
      subst hbefore
      exact ⟨.nil, hserves, hrest⟩
  | cons e₁ es₁ ih =>
    cases h with
    | cons _ hbefore hserves hrest =>
      obtain ⟨hfirst, hrest⟩ := ih hrest
      exact ⟨.cons e₁ hbefore hserves hfirst, hrest⟩

end Serial

/-! ### Sequences, computed -/

section Rows

variable (B)

/-- The committed rows after a script of choices. -/
def rowsAfter (p : Prog (Ans Res (M := M)) ε α) (d : D) (cs : List (Choice ε I)) : D :=
  ((p.steps (B.perform 0) cs .fresh (.initial d)).map fun x => x.2.2.db).getD d

variable {B}

/-- A call that a script runs through. -/
theorem serves_rowsAfter {p : Prog (Ans Res (M := M)) ε α} {d : D} {cs : List (Choice ε I)}
    {r : Option (Except ε α)}
    (h : (p.steps (B.perform 0) cs .fresh (.initial d)).map (fun x => x.1.result?) = some r) :
    Serves B p d cs r (rowsAfter B p d cs) := by
  obtain ⟨⟨p', s', sv'⟩, hsteps, hr⟩ := Option.map_eq_some_iff.mp h
  refine ⟨p', s', sv', hsteps, hr, ?_⟩
  rw [rowsAfter, hsteps]
  rfl

end Rows

section Compute

variable (B) (program : Call → Prog (Ans Res (M := M)) ε α)

/-- The calls with the choices of the environment. -/
def serveAll? : D → List (Call × List (Choice ε I)) → Option (List (Served Call ε I D α) × D)
  | d, [] => some ([], d)
  | d, (call, cs) :: rest =>
    match (program call).steps (B.perform 0) cs .fresh (.initial d) with
    | none => none
    | some (p', _, sv') => (serveAll? sv'.db rest).map fun x =>
        (⟨call, cs, p'.result?, d, sv'.db⟩ :: x.1, x.2)

variable {B program}

theorem serial_of_serveAll {d d' : D} {calls : List (Call × List (Choice ε I))}
    {es : List (Served Call ε I D α)} (h : serveAll? B program d calls = some (es, d')) :
    Serial B program d es d' := by
  induction calls generalizing d es with
  | nil =>
    cases h
    exact .nil
  | cons c calls ih =>
    obtain ⟨call, cs⟩ := c
    simp only [serveAll?] at h
    split at h
    · cases h
    · rename_i p' s' sv' hsteps
      obtain ⟨x, hx, heq⟩ := Option.map_eq_some_iff.mp h
      cases heq
      exact .cons _ rfl ⟨p', s', sv', hsteps, rfl, rfl⟩ (ih hx)

theorem calls_of_serveAll {d d' : D} {calls : List (Call × List (Choice ε I))}
    {es : List (Served Call ε I D α)} (h : serveAll? B program d calls = some (es, d')) :
    es.map (·.call) = calls.map (·.1) := by
  induction calls generalizing d es with
  | nil =>
    cases h
    rfl
  | cons c calls ih =>
    obtain ⟨call, cs⟩ := c
    simp only [serveAll?] at h
    split at h
    · cases h
    · obtain ⟨x, hx, heq⟩ := Option.map_eq_some_iff.mp h
      cases heq
      rw [List.map_cons, List.map_cons, ih hx]

/-- A sequence that the script runs through. -/
theorem exists_serial {d : D} (calls : List (Call × List (Choice ε I)))
    {P : List (Served Call ε I D α) → D → Prop} [∀ es d', Decidable (P es d')]
    (h : ((serveAll? B program d calls).any fun x => P x.1 x.2) = true) :
    ∃ es d', Serial B program d es d' ∧ es.map (·.call) = calls.map (·.1) ∧ P es d' := by
  obtain ⟨x, hx, hP⟩ := (Option.any_eq_true _ _).mp h
  exact ⟨x.1, x.2, serial_of_serveAll hx, calls_of_serveAll hx, of_decide_eq_true hP⟩

end Compute

end Sql

/-! ### Statements alone -/

namespace Sql

open Relational

variable {ι κ ε M α Ask : Type} {Row Values : ι → Type} [Schema Row Values κ]
variable [DecidableEq ι] [DecidableEq κ] {Answer : Ask → Type} {S : Service Row Answer ε M}
variable {t : ℕ} {Mid : Tables Row → List M → Prop}
variable {Post : Except ε α → Tx (RowWrite Row Values κ) → Tables Row → List M → Prop}
variable {ws : List (RowWrite Row Values κ)} {d : Tables Row} {h : List M} {n : ι} {k : κ}

namespace Alone

variable [Fails Mid Post]

theorem select {p : Row n → Bool} {f : List (Row n) → S.Program α} (hmid : Mid d h)
    (hok : Alone S.backend t Mid Post (f ((S.backend.store.applyAll ws d n).rows.filter p))
      ⟨ws, false⟩ d h) :
    Alone S.backend t Mid Post ((Prog.call (.query (.select n p))).bind f) ⟨ws, false⟩ d h := by
  refine await hmid fun inp resp hrun => ?_
  obtain rfl : resp = ⟨[], [], _⟩ := run_select hrun
  rw [List.append_nil]
  exact hok

theorem insert {x : Row n} {f : Unit → S.Program α} (hmid : Mid d h)
    (hok : (S.backend.store.applyAll ws d n).find? (Keyed.key x) = none →
      Alone S.backend t Mid Post (f ()) ⟨ws ++ [.insert n x], false⟩ d h) :
    Alone S.backend t Mid Post ((Prog.call (.query (.insert n x))).bind f) ⟨ws, false⟩ d h := by
  refine await hmid fun inp resp hrun => ?_
  obtain ⟨hnew, -, rfl⟩ := run_insert hrun
  exact hok hnew

theorem update {v : Values n} {f : Unit → S.Program α} (hmid : Mid d h)
    (hok : ((S.backend.store.applyAll ws d n).find? k).isSome →
      Alone S.backend t Mid Post (f ()) ⟨ws ++ [.update n k v], false⟩ d h) :
    Alone S.backend t Mid Post ((Prog.call (.query (.update n k v))).bind f) ⟨ws, false⟩ d h := by
  refine await hmid fun inp resp hrun => ?_
  obtain ⟨hsome, rfl⟩ := run_update hrun
  exact hok hsome

theorem delete {f : Unit → S.Program α} (hmid : Mid d h)
    (hok : Alone S.backend t Mid Post (f ()) ⟨ws ++ [.delete n k], false⟩ d h)
    (hnone : (S.backend.store.applyAll ws d n).find? k = none →
      Alone S.backend t Mid Post (f ()) ⟨ws, false⟩ d h) :
    Alone S.backend t Mid Post ((Prog.call (.query (.delete n k))).bind f) ⟨ws, false⟩ d h := by
  refine await hmid fun inp resp hrun => ?_
  rcases run_delete hrun with rfl | ⟨hgone, rfl⟩
  · exact hok
  · rw [List.append_nil]
    exact hnone hgone

theorem askFor {a : Ask} {f : Answer a → S.Program α} (hmid : Mid d h)
    (hok : ∀ y, Alone S.backend t Mid Post (f y) ⟨ws, false⟩ d h) :
    Alone S.backend t Mid Post ((Prog.call (.query (.ask a))).bind f) ⟨ws, false⟩ d h := by
  refine await hmid fun inp resp hrun => ?_
  rw [run_ask (a := a) hrun, List.append_nil]
  exact hok _

end Alone

/-- A question that is no statement, at the beginning of a call. -/
theorem Serves.ask {a : Ask} {f : Answer a → S.Program α} {world : ∀ a, Answer a}
    {cs : List (Choice ε (Input Answer))} {r : Option (Except ε α)} {d' : Tables Row}
    (ha : S.statement a = false)
    (h : Serves S.backend ((Prog.call (.query (.ask a))).bind f) d (.ok (.answers world) :: cs)
      r d') : Serves S.backend (f (world a)) d cs r d' := by
  obtain ⟨p', s', sv', hsteps, hr, hd⟩ := h
  refine ⟨p', s', sv', ?_, hr, hd⟩
  rw [← hsteps]
  have hlock : (Server.initial d : Server (Tables Row) (ι × κ) M).lock 0 [] = .initial d := by
    simp [Server.lock]
  have hperform : S.backend.perform 0 (.query (.ask a)) (.ok (.answers world)) .fresh
      (.initial d) = some (.ok (world a), .fresh, .initial d) := by
    show (if S.statement a && false then _ else _) = _
    rw [ha]
    show some (Except.ok (world a), (⟨[] ++ [], false⟩ : Tx (RowWrite Row Values κ)), _) = _
    rw [hlock]
    rfl
  exact (Prog.steps_call hperform).symm

/-! ### Tables that are left alone -/

/-- A session that has not written the table. -/
structure Spared (n : ι) (d : Tables Row) (s : Tx (RowWrite Row Values κ))
    (sv : Server (Tables Row) (ι × κ) M) : Prop where
  writes : ∀ w ∈ s.writes, w.row.1 ≠ n
  table : sv.db n = d n

theorem applyAll_of_spared {ws : List (RowWrite Row Values κ)} (h : ∀ w ∈ ws, w.row.1 ≠ n) :
    S.backend.store.applyAll ws d n = d n := by
  induction ws generalizing d with
  | nil => rfl
  | cons w ws ih =>
    have hrest := ih (d := w.apply d) fun w' hw' => h w' (List.mem_cons_of_mem _ hw')
    exact hrest.trans (apply_of_ne (h w List.mem_cons_self))

theorem Spared.step {o : Op (Query Row Values κ Ask) M} {ch : Choice ε (Input Answer)}
    {r : Except ε (Ans (Result Answer) o)} {s s' : Tx (RowWrite Row Values κ)}
    {sv sv' : Server (Tables Row) (ι × κ) M} (h : Spared n d s sv) (ho : o.Spares n)
    (hp : S.backend.perform t o ch s sv = some (r, s', sv')) : Spared n d s' sv' := by
  have hnil : ∀ w ∈ ([] : List (RowWrite Row Values κ)), w.row.1 ≠ n := fun w hw => by cases hw
  cases perform_acts hp with
  | query inp resp hs hrun hl =>
    refine ⟨fun w hw => ?_, h.table⟩
    rcases List.mem_append.mp hw with hw | hw
    · exact h.writes w hw
    · intro hn
      exact ho ((table_of_run hrun hw).trans (congrArg some hn))
  | refused inp hs => exact h
  | lost e hs => exact ⟨hnil, h.table⟩
  | commit inp hs => exact ⟨hnil, (applyAll_of_spared h.writes).trans h.table⟩
  | rollback inp => exact ⟨hnil, h.table⟩
  | note inp mark => exact ⟨h.writes, h.table⟩

/-- A call that writes other tables leaves this one as it was. -/
theorem Serves.spared {p : S.Program α} {cs : List (Choice ε (Input Answer))}
    {r : Option (Except ε α)} {d' : Tables Row} (hp : p.Uses fun o => o.Spares n)
    (h : Serves S.backend p d cs r d') : d' n = d n := by
  obtain ⟨p', s', sv', hsteps, -, rfl⟩ := h
  have hend : ∀ {p : S.Program α} {cs s sv}, p.Uses (fun o => o.Spares n) → Spared n d s sv →
      p.steps (S.backend.perform 0) cs s sv = some (p', s', sv') → Spared n d s' sv' := by
    intro p cs
    induction cs generalizing p with
    | nil =>
      intro s sv _ hs hr
      cases hr
      exact hs
    | cons c cs ih =>
      intro s sv hp hs hr
      simp only [Prog.steps] at hr
      split at hr
      · rename_i p₁ s₁ sv₁ hstep
        obtain ⟨o, k, r, rfl, hperform, rfl⟩ := Prog.step?_eq_some _ hstep
        exact ih (hp.2 r) (hs.step hp.1 hperform) hr
      · cases hr
  exact (hend hp ⟨fun w hw => (by cases hw), rfl⟩ hsteps).table

end Sql

end Concurrency
