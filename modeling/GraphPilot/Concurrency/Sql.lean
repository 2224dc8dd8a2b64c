/-
Calls that run SQL transactions, each in a session of its own.

A `Backend` says what the queries of a service do: which rows a query locks,
what it writes and what it answers, given the rows the session sees (the
committed ones under its own writes) and an input of the environment (the
clock, a generated key).  Queries that are no statements ask the world outside
the database.

* A query waits until every row it locks is free; the locks are held to the
  end of the transaction.
* A statement or a commit may fail: the writes of the transaction are lost and
  the session refuses everything until it is rolled back.
* A commit applies the writes, releases the locks and adds to the history what
  `publish` makes of it.  The history is never read by a program.

`Promise` is the part of a rely–guarantee contract that is not the same for
all services; `Promise.contract` adds what row locks give, and
`Outline.query`, `Outline.commit` and `Outline.note` are the rules of the
actions.
-/
import GraphPilot.Concurrency.RelyGuarantee
import GraphPilot.Concurrency.Transaction

namespace Concurrency

namespace Sql

/-- The outcome of a query. -/
structure Response (W R α : Type) where
  locks : List R
  writes : List W
  answer : α

/-- What the queries `q : Q` of a service do, answered in `Res q`, with inputs
in `I`, on databases `D` with the writes `W` and the rows `R`; `M` are the
entries of the history. -/
structure Backend {Q : Type} (Res : Q → Type) (ε I D W R V M : Type) where
  store : Store W D R V
  statement : Q → Bool
  run : (q : Q) → I → D → Option (Response W R (Res q))
  refused : ε
  publish : ℕ → D → List W → List M
  locks_writes : ∀ {q inp d resp}, run q inp d = some resp → ∀ w ∈ resp.writes, ∀ r,
    store.row? w = some r → r ∈ resp.locks
  ask : ∀ {q inp d resp}, run q inp d = some resp → statement q = false →
    resp = ⟨[], [], resp.answer⟩

/-- The actions of a call. -/
inductive Op (Q M : Type) where
  | query (q : Q)
  | commit
  | rollback
  | note (mark : ℕ → M)

/-- What an action answers. -/
abbrev Ans {Q : Type} (Res : Q → Type) {M : Type} : Op Q M → Type
  | .query q => Res q
  | _ => Unit

/-- How the environment resolves an action. -/
inductive Choice (ε I : Type) where
  | ok (inp : I)
  | fail (e : ε)

/-- The transaction of a session. -/
structure Tx (W : Type) where
  writes : List W
  broken : Bool

/-- The session of a new call. -/
def Tx.fresh {W : Type} : Tx W := ⟨[], false⟩

/-- The database server: committed rows and row locks, with the history. -/
structure Server (D R M : Type) where
  db : D
  locks : R → Option ℕ
  history : List M

/-- The server before any call. -/
def Server.initial {D R M : Type} (db : D) : Server D R M := ⟨db, fun _ => none, []⟩

namespace Server

variable {D R M : Type}

/-- The lock of the row is free or held by `t`. -/
def lockable [DecidableEq R] (sv : Server D R M) (t : ℕ) (r : R) : Bool :=
  sv.locks r = none || sv.locks r = some t

def lock [DecidableEq R] (sv : Server D R M) (t : ℕ) (rs : List R) : Server D R M :=
  { sv with locks := fun r => if r ∈ rs then some t else sv.locks r }

/-- All locks held by `t` are released. -/
def release (sv : Server D R M) (t : ℕ) : Server D R M :=
  { sv with locks := fun r => if sv.locks r = some t then none else sv.locks r }

end Server

variable {Q ε I D W R V M Call α : Type} {Res : Q → Type} [DecidableEq R]

namespace Backend

variable (B : Backend Res ε I D W R V M)

/-- The database as a session sees it. -/
def view (ws : List W) (sv : Server D R M) : D := B.store.applyAll ws sv.db

/-- The server after the commit of `ws`. -/
def committed (t : ℕ) (ws : List W) (sv : Server D R M) : Server D R M :=
  { sv.release t with
    db := B.view ws sv
    history := sv.history ++ B.publish t sv.db ws }

/-- One action of the call `t`. -/
def perform (t : ℕ) : (o : Op Q M) → Choice ε I → Tx W → Server D R M →
    Option (Except ε (Ans Res o) × Tx W × Server D R M)
  | .query q, .ok inp, s, sv =>
    if B.statement q && s.broken then some (.error B.refused, s, sv)
    else
      match B.run q inp (B.view s.writes sv) with
      | some resp =>
        if resp.locks.all (sv.lockable t) then
          some (.ok resp.answer, { s with writes := s.writes ++ resp.writes },
            sv.lock t resp.locks)
        else none
      | none => none
  | .query q, .fail e, s, sv =>
    if B.statement q && !s.broken then some (.error e, ⟨[], true⟩, sv.release t) else none
  | .commit, .ok _, s, sv =>
    if s.broken then some (.error B.refused, s, sv)
    else some (.ok (), .fresh, B.committed t s.writes sv)
  | .commit, .fail e, s, sv =>
    if s.broken then none else some (.error e, ⟨[], true⟩, sv.release t)
  | .rollback, .ok _, _, sv => some (.ok (), .fresh, sv.release t)
  | .note mark, .ok _, s, sv => some (.ok (), s, { sv with history := sv.history ++ [mark t] })
  | _, _, _, _ => none

/-- Any number of calls on one database. -/
def system (program : Call → Prog (Ans Res (M := M)) ε Unit) (admits : D → Call → Bool) :
    System (Ans Res (M := M)) ε (Choice ε I) (Tx W) (Server D R M) Call where
  perform := B.perform
  abandon := fun t _ sv => sv.release t
  program := program
  fresh := .fresh
  admits := fun sv call => admits sv.db call

end Backend

/-! ### What an action can do -/

/-- What the action `o` of the call `t` can do, with its answer. -/
inductive Acts (B : Backend Res ε I D W R V M) (t : ℕ) : Tx W → Server D R M → (o : Op Q M) →
    Choice ε I → Except ε (Ans Res o) → Tx W → Server D R M → Prop where
  | query {s sv q} (inp : I) (resp : Response W R (Res q))
      (hs : B.statement q = true → s.broken = false)
      (hrun : B.run q inp (B.view s.writes sv) = some resp)
      (hl : ∀ r ∈ resp.locks, sv.lockable t r = true) :
      Acts B t s sv (.query q) (.ok inp) (.ok resp.answer)
        { s with writes := s.writes ++ resp.writes } (sv.lock t resp.locks)
  | refused {s sv o} (inp : I) (hs : s.broken = true) :
      Acts B t s sv o (.ok inp) (.error B.refused) s sv
  | lost {s sv o} (e : ε) (hs : s.broken = false) :
      Acts B t s sv o (.fail e) (.error e) ⟨[], true⟩ (sv.release t)
  | commit {s sv} (inp : I) (hs : s.broken = false) :
      Acts B t s sv .commit (.ok inp) (.ok ()) .fresh (B.committed t s.writes sv)
  | rollback {s sv} (inp : I) : Acts B t s sv .rollback (.ok inp) (.ok ()) .fresh (sv.release t)
  | note {s sv} (inp : I) (mark : ℕ → M) : Acts B t s sv (.note mark) (.ok inp) (.ok ()) s
      { sv with history := sv.history ++ [mark t] }

variable {B : Backend Res ε I D W R V M} {t i : ℕ} {s s' : Tx W} {sv sv' : Server D R M}

theorem perform_acts {o : Op Q M} {ch : Choice ε I} {r : Except ε (Ans Res o)}
    (h : B.perform t o ch s sv = some (r, s', sv')) : Acts B t s sv o ch r s' sv' := by
  cases o with
  | query q =>
    cases ch with
    | ok inp =>
      simp only [Backend.perform] at h
      split at h
      · rename_i hb
        cases h
        exact .refused inp (Bool.and_eq_true_iff.mp hb).2
      · rename_i hb
        split at h
        · rename_i resp hrun
          split at h
          · rename_i hl
            cases h
            refine .query inp resp (fun hq => ?_) hrun (by simpa using hl)
            simpa [hq] using hb
          · cases h
        · cases h
    | fail e =>
      simp only [Backend.perform] at h
      split at h
      · rename_i hb
        cases h
        exact .lost e (by simpa using (Bool.and_eq_true_iff.mp hb).2)
      · cases h
  | commit =>
    cases ch with
    | ok inp =>
      simp only [Backend.perform] at h
      split at h
      · rename_i hb
        cases h
        exact .refused inp hb
      · rename_i hb
        cases h
        exact .commit inp (by simpa using hb)
    | fail e =>
      simp only [Backend.perform] at h
      split at h
      · cases h
      · rename_i hb
        cases h
        exact .lost e (by simpa using hb)
  | rollback =>
    cases ch with
    | ok inp =>
      cases h
      exact .rollback inp
    | fail e => cases h
  | note mark =>
    cases ch with
    | ok inp =>
      cases h
      exact .note inp mark
    | fail e => cases h

/-! ### Row locks -/

/-- The rows whose lock `t` holds. -/
def Server.Held (sv : Server D R M) (t : ℕ) (r : R) : Prop := sv.locks r = some t

/-- A session holds the locks of the rows it writes; a broken one writes
nothing. -/
structure Owned (B : Backend Res ε I D W R V M) (t : ℕ) (s : Tx W) (sv : Server D R M) :
    Prop where
  locks : B.store.Owns t s.writes sv.locks
  broken : s.broken = true → s.writes = []

/-- What row locks promise to `t`: nobody else takes them or changes the
rows. -/
structure Frame (B : Backend Res ε I D W R V M) (t : ℕ) (sv sv' : Server D R M) : Prop where
  locks : ∀ r, sv.Held t r → sv'.Held t r
  value : ∀ r, sv.Held t r → B.store.value sv'.db r = B.store.value sv.db r

namespace Frame

omit [DecidableEq R]

theorem refl : Frame B t sv sv := ⟨fun _ h => h, fun _ _ => rfl⟩

theorem trans {sv'' : Server D R M} (h : Frame B t sv sv') (h' : Frame B t sv' sv'') :
    Frame B t sv sv'' where
  locks r hr := h'.locks r (h.locks r hr)
  value r hr := (h'.value r (h.locks r hr)).trans (h.value r hr)

theorem release (hne : t ≠ i) : Frame B t sv (sv.release i) where
  locks r hr := by
    unfold Server.Held at hr ⊢
    simp [Server.release, hr, hne]
  value _ _ := rfl

/-- The commit of another session. -/
theorem committed {ws : List W} (hne : t ≠ i) (h : B.store.Owns i ws sv.locks) :
    Frame B t sv (B.committed i ws sv) where
  locks r hr := (release (B := B) hne).locks r hr
  value r hr := Store.value_commit_of_ne h (by
    rw [show sv.locks r = some t from hr]
    simpa using hne)

end Frame

theorem held_lock {rs : List R} {r : R} (hr : r ∈ rs) : (sv.lock t rs).Held t r := by
  simp [Server.Held, Server.lock, hr]

theorem Frame.lock {rs : List R} (hl : ∀ x ∈ rs, sv.lockable i x = true) :
    Frame B t sv (sv.lock i rs) where
  locks r h := by
    unfold Server.Held at h ⊢
    by_cases hr : r ∈ rs
    · have := hl r hr
      simp only [Server.lockable, h, reduceCtorEq, decide_false, Bool.false_or,
        decide_eq_true_eq, Option.some.injEq] at this
      simp [Server.lock, hr, this]
    · simp [Server.lock, hr, h]
  value _ _ := rfl

namespace Owned

omit [DecidableEq R] in
theorem fresh : Owned B t .fresh sv := ⟨Store.Owns.nil, fun _ => rfl⟩

omit [DecidableEq R] in
theorem frame (h : Owned B t s sv) (hf : Frame B t sv sv') : Owned B t s sv' :=
  ⟨h.locks.mono hf.locks, h.broken⟩

theorem step {o : Op Q M} {ch : Choice ε I} {r : Except ε (Ans Res o)}
    (h : Owned B t s sv) (hp : B.perform t o ch s sv = some (r, s', sv')) :
    Owned B t s' sv' := by
  cases perform_acts hp with
  | query inp resp hs hrun hl =>
    have hframe : Frame B t sv (sv.lock t resp.locks) := Frame.lock hl
    refine ⟨fun w hw row hrow => ?_, fun hb => ?_⟩
    · rcases List.mem_append.mp hw with hw | hw
      · exact hframe.locks row (h.locks w hw row hrow)
      · exact held_lock (B.locks_writes hrun w hw row hrow)
    · have hask := B.ask hrun (by
        by_contra hq
        rw [show s.broken = false from hs (by simpa using hq)] at hb
        cases hb)
      rw [hask, List.append_nil]
      exact h.broken hb
  | refused inp hs => exact h
  | lost e hs => exact ⟨Store.Owns.nil, fun _ => rfl⟩
  | commit inp hs => exact .fresh
  | rollback inp => exact .fresh
  | note inp mark => exact ⟨h.locks, h.broken⟩

end Owned

/-! ### Contracts -/

/-- What the sessions of a service promise each other beside their row locks:
an invariant of the committed rows and the history, and what the session `t`,
which holds the locks `held`, may rely on. -/
structure Promise (D R M : Type) where
  inv : D → List M → Prop
  rely : ℕ → (R → Prop) → D → List M → D → List M → Prop
  rely_refl : ∀ t held d h, rely t held d h d h
  rely_trans : ∀ {t held d h d' h' d'' h''}, rely t held d h d' h' → rely t held d' h' d'' h'' →
    rely t held d h d'' h''
  rely_mono : ∀ {t} {held held' : R → Prop} {d h d' h'}, (∀ r, held r → held' r) →
    rely t held' d h d' h' → rely t held d h d' h'

/-- What thread `t` may assume of the others. -/
structure Relies (B : Backend Res ε I D W R V M) (P : Promise D R M) (t : ℕ)
    (sv sv' : Server D R M) : Prop where
  frame : Frame B t sv sv'
  promise : P.rely t (sv.Held t) sv.db sv.history sv'.db sv'.history

namespace Relies

omit [DecidableEq R]

variable {P : Promise D R M}

theorem refl : Relies B P t sv sv := ⟨.refl, P.rely_refl _ _ _ _⟩

theorem trans {sv'' : Server D R M} (h : Relies B P t sv sv') (h' : Relies B P t sv' sv'') :
    Relies B P t sv sv'' :=
  ⟨h.frame.trans h'.frame, P.rely_trans h.promise (P.rely_mono h.frame.locks h'.promise)⟩

end Relies

/-- The contract of a promise. -/
def Promise.contract (P : Promise D R M) (B : Backend Res ε I D W R V M)
    (program : Call → Prog (Ans Res (M := M)) ε Unit) (admits : D → Call → Bool)
    (cond : System.Condition (Op Q M) (Choice ε I) (Tx W) (Server D R M)) :
    Contract (B.system program admits) cond where
  inv sv := P.inv sv.db sv.history
  own := Owned B
  rely := Relies B P
  rely_refl _ _ := .refl
  rely_trans h h' := h.trans h'
  own_fresh _ _ := .fresh
  own_rely h hr := h.frame hr.frame
  own_step h hp := h.step hp
  stop hinv _ _ := ⟨hinv, fun _ hne => ⟨.release hne, P.rely_refl _ _ _ _⟩⟩

/-- The commit of the writes `ws` by the session `t` keeps the promise. -/
def Promise.Commits (P : Promise D R M) (B : Backend Res ε I D W R V M) (t : ℕ) (ws : List W)
    (sv : Server D R M) : Prop :=
  P.inv (B.view ws sv) (sv.history ++ B.publish t sv.db ws) ∧
    ∀ j, j ≠ t → P.rely j (sv.Held j) sv.db sv.history (B.view ws sv)
      (sv.history ++ B.publish t sv.db ws)

section Rules

variable {P : Promise D R M} {program : Call → Prog (Ans Res (M := M)) ε Unit}
variable {admits : D → Call → Bool}
variable {cond : System.Condition (Op Q M) (Choice ε I) (Tx W) (Server D R M)}
variable {Post : Except ε α → Tx W → Server D R M → Prop} {ws : List W}

/-- A query in a session that is not broken. -/
theorem Outline.query {q : Q} {k : Except ε (Res q) → Prog (Ans Res (M := M)) ε α}
    (hok : ∀ sv₁, Relies B P t sv sv₁ → P.inv sv₁.db sv₁.history → Owned B t ⟨ws, false⟩ sv₁ →
      ∀ inp resp, cond t (some (.query q, .ok inp)) ⟨ws, false⟩ sv₁ →
        B.run q inp (B.view ws sv₁) = some resp → (∀ r ∈ resp.locks, sv₁.lockable t r = true) →
        Outline (P.contract B program admits cond) t Post (k (.ok resp.answer))
          ⟨ws ++ resp.writes, false⟩ (sv₁.lock t resp.locks))
    (hfail : ∀ e sv₁, Outline (P.contract B program admits cond) t Post (k (.error e))
      ⟨[], true⟩ sv₁) :
    Outline (P.contract B program admits cond) t Post (.act (.query q) k) ⟨ws, false⟩ sv := by
  intro sv₁ hrely hinv hown ch r s' sv' hc hp
  cases perform_acts hp with
  | query inp resp hs hrun hl =>
    exact ⟨hinv, fun j hj => ⟨.lock hl, P.rely_refl _ _ _ _⟩,
      hok sv₁ hrely hinv hown inp resp hc hrun hl⟩
  | refused inp hs => cases hs
  | lost e hs => exact ⟨hinv, fun j hj => ⟨.release hj, P.rely_refl _ _ _ _⟩, hfail e _⟩

/-- A statement in a broken session. -/
theorem Outline.refused {q : Q} {k : Except ε (Res q) → Prog (Ans Res (M := M)) ε α}
    (hq : B.statement q = true) (hfail : ∀ e sv₁,
      Outline (P.contract B program admits cond) t Post (k (.error e)) ⟨ws, true⟩ sv₁) :
    Outline (P.contract B program admits cond) t Post (.act (.query q) k) ⟨ws, true⟩ sv := by
  intro sv₁ hrely hinv hown ch r s' sv' hc hp
  cases perform_acts hp with
  | query inp resp hs hrun hl => cases hs hq
  | refused inp hs => exact ⟨hinv, fun j _ => ⟨.refl, P.rely_refl _ _ _ _⟩, hfail _ _⟩
  | lost e hs => cases hs

/-- A question to the world outside the database. -/
theorem Outline.ask {q : Q} {f : Res q → Prog (Ans Res (M := M)) ε α} (hq : B.statement q = false)
    (hok : ∀ sv₁, Relies B P t sv sv₁ → P.inv sv₁.db sv₁.history → ∀ a,
      Outline (P.contract B program admits cond) t Post (f a) s sv₁) :
    Outline (P.contract B program admits cond) t Post ((Prog.call (.query q)).bind f) s sv := by
  intro sv₁ hrely hinv hown ch r s' sv' hc hp
  cases ch with
  | ok inp =>
    simp only [Backend.system, Backend.perform, hq, Bool.false_and, Bool.false_eq_true,
      if_false] at hp
    cases hrun : B.run q inp (B.view s.writes sv₁) with
    | none => simp [hrun] at hp
    | some resp =>
      obtain ⟨a, rfl⟩ : ∃ a, resp = ⟨[], [], a⟩ := ⟨_, B.ask hrun hq⟩
      simp only [hrun, List.all_nil, if_true, List.append_nil, Option.some.injEq,
        Prod.mk.injEq] at hp
      obtain ⟨rfl, rfl, rfl⟩ := hp
      have hlock : sv₁.lock t [] = sv₁ := by simp [Server.lock]
      rw [hlock]
      exact ⟨hinv, fun j _ => ⟨.refl, P.rely_refl _ _ _ _⟩, hok sv₁ hrely hinv a⟩
  | fail e => simp [Backend.system, Backend.perform, hq] at hp

/-- A commit of a session that is not broken. -/
theorem Outline.commit {k : Except ε Unit → Prog (Ans Res (M := M)) ε α}
    (hok : ∀ sv₁, Relies B P t sv sv₁ → P.inv sv₁.db sv₁.history → Owned B t ⟨ws, false⟩ sv₁ →
      ∀ inp, cond t (some (.commit, .ok inp)) ⟨ws, false⟩ sv₁ →
        P.Commits B t ws sv₁ ∧
        Outline (P.contract B program admits cond) t Post (k (.ok ())) ⟨[], false⟩
          (B.committed t ws sv₁))
    (hfail : ∀ e sv₁, Outline (P.contract B program admits cond) t Post (k (.error e))
      ⟨[], true⟩ sv₁) :
    Outline (P.contract B program admits cond) t Post (.act .commit k) ⟨ws, false⟩ sv := by
  intro sv₁ hrely hinv hown ch r s' sv' hc hp
  cases perform_acts hp with
  | commit inp hs =>
    obtain ⟨⟨hinv', hrely'⟩, hk⟩ := hok sv₁ hrely hinv hown inp hc
    exact ⟨hinv', fun j hj => ⟨.committed hj hown.locks, hrely' j hj⟩, hk⟩
  | refused inp hs => cases hs
  | lost e hs => exact ⟨hinv, fun j hj => ⟨.release hj, P.rely_refl _ _ _ _⟩, hfail e _⟩

/-- An entry of the history. -/
theorem Outline.note {mark : ℕ → M} {k : Except ε Unit → Prog (Ans Res (M := M)) ε α}
    (hok : ∀ sv₁, Relies B P t sv sv₁ → P.inv sv₁.db sv₁.history →
      P.inv sv₁.db (sv₁.history ++ [mark t]) ∧
      (∀ j, j ≠ t → P.rely j (sv₁.Held j) sv₁.db sv₁.history sv₁.db (sv₁.history ++ [mark t])) ∧
      Outline (P.contract B program admits cond) t Post (k (.ok ())) ⟨ws, false⟩
        { sv₁ with history := sv₁.history ++ [mark t] }) :
    Outline (P.contract B program admits cond) t Post (.act (.note mark) k) ⟨ws, false⟩ sv := by
  intro sv₁ hrely hinv hown ch r s' sv' hc hp
  cases perform_acts hp with
  | refused inp hs => cases hs
  | lost e hs => simp [Backend.system, Backend.perform] at hp
  | note inp mark =>
    obtain ⟨hinv', hrely', hk⟩ := hok sv₁ hrely hinv
    exact ⟨hinv', fun j hj => ⟨⟨fun _ h => h, fun _ _ => rfl⟩, hrely' j hj⟩, hk⟩

/-! ### Code that handles no exception

A failed statement breaks the session; where the postcondition allows that end,
only the other one is left to prove. -/

/-- The postcondition allows an exception in a broken session. -/
class Fails (Post : Except ε α → Tx W → Server D R M → Prop) : Prop where
  broken : ∀ e sv, Post (.error e) ⟨[], true⟩ sv

instance : Fails (Ends : Except ε α → Tx W → Server D R M → Prop) :=
  ⟨fun _ _ => trivial⟩

/-- A postcondition of the normal end. -/
def OnOk (Post : α → Tx W → Server D R M → Prop) (r : Except ε α) (s : Tx W)
    (sv : Server D R M) : Prop := ∀ a, r = .ok a → Post a s sv

instance (Post : α → Tx W → Server D R M → Prop) : Fails (ε := ε) (OnOk Post) :=
  ⟨fun e sv a ha => by cases ha⟩

variable [Fails Post]

/-- A query whose failure is not handled. -/
theorem Outline.await {q : Q} {f : Res q → Prog (Ans Res (M := M)) ε α}
    (hok : ∀ sv₁, Relies B P t sv sv₁ → P.inv sv₁.db sv₁.history → Owned B t ⟨ws, false⟩ sv₁ →
      ∀ inp resp, cond t (some (.query q, .ok inp)) ⟨ws, false⟩ sv₁ →
        B.run q inp (B.view ws sv₁) = some resp → (∀ r ∈ resp.locks, sv₁.lockable t r = true) →
        Outline (P.contract B program admits cond) t Post (f resp.answer)
          ⟨ws ++ resp.writes, false⟩ (sv₁.lock t resp.locks)) :
    Outline (P.contract B program admits cond) t Post ((Prog.call (.query q)).bind f)
      ⟨ws, false⟩ sv :=
  Outline.query hok fun e sv₁ => Fails.broken e sv₁

/-- A commit whose failure is not handled. -/
theorem Outline.awaitCommit {f : Unit → Prog (Ans Res (M := M)) ε α}
    (hok : ∀ sv₁, Relies B P t sv sv₁ → P.inv sv₁.db sv₁.history → Owned B t ⟨ws, false⟩ sv₁ →
      ∀ inp, cond t (some (.commit, .ok inp)) ⟨ws, false⟩ sv₁ →
        P.Commits B t ws sv₁ ∧
        Outline (P.contract B program admits cond) t Post (f ()) ⟨[], false⟩
          (B.committed t ws sv₁)) :
    Outline (P.contract B program admits cond) t Post ((Prog.call .commit).bind f)
      ⟨ws, false⟩ sv :=
  Outline.commit hok fun e sv₁ => Fails.broken e sv₁

/-- A query that neither locks nor writes. -/
theorem Outline.read {q : Q} {f : Res q → Prog (Ans Res (M := M)) ε α}
    (hq : ∀ inp d resp, B.run q inp d = some resp → resp = ⟨[], [], resp.answer⟩)
    (hok : ∀ sv₁, Relies B P t sv sv₁ → P.inv sv₁.db sv₁.history → ∀ inp a,
      B.run q inp (B.view ws sv₁) = some ⟨[], [], a⟩ →
        Outline (P.contract B program admits cond) t Post (f a) ⟨ws, false⟩ sv₁) :
    Outline (P.contract B program admits cond) t Post ((Prog.call (.query q)).bind f)
      ⟨ws, false⟩ sv := by
  refine Outline.await fun sv₁ hrely hinv _ inp resp _ hrun _ => ?_
  obtain ⟨a, rfl⟩ : ∃ a, resp = ⟨[], [], a⟩ := ⟨_, hq inp _ resp hrun⟩
  have hlock : sv₁.lock t [] = sv₁ := by simp [Server.lock]
  rw [List.append_nil, hlock]
  exact hok sv₁ hrely hinv inp a hrun

/-- The end of code that writes nothing: the session is as it was, or broken. -/
def Unchanged (B : Backend Res ε I D W R V M) (P : Promise D R M) (t : ℕ) (ws : List W)
    (sv : Server D R M) (Fact : α → Server D R M → Prop) :
    Except ε α → Tx W → Server D R M → Prop
  | .ok a, s, sv' => s = ⟨ws, false⟩ ∧ Relies B P t sv sv' ∧ Fact a sv'
  | .error _, s, sv' => s = ⟨[], true⟩ ∨ s = ⟨ws, false⟩ ∧ Relies B P t sv sv'

instance (Fact : α → Server D R M → Prop) : Fails (ε := ε) (Unchanged B P t ws sv Fact) :=
  ⟨fun _ _ => .inl rfl⟩

/-- After code that writes nothing. -/
theorem Outline.bindUnchanged {β : Type} {Fact : β → Server D R M → Prop}
    {p : Prog (Ans Res (M := M)) ε β} {f : β → Prog (Ans Res (M := M)) ε α}
    (hp : Outline (P.contract B program admits cond) t (Unchanged B P t ws sv Fact) p
      ⟨ws, false⟩ sv)
    (hok : ∀ b sv₁, Relies B P t sv sv₁ → Fact b sv₁ →
      Outline (P.contract B program admits cond) t Post (f b) ⟨ws, false⟩ sv₁)
    (hraise : ∀ e sv₁, Relies B P t sv sv₁ → Post (.error e) ⟨ws, false⟩ sv₁) :
    Outline (P.contract B program admits cond) t Post (p.bind f) ⟨ws, false⟩ sv := by
  refine hp.bind (fun b s sv₁ hb => ?_) fun e s sv₁ he => ?_
  · obtain ⟨rfl, hrely, hfact⟩ := hb
    exact hok b sv₁ hrely hfact
  · rcases he with rfl | ⟨rfl, hrely⟩
    · exact Fails.broken e sv₁
    · exact hraise e sv₁ hrely

/-- The end of code that adds the writes `ws'`: they are there, or the session is
broken. -/
def Wrote (B : Backend Res ε I D W R V M) (P : Promise D R M) (t : ℕ) (ws ws' : List W)
    (sv : Server D R M) : Except ε α → Tx W → Server D R M → Prop
  | .ok _, s, sv' => s = ⟨ws ++ ws', false⟩ ∧ Relies B P t sv sv'
  | .error _, s, _ => s = ⟨[], true⟩

instance (ws' : List W) : Fails (ε := ε) (α := α) (Wrote B P t ws ws' sv) := ⟨fun _ _ => rfl⟩

/-- After code that adds writes. -/
theorem Outline.bindWrote {β : Type} {ws' : List W} {p : Prog (Ans Res (M := M)) ε β}
    {f : β → Prog (Ans Res (M := M)) ε α}
    (hp : Outline (P.contract B program admits cond) t (Wrote B P t ws ws' sv) p ⟨ws, false⟩ sv)
    (hok : ∀ b sv₁, Relies B P t sv sv₁ →
      Outline (P.contract B program admits cond) t Post (f b) ⟨ws ++ ws', false⟩ sv₁) :
    Outline (P.contract B program admits cond) t Post (p.bind f) ⟨ws, false⟩ sv := by
  refine hp.bind (fun b s sv₁ hb => ?_) fun e s sv₁ he => ?_
  · obtain ⟨rfl, hrely⟩ := hb
    exact hok b sv₁ hrely
  · cases he
    exact Fails.broken e sv₁

omit [Fails Post] in
theorem Outline.raise {Post : α → Tx W → Server D R M → Prop} {e : ε} :
    Outline (P.contract B program admits cond) t (OnOk Post) (.raise e) s sv := by
  intro a ha
  cases ha

omit [Fails Post] in
theorem Outline.bindOk {β : Type} {Post : α → Tx W → Server D R M → Prop}
    {Mid : β → Tx W → Server D R M → Prop}
    {p : Prog (Ans Res (M := M)) ε β} {f : β → Prog (Ans Res (M := M)) ε α}
    (hp : Outline (P.contract B program admits cond) t (OnOk Mid) p s sv)
    (hf : ∀ b s sv, Mid b s sv →
      Outline (P.contract B program admits cond) t (OnOk Post) (f b) s sv) :
    Outline (P.contract B program admits cond) t (OnOk Post) (p.bind f) s sv :=
  hp.bind (fun b s sv hb => hf b s sv (hb b rfl)) fun e s sv _ a ha => by cases ha

end Rules

end Sql

end Concurrency
