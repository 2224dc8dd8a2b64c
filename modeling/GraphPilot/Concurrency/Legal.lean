/-
Calls alone whose writes are all legal.

`Legal S ok d ws` says of the writes `ws`, made one after the other from the rows
`d`, that each is allowed by `ok` on the rows it is made on.  A call alone sees
what it has written, so what is legal for it is what it makes of the rows it sees.

* `Legal.append` — the writes of a call, before and after a point;
* `Legal.invariant` — what every legal write keeps;
* `Writing ok d₀` — where a call that has begun on the rows `d₀` stands: all that
  it has committed, and all that it has still to commit, is legal;
* `Writing.query`, `Writing.commit`, `Writing.lost` — the three ways it goes on;
* `Serves.legal` — a call alone, as legal writes.
-/
import GraphPilot.Concurrency.Serial

namespace Concurrency

section Legal

variable {W D R V : Type} (S : Store W D R V)

/-- Writes that are each allowed on the rows they are made on. -/
inductive Legal (ok : D → W → Prop) : D → List W → Prop where
  | nil {d} : Legal ok d []
  | cons {d w ws} (hw : ok d w) (hrest : Legal ok (S.apply w d) ws) : Legal ok d (w :: ws)

namespace Legal

variable {S} {ok ok' : D → W → Prop} {d : D} {ws ws' : List W}

theorem append : Legal S ok d (ws ++ ws') ↔
    Legal S ok d ws ∧ Legal S ok (S.applyAll ws d) ws' := by
  induction ws generalizing d with
  | nil => exact ⟨fun h => ⟨.nil, h⟩, fun h => h.2⟩
  | cons w ws ih =>
    constructor
    · rintro (_ | ⟨hw, hrest⟩)
      obtain ⟨hfirst, hlast⟩ := ih.mp hrest
      exact ⟨.cons hw hfirst, hlast⟩
    · rintro ⟨_ | ⟨hw, hfirst⟩, hlast⟩
      exact .cons hw (ih.mpr ⟨hfirst, hlast⟩)

/-- An invariant that every legal write keeps. -/
theorem invariant (Inv : D → Prop) (hstep : ∀ d w, Inv d → ok d w → Inv (S.apply w d))
    (h : Legal S ok d ws) (hd : Inv d) : Inv (S.applyAll ws d) := by
  induction h with
  | nil => exact hd
  | cons hw _ ih => exact ih (hstep _ _ hd hw)

end Legal

end Legal

namespace Sql

variable {Q ε I D W R V M α : Type} {Res : Q → Type}
variable {B : Backend Res ε I D W R V M}

/-- The transaction `ws` on the committed rows `d`, of a call that has begun on the
rows `d₀`. -/
def Writing (B : Backend Res ε I D W R V M) (ok : D → W → Prop) (d₀ : D) (ws : List W) (d : D) :
    Prop :=
  ∃ ws₀, Legal B.store ok d₀ (ws₀ ++ ws) ∧ d = B.store.applyAll ws₀ d₀

namespace Writing

variable {ok : D → W → Prop} {d₀ d : D} {ws ws' : List W} {t : ℕ} {h : List M}

theorem refl : Writing B ok d [] d := ⟨[], .nil, rfl⟩

/-- Some more legal writes. -/
theorem query (hw : Writing B ok d₀ ws d) (hws' : Legal B.store ok (B.store.applyAll ws d) ws') :
    Writing B ok d₀ (ws ++ ws') d := by
  obtain ⟨ws₀, hlegal, rfl⟩ := hw
  refine ⟨ws₀, ?_, rfl⟩
  rw [← List.append_assoc]
  refine Legal.append.mpr ⟨hlegal, ?_⟩
  rwa [Store.applyAll_append]

theorem commit (hw : Writing B ok d₀ ws d) : Writing B ok d₀ [] (B.store.applyAll ws d) := by
  obtain ⟨ws₀, hlegal, rfl⟩ := hw
  exact ⟨ws₀ ++ ws, by rwa [List.append_nil], Store.applyAll_append.symm⟩

/-- The transaction is lost. -/
theorem lost (hw : Writing B ok d₀ ws d) : Writing B ok d₀ [] d := by
  obtain ⟨ws₀, hlegal, rfl⟩ := hw
  exact ⟨ws₀, by rw [List.append_nil]; exact (Legal.append.mp hlegal).1, rfl⟩

/-- All that the call sees has come about by legal writes. -/
theorem view (hw : Writing B ok d₀ ws d) :
    ∃ ws', Legal B.store ok d₀ ws' ∧ B.store.applyAll ws d = B.store.applyAll ws' d₀ := by
  obtain ⟨ws₀, hlegal, rfl⟩ := hw
  exact ⟨ws₀ ++ ws, hlegal, Store.applyAll_append.symm⟩

variable [DecidableEq R]

/-- One action of a call whose queries make legal writes. -/
theorem step {o : Op Q M} {ch : Choice ε I} {r : Except ε (Ans Res o)} {s s' : Tx W}
    {sv sv' : Server D R M} (hw : Writing B ok d₀ s.writes sv.db)
    (hp : B.perform t o ch s sv = some (r, s', sv'))
    (hquery : ∀ q inp resp, o = .query q →
      B.run q inp (B.store.applyAll s.writes sv.db) = some resp →
      Legal B.store ok (B.store.applyAll s.writes sv.db) resp.writes) :
    Writing B ok d₀ s'.writes sv'.db := by
  cases perform_acts hp with
  | query inp resp hs hrun hl => exact hw.query (hquery _ inp resp rfl hrun)
  | refused inp hs => exact hw
  | lost e hs => exact hw.lost
  | commit inp hs => exact hw.commit
  | rollback inp => exact hw.lost
  | note inp mark => exact hw

end Writing

variable [DecidableEq R]

/-- The end of a call alone, wherever it may be stopped and however it ends. -/
abbrev Writes (B : Backend Res ε I D W R V M) (ok : D → W → Prop) (d₀ : D) :
    Except ε α → Tx W → D → List M → Prop :=
  fun _ s d _ => Writing B ok d₀ s.writes d

instance (ok : D → W → Prop) (d₀ : D) :
    Alone.Fails (fun d (_ : List M) => Writing B ok d₀ [] d) (Writes (α := α) B ok d₀) :=
  ⟨fun _ _ _ hmid => hmid⟩

/-- A call alone is a sequence of legal writes. -/
theorem Serves.legal {ok : D → W → Prop} {p : Prog (Ans Res (M := M)) ε α} {d d' : D}
    {cs : List (Choice ε I)} {r : Option (Except ε α)}
    (hp : Alone B 0 (fun d' _ => Writing B ok d [] d') (Writes B ok d) p .fresh d [])
    (h : Serves B p d cs r d') : ∃ ws, Legal B.store ok d ws ∧ d' = B.store.applyAll ws d := by
  obtain ⟨p', s', sv', hsteps, -, rfl⟩ := h
  have hwriting : Writing B ok d [] sv'.db := by
    rcases hp.stopped hsteps with ⟨_, -, hend⟩ | ⟨-, hmid⟩
    · exact hend.lost
    · exact hmid
  obtain ⟨ws, hlegal, hdb⟩ := hwriting
  exact ⟨ws, by rwa [List.append_nil] at hlegal, hdb⟩

end Sql

end Concurrency
