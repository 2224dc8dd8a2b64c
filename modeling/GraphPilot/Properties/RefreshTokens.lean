/-
Refresh tokens are used once.

The row of a token says whether it has been exchanged, but `refresh_tokens`
reads it in one statement and revokes it in another whose `WHERE` names the
primary key alone.  Two calls that have both read the row as unrevoked both
return a new pair (`token_reused`).

`refresh_single_use` is the exact repair: where the row of a token that a call
exchanges is still unrevoked when the call commits, one call at most returns a
pair for it.  The invariant (`Rotations`) ties the history to the rows: a token
exchanged in the past is revoked for good.
-/
import GraphPilot.Auth.Service

namespace GraphPilot.Auth

open Python Concurrency

/-- Every token has got a new pair from one call at most. -/
def SingleUse (h : List Mark) : Prop :=
  ∀ token t t' a r a' r', .returned t token a r ∈ h → .returned t' token a' r' ∈ h → t = t'

/-- The database before any call. -/
def initial (db : Database) :
    Config (Sql.Ans Result (M := Mark)) Exn (Sql.Tx Write) (Sql.Server Database Uuid Mark) :=
  ⟨[], .initial db⟩

namespace Sample

/-- A token of the user `u`, with the id `k` of its row. -/
def presented : String := "refresh.k"

/-- Tokens whose text is their type and id. -/
def security : Security where
  encode payload := payload.type.getD "" ++ "." ++ payload.jti.getD ""
  claims token := if token = presented then some {
      sub := some "u", tenantId := some "t", jti := some "k", exp := none, type := some "refresh" }
    else none
  expired _ _ := false
  sha256 token := "#" ++ token
  uuid text := some ⟨text⟩
  accessTokenExpireMinutes := 30
  refreshTokenExpireDays := 7

def noon : DateTime := ⟨43200000000, DateTime.noon_inRange⟩

def tomorrow : DateTime := ⟨129600000000, by decide⟩

/-- One active user, who holds one token. -/
def database : Database where
  users := ⟨[⟨⟨"u"⟩, ⟨"t"⟩, "owner", true⟩], by decide⟩
  tokens := ⟨[⟨⟨"k"⟩, ⟨"u"⟩, ⟨"t"⟩, "#refresh.k", tomorrow, none, none⟩], by decide⟩

/-- What the environment answers to the call `i`. -/
def answers (i : ℕ) (inputs : List Input) : List (Event String (Sql.Choice Exn Input)) :=
  inputs.map fun inp => .step i (.ok inp)

/-- The call reads the row and the user, and finds nothing wrong. -/
def checks (i : ℕ) : List (Event String (Sql.Choice Exn Input)) :=
  answers i [.time noon, .nothing, .time noon, .nothing]

/-- The call revokes the row, inserts a new one, commits and returns. -/
def exchanges (i : ℕ) (id : Uuid) : List (Event String (Sql.Choice Exn Input)) :=
  answers i [.time noon, .uuid id, .time noon, .time noon, .nothing, .nothing, .time noon,
    .nothing, .nothing, .nothing]

/-- Both calls read the row before either revokes it. -/
def bothRead : List (Event String (Sql.Choice Exn Input)) :=
  [Event.start presented, Event.start presented] ++ checks 0 ++ checks 1 ++ exchanges 0 ⟨"k1"⟩ ++
    exchanges 1 ⟨"k2"⟩

end Sample

/-- The claim that every token is exchanged once, in every run. -/
def RefreshSingleUse : Prop :=
  ∀ (sec : Security) (db : Database)
    (c : Config (Sql.Ans Result (M := Mark)) Exn (Sql.Tx Write) (Sql.Server Database Uuid Mark)),
    (system sec).Reaches System.always (initial db) c → SingleUse c.shared.history

theorem token_reused : ¬ RefreshSingleUse := by
  intro h
  obtain ⟨c, hc, hfirst, hsecond⟩ := (system Sample.security).exists_reaches System.always
    Sample.bothRead (c := initial Sample.database)
    (P := fun c =>
      .returned 0 Sample.presented "access." "refresh.k1" ∈ c.shared.history ∧
      .returned 1 Sample.presented "access." "refresh.k2" ∈ c.shared.history)
    (by decide +kernel)
  have hone := h Sample.security Sample.database c hc Sample.presented 0 1 _ _ _ _ hfirst hsecond
  cases hone

/-! ### The condition -/

/-- The tokens that a transaction exchanges are unrevoked when it commits. -/
def Unrevoked : System.Condition (Sql.Op Query Mark) (Sql.Choice Exn Input) (Sql.Tx Write)
    (Sql.Server Database Uuid Mark)
  | _, some (.commit, .ok _), s, sv =>
    ∀ id ∈ rotatedBy s.writes, (sv.db.token? id).any (·.revokedAt.isNone) = true
  | _, _, _, _ => True

instance (t : ℕ) (x : Option (Sql.Op Query Mark × Sql.Choice Exn Input)) (s : Sql.Tx Write)
    (sv : Sql.Server Database Uuid Mark) : Decidable (Unrevoked t x s sv) := by
  unfold Unrevoked
  split <;> infer_instance

/-! ### Revoked rows -/

/-- The row is there and revoked. -/
def Revoked (db : Database) (id : Uuid) : Prop := ∃ x, db.token? id = some x ∧ x.revokedAt.isSome

theorem revokedAt_apply (v : TokenValues) (x : RefreshToken) :
    (v.apply x).revokedAt.isSome = (v.revokedAt.isSome || x.revokedAt.isSome) := by
  cases h : v.revokedAt <;> simp [TokenValues.apply, h]

theorem Revoked.write {db : Database} {id : Uuid} (h : Revoked db id) (w : Write) :
    Revoked (db.write w) id := by
  obtain ⟨x, hx, hr⟩ := h
  cases w with
  | updateToken id' v =>
    by_cases hid : id = id'
    · subst hid
      exact ⟨v.apply x, by simp [token?_updateToken, hx], by simp [revokedAt_apply, hr]⟩
    · exact ⟨x, by rw [token?_updateToken, if_neg hid, hx], hr⟩
  | insertToken y =>
    refine ⟨x, ?_, hr⟩
    rw [token?_insertToken, if_neg, hx]
    rintro ⟨rfl, hy⟩
    rw [hy] at hx
    cases hx

theorem Revoked.view {ws : List Write} {sv : Sql.Server Database Uuid Mark} {id : Uuid}
    (h : Revoked sv.db id) : Revoked (backend.view ws sv) id := by
  unfold Sql.Backend.view
  generalize sv.db = db at h ⊢
  induction ws generalizing db with
  | nil => exact h
  | cons w ws ih => exact ih _ (h.write w)

theorem isSome_token?_write {db : Database} {id : Uuid} (h : (db.token? id).isSome) (w : Write) :
    ((db.write w).token? id).isSome := by
  cases w with
  | updateToken id' v =>
    rw [token?_updateToken]
    split
    · rename_i hid
      simpa [← hid] using h
    · exact h
  | insertToken y =>
    rw [token?_insertToken]
    split
    · rfl
    · exact h

/-- A row that a transaction revokes is revoked by its commit. -/
theorem revoked_view {ws : List Write} {sv : Sql.Server Database Uuid Mark} {id : Uuid}
    (hid : id ∈ revokedBy ws) (h : (sv.db.token? id).isSome) :
    Revoked (backend.view ws sv) id := by
  obtain ⟨w, hw, hv⟩ := List.mem_filterMap.mp hid
  unfold Sql.Backend.view
  generalize sv.db = db at h ⊢
  induction ws generalizing db with
  | nil => cases hw
  | cons w' ws ih =>
    rcases List.mem_cons.mp hw with rfl | hw
    · -- the write itself; the later ones keep the row revoked
      cases w with
      | updateToken id' v =>
        simp only [Option.ite_none_right_eq_some, Option.some.injEq] at hv
        obtain ⟨hv, rfl⟩ := hv
        obtain ⟨x, hx⟩ := Option.isSome_iff_exists.mp h
        have hnow : Revoked (db.write (.updateToken id' v)) id' :=
          ⟨v.apply x, by simp [token?_updateToken, hx], by simp [revokedAt_apply, hv]⟩
        let sv : Sql.Server Database Uuid Mark :=
          ⟨db.write (.updateToken id' v), fun _ => none, []⟩
        exact Revoked.view (show Revoked sv.db id' from hnow)
      | insertToken y => cases hv
    · exact ih (List.mem_filterMap.mpr ⟨w, hw, hv⟩) hw _ (isSome_token?_write h w')

theorem revokedBy_of_rotatedBy {ws : List Write} {id : Uuid} (h : id ∈ rotatedBy ws) :
    id ∈ revokedBy ws := by
  unfold rotatedBy at h
  split at h
  · exact h
  · cases h

/-! ### The invariant -/

/-- The id that the text of a token names. -/
def tokenId? (sec : Security) (token : String) : Option Uuid :=
  ((sec.claims token).bind (·.jti)).bind sec.uuid

/-- A token is exchanged once, and revoked from then on; a call that returns
has exchanged the token it was given. -/
structure Rotations (sec : Security) (db : Database) (h : List Mark) : Prop where
  revoked : ∀ t id, .rotated t id ∈ h → Revoked db id
  once : ∀ t t' id, .rotated t id ∈ h → .rotated t' id ∈ h → t = t'
  returned : ∀ t token a r, .returned t token a r ∈ h →
    ∃ id, tokenId? sec token = some id ∧ .rotated t id ∈ h

variable {sec : Security}

theorem Rotations.singleUse {db : Database} {h : List Mark} (hr : Rotations sec db h) :
    SingleUse h := by
  intro token t t' a r a' r' ht ht'
  obtain ⟨id, hid, hrot⟩ := hr.returned t token a r ht
  obtain ⟨id', hid', hrot'⟩ := hr.returned t' token a' r' ht'
  obtain rfl : id = id' := by simpa [hid] using hid'
  exact hr.once t t' id hrot hrot'

/-- The calls share the invariant, and rely on the history to grow. -/
def promise (sec : Security) : Sql.Promise (R := Uuid) Database Mark where
  inv := Rotations sec
  rely := fun _ _ _ h _ h' => h ⊆ h'
  rely_refl _ _ _ h := List.Subset.refl h
  rely_trans h h' := List.Subset.trans h h'
  rely_mono _ h := h

variable {t : ℕ} {ws : List Write} {sv : Sql.Server Database Uuid Mark}

theorem mem_publish {id : Uuid} {t' : ℕ} {db : Database} :
    .rotated t' id ∈ backend.publish t db ws ↔ t' = t ∧ id ∈ rotatedBy ws := by
  simp only [backend, List.mem_map, Mark.rotated.injEq]
  grind

theorem notMem_publish {t' : ℕ} {token a r : String} {db : Database} :
    .returned t' token a r ∉ backend.publish t db ws := by
  simp [backend]

/-- The commit of any transaction that meets the condition. -/
theorem Rotations.commit (h : Rotations sec sv.db sv.history)
    (hc : ∀ id ∈ rotatedBy ws, (sv.db.token? id).any (·.revokedAt.isNone) = true) :
    Rotations sec (backend.view ws sv) (sv.history ++ backend.publish t sv.db ws) := by
  -- a token exchanged before is revoked, so this transaction does not exchange it
  have hnew : ∀ t' id, .rotated t' id ∈ sv.history → id ∉ rotatedBy ws := by
    intro t' id hold hid
    obtain ⟨x, hx, hr⟩ := h.revoked t' id hold
    have := hc id hid
    simp only [hx, Option.any_some, Option.isNone_iff_eq_none] at this
    rw [this] at hr
    cases hr
  constructor
  · intro t' id hid
    rcases List.mem_append.mp hid with hold | hpub
    · exact (h.revoked t' id hold).view
    · have hrot := (mem_publish.mp hpub).2
      refine revoked_view (revokedBy_of_rotatedBy hrot) ?_
      obtain ⟨x, hx, -⟩ := (Option.any_eq_true _ _).mp (hc id hrot)
      simp [hx]
  · intro t₁ t₂ id h₁ h₂
    rcases List.mem_append.mp h₁ with h₁ | h₁ <;> rcases List.mem_append.mp h₂ with h₂ | h₂
    · exact h.once t₁ t₂ id h₁ h₂
    · exact absurd (mem_publish.mp h₂).2 (hnew t₁ id h₁)
    · exact absurd (mem_publish.mp h₁).2 (hnew t₂ id h₂)
    · exact (mem_publish.mp h₁).1.trans (mem_publish.mp h₂).1.symm
  · intro t' token a r hret
    rcases List.mem_append.mp hret with hret | hret
    · obtain ⟨id, hid, hrot⟩ := h.returned t' token a r hret
      exact ⟨id, hid, List.mem_append_left _ hrot⟩
    · exact absurd hret notMem_publish

/-! ### The outline of a call -/

section Outline

/-- The contract of the calls. -/
abbrev contract (sec : Security) : Contract (system sec) Unrevoked :=
  (promise sec).contract backend (refreshTokens sec) (fun _ _ => true) Unrevoked

/-- What is left of a call that may raise at any point. -/
abbrev Follows {α : Type} (sec : Security) (t : ℕ) (Post : α → Sql.Tx Write →
    Sql.Server Database Uuid Mark → Prop) (p : Program α) (ws : List Write)
    (sv : Sql.Server Database Uuid Mark) : Prop :=
  Outline (contract sec) t (Sql.OnOk Post) p ⟨ws, false⟩ sv

variable {α β : Type} {Post : α → Sql.Tx Write → Sql.Server Database Uuid Mark → Prop}

/-- A query leaves a session that is not broken, with its writes added. -/
theorem follows_await {q : Query} {f : Result q → Program α}
    (h : ∀ sv₁ inp resp, run q inp (backend.view ws sv₁) = some resp →
      Follows sec t Post (f resp.answer) (ws ++ resp.writes) (sv₁.lock t resp.locks)) :
    Follows sec t Post ((Prog.call (.query q)).bind f) ws sv :=
  Sql.Outline.await fun sv₁ _ _ _ inp resp _ hrun _ => h sv₁ inp resp hrun

/-- A commit, after which the exchanged tokens are in the history. -/
theorem follows_commit {f : Unit → Program α}
    (h : ∀ sv₁, (∀ id ∈ rotatedBy ws, .rotated t id ∈ sv₁.history) →
      Follows sec t Post (f ()) [] sv₁) :
    Follows sec t Post ((Prog.call Sql.Op.commit).bind f) ws sv := by
  refine Sql.Outline.awaitCommit fun sv₁ _ hinv _ inp hc => ⟨⟨hinv.commit hc, fun j _ => ?_⟩, ?_⟩
  · exact List.subset_append_left _ _
  · exact h _ fun id hid => List.mem_append_right _ (mem_publish.mpr ⟨rfl, hid⟩)

theorem writes_updateToken {id : Uuid} {v : TokenValues} {inp : Input} {db : Database}
    {resp : Sql.Response Write Uuid Unit} (h : run (.updateToken id v) inp db = some resp) :
    resp.writes = [.updateToken id v] := by
  cases inp <;> simp only [run, reduceCtorEq] at h
  split at h
  · cases h
    rfl
  · cases h

theorem writes_insertToken {x : RefreshToken} {inp : Input} {db : Database}
    {resp : Sql.Response Write Uuid Unit} (h : run (.insertToken x) inp db = some resp) :
    resp.writes = [.insertToken x] := by
  cases inp <;> simp only [run, reduceCtorEq] at h
  split at h
  · cases h
    rfl
  · cases h

theorem follows_utcNow {f : DateTime → Program α}
    (h : ∀ now sv₁, Follows sec t Post (f now) ws sv₁) :
    Follows sec t Post ((await .utcNow).bind f) ws sv :=
  Sql.Outline.ask rfl fun sv₁ _ _ now => h now sv₁

theorem follows_expiryIn {n : ℤ} {f : DateTime → Program α}
    (h : ∀ expire sv₁, Follows sec t Post (f expire) ws sv₁) :
    Follows sec t Post ((expiryIn n).bind f) ws sv := by
  unfold expiryIn
  simp only [Prog.bind_eq_bind, Prog.bind_assoc]
  refine follows_utcNow fun now sv₁ => ?_
  cases now.addSeconds n with
  | none => exact Sql.Outline.raise
  | some expire => exact h expire sv₁

theorem rotate_follows (tokenRow : RefreshToken) (user : User) :
    Follows sec t (fun _ s sv => s = ⟨[], false⟩ ∧ .rotated t tokenRow.id ∈ sv.history)
      (rotate sec tokenRow user) ws sv := by
  unfold rotate issueTokenPair createRefreshTokenWithId createAccessToken getRefreshTokenExpiry
  simp only [Prog.bind_eq_bind, Prog.bind_assoc, Prog.pure_eq_ret, Prog.ret_bind]
  refine follows_utcNow fun revokedAt _ => Sql.Outline.ask rfl fun _ _ _ tokenId => ?_
  refine follows_expiryIn fun _ _ => follows_expiryIn fun expiresAt _ => ?_
  refine follows_await fun _ _ resp hrun => ?_
  rw [writes_updateToken hrun]
  refine follows_await fun _ _ resp hrun => ?_
  rw [writes_insertToken hrun]
  refine follows_expiryIn fun _ _ => follows_await fun _ _ resp hrun => ?_
  rw [writes_updateToken hrun]
  refine follows_commit fun sv₁ hrot => ?_
  intro tokens _
  exact ⟨rfl, hrot tokenRow.id (by simp [rotatedBy, issues, revokedBy])⟩

theorem revokeAll_follows (now : DateTime) (tokens : List RefreshToken) :
    Follows sec t (fun _ s _ => s.broken = false) (revokeAll now tokens) ws sv := by
  induction tokens generalizing ws sv with
  | nil => exact fun _ _ => rfl
  | cons token rest ih => exact follows_await fun _ _ resp _ => ih

theorem revokeRefreshTokens_follows (userId : Uuid) :
    Follows sec t (fun _ s _ => s.broken = false) (revokeRefreshTokens userId) ws sv := by
  unfold revokeRefreshTokens
  refine follows_utcNow fun now _ => follows_await fun _ _ resp _ => ?_
  exact revokeAll_follows now _

/-- The ids that a payload presents. -/
theorem presentedIds_eq_ok {payload : TokenPayload} {user tenant token : Uuid}
    (h : presentedIds sec payload = .ok (user, tenant, token)) :
    payload.jti.bind sec.uuid = some token := by
  unfold presentedIds at h
  split at h
  · cases h
  · split at h
    · rename_i jti _ _ hjti
      split at h
      · rename_i hid
        cases h
        simp [hjti, hid]
      · cases h
    · cases h

theorem tokenId?_of_decode {now : DateTime} {token : String} {payload : TokenPayload}
    {user tenant id : Uuid} (hd : decodeToken sec now token = some payload)
    (hp : presentedIds sec payload = .ok (user, tenant, id)) : tokenId? sec token = some id := by
  unfold decodeToken at hd
  unfold tokenId?
  rw [(Option.filter_eq_some_iff.mp hd).1]
  exact presentedIds_eq_ok hp

theorem id_of_selectToken {id userId tenantId : Uuid} {hash : String} {inp : Input}
    {db : Database} {resp : Sql.Response Write Uuid (Option RefreshToken)} {x : RefreshToken}
    (h : run (.selectToken id userId tenantId hash) inp db = some resp)
    (hx : resp.answer = some x) : x.id = id := by
  cases inp <;> simp only [run, reduceCtorEq, Option.some.injEq] at h
  subst h
  exact Relational.Table.key_of_find? (Option.filter_eq_some_iff.mp hx).1

/-- The invariant after a call has returned a pair for the token it exchanged. -/
theorem Rotations.note {db : Database} {h : List Mark} {token a r : String} {id : Uuid}
    (hr : Rotations sec db h) (hid : tokenId? sec token = some id) (hrot : .rotated t id ∈ h) :
    Rotations sec db (h ++ [.returned t token a r]) := by
  constructor
  · intro t' id' h'
    exact hr.revoked t' id' (by simpa using h')
  · intro t₁ t₂ id' h₁ h₂
    exact hr.once t₁ t₂ id' (by simpa using h₁) (by simpa using h₂)
  · intro t' token' a' r' h'
    rcases List.mem_append.mp h' with h' | h'
    · obtain ⟨id', hid', hrot'⟩ := hr.returned t' token' a' r' h'
      exact ⟨id', hid', List.mem_append_left _ hrot'⟩
    · cases List.mem_singleton.mp h'
      exact ⟨id, hid, List.mem_append_left _ hrot⟩

theorem returned_follows {token a r : String} {id : Uuid} (hid : tokenId? sec token = some id)
    (hrot : .rotated t id ∈ sv.history) :
    Follows sec t (fun _ _ _ => True) (Prog.call (Sql.Op.note (.returned · token a r))) [] sv := by
  refine Sql.Outline.note fun sv₁ hrely hinv => ⟨?_, fun j _ => ?_, fun _ _ => trivial⟩
  · exact hinv.note hid (hrely.promise hrot)
  · exact List.subset_append_left _ _

theorem refreshTokens_follows (token : String) :
    Follows sec t (fun _ _ _ => True) (refreshTokens sec token) [] sv := by
  unfold refreshTokens
  refine follows_utcNow fun now _ => ?_
  cases hd : decodeToken sec now token with
  | none => exact Sql.Outline.raise
  | some payload =>
    dsimp only
    cases hp : presentedIds sec payload with
    | error e => exact Sql.Outline.raise
    | ok ids =>
      obtain ⟨userId, tenantId, id⟩ := ids
      refine follows_await fun _ _ resp hrun => ?_
      cases hx : resp.answer with
      | none => exact Sql.Outline.raise
      | some tokenRow =>
        have hrow := id_of_selectToken hrun hx
        dsimp only
        split
        · -- the whole family is revoked, and nothing is returned
          refine Sql.Outline.bindOk (revokeRefreshTokens_follows userId) fun _ s sv' hs => ?_
          obtain ⟨ws', b⟩ := s
          cases hs
          exact follows_commit fun _ _ => Sql.Outline.raise
        · refine follows_utcNow fun now _ => ?_
          split
          · exact Sql.Outline.raise
          · refine follows_await fun _ _ resp' _ => ?_
            split
            · exact Sql.Outline.raise
            · rename_i user _
              split
              · refine Sql.Outline.bindOk (rotate_follows tokenRow user) fun tokens s sv' hs => ?_
                obtain ⟨rfl, hrot⟩ := hs
                exact returned_follows (tokenId?_of_decode hd hp) (hrow ▸ hrot)
              · exact Sql.Outline.raise

end Outline

/-- Where the token that a call exchanges is still unrevoked when the call
commits, no token is ever exchanged twice. -/
theorem refresh_single_use (sec : Security) (db : Database)
    {c : Config (Sql.Ans Result (M := Mark)) Exn (Sql.Tx Write) (Sql.Server Database Uuid Mark)}
    (h : (system sec).Reaches Unrevoked (initial db) c) : SingleUse c.shared.history := by
  have hinit : (contract sec).inv (.initial db) :=
    show Rotations sec db [] from ⟨by simp, by simp, by simp⟩
  have hinv : Rotations sec c.shared.db c.shared.history := (Contract.reaches (C := contract sec)
    (fun token t sv _ _ => (refreshTokens_follows token).mono fun _ _ _ _ => trivial) hinit h).inv
  exact hinv.singleUse

theorem refresh_single_use_refused : ∃ c,
    (system Sample.security).Reaches Unrevoked (initial Sample.database) c ∧
      c.threads.length = 2 ∧
      .returned 0 Sample.presented "access." "refresh.k1" ∈ c.shared.history ∧
      SingleUse c.shared.history := by
  obtain ⟨c, hc, hlen, hfirst⟩ := (system Sample.security).exists_reaches Unrevoked
    ([Event.start Sample.presented, Event.start Sample.presented] ++ Sample.checks 0 ++
      Sample.exchanges 0 ⟨"k1"⟩ ++
      Sample.answers 1 [.time Sample.noon, .nothing, .time Sample.noon, .nothing, .nothing])
    (c := initial Sample.database)
    (P := fun c => c.threads.length = 2 ∧
      .returned 0 Sample.presented "access." "refresh.k1" ∈ c.shared.history)
    (by decide +kernel)
  exact ⟨c, hc, hlen, hfirst, refresh_single_use Sample.security Sample.database hc⟩

end GraphPilot.Auth
