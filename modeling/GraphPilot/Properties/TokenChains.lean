/-
The second use of a refresh token (`refresh_token_reuse`).

A revoked token stays revoked: nothing clears `revoked_at`, and no id is used
again for another row.  So whatever revokes a token (an exchange, a logout, a
change of the password, or the second use of any token of the user) ends it for
good, and a chain has one token at most that is not revoked, for an exchange
revokes the token that it replaces.

`Later` is what any call does to the tokens; `Does` is a proof of what is left of
a call.
-/
import GraphPilot.Accounts.Service

namespace GraphPilot.Accounts

open Python Relational Concurrency Orm
open Auth (TokenPair TokenPayload RefreshToken TokenValues decodeToken presentedIds invalidToken
  tokenReused)

/-! ### What a call does to the tokens -/

/-- The tokens are still there, the revoked ones revoked and the exchanged ones
exchanged for the same; and only revoked ones are exchanged. -/
structure Later (db db' : Database) : Prop where
  rows : ∀ id x, token? db id = some x → ∃ x', token? db' id = some x' ∧ x'.userId = x.userId ∧
    (x.revokedAt.isSome → x'.revokedAt.isSome) ∧
    ∀ y, x.replacedById = some y → x'.replacedById = some y
  chained : Chained db'

theorem Later.refl {db : Database} (h : Chained db) : Later db db :=
  ⟨fun _ x hx => ⟨x, hx, rfl, id, fun _ hy => hy⟩, h⟩

theorem Later.trans {db db' db'' : Database} (h : Later db db') (h' : Later db' db'') :
    Later db db'' where
  rows id x hx := by
    obtain ⟨y, hy, huser, hrevoked, hreplaced⟩ := h.rows id x hx
    obtain ⟨z, hz, huser', hrevoked', hreplaced'⟩ := h'.rows id y hy
    exact ⟨z, hz, huser'.trans huser, fun hr => hrevoked' (hrevoked hr),
      fun w hw => hreplaced' w (hreplaced w hw)⟩
  chained := h'.chained

section Writes

variable {db : Database}

/-- A change of tokens that changes no other column of a row. -/
theorem later_of_map {db' : Database} {f : Uuid → RefreshToken → RefreshToken}
    (hmap : ∀ id, token? db' id = (token? db id).map (f id))
    (huser : ∀ id x, (f id x).userId = x.userId)
    (hrevoked : ∀ id x, x.revokedAt.isSome → (f id x).revokedAt.isSome)
    (hreplaced : ∀ id x y, token? db id = some x → x.replacedById = some y →
      (f id x).replacedById = some y)
    (hchained : ∀ id x, token? db id = some x → (f id x).replacedById.isSome →
      (f id x).revokedAt.isSome) : Later db db' where
  rows id x hx := by
    refine ⟨f id x, ?_, huser id x, hrevoked id x, fun y => hreplaced id x y hx⟩
    rw [hmap, hx]
    rfl
  chained id x hx hsome := by
    rw [hmap] at hx
    obtain ⟨y, hy, rfl⟩ := Option.map_eq_some_iff.mp hx
    exact hchained id y hy hsome

theorem token?_update {id id' : Uuid} {v : TokenValues} :
    token? (Sql.RowWrite.apply (.update .refreshTokens id v : Write) db) id' =
      (token? db id').map fun x => if id' = id then v.apply x else x := by
  refine (Sql.find?_update (t := db .refreshTokens) (f := v.apply) fun _ => rfl).trans ?_
  by_cases h : id' = id
  · subst h
    simp only [if_true]
    rfl
  · simp only [h, if_false, Option.map_id']
    rfl

theorem revoked_of_update {id : Uuid} {now : DateTime} {x : RefreshToken}
    (hx : token? db id = some x) : ∃ x', token? (Sql.RowWrite.apply
      (.update .refreshTokens id { revokedAt := some now } : Write) db) id = some x' ∧
        x'.revokedAt.isSome := by
  refine ⟨{ x with revokedAt := some now }, ?_, rfl⟩
  rw [token?_update, hx, Option.map_some, if_pos rfl]
  rfl

/-- A token is revoked. -/
theorem later_revoke (h : Chained db) {id : Uuid} {now : DateTime} :
    Later db (Sql.RowWrite.apply
      (.update .refreshTokens id { revokedAt := some now } : Write) db) := by
  refine later_of_map (fun _ => token?_update) ?_ ?_ ?_ ?_
  · intro id' x
    split <;> rfl
  · intro id' x hx
    split
    · rfl
    · exact hx
  · intro id' x y _ hy
    split <;> exact hy
  · intro id' x hx hsome
    split
    · rfl
    · rename_i hne
      rw [if_neg hne] at hsome
      exact h id' x hx hsome

/-- A revoked token that has no successor gets one. -/
theorem later_replace (h : Chained db) {id next : Uuid}
    (hid : ∀ x, token? db id = some x → x.revokedAt.isSome ∧ x.replacedById = none) :
    Later db (Sql.RowWrite.apply
      (.update .refreshTokens id { replacedById := some next } : Write) db) := by
  refine later_of_map (fun _ => token?_update) ?_ ?_ ?_ ?_
  · intro id' x
    split <;> rfl
  · intro id' x hx
    split <;> exact hx
  · intro id' x y hx hy
    split
    · rename_i heq
      subst heq
      rw [(hid x hx).2] at hy
      cases hy
    · exact hy
  · intro id' x hx hsome
    split
    · rename_i heq
      subst heq
      exact (hid x hx).1
    · rename_i hne
      rw [if_neg hne] at hsome
      exact h id' x hx hsome

/-- A new token. -/
theorem later_insert (h : Chained db) {x : RefreshToken} (hreplaced : x.replacedById = none) :
    Later db (Sql.RowWrite.apply (.insert .refreshTokens x : Write) db) := by
  have hfind : ∀ id, token? (Sql.RowWrite.apply (.insert .refreshTokens x : Write) db) id =
      if id = x.id ∧ token? db x.id = none then some x else token? db id :=
    fun id => Table.find?_insert_eq
  constructor
  · intro id y hy
    refine ⟨y, ?_, rfl, fun hr => hr, fun _ hz => hz⟩
    rw [hfind, if_neg]
    · exact hy
    · rintro ⟨rfl, hnone⟩
      rw [hnone] at hy
      cases hy
  · intro id y hy hsome
    rw [hfind] at hy
    split at hy
    · cases hy
      rw [hreplaced] at hsome
      cases hsome
    · exact h id y hy hsome

/-- A change of the other tables. -/
theorem later_of_tokens {db' : Database} (h : Chained db)
    (heq : db' .refreshTokens = db .refreshTokens) : Later db db' := by
  have hfind : ∀ id, token? db' id = token? db id := fun id => by rw [token?, token?, heq]
  refine ⟨fun id x hx => ⟨x, by rw [hfind, hx], rfl, fun hr => hr, fun _ hy => hy⟩, ?_⟩
  intro id x hx
  rw [hfind] at hx
  exact h id x hx

/-- The row of a pair is in the table. -/
def Issued (pair : TokenPair) (db : Database) : Prop :=
  ∃ x, token? db pair.refreshRow.id = some x ∧ x.userId = pair.refreshRow.userId

theorem Issued.later {pair : TokenPair} {db' : Database} (h : Issued pair db)
    (hlater : Later db db') : Issued pair db' := by
  obtain ⟨x, hx, huser⟩ := h
  obtain ⟨x', hx', huser', -, -⟩ := hlater.rows _ x hx
  exact ⟨x', hx', huser'.trans huser⟩

theorem issued_insert {pair : TokenPair} (hnew : token? db pair.refreshRow.id = none) :
    Issued pair (Sql.RowWrite.apply (.insert .refreshTokens pair.refreshRow : Write) db) :=
  ⟨pair.refreshRow, Table.find?_insert_eq.trans (if_pos ⟨rfl, hnew⟩), rfl⟩

/-- The `UPDATE`s that revoke tokens. -/
def revocations (now : DateTime) (tokens : List RefreshToken) : List Write :=
  tokens.map fun x => .update .refreshTokens x.id { revokedAt := some now }

theorem token?_revocations {now : DateTime} {tokens : List RefreshToken} {id : Uuid} :
    token? (service.backend.store.applyAll (revocations now tokens) db) id =
      (token? db id).map fun x =>
        if id ∈ tokens.map (·.id) then { x with revokedAt := some now } else x := by
  induction tokens generalizing db with
  | nil => exact Option.map_id'.symm
  | cons z tokens ih =>
    refine ih.trans ((congrArg (Option.map _) token?_update).trans ?_)
    rw [Option.map_map]
    congr 1
    funext x
    simp only [Function.comp_apply, List.map_cons, List.mem_cons]
    by_cases hmem : id ∈ tokens.map (·.id) <;> by_cases hz : id = z.id <;>
      simp [hmem, hz, TokenValues.apply]

theorem later_revocations (h : Chained db) {now : DateTime} {tokens : List RefreshToken} :
    Later db (service.backend.store.applyAll (revocations now tokens) db) := by
  refine later_of_map (fun _ => token?_revocations) ?_ ?_ ?_ ?_
  · intro id x
    split <;> rfl
  · intro id x hx
    split
    · rfl
    · exact hx
  · intro id x y _ hy
    split <;> exact hy
  · intro id x hx hsome
    split
    · rfl
    · rename_i hne
      rw [if_neg hne] at hsome
      exact h id x hx hsome

end Writes

/-! ### What is left of a call -/

section Calls

variable {host : Host} {d₀ d : Database} {ws : List Write} {α : Type}
variable {Ok : α → Database → Prop} {Err : Exn → Database → Prop}

/-- A proof of what is left of a call that began on the rows `d₀`. -/
abbrev Does (d₀ : Database) (Ok : α → Database → Prop) (Err : Exn → Database → Prop)
    (p : Program α) (ws : List Write) (d : Database) : Prop :=
  Sql.Alone service.backend 0 (fun d _ => Later d₀ d) (Sql.Settled (Later d₀) Ok Err) p
    ⟨ws, false⟩ d []

/-- The rows as the session sees them. -/
abbrev view (ws : List Write) (d : Database) : Database := service.backend.store.applyAll ws d

theorem view_append (ws ws' : List Write) (d : Database) :
    view (ws ++ ws') d = view ws' (view ws d) := Store.applyAll_append

theorem does_commit {f : Unit → Program α} (hmid : Later d₀ d)
    (hok : Does d₀ Ok Err (f ()) [] (view ws d)) : Does d₀ Ok Err (commit.bind f) ws d :=
  Sql.Alone.commit hmid hok

theorem does_expiryIn {n : ℤ} {f : DateTime → Program α} (hmid : Later d₀ d)
    (herr : ∀ e, Err e d) (hok : ∀ x, Does d₀ Ok Err (f x) ws d) :
    Does d₀ Ok Err ((expiryIn n).bind f) ws d := by
  unfold expiryIn
  simp only [Prog.bind_eq_bind, Prog.bind_assoc]
  refine Sql.Alone.askFor hmid fun now => alone_found (fun x _ => hok x) fun _ => ?_
  exact ⟨hmid, fun _ => herr _⟩

/-- A new pair of tokens: its row is new, not revoked, and of the user. -/
theorem does_issueTokenPair (ws' : List Write) {user : User} {dirty : Program Unit}
    {f : TokenPair → Program α} (hmid : Later d₀ d) (herr : ∀ e, Err e d)
    (hdirty : ∀ g : Unit → Program α, Does d₀ Ok Err (g ()) (ws ++ ws') d →
      Does d₀ Ok Err (dirty.bind g) ws d)
    (hok : ∀ pair : TokenPair, token? (view (ws ++ ws') d) pair.refreshRow.id = none →
      pair.refreshRow.revokedAt = none → pair.refreshRow.replacedById = none →
      Does d₀ Ok Err (f pair) (ws ++ ws' ++ [.insert .refreshTokens pair.refreshRow]) d) :
    Does d₀ Ok Err ((issueTokenPair host user dirty).bind f) ws d := by
  unfold issueTokenPair createRefreshTokenWithId createAccessToken getRefreshTokenExpiry
  simp only [Prog.bind_eq_bind, Prog.bind_assoc, Prog.pure_eq_ret, Prog.ret_bind]
  refine Sql.Alone.askFor hmid fun tokenId => does_expiryIn hmid herr fun expire => ?_
  refine does_expiryIn hmid herr fun expiresAt => hdirty _ ?_
  refine Sql.Alone.insert hmid fun hnew => does_expiryIn hmid herr fun expire' => ?_
  exact hok _ hnew rfl rfl

theorem does_revokeAll {now : DateTime} {tokens : List RefreshToken} {f : Unit → Program α}
    (hmid : Later d₀ d) (hok : Does d₀ Ok Err (f ()) (ws ++ revocations now tokens) d) :
    Does d₀ Ok Err ((revokeAll now tokens).bind f) ws d := by
  induction tokens generalizing ws with
  | nil =>
    show Does d₀ Ok Err (f ()) ws d
    simpa [revocations] using hok
  | cons x tokens ih =>
    simp only [revokeAll, Prog.bind_eq_bind, Prog.bind_assoc]
    refine Sql.Alone.update hmid fun _ => ih ?_
    simpa [revocations] using hok

/-- Every token of the user is revoked. -/
def AllRevoked (userId : Uuid) (db : Database) : Prop :=
  ∀ id x, token? db id = some x → x.userId = userId → x.revokedAt.isSome

/-- What a change of the password leaves of the tokens that there were. -/
def Ended (userId : Uuid) (d d' : Database) : Prop :=
  ∀ id x, token? d id = some x → x.userId = userId →
    ∃ x', token? d' id = some x' ∧ x'.revokedAt.isSome

theorem Later.ended {userId : Uuid} {d d' : Database} (h : Later d d') (hall : AllRevoked userId d') :
    Ended userId d d' := by
  intro id x hx huser
  obtain ⟨x', hx', huser', -, -⟩ := h.rows id x hx
  exact ⟨x', hx', hall id x' hx' (huser'.trans huser)⟩

/-- Once a user's tokens are all revoked in the session, they are when it
commits. -/
theorem does_revokeRefreshTokens {userId : Uuid} {f : Unit → Program α} (hmid : Later d₀ d)
    (hview : Chained (view ws d))
    (hok : ∀ ws', Later (view ws d) (view (ws ++ ws') d) → AllRevoked userId (view (ws ++ ws') d) →
      Does d₀ Ok Err (f ()) (ws ++ ws') d) :
    Does d₀ Ok Err ((revokeRefreshTokens userId).bind f) ws d := by
  unfold revokeRefreshTokens
  simp only [Prog.bind_eq_bind, Prog.bind_assoc]
  refine Sql.Alone.askFor hmid fun now => Sql.Alone.select hmid (does_revokeAll hmid ?_)
  refine hok _ ?_ ?_
  · rw [view_append]
    exact later_revocations hview
  · rw [view_append]
    intro id x hx huser
    rw [token?_revocations] at hx
    obtain ⟨w, hw, rfl⟩ := Option.map_eq_some_iff.mp hx
    by_cases hmem : id ∈ (List.insertionSort (fun a b : RefreshToken => a.id.text ≤ b.id.text)
        ((view ws d .refreshTokens).rows.filter fun x =>
          x.userId = userId && x.revokedAt.isNone)).map (·.id)
    · simp [hmem]
    · -- a token of the user that was not selected was revoked already
      simp only [hmem, if_false] at huser ⊢
      by_contra hnone
      refine hmem (List.mem_map.mpr ⟨w, ?_, Table.key_of_find? hw⟩)
      rw [List.mem_insertionSort, List.mem_filter]
      exact ⟨Table.mem_of_find? hw, by simpa [huser] using hnone⟩

theorem does_selectUser {userId : Uuid} {f : Option User → Program α} (hmid : Later d₀ d)
    (hok : ∀ x?, (∀ x, x? = some x → x.id = userId) → Does d₀ Ok Err (f x?) ws d) :
    Does d₀ Ok Err ((selectUser userId).bind f) ws d := by
  unfold selectUser
  simp only [Prog.bind_eq_bind, Prog.bind_assoc]
  refine alone_selectOne (k := userId) (fun r hr => of_decide_eq_true hr) hmid (hok _ ?_)
  intro x hx
  exact of_decide_eq_true (Option.filter_eq_some_iff.mp hx).2

theorem does_selectUserByEmail {email : String} {f : Option User → Program α}
    (hmid : Later d₀ d) (herr : ∀ e, Err e d) (hok : ∀ x?, Does d₀ Ok Err (f x?) ws d) :
    Does d₀ Ok Err ((selectUserByEmail host email).bind f) ws d := by
  unfold selectUserByEmail
  simp only [Prog.bind_eq_bind, Prog.bind_assoc]
  refine Sql.Alone.select hmid (alone_scalarOneOrNone (fun _ => hok _) (fun _ _ => hok _) fun _ => ?_)
  exact ⟨hmid, fun _ => herr _⟩

/-- A pair is issued and committed by a session that has not changed the
tokens. -/
theorem does_issue {user : User} {f : TokenPair → Program α} (hmid : Later d₀ d)
    (hview : Later d (view ws d)) (herr : ∀ e, Err e d)
    (hok : ∀ pair d', Later d d' → Issued pair d' → Does d₀ Ok Err (f pair) [] d') :
    Does d₀ Ok Err ((issueTokenPair host user (pure ())).bind fun tokens =>
      commit.bind fun _ => f tokens) ws d := by
  refine does_issueTokenPair [] hmid herr (fun g hg => ?_) fun pair hnew _ hreplaced => ?_
  · show Does d₀ Ok Err (g ()) ws d
    rwa [List.append_nil] at hg
  · rw [List.append_nil] at hnew
    refine does_commit hmid (hok pair _ (hview.trans ?_) ?_)
    · rw [List.append_nil, view_append]
      exact later_insert hview.chained hreplaced
    · rw [List.append_nil, view_append]
      exact issued_insert hnew

theorem login_does {email password : String} (hd : Chained d) :
    Does d Issued (fun _ _ => True) (login host email password) [] d := by
  have hmid : Later d d := .refl hd
  unfold login
  simp only [Prog.bind_eq_bind, Prog.pure_eq_ret]
  refine does_selectUserByEmail hmid (fun _ => trivial) fun user? => ?_
  refine alone_found (fun user _ => ?_) fun _ => ⟨hmid, fun _ => trivial⟩
  refine alone_raiseIf (fun _ => ?_) fun _ => ⟨hmid, fun _ => trivial⟩
  refine alone_raiseIf (fun _ => ?_) fun _ => ⟨hmid, fun _ => trivial⟩
  exact does_issue hmid hmid (fun _ => trivial) fun pair d' hlater hissued =>
    .ret ⟨hlater, hissued⟩

theorem does_freeSlug {tenantName : String} {f : String → Program α} (hmid : Later d₀ d)
    (herr : ∀ e, Err e d) (hok : ∀ slug, Does d₀ Ok Err (f slug) ws d) :
    Does d₀ Ok Err ((freeSlug host tenantName).bind f) ws d := by
  unfold freeSlug
  simp only [Prog.bind_eq_bind, Prog.bind_assoc]
  have hrest : ∀ x? : Option Tenant, Does d₀ Ok Err ((if x?.isSome then
      (ask .uuid4).bind fun id => pure (slugify host tenantName ++ "-" ++
        String.ofList (id.text.toList.take 8))
      else pure (slugify host tenantName) : Program String).bind f) ws d := by
    intro x?
    split
    · simp only [Prog.bind_assoc, Prog.pure_eq_ret, Prog.ret_bind]
      exact Sql.Alone.askFor hmid fun id => hok _
    · exact hok _
  refine Sql.Alone.select hmid (alone_scalarOneOrNone (fun _ => hrest _) (fun _ _ => hrest _)
    fun _ => ?_)
  exact ⟨hmid, fun _ => herr _⟩

theorem register_does {email password fullName tenantName : String} (hd : Chained d) :
    Does d Issued (fun _ _ => True) (register host email password fullName tenantName) [] d := by
  have hmid : Later d d := .refl hd
  unfold register hashPassword
  simp only [Prog.bind_eq_bind, Prog.pure_eq_ret]
  refine does_selectUserByEmail hmid (fun _ => trivial) fun user? => ?_
  refine alone_raiseIf (fun _ => ?_) fun _ => ⟨hmid, fun _ => trivial⟩
  refine does_freeSlug hmid (fun _ => trivial) fun slug => ?_
  refine Sql.Alone.askFor hmid fun tenantId => Sql.Alone.insert hmid fun _ => ?_
  refine Sql.Alone.askFor hmid fun passwordHash => Sql.Alone.askFor hmid fun userId => ?_
  refine Sql.Alone.insert hmid fun _ => does_issue hmid ?_ (fun _ => trivial)
    fun pair d' hlater hissued => .ret ⟨hlater, hissued⟩
  exact later_of_tokens hd rfl

/-- The flush of a user changes no token. -/
theorem does_flushUser {x y : User} {f : Unit → Program α} (hmid : Later d₀ d)
    (hok : ∀ ws', (view (ws ++ ws') d) .refreshTokens = (view ws d) .refreshTokens →
      Does d₀ Ok Err (f ()) (ws ++ ws') d) :
    Does d₀ Ok Err ((flushUser x y).bind f) ws d := by
  unfold flushUser
  dsimp only
  split
  · have hnil := hok []
    rw [List.append_nil] at hnil
    exact hnil rfl
  · refine Sql.Alone.update hmid fun _ => hok _ ?_
    rw [view_append]
    rfl

/-- The profile is updated; with a new password, every token of the user is
revoked. -/
theorem does_updateProfile {userId : Uuid} {fullName password currentPassword : Option String}
    {f : User → Program α} (hmid : Later d₀ d) (herr : ∀ e d, Err e d)
    (hok : ∀ user d', Later d d' → (password.isSome → AllRevoked userId d') →
      Does d₀ Ok Err (f user) [] d') :
    Does d₀ Ok Err ((updateProfile host userId fullName password currentPassword).bind f)
      [] d := by
  have hd : Chained d := hmid.chained
  unfold updateProfile hashPassword reloadUser
  simp only [Prog.bind_eq_bind, Prog.bind_assoc]
  refine does_selectUser hmid fun user? huser => alone_found (fun user hsome => ?_)
    fun _ => ⟨hmid, fun _ => herr _ _⟩
  obtain rfl := huser user hsome
  have hlast : ∀ d' : Database, Later d d' → (password.isSome → AllRevoked user.id d') →
      Does d₀ Ok Err ((selectUser user.id).bind fun x? => (found Tenancy.noResultFound x?).bind f)
        [] d' := by
    intro d' hlater hrevoked
    refine does_selectUser (hmid.trans hlater) fun x? _ => alone_found (fun x _ => ?_)
      fun _ => ⟨hmid.trans hlater, fun _ => herr _ _⟩
    exact hok x d' hlater hrevoked
  cases password with
  | none =>
    simp only [Prog.bind_assoc]
    refine does_flushUser hmid fun ws' hsame => ?_
    exact does_commit hmid (hlast _ (later_of_tokens hd hsame) fun h => by cases h)
  | some password =>
    simp only [Prog.bind_assoc]
    refine alone_check (fun _ => ?_) fun _ _ => ⟨hmid, fun _ => herr _ _⟩
    refine Sql.Alone.askFor hmid fun passwordHash => does_flushUser hmid fun ws' hsame => ?_
    have hflushed : Later d (view ws' d) := later_of_tokens hd hsame
    refine does_revokeRefreshTokens hmid hflushed.chained fun ws'' hlater hrevoked => ?_
    exact does_commit hmid (hlast _ (hflushed.trans hlater) fun _ => hrevoked)

theorem updateProfile_does {userId : Uuid} {fullName password currentPassword : Option String}
    (hd : Chained d) :
    Does d (fun _ d' => password.isSome → AllRevoked userId d') (fun _ _ => True)
      (updateProfile host userId fullName password currentPassword) [] d := by
  rw [← Prog.bind_ret (updateProfile host userId fullName password currentPassword)]
  refine does_updateProfile (.refl hd) (fun _ _ => trivial) fun user d' hlater hrevoked => ?_
  exact .ret ⟨hlater, hrevoked⟩

/-- The tokens that are revoked with a change of the password are those from
before. -/
theorem setPassword_does {userId : Uuid} {password : String} {currentPassword : Option String}
    (hd : Chained d) :
    Does d (fun pair d' => Issued pair d' ∧ Ended userId d d') (fun _ _ => True)
      (setPassword host userId password currentPassword) [] d := by
  have hmid : Later d d := .refl hd
  unfold setPassword reloadUser
  simp only [Prog.bind_eq_bind, Prog.bind_assoc, Prog.pure_eq_ret]
  refine does_updateProfile hmid (fun _ _ => trivial) fun user d₁ hlater₁ hrevoked => ?_
  refine does_issue hlater₁ (.refl hlater₁.chained) (fun _ => trivial) fun pair d₂ hlater₂ hissued => ?_
  have hlater := hlater₁.trans hlater₂
  refine does_selectUser hlater fun x? _ => alone_found (fun x _ => ?_)
    fun _ => ⟨hlater, fun _ => trivial⟩
  refine .ret ⟨hlater, hissued, fun id y hy huser => ?_⟩
  obtain ⟨y₁, hy₁, hrevoked₁⟩ := hlater₁.ended (hrevoked rfl) id y hy huser
  obtain ⟨y₂, hy₂, -, hkeep, -⟩ := hlater₂.rows id y₁ hy₁
  exact ⟨y₂, hy₂, hkeep hrevoked₁⟩

/-- A logout revokes the token it names. -/
theorem revokeDecoded_does {refreshToken : String} {tokenId : Uuid} (hd : Chained d) :
    Does d (fun _ d' => ∀ x, token? d tokenId = some x → x.tokenHash = host.sha256 refreshToken →
        ∃ x', token? d' tokenId = some x' ∧ x'.revokedAt.isSome) (fun _ _ => True)
      (revokeDecoded host refreshToken tokenId) [] d := by
  have hmid : Later d d := .refl hd
  unfold revokeDecoded
  simp only [Prog.bind_eq_bind]
  refine alone_selectOne (k := tokenId) (fun r hr => ?_) hmid ?_
  · simp only [Bool.and_eq_true, decide_eq_true_eq] at hr
    exact hr.1.1
  · cases hx? : ((service.backend.store.applyAll [] d .refreshTokens).find? tokenId).filter _ with
    | none =>
      refine .ret ⟨hmid, fun x hx hhash => ⟨x, hx, ?_⟩⟩
      -- a token with this hash that is not found is revoked already
      have hnone := (Option.filter_eq_none_iff.mp hx?) x hx
      rw [show x.id = tokenId from Table.key_of_find? hx] at hnone
      simpa [hhash, Option.isSome_iff_ne_none] using hnone
    | some row =>
      obtain ⟨hrow, hp⟩ := Option.filter_eq_some_iff.mp hx?
      obtain rfl : row.id = tokenId := Table.key_of_find? hrow
      refine Sql.Alone.askFor hmid fun now => Sql.Alone.update hmid fun _ => ?_
      rw [← Prog.bind_ret commit]
      exact does_commit hmid (.ret ⟨later_revoke hd, fun x hx _ => revoked_of_update hx⟩)

/-- The exchange of a token that is not revoked. -/
theorem rotate_does {row : RefreshToken} {user : User} (hd : Chained d)
    (hrow : token? d row.id = some row) (hrevoked : row.revokedAt = none)
    (herr : ∀ e d, Err e d) :
    Does d (fun pair d' => Issued pair d' ∧ ∃ row', token? d' row.id = some row' ∧
      row'.replacedById = some pair.refreshRow.id) Err (rotate host row user) [] d := by
  have hmid : Later d d := .refl hd
  unfold rotate
  simp only [Prog.bind_eq_bind, Prog.pure_eq_ret]
  refine Sql.Alone.askFor hmid fun now => ?_
  refine does_issueTokenPair [.update .refreshTokens row.id { revokedAt := some now }]
    hmid (herr · d) (fun g hg => Sql.Alone.update hmid fun _ => hg) fun pair hnew _ hreplaced => ?_
  refine Sql.Alone.update hmid fun _ => does_commit hmid ?_
  -- the row along the three writes of the transaction
  let d₁ := Sql.RowWrite.apply
    (.update .refreshTokens row.id { revokedAt := some now } : Write) d
  let d₂ := Sql.RowWrite.apply (.insert .refreshTokens pair.refreshRow : Write) d₁
  have hlater₁ : Later d d₁ := later_revoke hd
  have hlater₂ : Later d₁ d₂ := later_insert hlater₁.chained hreplaced
  have hnone : row.replacedById = none := by
    by_contra hsome
    have := hd row.id row hrow (Option.isSome_iff_ne_none.mpr hsome)
    simp [hrevoked] at this
  have hrow₁ : token? d₁ row.id = some { row with revokedAt := some now } := by
    show token? (Sql.RowWrite.apply (.update .refreshTokens row.id _ : Write) d) row.id = _
    rw [token?_update, hrow, Option.map_some, if_pos rfl]
    rfl
  have hrow₂ : token? d₂ row.id = some { row with revokedAt := some now } := by
    refine Table.find?_insert_eq.trans ?_
    rw [if_neg]
    · exact hrow₁
    · rintro ⟨hid, hfree⟩
      rw [← hid] at hfree
      cases hfree.symm.trans hrow₁
  have hlater₃ : Later d₂ (Sql.RowWrite.apply
      (.update .refreshTokens row.id { replacedById := some pair.refreshRow.id } : Write) d₂) := by
    refine later_replace hlater₂.chained fun x hx => ?_
    cases hrow₂.symm.trans hx
    exact ⟨rfl, hnone⟩
  refine .ret ⟨(hlater₁.trans hlater₂).trans hlater₃, (issued_insert hnew).later hlater₃, ?_⟩
  refine ⟨{ row with revokedAt := some now, replacedById := some pair.refreshRow.id }, ?_, rfl⟩
  show token? (Sql.RowWrite.apply (.update .refreshTokens row.id _ : Write) d₂) row.id = _
  rw [token?_update, hrow₂, Option.map_some, if_pos rfl]
  rfl

/-- A token that is not revoked is exchanged, and a revoked one ends all the
sessions of its user. -/
theorem refreshDecoded_does {refreshToken : String} {payload : TokenPayload} (hd : Chained d) :
    Does d (fun pair d' => Issued pair d' ∧ ∃ user tenant id x x',
        presentedIds host.toSecurity payload = .ok (user, tenant, id) ∧ token? d id = some x ∧
          x.revokedAt = none ∧ token? d' id = some x' ∧
            x'.replacedById = some pair.refreshRow.id)
      (fun e d' => ∀ x, presentedIds host.toSecurity payload = .ok (x.userId, x.tenantId, x.id) →
        x.tokenHash = host.sha256 refreshToken → token? d x.id = some x → x.revokedAt.isSome →
          e = tokenReused ∧ AllRevoked x.userId d')
      (refreshDecoded host refreshToken payload) [] d := by
  have hmid : Later d d := .refl hd
  unfold refreshDecoded
  simp only [Prog.bind_eq_bind]
  refine alone_ofExcept (fun ids hids => ?_) fun e he => ⟨hmid, fun _ x hx => ?_⟩
  · obtain ⟨userId, tenantId, tokenId⟩ := ids
    refine alone_selectOne (k := tokenId) (fun r hr => ?_) hmid ?_
    · simp only [Bool.and_eq_true, decide_eq_true_eq] at hr
      exact hr.1.1.1
    · refine alone_found (fun row hrow => ?_) fun hnone => ⟨hmid, fun _ x hx hhash hfind _ => ?_⟩
      · obtain ⟨hfind, hp⟩ := Option.filter_eq_some_iff.mp hrow
        simp only [Bool.and_eq_true, decide_eq_true_eq] at hp
        obtain ⟨⟨⟨rfl, rfl⟩, rfl⟩, hhash⟩ := hp
        have hfind : token? d row.id = some row := hfind
        have hpresented : ∀ x : RefreshToken,
            presentedIds host.toSecurity payload = .ok (x.userId, x.tenantId, x.id) →
              row.userId = x.userId ∧ row.id = x.id := by
          intro x hx
          rw [hids] at hx
          injection hx with hx
          simp only [Prod.mk.injEq] at hx
          exact ⟨hx.1, hx.2.2⟩
        split
        · -- the second use of the token
          refine does_revokeRefreshTokens hmid hd fun ws' hlater hall => ?_
          refine does_commit hmid (.raise ⟨hlater, fun _ x hx hhash' hfind' _ => ⟨rfl, ?_⟩⟩)
          rw [← (hpresented x hx).1]
          exact hall
        · rename_i hrevoked
          have hrevoked : row.revokedAt = none := by simpa using hrevoked
          -- no token that the call presents is revoked
          have herr : ∀ (e : Exn) (d' : Database) (x : RefreshToken),
              presentedIds host.toSecurity payload = .ok (x.userId, x.tenantId, x.id) →
              x.tokenHash = host.sha256 refreshToken → token? d x.id = some x →
              x.revokedAt.isSome → e = tokenReused ∧ AllRevoked x.userId d' := by
            intro e d' x hx _ hfind' hsome
            rw [← (hpresented x hx).2] at hfind'
            cases hfind.symm.trans hfind'
            simp [hrevoked] at hsome
          refine Sql.Alone.askFor hmid fun now => ?_
          refine alone_raiseIf (fun _ => ?_) fun _ => ⟨hmid, fun _ => herr _ _⟩
          refine does_selectUser hmid fun user? _ => ?_
          refine alone_found (fun user _ => ?_) fun _ => ⟨hmid, fun _ => herr _ _⟩
          refine (rotate_does hd hfind hrevoked herr).mono fun r s d' _ hpost => ?_
          cases r with
          | error e => exact hpost
          | ok pair =>
            obtain ⟨hlater, hissued, row', hrow', hreplaced⟩ := hpost
            exact ⟨hlater, hissued, _, _, row.id, row, row', hids, hfind, hrevoked, hrow', hreplaced⟩
      · -- the token would have been found
        rw [hids] at hx
        cases hx
        have hsome := Option.filter_eq_none_iff.mp hnone x hfind
        simp [hhash] at hsome
  · rw [he] at hx
    cases hx

end Calls

/-! ### Sequences of calls -/

section Sequences

variable {host : Host} {d d' : Database}

/-- The token names the row with this id. -/
def Names (host : Host) (token : String) (id : Uuid) : Prop :=
  ∃ payload user tenant, host.claims token = some payload ∧
    presentedIds host.toSecurity payload = .ok (user, tenant, id)

/-- The token is valid at the time `now`, and its row is `x`. -/
def Presents (host : Host) (now : DateTime) (token : String) (x : RefreshToken) : Prop :=
  ∃ payload, decodeToken host.toSecurity now token = some payload ∧
    presentedIds host.toSecurity payload = .ok (x.userId, x.tenantId, x.id) ∧
    x.tokenHash = host.sha256 token

/-- What a proof of a call says of the same call with another result. -/
theorem does_map {α β : Type} {d₀ : Database} {ws : List Write} {g : β → α} {p : Program β}
    {Ok' : β → Database → Prop} {Ok : α → Database → Prop} {Err : Exn → Database → Prop}
    (hp : Does d₀ Ok' Err p ws d) (hok : ∀ b d', Ok' b d' → Ok (g b) d') :
    Does d₀ Ok Err (p.bind fun b => .ret (g b)) ws d :=
  Sql.Alone.bind hp (fun b _ d' _ hb => .ret ⟨hb.1, hok b d' hb.2⟩) fun _ _ _ _ he => he

/-- What is known when a call answers: the pair has its row, and a token that was
exchanged for it was not revoked, and now has it as its successor. -/
def Answered (host : Host) (d : Database) (call : Call) (pair? : Option TokenPair)
    (d' : Database) : Prop :=
  ∀ pair, pair? = some pair → Issued pair d' ∧ ∀ token, call = .refreshTokens token →
    ∃ id x x', Names host token id ∧ token? d id = some x ∧ x.revokedAt = none ∧
      token? d' id = some x' ∧ x'.replacedById = some pair.refreshRow.id

theorem refreshTokens_does {token : String} (hd : Chained d) :
    Does d (Answered host d (.refreshTokens token)) (fun _ _ => True)
      ((Call.refreshTokens token).program host) [] d := by
  have hmid : Later d d := .refl hd
  simp only [Call.program, refreshTokens, Prog.bind_eq_bind, Prog.bind_assoc, Prog.pure_eq_ret]
  refine Sql.Alone.askFor hmid fun now => ?_
  refine alone_found (fun payload hpayload => ?_) fun _ => ⟨hmid, fun _ => trivial⟩
  have hclaims : host.claims token = some payload := (Option.filter_eq_some_iff.mp hpayload).1
  refine does_map (Sql.Alone.mono (refreshDecoded_does hd) fun r s d' _ hpost => ?_) fun _ _ h => h
  cases r with
  | error e => exact ⟨hpost.1, fun _ => trivial⟩
  | ok pair =>
    obtain ⟨hlater, hissued, user, tenant, id, x, x', hids, hx⟩ := hpost
    refine ⟨hlater, fun pair' hpair => ?_⟩
    cases hpair
    refine ⟨hissued, fun token' htoken => ?_⟩
    cases htoken
    exact ⟨id, x, x', ⟨payload, user, tenant, hclaims, hids⟩, hx⟩

theorem revokeRefreshToken_does {token : String} (hd : Chained d) :
    Does d (fun _ _ => True) (fun _ _ => True) (revokeRefreshToken host token) [] d := by
  have hmid : Later d d := .refl hd
  unfold revokeRefreshToken
  simp only [Prog.bind_eq_bind]
  refine Sql.Alone.askFor hmid fun now => ?_
  cases (decodeToken host.toSecurity now token).bind (logoutId host) with
  | none => exact .ret ⟨hmid, trivial⟩
  | some id =>
    refine (revokeDecoded_does hd).mono fun r s d' _ hpost => ?_
    cases r with
    | error e => exact hpost
    | ok a => exact ⟨hpost.1, trivial⟩

/-- Every call. -/
theorem call_does (call : Call) (hd : Chained d) :
    Does d (Answered host d call) (fun _ _ => True) (call.program host) [] d := by
  cases call with
  | login email password =>
    refine does_map (login_does hd) fun pair d' hissued pair' hpair => ?_
    cases hpair
    exact ⟨hissued, fun token h => by cases h⟩
  | register email password fullName tenantName =>
    refine does_map (register_does hd) fun pair d' hissued pair' hpair => ?_
    cases hpair
    exact ⟨hissued, fun token h => by cases h⟩
  | refreshTokens token => exact refreshTokens_does hd
  | revokeRefreshToken token =>
    exact does_map (revokeRefreshToken_does hd) fun _ _ _ pair hpair => by cases hpair
  | updateProfile userId fullName password currentPassword =>
    exact does_map (updateProfile_does hd) fun _ _ _ pair hpair => by cases hpair
  | setPassword userId password currentPassword =>
    refine does_map (setPassword_does hd) fun pair d' hissued pair' hpair => ?_
    cases hpair
    exact ⟨hissued.1, fun token h => by cases h⟩

/-- A call from chained rows. -/
theorem serves_later {call : Call} {cs : List (Sql.Choice Exn (Sql.Input Answer))}
    {r : Option (Except Exn (Option TokenPair))} (hd : Chained d)
    (h : Sql.Serves service.backend (call.program host) d cs r d') :
    Later d d' ∧ ∀ pair?, r = some (.ok pair?) → Answered host d call pair? d' :=
  ⟨(h.settled (call_does call hd)).1, (h.settled (call_does call hd)).2.1⟩

theorem Sequence.later {es : List Served} (h : Sequence host d es d') (hd : Chained d) :
    Later d d' := by
  have hstep : ∀ call cs r d₁ d₂, Later d d₁ →
      Sql.Serves service.backend (Call.program host call) d₁ cs r d₂ → Later d d₂ :=
    fun _ _ _ _ _ hlater hserves => hlater.trans (serves_later hlater.chained hserves).1
  exact Sql.Serial.induction hstep h (.refl hd)

/-- No call accepts the token. -/
def NeverAccepted (host : Host) (es : List Served) (id : Uuid) : Prop :=
  ∀ e ∈ es, ∀ token, e.call = .refreshTokens token → Names host token id →
    ∀ pair, e.result ≠ some (.ok (some pair))

/-- A revoked token is accepted by no later call. -/
theorem neverAccepted_of_revoked {es : List Served} (h : Sequence host d es d') (hd : Chained d)
    {id : Uuid} {x : RefreshToken} (hx : token? d id = some x) (hrevoked : x.revokedAt.isSome) :
    NeverAccepted host es id := by
  intro e he token hcall hnames pair hresult
  obtain ⟨es₁, es₂, rfl⟩ := List.append_of_mem he
  obtain ⟨hbefore, hserves, -⟩ := h.split
  have hlater : Later d e.before := Sequence.later hbefore hd
  obtain ⟨x', hx', -, hkeep, -⟩ := hlater.rows id x hx
  -- the call would have found the token not revoked
  obtain ⟨-, hlink⟩ := (serves_later hlater.chained hserves).2 _ hresult pair rfl
  obtain ⟨id', y, -, hnames', hy, hnone, -⟩ := hlink token hcall
  obtain ⟨payload, user, tenant, hclaims, hids⟩ := hnames
  obtain ⟨payload', user', tenant', hclaims', hids'⟩ := hnames'
  rw [hclaims] at hclaims'
  cases hclaims'
  rw [hids] at hids'
  cases hids'
  cases hx'.symm.trans hy
  have hsome := hkeep hrevoked
  simp [hnone] at hsome

/-- What a call ends: `e` is the call, and `later` are the ones after it. -/
structure EndsSessions (host : Host) (e : Served) (later : List Served) : Prop where
  /-- whatever is revoked is never accepted again -/
  revoked : ∀ id x, token? e.after id = some x → x.revokedAt.isSome → NeverAccepted host later id
  /-- a revoked token that is presented while it is valid gives no new pair and
  revokes every token of its user -/
  reused : ∀ token world cs x, e.call = .refreshTokens token →
    e.choices = .ok (.answers world) :: cs → Presents host (world .utcNow) token x →
    token? e.before x.id = some x → x.revokedAt.isSome →
      (∀ pair, e.result ≠ some (.ok (some pair))) ∧
        (Sql.Smooth e.choices → e.result.isSome →
          e.result = some (.error tokenReused) ∧ AllRevoked x.userId e.after)
  /-- a logout revokes the token it names -/
  loggedOut : ∀ token world cs id x, e.call = .revokeRefreshToken token →
    e.choices = .ok (.answers world) :: cs →
    (decodeToken host.toSecurity (world .utcNow) token).bind (logoutId host) = some id →
    token? e.before id = some x → x.tokenHash = host.sha256 token →
    (∃ a, e.result = some (.ok a)) → ∃ x', token? e.after id = some x' ∧ x'.revokedAt.isSome
  /-- a change of the password revokes every token there was -/
  passwordChanged : ∀ userId fullName password currentPassword,
    e.call = .updateProfile userId fullName (some password) currentPassword ∨
      e.call = .setPassword userId password currentPassword →
    (∃ a, e.result = some (.ok a)) → Ended userId e.before e.after

theorem reused_of_serves {token : String} {world : ∀ a, Answer a}
    {cs : List (Sql.Choice Exn (Sql.Input Answer))} {r : Option (Except Exn (Option TokenPair))}
    {x : RefreshToken} (hd : Chained d)
    (h : Sql.Serves service.backend ((Call.refreshTokens token).program host) d
      (.ok (.answers world) :: cs) r d')
    (hx : Presents host (world .utcNow) token x) (hfind : token? d x.id = some x)
    (hrevoked : x.revokedAt.isSome) (hcs : Sql.Smooth cs) (hr : r.isSome) :
    r = some (.error tokenReused) ∧ AllRevoked x.userId d' := by
  obtain ⟨payload, hdecode, hids, hhash⟩ := hx
  simp only [Call.program, refreshTokens, Prog.bind_eq_bind, Prog.bind_assoc,
    Prog.pure_eq_ret] at h
  have h := Sql.Serves.ask rfl h
  rw [hdecode] at h
  have hspec : Does d (fun _ _ => False) (fun e d' => ∀ x,
      presentedIds host.toSecurity payload = .ok (x.userId, x.tenantId, x.id) →
        x.tokenHash = host.sha256 token → token? d x.id = some x → x.revokedAt.isSome →
          e = tokenReused ∧ AllRevoked x.userId d')
      ((refreshDecoded host token payload).bind fun pair => .ret (some pair)) [] d := by
    refine does_map (refreshDecoded_does hd) ?_
    -- a pair is given only for a token that is not revoked
    rintro pair d'' ⟨-, user, tenant, id, y, y', hids', hy, hnone, -⟩
    rw [hids] at hids'
    injection hids' with hids'
    simp only [Prod.mk.injEq] at hids'
    rw [← hids'.2.2] at hy
    cases hfind.symm.trans hy
    simp [hnone] at hrevoked
  obtain ⟨-, hok, herr⟩ := Sql.Serves.settled hspec h
  obtain ⟨result, rfl⟩ := Option.isSome_iff_exists.mp hr
  cases result with
  | ok pair => exact (hok pair rfl).elim
  | error e =>
    obtain ⟨rfl, hall⟩ := herr e rfl hcs x hids hhash hfind hrevoked
    exact ⟨rfl, hall⟩

theorem loggedOut_of_serves {token : String} {world : ∀ a, Answer a}
    {cs : List (Sql.Choice Exn (Sql.Input Answer))} {r : Option (Except Exn (Option TokenPair))}
    {id : Uuid} {x : RefreshToken} (hd : Chained d)
    (h : Sql.Serves service.backend ((Call.revokeRefreshToken token).program host) d
      (.ok (.answers world) :: cs) r d')
    (hid : (decodeToken host.toSecurity (world .utcNow) token).bind (logoutId host) = some id)
    (hx : token? d id = some x) (hhash : x.tokenHash = host.sha256 token)
    (hr : ∃ a, r = some (.ok a)) : ∃ x', token? d' id = some x' ∧ x'.revokedAt.isSome := by
  simp only [Call.program, revokeRefreshToken, Prog.bind_eq_bind, Prog.bind_assoc,
    Prog.pure_eq_ret] at h
  have h := Sql.Serves.ask rfl h
  rw [hid] at h
  have hspec : Does d (fun _ d' => ∀ x, token? d id = some x → x.tokenHash = host.sha256 token →
      ∃ x', token? d' id = some x' ∧ x'.revokedAt.isSome) (fun _ _ => True)
      ((revokeDecoded host token id).bind fun _ => .ret (none : Option TokenPair)) [] d :=
    does_map (revokeDecoded_does hd) fun _ _ h => h
  obtain ⟨a, rfl⟩ := hr
  exact (Sql.Serves.settled hspec h).2.1 a rfl x hx hhash

theorem passwordChanged_of_serves {call : Call} {userId : Uuid} {password : String}
    {fullName currentPassword : Option String} {cs : List (Sql.Choice Exn (Sql.Input Answer))}
    {r : Option (Except Exn (Option TokenPair))} (hd : Chained d)
    (hcall : call = .updateProfile userId fullName (some password) currentPassword ∨
      call = .setPassword userId password currentPassword)
    (h : Sql.Serves service.backend (call.program host) d cs r d')
    (hr : ∃ a, r = some (.ok a)) : Ended userId d d' := by
  obtain ⟨a, rfl⟩ := hr
  have hlater : Later d d' := (serves_later hd h).1
  rcases hcall with rfl | rfl
  · have hspec : Does d (fun _ d' => AllRevoked userId d') (fun _ _ => True)
        ((Call.updateProfile userId fullName (some password) currentPassword).program host) [] d :=
      does_map (updateProfile_does hd) fun _ _ h => h rfl
    exact hlater.ended ((Sql.Serves.settled hspec h).2.1 a rfl)
  · have hspec : Does d (fun _ d' => Ended userId d d') (fun _ _ => True)
        ((Call.setPassword userId password currentPassword).program host) [] d :=
      does_map (setPassword_does hd) fun _ _ h => h.2
    exact (Sql.Serves.settled hspec h).2.1 a rfl

end Sequences

/-- A second use of a refresh token is detected.  After any sequence of calls, a
chain has one token at most that is not revoked, the pairs that were issued have
their rows, and every exchange is a link of a chain; and each call has ended the
sessions that it has to end. -/
theorem refresh_token_reuse (host : Host) {d d' : Database} {es : List Served} (hd : Chained d)
    (h : Sequence host d es d') :
    (∀ id x, token? d' id = some x → OneUnrevoked d' x) ∧
    (∀ e ∈ es, ∀ pair, e.result = some (.ok (some pair)) → Issued pair d' ∧
      ∀ token, e.call = .refreshTokens token → ∃ id x, Names host token id ∧
        token? d' id = some x ∧ x.replacedById = some pair.refreshRow.id) ∧
    ∀ es₁ e es₂, es = es₁ ++ e :: es₂ → EndsSessions host e es₂ := by
  have hchained : Chained d' := (Sequence.later h hd).chained
  refine ⟨fun id x hx => ?_, fun e he pair hresult => ?_, fun es₁ e es₂ hes => ?_⟩
  · have hid : x.id = id := Table.key_of_find? hx
    exact hchained.oneUnrevoked (hid ▸ hx)
  · obtain ⟨es₁, es₂, rfl⟩ := List.append_of_mem he
    obtain ⟨hbefore, hserves, hafter⟩ := h.split
    have hbefore := Sequence.later hbefore hd
    obtain ⟨hlater, hanswered⟩ := serves_later hbefore.chained hserves
    have hafter := Sequence.later hafter hlater.chained
    obtain ⟨hissued, hlink⟩ := hanswered _ hresult pair rfl
    refine ⟨hissued.later hafter, fun token htoken => ?_⟩
    obtain ⟨id, x, x', hnames, -, -, hx', hnext⟩ := hlink token htoken
    obtain ⟨x'', hx'', -, -, hkeep⟩ := hafter.rows id x' hx'
    exact ⟨id, x'', hnames, hx'', hkeep _ hnext⟩
  · subst hes
    obtain ⟨hbefore, hserves, hafter⟩ := h.split
    have hstart : Chained e.before := (Sequence.later hbefore hd).chained
    obtain ⟨hlater, hanswered⟩ := serves_later hstart hserves
    constructor
    · exact fun id x hx hrevoked => neverAccepted_of_revoked hafter hlater.chained hx hrevoked
    · intro token world cs x hcall hcs hpresents hx hrevoked
      refine ⟨fun pair hresult => ?_, fun hsmooth hended => ?_⟩
      · -- the token would be accepted although it is revoked already
        have hnever : NeverAccepted host [e] x.id :=
          neverAccepted_of_revoked (.cons e rfl hserves .nil) hstart hx hrevoked
        obtain ⟨payload, hdecode, hids, -⟩ := hpresents
        exact hnever e List.mem_cons_self token hcall
          ⟨payload, _, _, (Option.filter_eq_some_iff.mp hdecode).1, hids⟩ pair hresult
      · rw [hcall, hcs] at hserves
        refine reused_of_serves hstart hserves hpresents hx hrevoked (fun c hc => ?_) hended
        exact hsmooth c (hcs ▸ List.mem_cons_of_mem _ hc)
    · intro token world cs id x hcall hcs hid hx hhash hr
      rw [hcall, hcs] at hserves
      exact loggedOut_of_serves hstart hserves hid hx hhash hr
    · intro userId fullName password currentPassword hcall hr
      exact passwordChanged_of_serves hstart hcall hserves hr

namespace Sample

/-- Refresh tokens whose text is their id, for one user. -/
def host : Host where
  encode payload := payload.jti.getD "access"
  claims token := some {
    sub := some "u", tenantId := some "t", jti := some token, exp := none, type := some "refresh" }
  expired _ _ := false
  sha256 := id
  uuid text := some ⟨text⟩
  accessTokenExpireMinutes := 30
  refreshTokenExpireDays := 7
  verify _ _ := true
  lower := id
  isSpace _ := false
  sqlLower := id

def user : User where
  id := ⟨"u"⟩
  tenantId := ⟨"t"⟩
  role := "owner"
  isActive := true
  email := "e"
  passwordHash := ""
  fullName := none
  mustChangePassword := false

/-- The user holds no token. -/
def database : Database := Tables.insert (fun _ => .empty) .users user

theorem database_chained : Chained database := by
  intro id x hx
  cases hx

/-- The next token is called `r`. -/
def world (r : String) : ∀ a, Answer a
  | .utcNow => ⟨0, DateTime.zero_inRange⟩
  | .uuid4 => ⟨r⟩
  | .hash _ => ""

/-- `n` questions. -/
def asks (r : String) (n : ℕ) : List (Sql.Choice Exn (Sql.Input Answer)) :=
  List.replicate n (.ok (.answers (world r)))

/-- `n` statements or commits. -/
def runs (n : ℕ) : List (Sql.Choice Exn (Sql.Input Answer)) := List.replicate n (.ok .nothing)

/-- A token is presented twice, and then its successor. -/
def stolen : List (Call × List (Sql.Choice Exn (Sql.Input Answer))) :=
  [(.login "e" "", runs 1 ++ asks "r0" 3 ++ runs 1 ++ asks "r0" 1 ++ runs 1),
    (.refreshTokens "r0", asks "r1" 1 ++ runs 1 ++ asks "r1" 1 ++ runs 1 ++ asks "r1" 4 ++
      runs 2 ++ asks "r1" 1 ++ runs 2),
    (.refreshTokens "r0", asks "r2" 1 ++ runs 1 ++ asks "r2" 1 ++ runs 3),
    (.refreshTokens "r1", asks "r2" 1 ++ runs 1 ++ asks "r2" 1 ++ runs 2)]

/-- The refresh token that a call has issued. -/
def issued (e : Served) : Option String :=
  match e.result with
  | some (.ok (some pair)) => some pair.refreshToken
  | _ => none

/-- Two tokens are issued, and the last two calls end with an error. -/
def Outcome (es : List Served) : Prop :=
  es.map issued = [some "r0", some "r1", none, none] ∧ ∀ e ∈ es, e.result.isSome

instance (es : List Served) : Decidable (Outcome es) := inferInstanceAs (Decidable (_ ∧ _))

end Sample

/-- The second use of the first token ends the second one, too. -/
theorem refresh_token_stolen : ∃ es d', Sequence Sample.host Sample.database es d' ∧
    Sample.Outcome es ∧ ∀ id x, token? d' id = some x → OneUnrevoked d' x := by
  have hrun : ((Sql.serveAll? service.backend (Call.program Sample.host) Sample.database
      Sample.stolen).any fun x => decide (Sample.Outcome x.1)) = true := by decide +kernel
  obtain ⟨es, d', h, -, houtcome⟩ := Sql.exists_serial Sample.stolen
    (P := fun es _ => Sample.Outcome es) hrun
  exact ⟨es, d', h, houtcome, (refresh_token_reuse _ Sample.database_chained h).1⟩

end GraphPilot.Accounts
