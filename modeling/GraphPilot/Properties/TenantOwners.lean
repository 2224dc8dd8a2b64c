/-
Every tenant has one owner.

A registration inserts the tenant together with its owner, and an invitation a user
with another role.  Who changes a role or removes a user is an owner of the tenant,
and so its only one; the check against acting on oneself then keeps the only owner
from being the one it happens to.

`Owned` is the invariant: with the owners it counts, it says that every user's tenant
is there, so that a tenant that is inserted has no users yet.
-/
import GraphPilot.Members.Service

namespace GraphPilot.Members

open Python Relational Concurrency Orm
open Accounts (User Host Ask Answer)

/-! ### Owners -/

/-- An owner of the tenant. -/
def owns (tenantId : Uuid) (x : User) : Bool := x.tenantId = tenantId && x.role = "owner"

/-- Every tenant has one owner, and every user a tenant. -/
structure Owned (tenants : List Tenant) (users : List User) : Prop where
  owner : ∀ t ∈ tenants, users.countP (owns t.id) = 1
  tenant : ∀ x ∈ users, ∃ t ∈ tenants, t.id = x.tenantId

section Lists

variable {tenants : List Tenant} {users : List User}

theorem owned_nil : Owned [] [] :=
  ⟨fun t ht => (by cases ht), fun x hx => (by cases hx)⟩

/-- A new tenant with its owner. -/
theorem Owned.register (h : Owned tenants users) {t : Tenant} {x : User}
    (hnew : ∀ t' ∈ tenants, t'.id ≠ t.id) (hx : owns t.id x = true) :
    Owned (tenants ++ [t]) (users ++ [x]) := by
  have htenant : x.tenantId = t.id := by
    simp only [owns, Bool.and_eq_true, decide_eq_true_eq] at hx
    exact hx.1
  constructor
  · intro t' ht'
    rw [List.countP_append, List.countP_singleton]
    rcases List.mem_append.mp ht' with ht' | ht'
    · have hnot : owns t'.id x = false := by
        simp [owns, htenant, (hnew t' ht').symm]
      rw [h.owner t' ht', if_neg (by simp [hnot])]
    · obtain rfl := List.mem_singleton.mp ht'
      -- the users there were belong to other tenants
      have hnone : users.countP (owns t'.id) = 0 := by
        rw [List.countP_eq_zero]
        intro y hy howns
        obtain ⟨t, ht, hid⟩ := h.tenant y hy
        simp only [owns, Bool.and_eq_true, decide_eq_true_eq] at howns
        exact hnew t ht (hid.trans howns.1)
      rw [hnone, if_pos hx]
  · intro y hy
    rcases List.mem_append.mp hy with hy | hy
    · obtain ⟨t', ht', hid⟩ := h.tenant y hy
      exact ⟨t', List.mem_append_left _ ht', hid⟩
    · obtain rfl := List.mem_singleton.mp hy
      exact ⟨t, List.mem_append_right _ (List.mem_singleton.mpr rfl), htenant.symm⟩

/-- A new user who is no owner. -/
theorem Owned.invite (h : Owned tenants users) {x : User} (hx : x.role ≠ "owner")
    (htenant : ∃ t ∈ tenants, t.id = x.tenantId) : Owned tenants (users ++ [x]) := by
  constructor
  · intro t ht
    rw [List.countP_append, List.countP_singleton, h.owner t ht]
    simp [owns, hx]
  · intro y hy
    rcases List.mem_append.mp hy with hy | hy
    · exact h.tenant y hy
    · obtain rfl := List.mem_singleton.mp hy
      exact htenant

/-- New roles for users who are no owners and become none. -/
theorem Owned.setRole (h : Owned tenants users) {p : User → Bool} {role : String}
    (hrole : role ≠ "owner") (hp : ∀ x ∈ users, p x = true → x.role ≠ "owner") :
    Owned tenants (users.map fun x => if p x then withRole role x else x) := by
  constructor
  · intro t ht
    rw [List.countP_map, ← h.owner t ht]
    refine List.countP_congr fun x hx => ?_
    show owns t.id (if p x then withRole role x else x) = true ↔ _
    split
    · rename_i hpx
      simp [owns, withRole, hrole, hp x hx hpx]
    · rfl
  · intro y hy
    obtain ⟨x, hx, rfl⟩ := List.mem_map.mp hy
    obtain ⟨t, ht, hid⟩ := h.tenant x hx
    refine ⟨t, ht, hid.trans ?_⟩
    split <;> rfl

/-- Users who are no owners go. -/
theorem Owned.remove (h : Owned tenants users) {p : User → Bool}
    (hp : ∀ x ∈ users, p x = true → x.role ≠ "owner") :
    Owned tenants (users.filter fun x => !p x) := by
  constructor
  · intro t ht
    rw [List.countP_filter, ← h.owner t ht]
    refine List.countP_congr fun x hx => ?_
    rw [Bool.and_eq_true, Bool.not_eq_true']
    constructor
    · exact And.left
    · intro howns
      refine ⟨howns, ?_⟩
      by_contra hpx
      simp only [owns, Bool.and_eq_true, decide_eq_true_eq] at howns
      exact hp x hx (by simpa using hpx) howns.2
  · intro y hy
    exact h.tenant y (List.mem_of_mem_filter hy)

/-- An owner of a tenant is its only one. -/
theorem Owned.unique (h : Owned tenants users) {x y : User} (hx : x ∈ users) (hy : y ∈ users)
    (hrole : x.role = "owner") (htenant : y.tenantId = x.tenantId) (hne : y ≠ x) :
    y.role ≠ "owner" := by
  intro howner
  obtain ⟨t, ht, hid⟩ := h.tenant x hx
  have hxs : x ∈ users.filter (owns t.id) := by
    rw [List.mem_filter]
    exact ⟨hx, by simp [owns, hid, hrole]⟩
  have hys : y ∈ users.filter (owns t.id) := by
    rw [List.mem_filter]
    exact ⟨hy, by simp [owns, hid, htenant, howner]⟩
  have hone := h.owner t ht
  rw [List.countP_eq_length_filter, List.length_eq_one_iff] at hone
  obtain ⟨z, hz⟩ := hone
  rw [hz, List.mem_singleton] at hxs hys
  exact hne (hys.trans hxs.symm)

end Lists

/-! ### The requests -/

section Requests

variable {host : Host} {d d' : Database} {ws : List Write} {α : Type}

/-- The invariant of the committed rows. -/
abbrev OwnedRows (d : Database) : Prop := Owned (rowsOf d .tenants) (rowsOf d .users)

/-- Code that keeps the invariant, wherever it stops. -/
abbrev Keeps (p : Program α) (ws : List Write) (d : Database) : Prop :=
  Sql.Alone service.backend 0 (fun d _ => OwnedRows d)
    (Sql.Settled OwnedRows (fun _ _ => True) fun _ _ => True) p ⟨ws, false⟩ d []

theorem keeps_found {β : Type} {e : Exn} {x? : Option β} {f : β → Program α} (h : OwnedRows d)
    (hok : ∀ x, x? = some x → Keeps (f x) ws d) : Keeps ((found e x?).bind f) ws d :=
  alone_found hok fun _ => ⟨h, fun _ => trivial⟩

theorem keeps_raiseIf {c : Prop} [Decidable c] {e : Exn} {f : Unit → Program α} (h : OwnedRows d)
    (hok : ¬ c → Keeps (f ()) ws d) : Keeps ((raiseIf c e).bind f) ws d :=
  alone_raiseIf hok fun _ => ⟨h, fun _ => trivial⟩

/-- Rows that a query has selected, of which there is one at most. -/
theorem keeps_selectOne {p : User → Bool} {f : Option User → Program α} (h : OwnedRows d)
    (hok : ∀ x?, (∀ x, x? = some x → x ∈ rowsOf d .users ∧ p x = true) → Keeps (f x?) [] d) :
    Keeps ((await (.select .users p)).bind fun rows =>
      (scalarOneOrNone (rows : List User)).bind f) [] d := by
  refine Sql.Alone.select h (alone_scalarOneOrNone (fun _ => ?_) (fun x hx => ?_) fun _ => ?_)
  · exact hok none fun x hx => by cases hx
  · refine hok (some x) fun y hy => ?_
    cases hy
    have hmem : x ∈ (rowsOf d .users).filter p := by
      show x ∈ List.filter _ _
      rw [show List.filter p (rowsOf d .users) = [x] from hx]
      exact List.mem_singleton.mpr rfl
    exact List.mem_filter.mp hmem
  · exact ⟨h, fun _ => trivial⟩

/-- The end of a call that commits and loads a row again. -/
theorem keeps_commit {f : Unit → Program Unit} (hd : OwnedRows d)
    (h : OwnedRows (service.backend.store.applyAll ws d))
    (hf : ∀ d', OwnedRows d' → Keeps (f ()) [] d') : Keeps (commit.bind f) ws d :=
  Sql.Alone.commit hd (hf _ h)

theorem keeps_refresh {userId : Uuid} (h : OwnedRows d) :
    Keeps ((refresh .users userId).bind fun _ => .ret ()) [] d := by
  unfold refresh Orm.refresh
  rw [Prog.bind_assoc]
  exact Sql.Alone.select h (keeps_found h fun _ _ => .ret ⟨h, trivial⟩)

/-- The actor of a request is an owner. -/
theorem keeps_requireRole {token path : String} {f : User → Program α} (h : OwnedRows d)
    (hok : ∀ x ∈ rowsOf d .users, x.role = "owner" → Keeps (f x) [] d) :
    Keeps ((requireRole host ["owner"] token path).bind f) [] d := by
  unfold requireRole getCurrentUser
  simp only [Prog.bind_eq_bind, Prog.bind_assoc, Prog.pure_eq_ret, Prog.ret_bind]
  refine Sql.Alone.askFor h fun now => keeps_found h fun payload _ => ?_
  refine keeps_found h fun userId _ => keeps_found h fun userUuid _ => ?_
  refine keeps_selectOne h fun x? hx? => keeps_found h fun x hx => ?_
  refine keeps_raiseIf h fun _ => keeps_raiseIf h fun _ => keeps_raiseIf h fun hrole => ?_
  refine hok x (hx? x hx).1 ?_
  simpa using hrole

theorem memberRole_ne {role : String} (h : role ∈ memberRoles) : role ≠ "owner" := by
  rintro rfl
  revert h
  decide

theorem keeps_inviteUser {tenantId : Uuid} {email role : String} (h : OwnedRows d)
    (hrole : role ≠ "owner") (htenant : ∃ t ∈ rowsOf d .tenants, t.id = tenantId) :
    Keeps ((inviteUser host tenantId email role).bind fun _ => .ret ()) [] d := by
  unfold inviteUser
  simp only [Prog.bind_eq_bind, Prog.bind_assoc]
  refine keeps_selectOne h fun x? _ => alone_check (fun _ => ?_) fun _ _ => ⟨h, fun _ => trivial⟩
  refine Sql.Alone.askFor h fun password => Sql.Alone.askFor h fun passwordHash => ?_
  refine Sql.Alone.askFor h fun userId => Sql.Alone.insert h fun hnew => ?_
  refine keeps_commit h ?_ fun _ => keeps_refresh
  refine (congrArg (Owned (rowsOf d .tenants)) (Table.rows_insert hnew)).mpr ?_
  exact h.invite hrole htenant

/-- A member that a request is about, when the actor is an owner of the tenant. -/
theorem keeps_selectMember {x : User} {userId : Uuid} {e : Exn} {f : User → Program Unit}
    (h : OwnedRows d) (hx : x ∈ rowsOf d .users) (hrole : x.role = "owner")
    (hok : ∀ y ∈ rowsOf d .users, y.role ≠ "owner" → Keeps (f y) [] d) :
    Keeps ((selectMember x.tenantId userId).bind fun y =>
      (raiseIf (y.id = x.id) e).bind fun _ => f y) [] d := by
  unfold selectMember
  simp only [Prog.bind_eq_bind, Prog.bind_assoc]
  refine keeps_selectOne h fun y? hy? => keeps_found h fun y hy => keeps_raiseIf h fun hne => ?_
  obtain ⟨hmem, hp⟩ := hy? y hy
  simp only [Bool.and_eq_true, decide_eq_true_eq] at hp
  refine hok y hmem (h.unique hx hmem hrole hp.2 ?_)
  rintro rfl
  exact hne rfl

/-- The rows under the key of a user are this user. -/
theorem eq_of_id {x y : User} (hx : x ∈ rowsOf d .users) (hy : y ∈ rowsOf d .users)
    (hid : x.id = y.id) : x = y := Table.eq_of_key (t := d .users) hx hy hid

theorem keeps_updateUserRole {x : User} {userId : Uuid} {role : String} (h : OwnedRows d)
    (hx : x ∈ rowsOf d .users) (howner : x.role = "owner") (hrole : role ≠ "owner") :
    Keeps ((updateUserRole x.tenantId userId role x.id).bind fun _ => .ret ()) [] d := by
  unfold updateUserRole
  simp only [Prog.bind_eq_bind, Prog.bind_assoc]
  refine keeps_selectMember h hx howner fun y hy hnot => ?_
  split
  · simp only [Prog.bind_assoc]
    exact keeps_commit h h fun _ => keeps_refresh
  · simp only [Prog.bind_assoc]
    refine Sql.Alone.update h fun _ => keeps_commit h ?_ fun _ => keeps_refresh
    show Owned (rowsOf d .tenants) ((rowsOf d .users).map _)
    refine h.setRole hrole fun z hz hid => ?_
    rw [eq_of_id hz hy (of_decide_eq_true hid)]
    exact hnot

theorem keeps_removeUser {x : User} {userId : Uuid} (h : OwnedRows d)
    (hx : x ∈ rowsOf d .users) (howner : x.role = "owner") :
    Keeps (removeUser x.tenantId userId x.id) [] d := by
  unfold removeUser
  simp only [Prog.bind_eq_bind]
  refine keeps_selectMember h hx howner fun y hy hnot => ?_
  rw [← Prog.bind_ret commit]
  refine Sql.Alone.delete h ?_ fun _ => keeps_commit h h fun _ hd => .ret ⟨hd, trivial⟩
  refine keeps_commit h ?_ fun _ hd => .ret ⟨hd, trivial⟩
  show Owned (rowsOf d .tenants) ((rowsOf d .users).filter _)
  refine h.remove fun z hz hid => ?_
  rw [eq_of_id hz hy (of_decide_eq_true hid)]
  exact hnot

/-- Every request keeps the invariant. -/
theorem keeps_request (request : Request) (h : OwnedRows d) :
    Keeps (request.program host) [] d := by
  cases request with
  | inviteUser token data =>
    refine keeps_requireRole h fun x hx _ => ?_
    obtain ⟨t, ht, hid⟩ := h.tenant x hx
    exact keeps_inviteUser h (memberRole_ne data.role_mem) ⟨t, ht, hid⟩
  | updateUserRole token userId data =>
    refine keeps_requireRole h fun x hx howner => ?_
    exact keeps_updateUserRole h hx howner (memberRole_ne data.role_mem)
  | removeUser token userId =>
    exact keeps_requireRole h fun x hx howner => keeps_removeUser h hx howner

end Requests

/-! ### Registrations -/

section Registrations

open Accounts (register issueTokenPair selectUserByEmail freeSlug hashPassword)
open Auth (TokenPair)

variable {host : Host} {d : Accounts.Database} {ws : List Accounts.Write} {α : Type}

/-- The invariant of the rows of a registration. -/
abbrev OwnedTables (d : Accounts.Database) : Prop := Owned (d .tenants).rows (d .users).rows

/-- Code of a registration that keeps the invariant, wherever it stops. -/
abbrev Registers (p : Accounts.Program α) (ws : List Accounts.Write) (d : Accounts.Database) :
    Prop :=
  Sql.Alone Accounts.service.backend 0 (fun d _ => OwnedTables d)
    (Sql.Settled OwnedTables (fun _ _ => True) fun _ _ => True) p ⟨ws, false⟩ d []

theorem registers_selectOne {n : Accounts.TableName} {p : Accounts.RowOf n → Bool}
    {f : Option (Accounts.RowOf n) → Accounts.Program α} (h : OwnedTables d)
    (hok : ∀ x?, Registers (f x?) ws d) :
    Registers ((Accounts.await (.select n p)).bind fun rows =>
      (scalarOneOrNone (rows : List (Accounts.RowOf n))).bind f) ws d := by
  refine Sql.Alone.select h (alone_scalarOneOrNone (fun _ => hok _) (fun _ _ => hok _) fun _ => ?_)
  exact ⟨h, fun _ => trivial⟩

theorem registers_freeSlug {tenantName : String} {f : String → Accounts.Program α}
    (h : OwnedTables d) (hok : ∀ slug, Registers (f slug) ws d) :
    Registers ((freeSlug host tenantName).bind f) ws d := by
  unfold freeSlug
  simp only [Prog.bind_eq_bind, Prog.bind_assoc]
  refine registers_selectOne h fun x? => ?_
  split
  · simp only [Prog.bind_assoc, Prog.pure_eq_ret, Prog.ret_bind]
    exact Sql.Alone.askFor h fun id => hok _
  · exact hok _

theorem registers_expiryIn {n : ℤ} {f : DateTime → Accounts.Program α} (h : OwnedTables d)
    (hok : ∀ x, Registers (f x) ws d) : Registers ((Accounts.expiryIn n).bind f) ws d := by
  unfold Accounts.expiryIn
  simp only [Prog.bind_eq_bind, Prog.bind_assoc]
  refine Sql.Alone.askFor h fun now => alone_found (fun x _ => hok x) fun _ => ?_
  exact ⟨h, fun _ => trivial⟩

theorem registers_issueTokenPair {user : User} {f : TokenPair → Accounts.Program α}
    (h : OwnedTables d)
    (hok : ∀ pair, Registers (f pair) (ws ++ [.insert .refreshTokens pair.refreshRow]) d) :
    Registers ((issueTokenPair host user (pure ())).bind f) ws d := by
  unfold issueTokenPair Accounts.createRefreshTokenWithId Accounts.createAccessToken
    Accounts.getRefreshTokenExpiry
  simp only [Prog.bind_eq_bind, Prog.bind_assoc, Prog.pure_eq_ret, Prog.ret_bind]
  refine Sql.Alone.askFor h fun tokenId => registers_expiryIn h fun expire => ?_
  refine registers_expiryIn h fun expiresAt => Sql.Alone.insert h fun hnew => ?_
  exact registers_expiryIn h fun expire' => hok _

theorem key_ne_of_new {n : Accounts.TableName} {x y : Accounts.RowOf n}
    (hx : (d n).find? (Keyed.key x) = none) (hy : y ∈ (d n).rows) : Keyed.key y ≠ Keyed.key x :=
  fun he => Table.find?_eq_none.mp hx (List.mem_map.mpr ⟨y, hy, he⟩)

theorem rows_insert_new {n : Accounts.TableName} {x : Accounts.RowOf n}
    (hx : (d n).find? (Keyed.key x) = none) : ((d n).insert x).rows = (d n).rows ++ [x] :=
  Table.rows_insert hx

/-- A registration keeps the invariant. -/
theorem registers_register {email password fullName tenantName : String} (h : OwnedTables d) :
    Registers (register host email password fullName tenantName) [] d := by
  unfold register hashPassword selectUserByEmail
  simp only [Prog.bind_eq_bind, Prog.bind_assoc, Prog.pure_eq_ret]
  refine registers_selectOne h fun x? => alone_raiseIf (fun _ => ?_) fun _ => ⟨h, fun _ => trivial⟩
  refine registers_freeSlug h fun slug => Sql.Alone.askFor h fun tenantId => ?_
  refine Sql.Alone.insert h fun htenant => Sql.Alone.askFor h fun passwordHash => ?_
  refine Sql.Alone.askFor h fun userId => Sql.Alone.insert h fun huser => ?_
  refine registers_issueTokenPair h fun pair => Sql.Alone.commit h (.ret ⟨?_, trivial⟩)
  have htenants := rows_insert_new htenant
  refine (congrArg₂ Owned htenants (rows_insert_new huser)).mpr ?_
  refine h.register (fun t ht hid => ?_) (by simp [owns])
  exact key_ne_of_new htenant ht hid

theorem registers_call {email password fullName tenantName : String} (h : OwnedTables d) :
    Registers ((Accounts.Call.register email password fullName tenantName).program host) [] d :=
  Sql.Alone.bind (registers_register h) (fun _ _ _ _ hpost => .ret ⟨hpost.1, trivial⟩)
    fun _ _ _ _ hpost => hpost

end Registrations

/-! ### Sequences -/

section Sequences

variable {host : Host} {db db' : Database}

theorem ownedRows_of_shows {tables : Accounts.Database} (h : Shows tables db) :
    OwnedTables tables ↔ OwnedRows db := by
  show Owned _ _ ↔ Owned _ _
  rw [h.tenants, h.users]

/-- One step. -/
theorem Step.owned (h : Step host db db') (hdb : OwnedRows db) : OwnedRows db' := by
  cases h with
  | register hbefore h hafter =>
    have hshown := (ownedRows_of_shows hbefore).mpr hdb
    exact (ownedRows_of_shows hafter).mp (h.settled (registers_call hshown)).1
  | request h => exact (h.settled (keeps_request _ hdb)).1

/-- In every state that is reached, every tenant has exactly one user who is an owner. -/
theorem tenant_owner (host : Host) {db : Database} (h : Steps host (fun _ => .empty) db) :
    ∀ tenant ∈ rowsOf db .tenants, ∃! user, user ∈ rowsOf db .users ∧
      user.tenantId = tenant.id ∧ user.role = "owner" := by
  have howned : OwnedRows db := by
    induction h with
    | refl => exact owned_nil
    | tail _ hstep ih => exact hstep.owned ih
  intro tenant htenant
  have hone := howned.owner tenant htenant
  rw [List.countP_eq_length_filter, List.length_eq_one_iff] at hone
  obtain ⟨x, hx⟩ := hone
  have hiff : ∀ y, y ∈ rowsOf db .users ∧ y.tenantId = tenant.id ∧ y.role = "owner" ↔ y = x := by
    intro y
    have hmem : y ∈ (rowsOf db .users).filter (owns tenant.id) ↔ y ∈ [x] := by rw [hx]
    rw [List.mem_filter, List.mem_singleton] at hmem
    rw [← hmem]
    simp [owns]
  exact ⟨x, (hiff x).mpr rfl, fun y hy => (hiff y).mp hy⟩

end Sequences

/-! ### A registration and an invitation -/

namespace Sample

/-- Tokens of the user `u`, whose text says nothing. -/
def host : Host where
  encode _ := ""
  claims _ := some {
    sub := some "u", tenantId := some "t", jti := none, exp := none, type := some "access" }
  expired _ _ := false
  sha256 := id
  uuid text := some ⟨text⟩
  accessTokenExpireMinutes := 30
  refreshTokenExpireDays := 7
  verify _ _ := true
  lower := id
  isSpace _ := false
  sqlLower := id

/-- One question, when the next row is called `r`. -/
def asks (r : String) : Sql.Choice Exn (Sql.Input Answer) :=
  .ok (.answers fun
    | .utcNow => ⟨0, DateTime.zero_inRange⟩
    | .uuid4 => ⟨r⟩
    | .hash _ => "")

/-- A statement or a commit. -/
def runs : Sql.Choice Exn (Sql.Input Answer) := .ok .nothing

def registers : List (Sql.Choice Exn (Sql.Input Answer)) :=
  [runs, runs, asks "t", runs, asks "", asks "u", runs, asks "k", asks "", asks "", runs, asks "",
    runs]

def invites : List (Sql.Choice Exn (Sql.Input Answer)) :=
  [asks "", runs, runs, asks "p", asks "", asks "v", runs, runs, runs]

/-- The rows that a registration leaves. -/
def ofTables (tables : Accounts.Database) : Database
  | .tenants => ⟨(tables .tenants).rows, (tables .tenants).nodup⟩
  | .users => ⟨(tables .users).rows, (tables .users).nodup⟩

def registerCall : Accounts.Call := .register "a@example.com" "password" "A" "T"

def inviteRequest : Request := .inviteUser "" ⟨"b@example.com", "editor", by decide⟩

/-- A registration, and an invitation by the user it inserts. -/
def run? : Option (List String) :=
  ((registerCall.program host).steps (Accounts.service.backend.perform 0) registers .fresh
      (.initial fun _ => .empty)).bind fun x =>
    ((inviteRequest.program host).steps (service.backend.perform 0) invites .fresh
      (.initial (ofTables x.2.2.db))).map fun y => (rowsOf y.2.2.db .users).map (·.role)

end Sample

/-- The tenant of two users. -/
theorem tenant_owner_invited : ∃ db, Steps Sample.host (fun _ => .empty) db ∧
    (rowsOf db .users).map (·.role) = ["owner", "editor"] ∧
    ∀ tenant ∈ rowsOf db .tenants, ∃! user, user ∈ rowsOf db .users ∧
      user.tenantId = tenant.id ∧ user.role = "owner" := by
  have hrun : Sample.run? = some ["owner", "editor"] := by decide +kernel
  obtain ⟨x, hx, hrest⟩ := Option.bind_eq_some_iff.mp hrun
  obtain ⟨y, hy, hroles⟩ := Option.map_eq_some_iff.mp hrest
  have hempty : Shows (fun _ => .empty) fun _ => .empty := ⟨rfl, rfl⟩
  have hregister : Step Sample.host (fun _ => .empty) (Sample.ofTables x.2.2.db) :=
    .register hempty ⟨_, _, _, hx, rfl, rfl⟩ ⟨rfl, rfl⟩
  have hsteps : Steps Sample.host (fun _ => .empty) y.2.2.db :=
    .tail (.single hregister) (.request ⟨_, _, _, hy, rfl, rfl⟩)
  exact ⟨_, hsteps, hroles, tenant_owner Sample.host hsteps⟩

end GraphPilot.Members
