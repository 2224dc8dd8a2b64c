/-
Which users can be removed.

A refresh token refers to its user in a column that is not nullable, and the session sets it
to null all the same; the references without a collection stay, and the database refuses
them.  So a user who has ever logged in stays (`loggedIn_not_removable`).

* `Removed` — what a removal is to do;
* `Unblocked` — no row refers to the user by a column that stands in the way;
* `removeUser_eq_ok` — the removal succeeds just then;
* `unblocked_of_run` — what a run has written decides;
* `removable_iff` — in every state of every run.
-/
import GraphPilot.Members.References
import GraphPilot.Python.Attempt

namespace GraphPilot.References

open Python
open Accounts (User)
open Tenancy (integrityError)

variable {ρ : Type} {db db' : Database ρ} {userId : Uuid} {row : Row ρ} {table : Table}

/-! ### What a removal is to do -/

/-- A row is as before, but for its references to the user; if there are any, its time stamp may
be new. -/
structure Kept (userId : Uuid) (table : Table) (row row' : Row ρ) : Prop where
  id : row'.id = row.id
  tenantId : row'.tenantId = row.tenantId
  rest : row'.rest = row.rest
  refs : ∀ column, row'.refs column = row.refs column ∨
    row.refs column = some userId ∧ row'.refs column = none
  same : (∀ column, column.table = table → row.refs column ≠ some userId) → row' = row

/-- Exactly this user is gone, with its refresh tokens and the references to it. -/
structure Removed (userId : Uuid) (db db' : Database ρ) : Prop where
  users : db'.users = db.users.filter fun x => x.id ≠ userId
  tokens : db'.rows .refreshTokens =
    (db.rows .refreshTokens).filter fun row => row.refs .refreshTokenUserId ≠ some userId
  others : ∀ table, table ≠ .refreshTokens →
    List.Forall₂ (Kept userId table) (db.rows table) (db'.rows table)
  unreferenced : ∀ column : Column, ∀ row ∈ db'.rows column.table, row.refs column ≠ some userId

/-- The removal of a user succeeds, and does that. -/
def Removable (now : DateTime) (db : Database ρ) (user : User) (currentUserId : Uuid) : Prop :=
  ∃ db', removeUser now db user.tenantId user.id currentUserId = .ok db' ∧ Removed user.id db db'

/-- A column that stands in the way: it is set to null and must not be, or it is left. -/
def Column.blocks (column : Column) : Bool :=
  column.backref && !column.nullable || !column.backref && !column.cascades

/-- No row refers to the user by such a column. -/
def Unblocked (db : Database ρ) (userId : Uuid) : Prop :=
  ∀ column : Column, column.blocks = true → ∀ row ∈ db.rows column.table,
    row.refs column ≠ some userId

/-! ### References -/

theorem mem_all (column : Column) : column ∈ Column.all := by
  cases column <;> decide

theorem refersBy_row_iff {p : Column → Bool} : row.refersBy p table userId = true ↔
    ∃ column : Column, column.table = table ∧ p column = true ∧ row.refs column = some userId := by
  unfold Row.refersBy
  rw [List.any_eq_true]
  constructor
  · rintro ⟨column, -, h⟩
    simp only [Bool.and_eq_true, decide_eq_true_eq] at h
    exact ⟨column, h.1.1, h.1.2, h.2⟩
  · rintro ⟨column, htable, hp, href⟩
    refine ⟨column, mem_all column, ?_⟩
    simp only [Bool.and_eq_true, decide_eq_true_eq]
    exact ⟨⟨htable, hp⟩, href⟩

theorem refersBy_iff {p : Column → Bool} : db.refersBy p userId = true ↔
    ∃ column : Column, p column = true ∧ ∃ row ∈ db.rows column.table,
      row.refs column = some userId := by
  unfold Database.refersBy
  rw [List.any_eq_true]
  constructor
  · rintro ⟨column, -, h⟩
    rw [List.any_eq_true] at h
    obtain ⟨row, hrow, h⟩ := h
    obtain ⟨c, hc, hp, href⟩ := refersBy_row_iff.mp h
    rw [← hc] at hrow
    exact ⟨c, hp, row, hrow, href⟩
  · rintro ⟨column, hp, row, hrow, href⟩
    refine ⟨column, mem_all column, ?_⟩
    rw [List.any_eq_true]
    exact ⟨row, hrow, refersBy_row_iff.mpr ⟨column, rfl, hp, href⟩⟩

/-! ### Emptied collections -/

theorem release_kept (now : DateTime) (table : Table) (userId : Uuid) (row : Row ρ) :
    Kept userId table row (row.release now table userId) := by
  unfold Row.release
  split
  · rename_i hrefers
    obtain ⟨column, hcolumn, -, href⟩ := refersBy_row_iff.mp hrefers
    refine ⟨rfl, rfl, rfl, ?_, fun hnone => absurd href (hnone column hcolumn)⟩
    intro c
    dsimp only
    split
    · rename_i h
      exact Or.inr ⟨h.2.2, rfl⟩
    · exact Or.inl rfl
  · exact ⟨rfl, rfl, rfl, fun _ => Or.inl rfl, fun _ => rfl⟩

/-- What a row still refers to the user by has no collection. -/
theorem refs_release {now : DateTime} {column : Column} :
    (row.release now column.table userId).refs column = some userId ↔
      column.backref = false ∧ row.refs column = some userId := by
  unfold Row.release
  split
  · dsimp only
    split
    · rename_i h
      rw [h.2.1]
      simp
    · rename_i h
      constructor
      · intro href
        refine ⟨?_, href⟩
        rw [← Bool.not_eq_true]
        exact fun hback => h ⟨rfl, hback, href⟩
      · exact fun hrest => hrest.2
  · rename_i hrefers
    constructor
    · intro href
      refine ⟨?_, href⟩
      rw [← Bool.not_eq_true]
      exact fun hback => hrefers (refersBy_row_iff.mpr ⟨column, rfl, hback, href⟩)
    · exact fun hrest => hrest.2

/-! ### The removal -/

section Removal

variable {now : DateTime}

/-- The row that the query finds. -/
theorem filter_users {users : List User} (h : (users.map (·.id)).Nodup) {user : User}
    (huser : user ∈ users) :
    (users.filter fun x => x.id = user.id && x.tenantId = user.tenantId) = [user] := by
  induction users with
  | nil => cases huser
  | cons x users ih =>
    rw [List.map_cons, List.nodup_cons] at h
    have hother : ∀ y ∈ users, y.id ≠ x.id := by
      intro y hy heq
      exact h.1 (List.mem_map.mpr ⟨y, hy, heq⟩)
    rcases List.mem_cons.mp huser with rfl | hmem
    · have hnone : (users.filter fun y => y.id = user.id && y.tenantId = user.tenantId) = [] := by
        rw [List.filter_eq_nil_iff]
        intro y hy hcond
        rw [Bool.and_eq_true, decide_eq_true_eq] at hcond
        exact hother y hy hcond.1
      simp [hnone]
    · have hne : ¬ x.id = user.id := fun heq => hother user hmem heq.symm
      rw [← ih h.2 hmem]
      simp [hne]

theorem removeUser_eq {user : User} (huser : user ∈ db.users) {currentUserId : Uuid}
    (hother : user.id ≠ currentUserId) :
    removeUser now db user.tenantId user.id currentUserId =
      nullReferences now user.id db >>= deleteUser user.id := by
  unfold removeUser
  rw [filter_users db.distinct huser]
  dsimp only
  rw [if_neg hother]

/-- The database that a removal leaves. -/
def Database.without (now : DateTime) (userId : Uuid) (db : Database ρ) : Database ρ :=
  Database.cascade userId
    { db with rows := fun table => (db.rows table).map (Row.release now table userId) }

/-- The flush succeeds just when no reference stands in the way. -/
theorem flush_eq_ok : nullReferences now userId db >>= deleteUser userId = .ok db' ↔
    Unblocked db userId ∧ db' = db.without now userId := by
  have hnull : db.refersBy (fun column => column.backref && !column.nullable) userId = true ↔
      ∃ column : Column, (column.backref && !column.nullable) = true ∧
        ∃ row ∈ db.rows column.table, row.refs column = some userId := refersBy_iff
  have hleft : Database.refersBy (fun column => !column.cascades) userId
      { db with rows := fun table => (db.rows table).map (Row.release now table userId) } = true ↔
        ∃ column : Column, (!column.cascades) = true ∧ column.backref = false ∧
          ∃ row ∈ db.rows column.table, row.refs column = some userId := by
    rw [refersBy_iff]
    constructor
    · rintro ⟨column, hcascades, row, hrow, href⟩
      obtain ⟨r, hr, rfl⟩ := List.mem_map.mp hrow
      obtain ⟨hback, href⟩ := refs_release.mp href
      exact ⟨column, hcascades, hback, r, hr, href⟩
    · rintro ⟨column, hcascades, hback, r, hr, href⟩
      exact ⟨column, hcascades, _, List.mem_map.mpr ⟨r, hr, rfl⟩, refs_release.mpr ⟨hback, href⟩⟩
  constructor
  · intro h
    obtain ⟨db₁, hdb₁, hdb'⟩ := Attempt.bind_eq_ok.mp h
    unfold nullReferences at hdb₁
    split at hdb₁
    · cases hdb₁
    · rename_i hno
      rw [← Except.ok.inj hdb₁] at hdb'
      unfold deleteUser at hdb'
      split at hdb'
      · cases hdb'
      · rename_i hno'
        refine ⟨?_, (Except.ok.inj hdb').symm⟩
        intro column hblocks row hrow href
        unfold Column.blocks at hblocks
        rw [Bool.or_eq_true, Bool.and_eq_true, Bool.and_eq_true] at hblocks
        rcases hblocks with ⟨hback, hnot⟩ | ⟨hback, hcascades⟩
        · exact hno (hnull.mpr ⟨column, by rw [hback, hnot]; rfl, row, hrow, href⟩)
        · rw [Bool.not_eq_true'] at hback
          exact hno' (hleft.mpr ⟨column, hcascades, hback, row, hrow, href⟩)
  · rintro ⟨hfree, rfl⟩
    refine Attempt.bind_eq_ok.mpr ⟨_, if_neg ?_, if_neg ?_⟩
    · intro hsome
      obtain ⟨column, hcond, row, hrow, href⟩ := hnull.mp hsome
      exact hfree column (by rw [Column.blocks, hcond]; rfl) row hrow href
    · intro hsome
      obtain ⟨column, hcascades, hback, row, hrow, href⟩ := hleft.mp hsome
      exact hfree column (by rw [Column.blocks, hcascades, hback]; simp) row hrow href

/-- Where nothing stands in the way, the removal does what it is to do. -/
theorem without_removed (hfree : Unblocked db userId) :
    Removed userId db (db.without now userId) := by
  -- no row is deleted by a cascade
  have hkeep : ∀ table, ((db.rows table).map (Row.release now table userId)).filter
      (fun row => !row.refersBy Column.cascades table userId) =
        (db.rows table).map (Row.release now table userId) := by
    intro table
    rw [List.filter_eq_self]
    intro row hrow
    obtain ⟨r, hr, rfl⟩ := List.mem_map.mp hrow
    rw [Bool.not_eq_true', ← Bool.not_eq_true]
    intro hrefers
    obtain ⟨column, rfl, hcascades, href⟩ := refersBy_row_iff.mp hrefers
    have hback : column.backref = true := by
      revert hcascades
      cases column <;> decide
    obtain ⟨hnot, -⟩ := refs_release.mp href
    rw [hback] at hnot
    cases hnot
  constructor
  · rfl
  · show ((db.rows .refreshTokens).map _).filter _ = _
    rw [hkeep]
    have hnone : ∀ row ∈ db.rows .refreshTokens, row.refs .refreshTokenUserId ≠ some userId :=
      hfree .refreshTokenUserId rfl
    have hsame : (db.rows .refreshTokens).map (Row.release now .refreshTokens userId) =
        db.rows .refreshTokens := by
      rw [List.map_congr_left (g := id), List.map_id]
      intro row hrow
      refine (release_kept now .refreshTokens userId row).same ?_
      intro column htable
      have hcolumn : column = .refreshTokenUserId := by
        revert htable
        cases column <;> decide
      rw [hcolumn]
      exact hnone row hrow
    rw [hsame, eq_comm, List.filter_eq_self]
    intro row hrow
    exact decide_eq_true (hnone row hrow)
  · intro table _
    show List.Forall₂ _ _ (((db.rows table).map _).filter _)
    rw [hkeep, List.forall₂_map_right_iff, List.forall₂_same]
    exact fun row _ => release_kept now table userId row
  · intro column row hrow href
    have hrow' : row ∈ ((db.rows column.table).map (Row.release now column.table userId)).filter
      (fun row => !row.refersBy Column.cascades column.table userId) := hrow
    rw [hkeep] at hrow'
    obtain ⟨r, hr, rfl⟩ := List.mem_map.mp hrow'
    obtain ⟨hback, href⟩ := refs_release.mp href
    refine hfree column ?_ r hr href
    revert hback
    cases column <;> decide

/-- The removal succeeds just when nothing stands in the way. -/
theorem removeUser_eq_ok (now : DateTime) {user : User} (huser : user ∈ db.users) {currentUserId : Uuid}
    (hother : user.id ≠ currentUserId) :
    Removable now db user currentUserId ↔ Unblocked db user.id := by
  unfold Removable
  rw [removeUser_eq huser hother]
  constructor
  · rintro ⟨db', hok, -⟩
    exact (flush_eq_ok.mp hok).1
  · intro hfree
    exact ⟨_, flush_eq_ok.mpr ⟨hfree, rfl⟩, without_removed hfree⟩

end Removal

/-! ### Runs -/

/-- The step writes no reference to the user that stands in the way. -/
def Spares (userId : Uuid) (event : Event) : Prop :=
  ∀ column : Column, column.blocks = true → event ≠ some (column, userId)

theorem mem_insert {t : Table} {new : Row ρ} (h : row ∈ (db.insert t new).rows table) :
    row ∈ db.rows table ∨ row = new := by
  unfold Database.insert at h
  dsimp only at h
  split at h
  · rcases List.mem_append.mp h with hold | hnew
    · exact Or.inl hold
    · exact Or.inr (List.mem_singleton.mp hnew)
  · exact Or.inl h

theorem mem_change {t : Table} {f : Row ρ → Row ρ}
    (h : row ∈ (db.change t (List.map f)).rows table) :
    ∃ r ∈ db.rows table, row = r ∨ row = f r := by
  unfold Database.change at h
  dsimp only at h
  split at h
  · obtain ⟨r, hr, heq⟩ := List.mem_map.mp h
    exact ⟨r, hr, Or.inr heq.symm⟩
  · exact ⟨row, h, Or.inl rfl⟩

theorem mem_discard {t : Table} {p : Row ρ → Bool}
    (h : row ∈ (db.change t (List.filter p)).rows table) : row ∈ db.rows table := by
  unfold Database.change at h
  dsimp only at h
  split at h
  · exact (List.mem_filter.mp h).1
  · exact h

/-- A row with a reference set refers to whom it did, or to the user of the reference. -/
theorem refs_refer {c column : Column} {user : Option Uuid}
    (h : (row.refer c user).refs column = some userId) :
    column = c ∧ user = some userId ∨ row.refs column = some userId := by
  unfold Row.refer at h
  dsimp only at h
  split at h
  · rename_i hcolumn
    exact Or.inl ⟨hcolumn, h⟩
  · exact Or.inr h

/-- What a removal leaves was there. -/
theorem removeUser_refs {now : DateTime} {tenantId removed currentUserId : Uuid}
    (h : removeUser now db tenantId removed currentUserId = .ok db') {column : Column}
    (hrow : row ∈ db'.rows column.table) (href : row.refs column = some userId) :
    ∃ r ∈ db.rows column.table, r.refs column = some userId := by
  unfold removeUser at h
  split at h
  · cases h
  · rename_i user _
    split at h
    · cases h
    · obtain ⟨-, hdb'⟩ := flush_eq_ok.mp h
      rw [hdb'] at hrow
      obtain ⟨r, hr, rfl⟩ := List.mem_map.mp (List.mem_filter.mp hrow).1
      refine ⟨r, hr, ?_⟩
      rcases (release_kept now column.table user.id r).refs column with hsame | ⟨-, hnone⟩
      · rw [← hsame]
        exact href
      · rw [hnone] at href
        cases href
  · cases h

/-- A reference that was not there was written. -/
theorem step_refs {event : Event} (hstep : Step event db db') {column : Column}
    (hrow : row ∈ db'.rows column.table) (href : row.refs column = some userId) :
    event = some (column, userId) ∨ ∃ r ∈ db.rows column.table, r.refs column = some userId := by
  cases hstep with
  | join => exact Or.inr ⟨row, hrow, href⟩
  | edit => exact Or.inr ⟨row, hrow, href⟩
  | insert _ c hinserted user huser new htenant hrefs =>
    rcases mem_insert hrow with hold | rfl
    · exact Or.inr ⟨row, hold, href⟩
    · rw [hrefs, only] at href
      split at href
      · rename_i hcolumn
        rw [hcolumn, Option.some.inj href]
        exact Or.inl rfl
      · cases href
  | insertUnowned _ t new hrefs =>
    rcases mem_insert hrow with hold | rfl
    · exact Or.inr ⟨row, hold, href⟩
    · rw [hrefs] at href
      cases href
  | assign _ c hassigned user huser id =>
    obtain ⟨r, hr, rfl | rfl⟩ := mem_change hrow
    · exact Or.inr ⟨_, hr, href⟩
    · split at href
      · rcases refs_refer href with ⟨hcolumn, huserId⟩ | hold
        · rw [hcolumn, Option.some.inj huserId]
          exact Or.inl rfl
        · exact Or.inr ⟨r, hr, hold⟩
      · exact Or.inr ⟨r, hr, href⟩
  | resume _ id =>
    obtain ⟨r, hr, rfl | rfl⟩ := mem_change hrow
    · exact Or.inr ⟨_, hr, href⟩
    · split at href
      · rcases refs_refer href with ⟨-, hnone⟩ | hold
        · cases hnone
        · exact Or.inr ⟨r, hr, hold⟩
      · exact Or.inr ⟨r, hr, href⟩
  | rewrite _ t f hrefs =>
    obtain ⟨r, hr, rfl | rfl⟩ := mem_change hrow
    · exact Or.inr ⟨_, hr, href⟩
    · rw [hrefs] at href
      exact Or.inr ⟨r, hr, href⟩
  | discard _ t p => exact Or.inr ⟨row, mem_discard hrow, href⟩
  | remove _ _ now tenantId removed currentUserId hremove =>
    exact Or.inr (removeUser_refs hremove hrow href)

/-- What a run has written decides what stands in the way. -/
theorem unblocked_of_run {events : List Event} (hrun : Run events db)
    (hspares : ∀ event ∈ events, Spares userId event) : Unblocked db userId := by
  induction hrun with
  | empty => exact fun _ _ row hrow => absurd hrow List.not_mem_nil
  | step hrun hstep ih =>
    intro column hblocks row hrow href
    rcases step_refs hstep hrow href with hevent | ⟨r, hr, hold⟩
    · exact hspares _ List.mem_cons_self column hblocks hevent
    · exact ih (fun event hevent => hspares event (List.mem_cons_of_mem _ hevent)) column hblocks
        r hr hold

/-- **A user can be removed just when nothing stands in the way**, in every state of every run;
so in every run that has written no such reference. -/
theorem removable_iff {events : List Event} {db : Database ρ} (hrun : Run events db) {user : User}
    (huser : user ∈ db.users) {currentUserId : Uuid} (hother : user.id ≠ currentUserId)
    (now : DateTime) :
    (Removable now db user currentUserId ↔ Unblocked db user.id) ∧
      ((∀ event ∈ events, Spares user.id event) → Removable now db user currentUserId) := by
  have hiff := removeUser_eq_ok now huser hother
  refine ⟨hiff, ?_⟩
  intro hspares
  exact hiff.mpr (unblocked_of_run hrun hspares)

namespace Sample

/-- Somebody of the tenant. -/
def user (id : Uuid) (role : String) : User where
  id := id
  tenantId := ⟨"t"⟩
  role := role
  isActive := true
  email := id.text
  passwordHash := ""
  fullName := none
  mustChangePassword := false

/-- The owner. -/
def owner : User := user ⟨"o"⟩ "owner"

/-- Who is invited. -/
def editor : User := user ⟨"e"⟩ "editor"

theorem editor_ne_owner : editor.id ≠ owner.id := by
  decide

theorem owner_new : owner.id ∉ (Database.empty : Database Unit).users.map (·.id) :=
  List.not_mem_nil

/-- The owner has registered. -/
def registered : Database Unit := Database.empty.join owner owner_new

theorem editor_new : editor.id ∉ registered.users.map (·.id) := by
  decide

/-- The editor has been invited. -/
def invited : Database Unit := registered.join editor editor_new

theorem editor_mem : editor ∈ invited.users := List.mem_cons_of_mem _ List.mem_cons_self

theorem invited_run : Run [none, none] invited :=
  .step (.step .empty (.join _ owner owner_new)) (.join _ editor editor_new)

/-- Midnight of the first day. -/
def midnight : DateTime := ⟨0, DateTime.zero_inRange⟩

/-- The token of the editor's login. -/
def token : Row Unit where
  id := ⟨"r"⟩
  tenantId := ⟨"t"⟩
  refs := only .refreshTokenUserId editor.id
  updatedAt := none
  rest := ()

/-- The editor has logged in. -/
def loggedIn : Database Unit := invited.insert .refreshTokens token

theorem loggedIn_run : Run [some (.refreshTokenUserId, editor.id), none, none] loggedIn :=
  .step invited_run (.insert _ .refreshTokenUserId rfl editor editor_mem token rfl rfl)

end Sample

/-- Somebody who was invited, and has not logged in, can be removed. -/
theorem removable_iff_invited :
    Removable Sample.midnight Sample.invited Sample.editor Sample.owner.id := by
  refine (removable_iff Sample.invited_run Sample.editor_mem Sample.editor_ne_owner
    Sample.midnight).2 ?_
  intro event hevent column _ heq
  rw [heq] at hevent
  simp at hevent

/-- Somebody who has logged in once cannot be removed. -/
theorem loggedIn_not_removable : ∃ events, Run events Sample.loggedIn ∧
    Sample.editor ∈ Sample.loggedIn.users ∧ Sample.editor.id ≠ Sample.owner.id ∧
    ∀ now, removeUser now Sample.loggedIn ⟨"t"⟩ Sample.editor.id Sample.owner.id =
      .error integrityError := by
  refine ⟨_, Sample.loggedIn_run, Sample.editor_mem, Sample.editor_ne_owner, ?_⟩
  intro now
  rfl

end GraphPilot.References
