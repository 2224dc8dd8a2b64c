/-
What is rendered as a read-only query.

The words that a query may begin with, and the search for semicolons, leave one statement, and
no command but the four.  But these may write: a `WITH` may contain a `DELETE`, a `SELECT` may
create a table or call a function that writes, and a `PRAGMA` may assign
(`with_delete_rendered`).  `rendered_read_only` says that these are the only ways.
-/
import GraphPilot.Tools.Database
import GraphPilot.Tools.Grammar
import Mathlib

namespace GraphPilot.Tools

open Python

/-- What the checks of a rendered query do not see. -/
inductive Statement.Slips (writer : String → Bool) : Statement → Prop where
  | selectInto {q calls queries} (h : .select true calls queries ∈ q.parts) :
      Slips writer (.query q)
  | call {q into calls queries f} (h : .select into calls queries ∈ q.parts) (hf : f ∈ calls)
      (hwriter : writer f = true) : Slips writer (.query q)
  | callOfValues {q calls queries f} (h : .values calls queries ∈ q.parts) (hf : f ∈ calls)
      (hwriter : writer f = true) : Slips writer (.query q)
  | callOfTable {q calls queries f} (h : .table calls queries ∈ q.parts) (hf : f ∈ calls)
      (hwriter : writer f = true) : Slips writer (.query q)
  | change {q kind queries} (h : .change kind queries ∈ q.parts) : Slips writer (.query q)
  | pragma {name} : Slips writer (.pragma name true)

/-- The claim that what is rendered is read only. -/
def RendersReadOnly : Prop :=
  ∀ (host : Host) (g : Grammar) (d : Dialect) (queryTemplate toolInput query : String)
    (params : List String), g.Documented →
      renderReadOnlyQuery host queryTemplate toolInput d.placeholder = .ok (query, params) →
        ReadOnly g query

/-! ### The beginning of a query -/

section Begins

variable {α : Type} [DecidableEq α] {old new xs : List α} {p : α → Prop}

/-- A text in which some parts are replaced begins as before, or with a replacement. -/
theorem head_intercalate_splitMax {n : ℕ} (hnew : ∀ c ∈ new.head?, p c) (hne : new ≠ [])
    (hxs : ∀ c ∈ xs.head?, p c) : ∀ c ∈ (new.intercalate (splitMax old n xs)).head?, p c := by
  cases n with
  | zero =>
    show ∀ c ∈ (new.intercalate [xs]).head?, p c
    rw [List.intercalate_singleton]
    exact hxs
  | succ n =>
    rw [splitMax]
    cases hcut : cut old xs with
    | none =>
      dsimp only
      rw [List.intercalate_singleton]
      exact hxs
    | some y =>
      obtain ⟨a, b⟩ := y
      dsimp only
      have hrest : splitMax old n b ≠ [] := by
        cases n with
        | zero => exact List.cons_ne_nil b []
        | succ n =>
          rw [splitMax]
          split
          · exact List.cons_ne_nil _ _
          · exact List.cons_ne_nil _ _
      rw [List.intercalate_cons_of_ne_nil hrest]
      cases a with
      | nil =>
        -- the replacement comes first
        rw [List.nil_append, List.head?_append_of_ne_nil _ hne]
        exact hnew
      | cons x a =>
        intro c hc
        refine hxs c ?_
        rw [cut_eq_some hcut]
        exact hc

end Begins

section Rendered

variable {host : Host} {queryTemplate toolInput query : String} {params : List String}
variable {d : Dialect} {g : Grammar}

/-- A query with its placeholders does not begin with a space. -/
theorem head_bindInput : ∀ c ∈ (bindInput host queryTemplate d.placeholder).toList.head?,
    host.isSpace c = false := by
  have hstrip : ∀ c ∈ (strip host queryTemplate).toList.head?, host.isSpace c = false := by
    intro c hc
    unfold strip at hc
    rw [String.toList_ofList] at hc
    -- what is left of it is a beginning of what the left end is stripped to
    obtain ⟨rest, hrest⟩ := List.rdropWhile_prefix host.isSpace
      (queryTemplate.toList.dropWhile host.isSpace)
    have hhead : (queryTemplate.toList.dropWhile host.isSpace).head? = some c := by
      rw [← hrest, List.head?_append]
      rw [Option.mem_def.mp hc]
      rfl
    have hnot := List.head?_dropWhile_not host.isSpace queryTemplate.toList
    rw [hhead] at hnot
    exact hnot
  unfold bindInput
  dsimp only
  split
  · unfold replace
    rw [String.toList_ofList]
    refine head_intercalate_splitMax ?_ ?_ hstrip
    · cases d with
      | postgres =>
        intro c hc
        cases hc
        exact host.isSpace_mark.1
      | sqlite =>
        intro c hc
        cases hc
        exact host.isSpace_mark.2
    · cases d <;> decide
  · exact hstrip

/-! ### One statement, of four kinds -/

/-- The word of a statement that begins with one of the four words. -/
theorem Statement.kinds {s : Statement} (hs : ∃ w ∈ readOnlyWords, w.toList <+: s.word.toList) :
    (∃ q, s = .query q) ∨ (∃ name, s = .showSetting name) ∨
      ∃ name assigns, s = .pragma name assigns := by
  cases s with
  | query q => exact .inl ⟨q, rfl⟩
  | showSetting name => exact .inr (.inl ⟨name, rfl⟩)
  | pragma name assigns => exact .inr (.inr ⟨name, assigns, rfl⟩)
  | command word modifies =>
    -- no other command begins with such a word
    have hnone : ∀ word ∈ commandWords, ¬ ∃ w ∈ readOnlyWords, w.toList <+: word.toList := by
      decide +kernel
    exact absurd hs (hnone word.val word.property)

/-- Of these kinds, the statements that modify something. -/
theorem Statement.slips_iff {s : Statement} {writer : String → Bool}
    (hs : ∃ w ∈ readOnlyWords, w.toList <+: s.word.toList) :
    s.Slips writer ↔ s.modifies writer = true := by
  constructor
  · intro h
    cases h with
    | selectInto h => exact List.any_eq_true.mpr ⟨_, h, rfl⟩
    | call h hf hwriter =>
      refine List.any_eq_true.mpr ⟨_, h, ?_⟩
      unfold Query.writes
      rw [Bool.or_eq_true]
      exact .inr (List.any_eq_true.mpr ⟨_, hf, hwriter⟩)
    | callOfValues h hf hwriter =>
      exact List.any_eq_true.mpr ⟨_, h, List.any_eq_true.mpr ⟨_, hf, hwriter⟩⟩
    | callOfTable h hf hwriter =>
      exact List.any_eq_true.mpr ⟨_, h, List.any_eq_true.mpr ⟨_, hf, hwriter⟩⟩
    | change h => exact List.any_eq_true.mpr ⟨_, h, rfl⟩
    | pragma => rfl
  · intro h
    rcases Statement.kinds hs with ⟨q, rfl⟩ | ⟨name, rfl⟩ | ⟨name, assigns, rfl⟩
    · obtain ⟨part, hpart, hwrites⟩ := List.any_eq_true.mp h
      cases part with
      | select into calls queries =>
        rcases Bool.or_eq_true_iff.mp hwrites with hinto | hcalls
        · subst hinto
          exact .selectInto hpart
        · obtain ⟨f, hf, hwriter⟩ := List.any_eq_true.mp hcalls
          exact .call hpart hf hwriter
      | values calls queries =>
        obtain ⟨f, hf, hwriter⟩ := List.any_eq_true.mp hwrites
        exact .callOfValues hpart hf hwriter
      | table calls queries =>
        obtain ⟨f, hf, hwriter⟩ := List.any_eq_true.mp hwrites
        exact .callOfTable hpart hf hwriter
      | withQueries queries main => cases hwrites
      | change kind queries => exact .change hpart
    · cases h
    · have hassigns : assigns = true := h
      subst hassigns
      exact .pragma

/-- A text that begins with one of the words, in any case. -/
theorem firstWord_prefix {w : String} (hw : w ∈ readOnlyWords)
    (h : w.toList <+: query.toList.map Char.toLower) :
    (∃ c cs, query.toList = c :: cs ∧ c.isAlpha = true) ∧
      w.toList <+: (firstWord query).toList := by
  have hletters : ∀ w ∈ readOnlyWords, w.toList ≠ [] ∧ w.toList.all Char.isAlpha = true := by
    intro w hw
    simp only [readOnlyWords, List.mem_cons, List.not_mem_nil, or_false] at hw
    rcases hw with rfl | rfl | rfl | rfl <;> exact ⟨List.cons_ne_nil _ _, rfl⟩
  obtain ⟨hne, hall⟩ := hletters w hw
  have hletter := List.all_eq_true.mp hall
  obtain ⟨start, hstart, hmap⟩ := List.prefix_map_iff.mp h
  have halpha : ∀ c ∈ start, c.isAlpha = true := by
    intro c hc
    rw [← Char.isAlpha_toLower_eq_isAlpha]
    refine hletter _ ?_
    rw [hmap]
    exact List.mem_map_of_mem hc
  obtain ⟨rest, hrest⟩ := hstart
  constructor
  · cases start with
    | nil => exact absurd hmap hne
    | cons c start => exact ⟨c, start ++ rest, hrest.symm, halpha c List.mem_cons_self⟩
  · unfold firstWord
    rw [String.toList_ofList, ← hrest, List.takeWhile_append_of_pos, List.map_append, ← hmap]
    · exact List.prefix_append _ _
    · intro c hc
      unfold isIdent Char.isAlphanum
      rw [halpha c hc]
      rfl

/-- A semicolon that does not stand at the end is found. -/
theorem mem_rstripSemicolons {before after : List Char} {c : Char}
    (h : query.toList = before ++ ';' :: after) (hc : c ∈ after) (hne : c ≠ ';') :
    ';' ∈ (rstripSemicolons query).toList := by
  unfold rstripSemicolons
  rw [String.toList_ofList]
  -- the semicolons at the end are all in `after`, since `c` is none of them
  have hsplit := List.rdropWhile_append_rtakeWhile
    (p := fun x => decide (x = ';')) (l := query.toList)
  have hend : ∀ x ∈ query.toList.rtakeWhile (· = ';'), x = ';' := by
    intro x hx
    have hsemi := List.mem_rtakeWhile_imp (p := fun x => decide (x = ';')) hx
    exact of_decide_eq_true hsemi
  rw [h] at hsplit hend ⊢
  rcases List.append_eq_append_iff.mp hsplit with ⟨middle, -, hrest⟩ | ⟨middle, hstart, hrest⟩
  · have hmem : c ∈ middle ++ ';' :: after := by
      rw [List.mem_append]
      exact .inr (List.mem_cons_of_mem _ hc)
    rw [← hrest] at hmem
    exact absurd (hend c hmem) hne
  · rw [hstart, List.mem_append]
    right
    cases middle with
    | nil =>
      rw [List.nil_append] at hrest
      have hmem : c ∈ ';' :: after := List.mem_cons_of_mem _ hc
      rw [hrest] at hmem
      exact absurd (hend c hmem) hne
    | cons x middle =>
      rw [(List.cons.inj hrest).1]
      exact List.mem_cons_self

/-- **A rendered query is read only** if and only if the database can read it, and it contains
none of what the checks do not see. -/
theorem rendered_read_only (hg : g.Documented)
    (h : renderReadOnlyQuery host queryTemplate toolInput d.placeholder = .ok (query, params)) :
    ReadOnly g query ↔ ∃ statements,
      g.read (bindInput host queryTemplate d.placeholder) = some statements ∧
        ∀ s ∈ statements, ¬ s.Slips g.writer := by
  obtain ⟨hquery, -, ⟨w, hw, hlower⟩, hsemicolon⟩ := renderReadOnlyQuery_eq_ok.mp h
  have hhead : ∀ c ∈ query.toList.head?, host.isSpace c = false := by
    rw [hquery]
    exact head_bindInput
  have hlstrip : lstrip host query = query := by
    unfold lstrip
    cases hlist : query.toList with
    | nil =>
      rw [← String.ofList_toList (s := query), hlist]
      rfl
    | cons c cs =>
      rw [hlist] at hhead
      rw [List.dropWhile_cons_of_neg, ← hlist, String.ofList_toList]
      rw [hhead c rfl]
      exact Bool.false_ne_true
  rw [hlstrip] at hlower
  obtain ⟨⟨c, cs, hlist, hletter⟩, hfirst⟩ := firstWord_prefix hw (host.lower_word _ w hw hlower)
  -- so the database reads one statement, of one of the four kinds
  have hone : ∀ statements, g.read query = some statements → ∃ s, statements = [s] ∧
      ∃ w ∈ readOnlyWords, w.toList <+: s.word.toList := by
    intro statements hread
    obtain ⟨s, rest, hs, hword⟩ := hg.leading query c cs statements hlist hletter hread
    rw [← hword] at hfirst
    cases rest with
    | nil => exact ⟨s, hs, w, hw, hfirst⟩
    | cons s' rest =>
      rw [hs] at hread
      obtain ⟨before, after, hsplit, c', hc', hne⟩ := hg.separated query s s' rest hread
      exact absurd (mem_rstripSemicolons hsplit hc' hne) hsemicolon
  rw [← hquery]
  constructor
  · rintro ⟨s, hread, hmodifies⟩
    refine ⟨[s], hread, fun s' hs' => ?_⟩
    obtain rfl := List.mem_singleton.mp hs'
    obtain ⟨s₁, hs₁, hbegins⟩ := hone _ hread
    cases hs₁
    rw [Statement.slips_iff hbegins, hmodifies]
    exact Bool.false_ne_true
  · rintro ⟨statements, hread, hslips⟩
    obtain ⟨s, rfl, hbegins⟩ := hone _ hread
    refine ⟨s, hread, ?_⟩
    have hnot := hslips s List.mem_cons_self
    rw [Statement.slips_iff hbegins] at hnot
    exact Bool.not_eq_true _ ▸ hnot

end Rendered

/-! ### Two templates -/

namespace Sample

def byName : String := "SELECT id FROM users WHERE name = \x7binput\x7d"

def withDelete : String := "WITH gone AS (DELETE FROM users) SELECT 1"

/-- Two texts, as they are read by PostgreSQL. -/
def readings : List (String × Statement) := [
  ("SELECT id FROM users WHERE name = $1", .query (.select false [] [])),
  (withDelete, .query (.withQueries [.change .delete []] (.select false [] [])))]

def grammar : Grammar :=
  ⟨fun text => (readings.lookup text).map fun s => [s], fun f => f = "nextval"⟩

theorem documented : grammar.Documented := by
  constructor
  · intro text c cs statements _ _ hread
    obtain ⟨s, hs, rfl⟩ := Option.map_eq_some_iff.mp hread
    have hword : ∀ r ∈ readings, r.2.word = firstWord r.1 := by
      intro r hr
      simp only [readings, List.mem_cons, List.not_mem_nil, or_false] at hr
      rcases hr with rfl | rfl <;> rfl
    obtain ⟨before, after, hlist, -⟩ := List.lookup_eq_some_iff.mp hs
    have hmem : (text, s) ∈ readings := by
      rw [hlist]
      exact List.mem_append_right _ List.mem_cons_self
    exact ⟨s, [], rfl, hword (text, s) hmem⟩
  · intro text s s' rest hread
    obtain ⟨s₁, -, hs₁⟩ := Option.map_eq_some_iff.mp hread
    cases hs₁

theorem byName_rendered :
    renderReadOnlyQuery host byName "alice" Dialect.postgres.placeholder =
      .ok ("SELECT id FROM users WHERE name = $1", ["alice"]) := by
  with_unfolding_all rfl

theorem withDelete_rendered :
    renderReadOnlyQuery host withDelete "alice" Dialect.postgres.placeholder = .ok (withDelete, []) := by
  with_unfolding_all rfl

end Sample

theorem rendered_read_only_byName :
    ReadOnly Sample.grammar "SELECT id FROM users WHERE name = $1" := by
  refine (rendered_read_only Sample.documented Sample.byName_rendered).mpr ⟨_, rfl, ?_⟩
  intro s hs hslips
  obtain rfl := List.mem_singleton.mp hs
  rw [Statement.slips_iff ⟨"select", List.mem_cons_self, List.prefix_rfl⟩] at hslips
  exact absurd hslips (by decide)

/-- The `DELETE` in a `WITH`. -/
theorem with_delete_rendered : ¬ RendersReadOnly := by
  intro h
  obtain ⟨s, hread, hmodifies⟩ := h Sample.host Sample.grammar .postgres Sample.withDelete "alice"
    Sample.withDelete [] Sample.documented Sample.withDelete_rendered
  cases hread
  cases hmodifies

end GraphPilot.Tools
