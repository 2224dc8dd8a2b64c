/-
Which queries get the parameters that they ask for.

There is one value, the input of the tool, as soon as a template has an `{input}`, and none
else.  In SQLite every `?` asks for a value of its own, so a template with two of them gets
too few (`two_inputs_unbound`); and an `{input}` in a literal asks for none.

* `segments`, `bindInput_eq` — the template without its `{input}`s;
* `Bound` — a query gets what it asks for, and the input where `{input}` was;
* `OneInput` — the templates of which that holds;
* `bound_iff` — for any division of the query into tokens.
-/
import GraphPilot.Tools.Parameters

namespace GraphPilot.Tools

open Python

section Binding

variable {d : Dialect} {scanner : Scanner d} {host : Host}
  {queryTemplate toolInput query : String} {params : List String}

/-! ### Templates -/

/-- What is between the `{input}`s of a template. -/
def segments (host : Host) (queryTemplate : String) : List (List Char) :=
  splitMax inputMark.toList (strip host queryTemplate).toList.length
    (strip host queryTemplate).toList

/-- The places of the placeholders, between segments that begin at `place`. -/
def places (placeholder : List Char) : ℕ → List (List Char) → List ℕ
  | _, [] => []
  | _, [_] => []
  | place, segment :: segments =>
    (place + segment.length) ::
      places placeholder (place + segment.length + placeholder.length) segments

/-- A template, as a database reads it. -/
def reading (scanner : Scanner d) (host : Host) (queryTemplate : String) : List Token :=
  scanner.scan (d.placeholder.toList.intercalate (segments host queryTemplate))

/-- The placeholder at a place is within a literal, or whatever else is quoted. -/
def Within (d : Dialect) (tokens : List Token) (place : ℕ) : Prop :=
  ∃ text n i, locate (annotate d .start tokens) place = some ((.quoted text, n), i) ∧
    i + d.placeholder.toList.length ≤ text.length

/-- The placeholder at a place is a parameter, with this number. -/
def IsParameter (d : Dialect) (tokens : List Token) (place n : ℕ) : Prop :=
  locate (annotate d .start tokens) place = some ((.parameter d.placeholder.toList, n), 0)

/-- A query gets the values that it asks for, and the input of the tool at every place where the
template has `{input}` outside literals; its text does not depend on the input. -/
structure Bound (scanner : Scanner d) (host : Host) (queryTemplate toolInput query : String)
    (params : List String) : Prop where
  independent : ∀ otherInput, ∃ otherParams,
    renderReadOnlyQuery host queryTemplate otherInput d.placeholder = .ok (query, otherParams)
  complete : required d (scanner.scan query.toList) = params.length
  bound : ∀ place ∈ places d.placeholder.toList 0 (segments host queryTemplate),
    Within d (scanner.scan query.toList) place ∨
      ∃ i, IsParameter d (scanner.scan query.toList) place (i + 1) ∧ params[i]? = some toolInput

/-- Every `{input}` of the template stands by itself or within a literal.  If there is one, one
value is asked for: one parameter is new, be it an `{input}` or written in the template, and
the others repeat it.  If there is none, the template has no parameters. -/
structure OneInput (scanner : Scanner d) (host : Host) (queryTemplate : String) : Prop where
  stands : ∀ place ∈ places d.placeholder.toList 0 (segments host queryTemplate),
    Within d (reading scanner host queryTemplate) place ∨
      ∃ n, IsParameter d (reading scanner host queryTemplate) place n
  one : 1 < (segments host queryTemplate).length →
    OneValue (refs d (reading scanner host queryTemplate))
  none : (segments host queryTemplate).length = 1 →
    refs d (reading scanner host queryTemplate) = []

/-- The claim that every query gets its parameters. -/
def BindsParameters : Prop :=
  ∀ (host : Host) (d : Dialect) (scanner : Scanner d) (queryTemplate toolInput query : String)
    (params : List String),
      renderReadOnlyQuery host queryTemplate toolInput d.placeholder = .ok (query, params) →
        Bound scanner host queryTemplate toolInput query params

theorem splitMax_ne_nil (sep : List Char) (n : ℕ) (xs : List Char) : splitMax sep n xs ≠ [] := by
  cases n with
  | zero => exact List.cons_ne_nil _ _
  | succ n =>
    rw [splitMax]
    split
    · exact List.cons_ne_nil _ _
    · exact List.cons_ne_nil _ _

/-- A text contains the separator just when it is cut. -/
theorem one_lt_length_splitMax {sep xs : List Char} :
    1 < (splitMax sep xs.length xs).length ↔ (cut sep xs).isSome = true := by
  cases xs with
  | nil =>
    constructor
    · intro h
      exact absurd h (Nat.lt_irrefl 1)
    · intro h
      cases h
  | cons x xs =>
    rw [List.length_cons, splitMax]
    cases hcut : cut sep (x :: xs) with
    | none =>
      constructor
      · intro h
        exact absurd h (Nat.lt_irrefl 1)
      · intro h
        cases h
    | some y =>
      obtain ⟨a, b⟩ := y
      dsimp only
      have hpos := List.length_pos_of_ne_nil (splitMax_ne_nil sep xs.length b)
      rw [List.length_cons]
      exact ⟨fun _ => rfl, fun _ => by omega⟩

theorem contains_iff : contains inputMark (strip host queryTemplate) = true ↔
    1 < (segments host queryTemplate).length := one_lt_length_splitMax.symm

/-- The text of a query is the segments with the placeholder between them. -/
theorem bindInput_eq (host : Host) (queryTemplate placeholder : String) :
    (bindInput host queryTemplate placeholder).toList =
      placeholder.toList.intercalate (segments host queryTemplate) := by
  unfold bindInput
  dsimp only
  split
  · unfold replace
    rw [String.toList_ofList]
    rfl
  · -- nothing is cut
    rename_i hno
    unfold contains at hno
    rw [Bool.not_eq_true, Option.isSome_eq_false_iff, Option.isNone_iff_eq_none] at hno
    unfold segments
    cases hlength : (strip host queryTemplate).toList.length with
    | zero =>
      rw [splitMax, List.intercalate_singleton]
    | succ n =>
      rw [splitMax, hno]
      dsimp only
      rw [List.intercalate_singleton]

theorem inputParams_eq (host : Host) (queryTemplate toolInput : String) :
    inputParams host queryTemplate toolInput =
      if 1 < (segments host queryTemplate).length then [toolInput] else [] := by
  unfold inputParams
  by_cases h : contains inputMark (strip host queryTemplate) = true
  · rw [if_pos h, if_pos (contains_iff.mp h)]
  · rw [if_neg h, if_neg fun hlt => h (contains_iff.mpr hlt)]

/-! ### Queries -/

/-- The numbers of parameters begin with one. -/
theorem refs_pos (scanner : Scanner d) (text : List Char) :
    ∀ r ∈ refs d (scanner.scan text), ∀ n, r = .numbered n → 0 < n := by
  intro r hr n hn
  obtain ⟨token, htoken, href⟩ := List.mem_filterMap.mp hr
  cases token with
  | parameter t =>
    refine scanner.positive text t n htoken ?_
    rw [← hn]
    exact Option.some.inj href
  | quoted t => cases href
  | other t => cases href

/-- Where one value is asked for, a placeholder that is a parameter has the number one. -/
theorem number_eq_one {text : List Char} {place n : ℕ}
    (hone : required d (scanner.scan text) = 1)
    (h : IsParameter d (scanner.scan text) place n) : n = 1 := by
  have hbounded : Numbering.start.Bounded := fun x hx => absurd hx List.not_mem_nil
  obtain ⟨⟨s, hs⟩, hle⟩ := mem_annotate hbounded (mem_of_locate h)
  have hle : n ≤ 1 := hone ▸ hle
  have hge : 1 ≤ n := by
    rw [hs]
    cases d with
    | postgres => exact Nat.le_refl 1
    | sqlite => exact Nat.le_add_left 1 _
  omega

/-- **A query gets its parameters just when its template has one `{input}` in effect.** -/
theorem bound_iff
    (h : renderReadOnlyQuery host queryTemplate toolInput d.placeholder = .ok (query, params)) :
    Bound scanner host queryTemplate toolInput query params ↔
      OneInput scanner host queryTemplate := by
  obtain ⟨hquery, hparams, hwords, hsemicolons⟩ := renderReadOnlyQuery_eq_ok.mp h
  have hreading : scanner.scan query.toList = reading scanner host queryTemplate := by
    rw [hquery, bindInput_eq]
    rfl
  have hpos := refs_pos scanner query.toList
  rw [inputParams_eq] at hparams
  constructor
  · rintro ⟨-, hcomplete, hbound⟩
    rw [hreading] at hcomplete hbound hpos
    refine ⟨?_, ?_, ?_⟩
    · intro place hplace
      rcases hbound place hplace with hwithin | ⟨i, hparameter, -⟩
      · exact Or.inl hwithin
      · exact Or.inr ⟨i + 1, hparameter⟩
    · intro hlength
      rw [hparams, if_pos hlength] at hcomplete
      exact (after_eq_one_iff hpos).mp hcomplete
    · intro hlength
      rw [hparams, if_neg (by omega)] at hcomplete
      exact (after_eq_zero hpos).mp hcomplete
  · rintro ⟨hstands, hone, hnone⟩
    rw [← hreading] at hstands hone hnone
    refine ⟨?_, ?_, ?_⟩
    · intro otherInput
      exact ⟨_, renderReadOnlyQuery_eq_ok.mpr ⟨hquery, rfl, hwords, hsemicolons⟩⟩
    · rw [hparams]
      split
      · rename_i hlength
        exact (after_eq_one_iff hpos).mpr (hone hlength)
      · rename_i hlength
        have hpositive := List.length_pos_of_ne_nil (splitMax_ne_nil inputMark.toList
          (strip host queryTemplate).toList.length (strip host queryTemplate).toList)
        have hlength : (segments host queryTemplate).length = 1 := by
          unfold segments at hlength ⊢
          omega
        exact (after_eq_zero hpos).mpr (hnone hlength)
    · intro place hplace
      rcases hstands place hplace with hwithin | ⟨n, hparameter⟩
      · exact Or.inl hwithin
      · -- there is a place, so there is an input
        have hlength : 1 < (segments host queryTemplate).length := by
          by_contra hshort
          revert hplace
          generalize segments host queryTemplate = segments at hshort
          intro hplace
          cases segments with
          | nil => cases hplace
          | cons segment segments =>
            cases segments with
            | nil => cases hplace
            | cons _ _ =>
              rw [List.length_cons, List.length_cons] at hshort
              omega
        have hrequired := (after_eq_one_iff hpos).mpr (hone hlength)
        have hn := number_eq_one hrequired hparameter
        rw [hn] at hparameter
        refine Or.inr ⟨0, hparameter, ?_⟩
        rw [hparams, if_pos hlength]
        rfl

end Binding

namespace Sample

/-- A character of a query without literals. -/
def tokenOf (c : Char) : Token := if c = '?' then .parameter [c] else .other [c]

theorem text_tokenOf (c : Char) : (tokenOf c).text = [c] := by
  unfold tokenOf
  split
  · rfl
  · rfl

theorem texts_tokenOf (text : List Char) : (text.map tokenOf).flatMap Token.text = text := by
  induction text with
  | nil => rfl
  | cons c text ih => rw [List.map_cons, List.flatMap_cons, ih, text_tokenOf, List.singleton_append]

theorem positive_tokenOf (text t : List Char) (n : ℕ) (ht : .parameter t ∈ text.map tokenOf)
    (hn : Dialect.sqlite.ref t = .numbered n) : 0 < n := by
  obtain ⟨c, -, hc⟩ := List.mem_map.mp ht
  unfold tokenOf at hc
  split at hc
  · rename_i hmark
    rw [← Token.parameter.inj hc, hmark] at hn
    cases hn
  · cases hc

/-- SQLite, on queries without literals. -/
def scanner : Scanner .sqlite := ⟨List.map tokenOf, texts_tokenOf, positive_tokenOf⟩

def one : String := "SELECT {input}"

def two : String := "SELECT {input},{input}"

theorem one_rendered :
    renderReadOnlyQuery host one "a" Dialect.sqlite.placeholder = .ok ("SELECT ?", ["a"]) := by
  with_unfolding_all rfl

theorem two_rendered :
    renderReadOnlyQuery host two "a" Dialect.sqlite.placeholder = .ok ("SELECT ?,?", ["a"]) := by
  with_unfolding_all rfl

end Sample

theorem bound_iff_one : Bound Sample.scanner Sample.host Sample.one "a" "SELECT ?" ["a"] ↔
    OneInput Sample.scanner Sample.host Sample.one :=
  bound_iff Sample.one_rendered

/-- A template with two inputs, in SQLite. -/
theorem two_inputs_unbound : ¬ BindsParameters := by
  intro h
  have hcomplete :=
    (h Sample.host .sqlite Sample.scanner Sample.two "a" _ _ Sample.two_rendered).complete
  have hrequired : required .sqlite (Sample.scanner.scan "SELECT ?,?".toList) = 2 := by
    with_unfolding_all rfl
  rw [hrequired] at hcomplete
  cases hcomplete

end GraphPilot.Tools
