/-
The queries of database tools, of `engine/tools/executor.py`.

The template of a tool becomes the text of a query and its parameters: `{input}` is replaced
by the placeholder of the dialect, and the input of the tool is the parameter.  The text is
then checked, by the words it begins with and for semicolons.
-/
import GraphPilot.Python.Sequences
import Mathlib.Data.List.DropRight

namespace GraphPilot.Tools

open Python

/-- The words that a query may begin with. -/
def readOnlyWords : List String := ["select", "with", "show", "pragma"]

/-- The text functions of the host language. -/
structure Host where
  /-- `c.isspace()` -/
  isSpace : Char → Bool
  lower : String → String
  isSpace_mark : isSpace '$' = false ∧ isSpace '?' = false
  /-- no other characters have these letters in their lower case -/
  lower_word : ∀ text, ∀ w ∈ readOnlyWords,
    w.toList <+: (lower text).toList → w.toList <+: text.toList.map Char.toLower

/-- The two kinds of databases. -/
inductive Dialect where
  | postgres
  | sqlite

/-- The placeholder that `_execute_database_tool` passes on. -/
def Dialect.placeholder : Dialect → String
  | .postgres => "$1"
  | .sqlite => "?"

section Text

variable (host : Host)

/-- `s.lstrip()`. -/
def lstrip (s : String) : String := String.ofList (s.toList.dropWhile host.isSpace)

/-- `s.strip()`. -/
def strip (s : String) : String :=
  String.ofList ((s.toList.dropWhile host.isSpace).rdropWhile host.isSpace)

/-- `s.rstrip(";")`. -/
def rstripSemicolons (s : String) : String :=
  String.ofList (s.toList.rdropWhile (· = ';'))

/-- `part in s`. -/
def contains (part s : String) : Bool := (cut part.toList s.toList).isSome

/-- `s.replace(old, new)`. -/
def replace (old new s : String) : String :=
  String.ofList (new.toList.intercalate (splitMax old.toList s.toList.length s.toList))

end Text

section Render

variable (host : Host)

def inputMark : String := "\x7binput\x7d"

/-- The template with the placeholder for each `{input}`. -/
def bindInput (queryTemplate placeholder : String) : String :=
  let query := strip host queryTemplate
  if contains inputMark query then replace inputMark placeholder query else query

/-- The parameters of the query. -/
def inputParams (queryTemplate toolInput : String) : List String :=
  if contains inputMark (strip host queryTemplate) then [toolInput] else []

/-- `_render_read_only_query`, or the text of its `ValueError`. -/
def renderReadOnlyQuery (queryTemplate toolInput placeholder : String) :
    Except String (String × List String) :=
  let query := bindInput host queryTemplate placeholder
  let params := inputParams host queryTemplate toolInput
  let lowered := host.lower (lstrip host query)
  if !(readOnlyWords.any fun w => w.toList.isPrefixOf lowered.toList) then
    .error "Only read-only database queries are allowed"
  else if (rstripSemicolons query).toList.contains ';' then
    .error "Multiple SQL statements are not allowed"
  else pure (query, params)

end Render

/-- The checks of a query that has been rendered. -/
theorem renderReadOnlyQuery_eq_ok {host : Host}
    {queryTemplate toolInput placeholder query : String} {params : List String} :
    renderReadOnlyQuery host queryTemplate toolInput placeholder = .ok (query, params) ↔
      query = bindInput host queryTemplate placeholder ∧
      params = inputParams host queryTemplate toolInput ∧
      (∃ w ∈ readOnlyWords, w.toList <+: (host.lower (lstrip host query)).toList) ∧
      ';' ∉ (rstripSemicolons query).toList := by
  unfold renderReadOnlyQuery
  dsimp only
  have hwords : ∀ text : String,
      (readOnlyWords.any fun w => w.toList.isPrefixOf text.toList) = true ↔
        ∃ w ∈ readOnlyWords, w.toList <+: text.toList := by
    intro text
    rw [List.any_eq_true]
    simp only [List.isPrefixOf_iff_prefix]
  constructor
  · intro h
    split at h
    · cases h
    rename_i hbegins
    split at h
    · cases h
    rename_i hsemicolon
    obtain ⟨rfl, rfl⟩ := Prod.mk.inj (Except.ok.inj h)
    rw [Bool.not_eq_true, Bool.not_eq_false'] at hbegins
    rw [List.contains_iff_mem] at hsemicolon
    exact ⟨rfl, rfl, (hwords _).mp hbegins, hsemicolon⟩
  · rintro ⟨hquery, hparams, hbegins, hsemicolon⟩
    rw [hquery] at hbegins hsemicolon ⊢
    rw [← List.contains_iff_mem] at hsemicolon
    rw [hparams, (hwords _).mpr hbegins, if_neg (by decide), if_neg hsemicolon]
    rfl

namespace Sample

theorem lower_word (text : String) : ∀ w ∈ readOnlyWords,
    w.toList <+: (String.ofList (text.toList.map Char.toLower)).toList →
      w.toList <+: text.toList.map Char.toLower := by
  intro w _ h
  rwa [String.toList_ofList] at h

theorem isWhitespace_mark : '$'.isWhitespace = false ∧ '?'.isWhitespace = false := ⟨rfl, rfl⟩

def host : Host :=
  ⟨Char.isWhitespace, fun text => String.ofList (text.toList.map Char.toLower), isWhitespace_mark,
    lower_word⟩

end Sample

end GraphPilot.Tools
