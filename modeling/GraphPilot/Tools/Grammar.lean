/-
What a database reads in a text.

The grammars of the databases are not part of this repository: a `Grammar` reads a text as the
statements in it, string literals, quoted identifiers and comments taken into account, and
`Grammar.Documented` is what is documented of every such grammar: a statement begins with
its key word, and between two statements there is a semicolon.

`Statement.modifies` is what may write a table or a setting.
-/
import Mathlib.Data.List.Basic

namespace GraphPilot.Tools

/-! ### Statements -/

/-- The statements that change rows. -/
inductive Change where
  | insert
  | update
  | delete
  | merge
  | replace

def Change.word : Change → String
  | .insert => "insert"
  | .update => "update"
  | .delete => "delete"
  | .merge => "merge"
  | .replace => "replace"

/-- What may stand in parentheses or in a `WITH`, with the queries that it contains and the
functions that it calls itself. -/
inductive Query where
  /-- `SELECT`, with or without an `INTO` that names a new table -/
  | select (into : Bool) (calls : List String) (queries : List Query)
  | values (calls : List String) (queries : List Query)
  | table (calls : List String) (queries : List Query)
  /-- the queries of a `WITH`, and the statement they are for -/
  | withQueries (queries : List Query) (main : Query)
  | change (kind : Change) (queries : List Query)

/-- The words of all other commands. -/
def commandWords : List String := [
  "abort", "alter", "analyse", "analyze", "attach", "begin", "call", "checkpoint", "close",
  "cluster", "comment", "commit", "copy", "create", "deallocate", "declare", "detach", "discard",
  "do", "drop", "end", "execute", "explain", "fetch", "grant", "import", "listen", "load", "lock",
  "move", "notify", "prepare", "reassign", "refresh", "reindex", "release", "reset", "revoke",
  "rollback", "savepoint", "security", "set", "start", "truncate", "unlisten", "vacuum"]

/-- One of the other commands. -/
abbrev Command : Type := { word : String // word ∈ commandWords }

/-- A statement of a text. -/
inductive Statement where
  | query (q : Query)
  | showSetting (setting : String)
  /-- `PRAGMA`; it assigns when it has a value to set, or when it writes by itself -/
  | pragma (name : String) (assigns : Bool)
  | command (word : Command) (modifies : Bool)

def Query.word : Query → String
  | .select _ _ _ => "select"
  | .values _ _ => "values"
  | .table _ _ => "table"
  | .withQueries _ _ => "with"
  | .change kind _ => kind.word

/-- The word that a statement begins with. -/
def Statement.word : Statement → String
  | .query q => q.word
  | .showSetting _ => "show"
  | .pragma _ _ => "pragma"
  | .command word _ => word.val

/-! ### Writing -/

mutual

/-- The query, and all that it contains. -/
def Query.parts : Query → List Query
  | .select into calls queries => .select into calls queries :: Query.partsAll queries
  | .values calls queries => .values calls queries :: Query.partsAll queries
  | .table calls queries => .table calls queries :: Query.partsAll queries
  | .withQueries queries main => .withQueries queries main :: (main.parts ++ Query.partsAll queries)
  | .change kind queries => .change kind queries :: Query.partsAll queries

def Query.partsAll : List Query → List Query
  | [] => []
  | q :: queries => q.parts ++ Query.partsAll queries

end

/-- The query writes, whatever it contains; `writer` are the functions that do. -/
def Query.writes (writer : String → Bool) : Query → Bool
  | .select into calls _ => into || calls.any writer
  | .values calls _ => calls.any writer
  | .table calls _ => calls.any writer
  | .withQueries _ _ => false
  | .change _ _ => true

/-- The statement may write a table or a setting. -/
def Statement.modifies (writer : String → Bool) : Statement → Bool
  | .query q => q.parts.any (Query.writes writer)
  | .showSetting _ => false
  | .pragma _ assigns => assigns
  | .command _ modifies => modifies

/-! ### Grammars -/

/-- The grammar of a database: the statements of a text, unless this has a syntax error, and
the functions that write. -/
structure Grammar where
  read : String → Option (List Statement)
  writer : String → Bool

/-- A character of an identifier or a key word. -/
def isIdent (c : Char) : Bool := c.isAlphanum || c = '_' || c = '$' || 128 ≤ c.toNat

/-- The word at the beginning of a text, in lower case. -/
def firstWord (text : String) : String :=
  String.ofList ((text.toList.takeWhile isIdent).map Char.toLower)

/-- What is documented of the grammars. -/
structure Grammar.Documented (g : Grammar) : Prop where
  leading : ∀ text c cs statements, text.toList = c :: cs → c.isAlpha = true →
    g.read text = some statements → ∃ s rest, statements = s :: rest ∧ s.word = firstWord text
  separated : ∀ text s s' rest, g.read text = some (s :: s' :: rest) →
    ∃ before after, text.toList = before ++ ';' :: after ∧ ∃ c ∈ after, c ≠ ';'

/-- The text is one statement, which modifies nothing. -/
def ReadOnly (g : Grammar) (text : String) : Prop :=
  ∃ s, g.read text = some [s] ∧ s.modifies g.writer = false

end GraphPilot.Tools
