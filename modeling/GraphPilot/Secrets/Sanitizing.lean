/-
Redaction of free text: `sanitize_error` in `services/connector_security.py`.

What follows `bearer` is replaced first, then what is assigned to one of the secret words.

* `bearer_sub_eq`, `assignment_sub_eq` — both expressions may be matched without ways back;
* `settled_left`, `settled_secret` — in which texts their heads do not depend on what follows.
-/
import GraphPilot.Python.Patterns
import GraphPilot.Secrets.Redaction
import Mathlib

namespace GraphPilot.Secrets

open Python.Regex

/-- Texts as Python has them, and what the documentation says of ASCII. -/
structure Host where
  /-- `str.lower` -/
  lower : String → String
  /-- `\s` -/
  isSpace : Char → Bool
  /-- `\w` -/
  isWord : Char → Bool
  /-- a character of an expression matches a character, under `re.IGNORECASE` -/
  agrees : Char → Char → Bool
  lower_ascii : ∀ text : String, (∀ c ∈ text.toList, c.toNat < 128) →
    (lower text).toList = text.toList.map Char.toLower
  isSpace_blank : isSpace ' ' = true
  isSpace_visible : ∀ c : Char, 33 ≤ c.toNat → c.toNat < 127 → isSpace c = false
  isWord_ascii : ∀ c : Char, c.toNat < 128 → isWord c = (c.isAlphanum || c = '_')
  agrees_ascii : ∀ p c : Char, p.toNat < 128 → c.toNat < 128 →
    agrees p c = decide (p.toLower = c.toLower)
  /-- two characters of an expression that match one character differ in case at most -/
  agrees_unique : ∀ p q c : Char, p.toNat < 128 → q.toNat < 128 → agrees p c = true →
    agrees q c = true → p.toLower = q.toLower
  /-- no visible character is the lower case of a space -/
  agrees_visible : ∀ p c : Char, 33 ≤ p.toNat → p.toNat < 127 → agrees p c = true →
    isSpace c = false

/-- The words of `_SECRET_ASSIGNMENT_RE`. -/
def assignmentWords : List String := [
  "authorization", "cookie", "password", "secret", "token", "api_key", "apikey", "access_key",
  "private_key", "x-api-key"]

/-- `[A-Za-z0-9._~+/=-]`, under `re.IGNORECASE`. -/
def tokenCharacters : List Char := "abcdefghijklmnopqrstuvwxyz0123456789._~+/=-".toList

/-- `["']` -/
def isQuote (c : Char) : Bool := c = '"' || c = '\''

/-- `[:=]` -/
def isAssign (c : Char) : Bool := c = ':' || c = '='

/-- `****` -/
def stars : List Char := ['*', '*', '*', '*']

/-- `Bearer ****` -/
def bearerStars : List Char := ['B', 'e', 'a', 'r', 'e', 'r', ' ', '*', '*', '*', '*']

section Expressions

variable (host : Host)

def isToken (c : Char) : Bool := tokenCharacters.any fun p => host.agrees p c

/-- `[^"'\s,;}{]` -/
def isValue (c : Char) : Bool :=
  !(isQuote c || host.isSpace c || ",;\x7d\x7b".toList.contains c)

/-- `\b` -/
def boundary (before after : Option Char) : Bool :=
  before.any host.isWord != after.any host.isWord

/-- `_BEARER_RE`, with its replacement. -/
def bearerRe : Expression Char where
  starts _ _ := true
  head := seq (literal host.agrees "bearer".toList) (atLeastOne host.isSpace)
  run := isToken host
  repl _ := bearerStars

/-- `_SECRET_ASSIGNMENT_RE`, with its replacement. -/
def secretAssignmentRe : Expression Char where
  starts := boundary host
  head :=
    seq (either (assignmentWords.map fun word => literal host.agrees word.toList))
      (seq (optional isQuote) (seq (many host.isSpace) (seq (one isAssign)
        (seq (many host.isSpace) (optional isQuote)))))
  run := isValue host
  repl head := head ++ stars

/-- `sanitize_error`, of a text. -/
def sanitizeError (message : String) : String :=
  String.ofList ((secretAssignmentRe host).sub none ((bearerRe host).sub none message.toList))

end Expressions

/-! ### Characters -/

/-- A letter, a digit, an underscore or a hyphen. -/
def isIdentifier (c : Char) : Bool := c.isAlphanum || c = '_' || c = '-'

/-- The characters of the words, and of `bearer`. -/
def letters : List Char := "bearer".toList ++ assignmentWords.flatMap String.toList

/-- ASCII characters that are in no word. -/
def signs : List Char := " \"',;\x7d\x7b:=*!#".toList

/-- The signs that stand before a value, and that end what is replaced. -/
def anchors : List Char := [':', '=', '*']

section Characters

variable {host : Host} {c p d : Char}

theorem identifier_ascii (h : isIdentifier c = true) : c.toNat < 128 := by
  rw [isIdentifier, Bool.or_eq_true, Bool.or_eq_true, decide_eq_true_iff, decide_eq_true_iff] at h
  rcases h with (h | rfl) | rfl
  · simp only [Char.isAlphanum, Char.isAlpha, Char.isUpper, Char.isLower, Char.isDigit,
      Bool.or_eq_true, Bool.and_eq_true, decide_eq_true_iff, ge_iff_le, UInt32.le_iff_toNat_le] at h
    show c.val.toNat < 128
    have h1 : 'Z'.val.toNat = 90 := rfl
    have h2 : 'z'.val.toNat = 122 := rfl
    have h3 : '9'.val.toNat = 57 := rfl
    omega
  · decide
  · decide

theorem letters_spec : ∀ p ∈ letters, 33 ≤ p.toNat ∧ p.toNat < 127 ∧ p.toLower = p ∧
    p ∈ tokenCharacters :=
  List.all_iff_forall_prop.mp (by decide)

theorem signs_spec (hp : p ∈ letters) : ∀ d ∈ signs, d.toNat < 128 ∧ p.toLower ≠ d.toLower := by
  have hall : letters.all (fun p => signs.all fun d =>
      decide (d.toNat < 128 ∧ p.toLower ≠ d.toLower)) = true := by
    decide
  exact List.all_iff_forall_prop.mp (List.all_eq_true.mp hall p hp)

theorem mem_letters_of_word {word : String} (hword : word ∈ assignmentWords)
    (hp : p ∈ word.toList) : p ∈ letters :=
  List.mem_append_right _ (List.mem_flatMap.mpr ⟨word, hword, hp⟩)

theorem agrees_sign (hp : p ∈ letters) (hd : d ∈ signs) : host.agrees p d = false := by
  obtain ⟨-, hlt, -, -⟩ := letters_spec p hp
  obtain ⟨hascii, hne⟩ := signs_spec hp d hd
  rw [host.agrees_ascii p d (by omega) hascii]
  exact decide_eq_false hne

theorem not_sign (hp : p ∈ letters) (h : host.agrees p c = true) : c ∉ signs := by
  intro hc
  rw [agrees_sign hp hc] at h
  cases h

theorem agrees_unique (hp : p ∈ letters) (hd : d ∈ letters) (h : host.agrees p c = true)
    (h' : host.agrees d c = true) : p = d := by
  obtain ⟨-, hlt, hlower, -⟩ := letters_spec p hp
  obtain ⟨-, hlt', hlower', -⟩ := letters_spec d hd
  rw [← hlower, ← hlower']
  exact host.agrees_unique p d c (by omega) (by omega) h h'

theorem mem_signs_of_quote (h : isQuote c = true) : c ∈ signs := by
  rw [isQuote, Bool.or_eq_true, decide_eq_true_iff, decide_eq_true_iff] at h
  rcases h with rfl | rfl <;> decide

theorem mem_signs_of_assign (h : isAssign c = true) : c ∈ signs := by
  rw [isAssign, Bool.or_eq_true, decide_eq_true_iff, decide_eq_true_iff] at h
  rcases h with rfl | rfl <;> decide

theorem mem_signs_of_excluded (h : ",;\x7d\x7b".toList.contains c = true) : c ∈ signs := by
  have hall : ",;\x7d\x7b".toList.all (fun c => decide (c ∈ signs)) = true := by
    decide
  exact List.all_iff_forall_prop.mp hall c (List.contains_iff_mem.mp h)

theorem isValue_iff : isValue host c = true ↔ isQuote c = false ∧ host.isSpace c = false ∧
    ",;\x7d\x7b".toList.contains c = false := by
  rw [isValue, Bool.not_eq_true', Bool.or_eq_false_iff, Bool.or_eq_false_iff, and_assoc]

/-- What matches a character of the words may be part of a value. -/
theorem value_of_agrees (hp : p ∈ letters) (h : host.agrees p c = true) :
    isValue host c = true := by
  obtain ⟨hge, hlt, -, -⟩ := letters_spec p hp
  have hsign := not_sign hp h
  rw [isValue_iff]
  refine ⟨?_, host.agrees_visible p c hge hlt h, ?_⟩
  · rw [Bool.eq_false_iff]
    exact fun hquote => hsign (mem_signs_of_quote hquote)
  · rw [Bool.eq_false_iff]
    exact fun hexcluded => hsign (mem_signs_of_excluded hexcluded)

theorem token_of_agrees (hp : p ∈ letters) (h : host.agrees p c = true) :
    isToken host c = true :=
  List.any_eq_true.mpr ⟨p, (letters_spec p hp).2.2.2, h⟩

theorem tokenCharacters_spec : ∀ p ∈ tokenCharacters, 33 ≤ p.toNat ∧ p.toNat < 127 :=
  List.all_iff_forall_prop.mp (by decide)

/-- No character of a token is a space. -/
theorem space_of_token (h : isToken host c = true) : host.isSpace c = false := by
  obtain ⟨p, hp, hagrees⟩ := List.any_eq_true.mp h
  obtain ⟨hge, hlt⟩ := tokenCharacters_spec p hp
  exact host.agrees_visible p c hge hlt hagrees

theorem not_token (hd : d ∈ [':', '*', '!', '#']) : isToken host d = false := by
  have hall : [':', '*', '!', '#'].all (fun d => tokenCharacters.all fun p =>
      decide (d.toNat < 128 ∧ p.toLower ≠ d.toLower)) = true := by
    decide
  have hspec := List.all_iff_forall_prop.mp (List.all_eq_true.mp hall d hd)
  rw [Bool.eq_false_iff]
  intro h
  obtain ⟨p, hp, hagrees⟩ := List.any_eq_true.mp h
  obtain ⟨-, hlt⟩ := tokenCharacters_spec p hp
  rw [host.agrees_ascii p d (by omega) (hspec p hp).1, decide_eq_true_iff] at hagrees
  exact (hspec p hp).2 hagrees

theorem quote_not_space (h : isQuote c = true) : host.isSpace c = false := by
  rw [isQuote, Bool.or_eq_true, decide_eq_true_iff, decide_eq_true_iff] at h
  rcases h with rfl | rfl
  · exact host.isSpace_visible _ (by decide) (by decide)
  · exact host.isSpace_visible _ (by decide) (by decide)

theorem assign_not_space (h : isAssign c = true) : host.isSpace c = false := by
  rw [isAssign, Bool.or_eq_true, decide_eq_true_iff, decide_eq_true_iff] at h
  rcases h with rfl | rfl
  · exact host.isSpace_visible _ (by decide) (by decide)
  · exact host.isSpace_visible _ (by decide) (by decide)

theorem identifiers_spec : ∀ n < 128, isIdentifier (Char.ofNat n) = true →
    33 ≤ (Char.ofNat n).toNat ∧ (Char.ofNat n).toNat < 127 ∧ Char.ofNat n ∉ signs ∧
      (Char.ofNat n).toLower ∈ tokenCharacters ∧
        (Char.ofNat n).toLower.toLower = (Char.ofNat n).toLower := by
  decide

theorem identifier_spec (h : isIdentifier c = true) : 33 ≤ c.toNat ∧ c.toNat < 127 ∧ c ∉ signs ∧
    c.toLower ∈ tokenCharacters ∧ c.toLower.toLower = c.toLower := by
  have hspec := identifiers_spec c.toNat (identifier_ascii h)
  rw [Char.ofNat_toNat] at hspec
  exact hspec h

theorem identifier_token (h : isIdentifier c = true) : isToken host c = true := by
  obtain ⟨-, hlt, -, hmem, hlower⟩ := identifier_spec h
  obtain ⟨-, hlt'⟩ := tokenCharacters_spec _ hmem
  refine List.any_eq_true.mpr ⟨c.toLower, hmem, ?_⟩
  rw [host.agrees_ascii _ c (by omega) (by omega)]
  exact decide_eq_true hlower

theorem identifier_not_space (h : isIdentifier c = true) : host.isSpace c = false := by
  obtain ⟨hge, hlt, -, -⟩ := identifier_spec h
  exact host.isSpace_visible c hge hlt

theorem identifier_not_quote (h : isIdentifier c = true) : isQuote c = false := by
  obtain ⟨-, -, hsign, -⟩ := identifier_spec h
  rw [Bool.eq_false_iff]
  exact fun hquote => hsign (mem_signs_of_quote hquote)

theorem identifier_not_assign (h : isIdentifier c = true) : isAssign c = false := by
  obtain ⟨-, -, hsign, -⟩ := identifier_spec h
  rw [Bool.eq_false_iff]
  exact fun hassign => hsign (mem_signs_of_assign hassign)

/-- The signs of a separator, the letters of a replaced token, and two marks. -/
theorem value_of_visible (h : c ∈ ":=Bear!#".toList) : isValue host c = true := by
  have hspec : ∀ c ∈ ":=Bear!#".toList, 33 ≤ c.toNat ∧ c.toNat < 127 ∧ isQuote c = false ∧
      ",;\x7d\x7b".toList.contains c = false :=
    List.all_iff_forall_prop.mp (by decide)
  obtain ⟨hge, hlt, hquote, hexcluded⟩ := hspec c h
  exact isValue_iff.mpr ⟨hquote, host.isSpace_visible c hge hlt, hexcluded⟩

theorem identifier_value (h : isIdentifier c = true) : isValue host c = true := by
  obtain ⟨-, -, hsign, -⟩ := identifier_spec h
  rw [isValue_iff]
  refine ⟨identifier_not_quote h, identifier_not_space h, ?_⟩
  rw [Bool.eq_false_iff]
  exact fun hexcluded => hsign (mem_signs_of_excluded hexcluded)

end Characters

/-! ### The expressions without ways back -/

section Patterns

variable (host : Host)

/-- `bearer\s+` -/
def bearerHead : Matcher Char :=
  seq (literal host.agrees "bearer".toList) (seq (one host.isSpace) (all host.isSpace))

/-- What stands between a secret word and the value. -/
def assignTail : Matcher Char :=
  seq (first isQuote) (seq (all host.isSpace) (seq (one isAssign)
    (seq (all host.isSpace) (first isQuote))))

def assignmentHead : Matcher Char :=
  seq (either (assignmentWords.map fun word => literal host.agrees word.toList))
    (assignTail host)

theorem bearerHead_eq : seq (bearerRe host).head (ahead (isToken host)) =
    seq (bearerHead host) (ahead (isToken host)) := by
  have hmany : seq (many host.isSpace) (ahead (isToken host)) =
      seq (all host.isSpace) (ahead (isToken host)) := by
    refine seq_many (refuses_ahead fun c hc => ?_)
    rw [Bool.eq_false_iff]
    intro htoken
    rw [space_of_token htoken] at hc
    cases hc
  show seq (seq _ (seq _ _)) _ = seq (seq _ (seq _ _)) _
  rw [seq_assoc, seq_assoc, seq_assoc, seq_assoc, hmany]

theorem quote_not_value {c : Char} (h : isQuote c = true) : isValue host c = false := by
  rw [isValue, h]
  rfl

theorem space_not_value {c : Char} (h : host.isSpace c = true) : isValue host c = false := by
  rw [isValue, h, Bool.or_true]
  rfl

theorem space_not_quote {c : Char} (h : host.isSpace c = true) : isQuote c = false := by
  rw [Bool.eq_false_iff]
  intro hquote
  rw [quote_not_space hquote] at h
  cases h

theorem space_not_assign {c : Char} (h : host.isSpace c = true) : isAssign c = false := by
  rw [Bool.eq_false_iff]
  intro hassign
  rw [assign_not_space hassign] at h
  cases h

theorem quote_not_assign {c : Char} (h : isQuote c = true) : isAssign c = false := by
  rw [isQuote, Bool.or_eq_true, decide_eq_true_iff, decide_eq_true_iff] at h
  rcases h with rfl | rfl <;> rfl

theorem assignmentHead_eq : seq (secretAssignmentRe host).head (ahead (isValue host)) =
    seq (assignmentHead host) (ahead (isValue host)) := by
  -- from the end: what follows a piece refuses what the piece could leave
  have hlast : seq (optional isQuote) (ahead (isValue host)) =
      seq (first isQuote) (ahead (isValue host)) :=
    seq_optional (refuses_ahead fun c hc => quote_not_value host hc)
  have hspaces : seq (many host.isSpace) (seq (optional isQuote) (ahead (isValue host))) =
      seq (all host.isSpace) (seq (optional isQuote) (ahead (isValue host))) :=
    seq_many (refuses_optional (fun c hc => space_not_quote host hc)
      (refuses_ahead fun c hc => space_not_value host hc))
  have hfront : seq (many host.isSpace) (seq (one isAssign)
        (seq (all host.isSpace) (seq (first isQuote) (ahead (isValue host))))) =
      seq (all host.isSpace) (seq (one isAssign)
        (seq (all host.isSpace) (seq (first isQuote) (ahead (isValue host))))) :=
    seq_many (refuses_seq (refuses_one fun c hc => space_not_assign host hc))
  have hquote : seq (optional isQuote) (seq (many host.isSpace) (seq (one isAssign)
        (seq (all host.isSpace) (seq (first isQuote) (ahead (isValue host)))))) =
      seq (first isQuote) (seq (many host.isSpace) (seq (one isAssign)
        (seq (all host.isSpace) (seq (first isQuote) (ahead (isValue host)))))) :=
    seq_optional (refuses_many (fun c hc => quote_not_space hc)
      (refuses_seq (refuses_one fun c hc => quote_not_assign hc)))
  show seq (seq _ (seq _ (seq _ (seq _ (seq _ _))))) _ =
    seq (seq _ (seq _ (seq _ (seq _ (seq _ _))))) _
  simp only [seq_assoc]
  rw [hspaces, hlast, hquote, hfront]

theorem bearerHead_single : ∀ s, (bearerHead host s).length ≤ 1 :=
  single_seq (single_literal _ _) (single_seq (single_one _) (single_all _))

theorem bearerHead_append : ∀ s, ∀ way ∈ bearerHead host s, way.1 ++ way.2 = s :=
  covers_seq (covers_literal _ _) (covers_seq (covers_one _) (covers_all _))

theorem bearerHead_first : ∀ s, ∀ way ∈ bearerHead host s,
    ∃ c x, way.1 = c :: x ∧ isToken host c = true := by
  intro s way hway
  obtain ⟨x, hx, y, -, rfl⟩ := mem_seq.mp hway
  obtain ⟨-, hword⟩ := (literal_spec _ _ _).mp hx
  obtain ⟨c, l, hc, -, hxc⟩ := List.forall₂_cons_left_iff.mp hword
  refine ⟨c, l ++ y.1, ?_, token_of_agrees (by decide) hc⟩
  rw [hxc]
  rfl

/-- `_BEARER_RE` without ways back. -/
def bearer : Pattern Char where
  toExpression := { bearerRe host with head := bearerHead host }
  head_single := bearerHead_single host
  head_append := bearerHead_append host
  head_first := bearerHead_first host

theorem assignTail_covers : Covers (assignTail host) :=
  covers_seq (covers_first _) (covers_seq (covers_all _) (covers_seq (covers_one _)
    (covers_seq (covers_all _) (covers_first _))))

theorem assignTail_single : Single (assignTail host) :=
  single_seq (single_first _) (single_seq (single_all _) (single_seq (single_one _)
    (single_seq (single_all _) (single_first _))))

theorem words_apart : assignmentWords.Pairwise fun word word' =>
    ¬ (word.toList <+: word'.toList ∨ word'.toList <+: word.toList) := by
  decide

/-- No two of the words match at one place. -/
theorem words_single :
    Single (either (assignmentWords.map fun word => literal host.agrees word.toList)) := by
  refine single_either (fun part hpart => ?_) (List.pairwise_map.mpr ?_)
  · obtain ⟨word, -, rfl⟩ := List.mem_map.mp hpart
    exact single_literal _ _
  · refine words_apart.imp_of_mem fun {word word'} hword hword' hapart s => ?_
    by_contra hboth
    rw [not_or] at hboth
    have hunique : ∀ p ∈ word.toList, ∀ q ∈ word'.toList, ∀ c, host.agrees p c = true →
        host.agrees q c = true → p = q := by
      intro p hp q hq c
      exact agrees_unique (mem_letters_of_word hword hp) (mem_letters_of_word hword' hq)
    exact hapart (prefix_of_literals hunique hboth.1 hboth.2)

theorem assignmentHead_single : ∀ s, (assignmentHead host s).length ≤ 1 :=
  single_seq (words_single host) (assignTail_single host)

theorem words_covers :
    Covers (either (assignmentWords.map fun word => literal host.agrees word.toList)) := by
  refine covers_either fun part hpart => ?_
  obtain ⟨word, -, rfl⟩ := List.mem_map.mp hpart
  exact covers_literal _ _

theorem assignmentHead_append : ∀ s, ∀ way ∈ assignmentHead host s, way.1 ++ way.2 = s :=
  covers_seq (words_covers host) (assignTail_covers host)

theorem words_ne_nil : ∀ word ∈ assignmentWords, word.toList ≠ [] := by
  decide

theorem assignmentHead_first : ∀ s, ∀ way ∈ assignmentHead host s,
    ∃ c x, way.1 = c :: x ∧ isValue host c = true := by
  intro s way hway
  obtain ⟨x, hx, y, -, rfl⟩ := mem_seq.mp hway
  obtain ⟨part, hpart, hx⟩ := List.mem_flatMap.mp hx
  obtain ⟨word, hword, rfl⟩ := List.mem_map.mp hpart
  obtain ⟨-, hall⟩ := (literal_spec _ _ _).mp hx
  obtain ⟨p, w, hpw⟩ := List.exists_cons_of_ne_nil (words_ne_nil word hword)
  rw [hpw] at hall
  obtain ⟨c, l, hc, -, hxc⟩ := List.forall₂_cons_left_iff.mp hall
  have hp : p ∈ letters := mem_letters_of_word hword (by rw [hpw]; exact List.mem_cons_self)
  refine ⟨c, l ++ y.1, ?_, value_of_agrees hp hc⟩
  rw [hxc]
  rfl

/-- `_SECRET_ASSIGNMENT_RE` without ways back. -/
def assignment : Pattern Char where
  toExpression := { secretAssignmentRe host with head := assignmentHead host }
  head_single := assignmentHead_single host
  head_append := assignmentHead_append host
  head_first := assignmentHead_first host

theorem bearer_sub_eq : (bearerRe host).sub = (bearer host).sub :=
  Expression.sub_congr (Expression.find_congr rfl rfl (bearerHead_eq host)) rfl rfl

theorem assignment_sub_eq : (secretAssignmentRe host).sub = (assignment host).sub :=
  Expression.sub_congr (Expression.find_congr rfl rfl (assignmentHead_eq host)) rfl rfl

end Patterns

/-! ### Heads that do not depend on what follows -/

/-- `:` or `=`, with optional spaces. -/
def IsSeparator (host : Host) (sep : List Char) : Prop :=
  ∃ a c b, sep = a ++ c :: b ∧ isAssign c = true ∧ (∀ x ∈ a, host.isSpace x = true) ∧
    ∀ x ∈ b, host.isSpace x = true

/-- Letters, digits, underscores and hyphens, with `is_secret_key`. -/
structure IsSecret (host : Host) (k : List Char) : Prop where
  identifier : ∀ c ∈ k, isIdentifier c = true
  secret : isSecretKey host.lower (String.ofList k) = true

section Settled

variable {host : Host} {d : Char} {k sep s t x y : List Char}

/-- The ends of a text in which a character is followed by spaces. -/
theorem mem_or_suffix (h : y <:+ x ++ d :: t) : d ∈ y ∨ y <:+ t := by
  have ht : d :: t <:+ x ++ d :: t := List.suffix_append x (d :: t)
  rcases Nat.lt_or_ge t.length y.length with hlt | hge
  · have hsuffix := List.suffix_of_suffix_length_le ht h hlt
    exact Or.inl (hsuffix.subset List.mem_cons_self)
  · have hsuffix := List.suffix_of_suffix_length_le h ht (by rw [List.length_cons]; omega)
    rcases List.suffix_cons_iff.mp hsuffix with heq | hy
    · rw [heq, List.length_cons] at hge
      omega
    · exact Or.inr hy

theorem space_agrees (hp : d ∈ letters) {c : Char} (hc : host.isSpace c = true) :
    host.agrees d c = false := by
  obtain ⟨hge, hlt, -, -⟩ := letters_spec d hp
  rw [Bool.eq_false_iff]
  intro h
  rw [host.agrees_visible d c hge hlt h] at hc
  cases hc

theorem anchor_spec (host : Host) (hd : d ∈ anchors) :
    d ∈ signs ∧ host.isSpace d = false ∧ isQuote d = false := by
  have hspec : ∀ d ∈ anchors, d ∈ signs ∧ 33 ≤ d.toNat ∧ d.toNat < 127 ∧ isQuote d = false :=
    List.all_iff_forall_prop.mp (by decide)
  obtain ⟨hsign, hge, hlt, hquote⟩ := hspec d hd
  exact ⟨hsign, host.isSpace_visible d hge hlt, hquote⟩

theorem bearer_letters : ∀ p ∈ "bearer".toList, p ∈ letters :=
  fun _ hp => List.mem_append_left _ hp

theorem bearerHead_refuses : Refuses (bearerHead host) host.isSpace :=
  refuses_seq (refuses_literal (by decide) fun p hp _ hc => space_agrees (bearer_letters p hp) hc)

theorem assignmentHead_refuses : Refuses (assignmentHead host) host.isSpace := by
  refine refuses_seq (refuses_either fun part hpart => ?_)
  obtain ⟨word, hword, rfl⟩ := List.mem_map.mp hpart
  exact refuses_literal (words_ne_nil word hword) fun p hp _ hc =>
    space_agrees (mem_letters_of_word hword hp) hc

/-- A sign is in the text, and no space follows the text. -/
theorem bearerHead_decided (hd : d ∈ signs) (hy : d ∈ y)
    (hs : ∀ c ∈ s.head?, host.isSpace c = false) : Decided (bearerHead host) y s := by
  have hagrees : ∀ p ∈ "bearer".toList, host.agrees p d = false :=
    fun p hp => agrees_sign (bearer_letters p hp) hd
  refine decided_seq (decided_literal hy hagrees) fun way hway => ?_
  have hrest := keeps_literal hagrees y hy way hway
  exact decided_seq (decided_one (List.ne_nil_of_mem hrest)) fun _ _ => decided_all hs

theorem assignTail_decided (hspace : host.isSpace d = false) (hquote : isQuote d = false)
    (hy : d ∈ y) (hs : ∀ c ∈ s.head?, host.isSpace c = false)
    (hsq : ∀ c ∈ s.head?, isQuote c = false) : Decided (assignTail host) y s := by
  refine decided_seq (decided_first hsq) fun way hway => ?_
  have hfirst := keeps_first hquote y hy way hway
  refine decided_seq (decided_all hs) fun way' hway' => ?_
  have hall := keeps_all hspace way.2 hfirst way' hway'
  refine decided_seq (decided_one (List.ne_nil_of_mem hall)) fun _ _ => ?_
  exact decided_seq (decided_all hs) fun _ _ => decided_first hsq

theorem assignmentHead_decided (hd : d ∈ signs) (hspace : host.isSpace d = false)
    (hquote : isQuote d = false) (hy : d ∈ y) (hs : ∀ c ∈ s.head?, host.isSpace c = false)
    (hsq : ∀ c ∈ s.head?, isQuote c = false) : Decided (assignmentHead host) y s := by
  refine decided_seq (decided_either fun part hpart => ?_) fun way hway => ?_
  · obtain ⟨word, hword, rfl⟩ := List.mem_map.mp hpart
    exact decided_literal hy fun p hp => agrees_sign (mem_letters_of_word hword hp) hd
  · refine assignTail_decided hspace hquote (keeps_either (fun part hpart => ?_) y hy way hway)
      hs hsq
    obtain ⟨word, hword, rfl⟩ := List.mem_map.mp hpart
    exact keeps_literal fun p hp => agrees_sign (mem_letters_of_word hword hp) hd

/-- **Behind a sign and spaces, a text that begins with neither space nor quote is in no head.** -/
theorem settled_left (hd : d ∈ anchors) (ht : ∀ c ∈ t, host.isSpace c = true)
    (hs : ∀ c ∈ s.head?, host.isSpace c = false) (hsq : ∀ c ∈ s.head?, isQuote c = false) :
    (bearer host).Settled (x ++ d :: t) s ∧ (assignment host).Settled (x ++ d :: t) s := by
  obtain ⟨hsign, hspace, hquote⟩ := anchor_spec host hd
  constructor
  · refine Pattern.settled_of_decided fun y hy hne => ?_
    rcases mem_or_suffix hy with hmem | hsuffix
    · exact bearerHead_decided hsign hmem hs
    · exact decided_of_refuses bearerHead_refuses hne fun c hc => ht c (hsuffix.subset hc)
  · refine Pattern.settled_of_decided fun y hy hne => ?_
    rcases mem_or_suffix hy with hmem | hsuffix
    · exact assignmentHead_decided hsign hspace hquote hmem hs hsq
    · exact decided_of_refuses assignmentHead_refuses hne fun c hc => ht c (hsuffix.subset hc)

/-- No end of a word, but the word, has one of the parts that make a key secret. -/
theorem words_tails : ∀ word ∈ "bearer" :: assignmentWords, ∀ part ∈ secretKeyParts,
    ¬ part.toList <:+: word.toList.tail := by
  decide

theorem separator_head (hsep : IsSeparator host sep) :
    ∃ c r, sep = c :: r ∧ (isAssign c = true ∨ host.isSpace c = true) := by
  obtain ⟨a, c, b, rfl, hc, ha, -⟩ := hsep
  cases a with
  | nil => exact ⟨c, b, rfl, Or.inl hc⟩
  | cons x a => exact ⟨x, a ++ c :: b, rfl, Or.inr (ha x List.mem_cons_self)⟩

theorem IsSecret.ne_nil (hk : IsSecret host k) : k ≠ [] := by
  rintro rfl
  obtain ⟨part, hpart, hoccurs⟩ := List.any_eq_true.mp hk.secret
  rw [occurs, decide_eq_true_iff, host.lower_ascii _ (by simp)] at hoccurs
  have hne : ∀ part ∈ secretKeyParts, part.toList ≠ [] := by decide
  exact hne part hpart (List.infix_nil.mp (by simpa using hoccurs))

theorem mem_letters_of_split {word : String} (hword : word ∈ "bearer" :: assignmentWords)
    {w₁ w₂ : List Char} (hsplit : word.toList = w₁ ++ w₂) (hd : d ∈ w₂) : d ∈ letters := by
  have hmem : d ∈ word.toList := by
    rw [hsplit]
    exact List.mem_append_right w₁ hd
  rcases List.mem_cons.mp hword with heq | hword
  · rw [heq] at hmem
    exact bearer_letters d hmem
  · exact mem_letters_of_word hword hmem

theorem exists_agrees {w : List Char} (h : List.Forall₂ (fun p c => host.agrees p c = true) w x)
    {c : Char} (hc : c ∈ x) : ∃ p ∈ w, host.agrees p c = true := by
  induction h with
  | nil => cases hc
  | @cons p e w x hpe _ ih =>
    rcases List.mem_cons.mp hc with rfl | hc
    · exact ⟨p, List.mem_cons_self, hpe⟩
    · obtain ⟨q, hq, hqc⟩ := ih hc
      exact ⟨q, List.mem_cons_of_mem p hq, hqc⟩

theorem lower_of_agrees {w : List Char} (hw : ∀ p ∈ w, p ∈ letters)
    (hk : ∀ c ∈ k, c.toNat < 128) (h : List.Forall₂ (fun p c => host.agrees p c = true) w k) :
    k.map Char.toLower = w := by
  induction h with
  | nil => rfl
  | @cons p c w k hpc _ ih =>
    obtain ⟨-, hlt, hlower, -⟩ := letters_spec p (hw p List.mem_cons_self)
    rw [host.agrees_ascii p c (by omega) (hk c List.mem_cons_self), decide_eq_true_iff] at hpc
    rw [List.map_cons, ← hpc, hlower, ih (fun q hq => hw q (List.mem_cons_of_mem p hq))
      fun d hd => hk d (List.mem_cons_of_mem c hd)]

/-- **A secret name is not the end of a word that begins before it.** -/
theorem IsSecret.not_tail (hk : IsSecret host k) {word : String}
    (hword : word ∈ "bearer" :: assignmentWords) {w₁ w₂ : List Char}
    (hsplit : word.toList = w₁ ++ w₂) (hne : w₁ ≠ []) :
    ¬ List.Forall₂ (fun p c => host.agrees p c = true) w₂ k := by
  intro hagree
  have hletters : ∀ p ∈ w₂, p ∈ letters := fun p hp => mem_letters_of_split hword hsplit hp
  have hascii : ∀ c ∈ k, c.toNat < 128 := fun c hc => identifier_ascii (hk.identifier c hc)
  have hlower := lower_of_agrees hletters hascii hagree
  obtain ⟨part, hpart, hoccurs⟩ := List.any_eq_true.mp hk.secret
  rw [occurs, decide_eq_true_iff, host.lower_ascii _ (by rwa [String.toList_ofList]),
    String.toList_ofList, hlower] at hoccurs
  obtain ⟨p, w, rfl⟩ := List.exists_cons_of_ne_nil hne
  refine words_tails word hword part hpart (hoccurs.trans ?_)
  rw [hsplit, List.cons_append, List.tail_cons]
  exact (List.suffix_append w w₂).isInfix

/-- What follows a word in front of the separator is no identifier. -/
theorem straddles (hk : IsSecret host k) (hsep : IsSeparator host sep) {word : String}
    (hword : word ∈ "bearer" :: assignmentWords) {b : Matcher Char} (hb : Refuses b isIdentifier)
    {w₁ w₂ : List Char} (hsplit : word.toList = w₁ ++ w₂) (hne : w₁ ≠ []) :
    seq (literal host.agrees w₂) b (k ++ sep) = [] := by
  refine List.flatMap_eq_nil_iff.mpr fun way hway => ?_
  obtain ⟨happend, hagree⟩ := (literal_spec _ _ _).mp hway
  have hnot := hk.not_tail hword hsplit hne
  rcases List.append_eq_append_iff.mp happend with ⟨k', hk', hrest⟩ | ⟨s', hs', hrest⟩
  · -- the word ends in the name
    cases k' with
    | nil =>
      rw [List.append_nil] at hk'
      rw [hk'] at hnot
      exact absurd hagree hnot
    | cons c k' =>
      have hc : isIdentifier c = true :=
        hk.identifier c (by rw [hk']; exact List.mem_append_right _ List.mem_cons_self)
      rw [hrest, List.cons_append, hb c _ hc]
      rfl
  · -- the word would go on in the separator
    cases s' with
    | nil =>
      rw [List.append_nil] at hs'
      rw [← hs'] at hnot
      exact absurd hagree hnot
    | cons c s' =>
      obtain ⟨d, r, hd, hcase⟩ := separator_head hsep
      rw [hd, List.cons_append, List.cons.injEq] at hrest
      obtain ⟨p, hp, hpc⟩ := exists_agrees hagree (c := c)
        (by rw [hs']; exact List.mem_append_right _ List.mem_cons_self)
      have hletter := mem_letters_of_split hword hsplit hp
      rw [← hrest.1] at hpc
      rcases hcase with hassign | hspace
      · rw [agrees_sign hletter (mem_signs_of_assign hassign)] at hpc
        cases hpc
      · rw [space_agrees hletter hspace] at hpc
        cases hpc

theorem IsSecret.head (hk : IsSecret host k) (s : List Char) :
    ∀ c ∈ (k ++ s).head?, isIdentifier c = true := by
  intro c hc
  rw [List.head?_append_of_ne_nil k hk.ne_nil] at hc
  exact hk.identifier c (List.mem_of_mem_head? hc)

theorem bearerTail_refuses :
    Refuses (seq (one host.isSpace) (all host.isSpace)) isIdentifier :=
  refuses_seq (refuses_one fun _ hc => identifier_not_space hc)

theorem assignTail_refuses : Refuses (assignTail host) isIdentifier :=
  refuses_first (fun _ hc => identifier_not_quote hc)
    (refuses_all (fun _ hc => identifier_not_space hc)
      (refuses_seq (refuses_one fun _ hc => identifier_not_assign hc)))

/-- **A head is either in the text in front of a secret name, or behind its beginning.** -/
theorem settled_secret (hk : IsSecret host k) (hsep : IsSeparator host sep) (x : List Char) :
    (bearer host).Settled x (k ++ sep) ∧ (assignment host).Settled x (k ++ sep) := by
  have hhead := hk.head sep
  have hspace : ∀ c ∈ (k ++ sep).head?, host.isSpace c = false :=
    fun c hc => identifier_not_space (hhead c hc)
  have hquote : ∀ c ∈ (k ++ sep).head?, isQuote c = false :=
    fun c hc => identifier_not_quote (hhead c hc)
  have hassign : ∀ c ∈ (k ++ sep).head?, isAssign c = false :=
    fun c hc => identifier_not_assign (hhead c hc)
  constructor
  · refine Pattern.settled_of_decided fun y _ hne => decided_literal_seq (fun z => ?_) rfl
      (fun w₁ w₂ hsplit hw => ?_) hne
    · exact decided_seq (decided_one_of_head hspace) fun _ _ => decided_all hspace
    · exact straddles hk hsep List.mem_cons_self bearerTail_refuses hsplit hw
  · refine Pattern.settled_of_decided fun y _ hne => ?_
    show Decided (seq (either _) (assignTail host)) y (k ++ sep)
    rw [seq_either, List.map_map]
    refine decided_either fun part hpart => ?_
    obtain ⟨word, hword, rfl⟩ := List.mem_map.mp hpart
    refine decided_literal_seq (fun z => ?_) rfl (fun w₁ w₂ hsplit hw => ?_) hne
    · exact decided_seq (decided_first hquote) fun _ _ =>
        decided_seq (decided_all hspace) fun _ _ =>
        decided_seq (decided_one_of_head hassign) fun _ _ =>
        decided_seq (decided_all hspace) fun _ _ => decided_first hquote
    · exact straddles hk hsep (List.mem_cons_of_mem _ hword) assignTail_refuses hsplit hw

end Settled

end GraphPilot.Secrets
