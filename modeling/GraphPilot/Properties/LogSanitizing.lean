/-
What `sanitize_error` hides of a text.

A value behind a secret name is not always hidden: the expression asks for a secret word that
begins at a word boundary and ends the name, `is_secret_key` for a part of the name
(`db_password_shown`).  And a value whose end makes a bearer token with what follows it is not
hidden like the others.  `hides_iff` says that these are the only cases:

* `opens_bearer_iff`, `opens_assignment_iff` — which matches reach the value;
* `sanitized_of_covered` — the result, for a match that does;
* `not_hides` — without one, `!` and `#` are both shown.
-/
import GraphPilot.Secrets.Sanitizing

namespace GraphPilot.Secrets

open Python.Regex

/-! ### The claim, and what it takes -/

section Statements

variable (host : Host)

/-- The text agrees with the word, letter by letter. -/
def Agrees (word text : List Char) : Prop :=
  List.Forall₂ (fun p c => host.agrees p c = true) word text

/-- A value: something without quotes, spaces, commas, semicolons and braces. -/
structure IsText (v : List Char) : Prop where
  ne_nil : v ≠ []
  value : ∀ c ∈ v, isValue host c = true

/-- The text with a value behind the name is sanitized to the same, whatever the value. -/
def Hides (pre k sep post : List Char) : Prop :=
  ∀ v w, IsText host v → IsText host w →
    sanitizeError host (String.ofList (pre ++ k ++ sep ++ v ++ post)) =
      sanitizeError host (String.ofList (pre ++ k ++ sep ++ w ++ post))

/-- The claim that what is assigned to a secret name is hidden. -/
def HidesSecrets : Prop :=
  ∀ pre k sep post, IsSecret host k → IsSeparator host sep → Hides host pre k sep post

/-- The name ends in one of the words of the expression, which begins at a word boundary. -/
def EndsInWord (before : Option Char) (k : List Char) : Prop :=
  ∃ x w, k = x ++ w ∧ (∃ word ∈ assignmentWords, Agrees host word.toList w) ∧
    (last before x).any host.isWord = false

/-- Where a value is assigned.  The text in front of the name does not end in a bearer token.  If
it ends in the value of another assignment, the separator has no spaces; else the name ends in a
secret word. -/
def Covered (pre k sep : List Char) : Prop :=
  (bearer host).opens none pre = none ∧
    if ((assignment host).opens none ((bearer host).sub none pre)).isSome then
      ∀ c ∈ sep, host.isSpace c = false
    else EndsInWord host (last none pre) k

/-- The text goes on with `bearer` after one to six of its letters, and with a token. -/
def Resumes (post : List Char) : Prop :=
  ∃ w₁ w₂ w blanks t rest, "bearer".toList = w₁ ++ w₂ ∧ w₁ ≠ [] ∧
    post = w ++ (blanks ++ t :: rest) ∧ Agrees host w₂ w ∧ blanks ≠ [] ∧
    (∀ c ∈ blanks, host.isSpace c = true) ∧ isToken host t = true

end Statements

/-! ### The heads -/

section Heads

variable {host : Host} {k sep s x y z : List Char} {way : List Char × List Char}

/-- A head of a bearer token: the word, and all the spaces that follow it. -/
theorem mem_bearerHead : way ∈ bearerHead host s ↔ ∃ w blanks, way.1 = w ++ blanks ∧
    Agrees host "bearer".toList w ∧ blanks ≠ [] ∧ (∀ c ∈ blanks, host.isSpace c = true) ∧
    (∀ c ∈ way.2.head?, host.isSpace c = false) ∧ way.1 ++ way.2 = s := by
  constructor
  · intro h
    have hcover := bearerHead_append host s way h
    obtain ⟨u, hu, v, hv, rfl⟩ := mem_seq.mp h
    obtain ⟨-, hword⟩ := (literal_spec _ _ _).mp hu
    obtain ⟨o, ho, a, ha, rfl⟩ := mem_seq.mp hv
    have hall := List.mem_singleton.mp ha
    refine ⟨u.1, o.1 ++ a.1, rfl, hword, ?_, ?_, ?_, hcover⟩
    · cases hrest : u.2 with
      | nil =>
        rw [hrest] at ho
        cases ho
      | cons c r =>
        rw [hrest, one] at ho
        split at ho
        · rw [List.mem_singleton.mp ho]
          exact List.cons_ne_nil c _
        · cases ho
    · intro c hc
      rcases List.mem_append.mp hc with hc | hc
      · cases hrest : u.2 with
        | nil =>
          rw [hrest] at ho
          cases ho
        | cons d r =>
          rw [hrest, one] at ho
          split at ho
          · next hd =>
            rw [List.mem_singleton.mp ho, List.mem_singleton] at hc
            rw [hc]
            exact hd
          · cases ho
      · rw [hall] at hc
        exact List.mem_takeWhile_imp hc
    · intro c hc
      dsimp only at hc
      rw [hall] at hc
      have hnot := List.head?_dropWhile_not host.isSpace o.2
      rw [Option.mem_def.mp hc] at hnot
      exact hnot
  · rintro ⟨w, blanks, hway, hword, hne, hblanks, hrest, hcover⟩
    obtain ⟨c, blanks, rfl⟩ := List.exists_cons_of_ne_nil hne
    obtain ⟨h, r⟩ := way
    dsimp only at hway hrest hcover
    have hsplit : (blanks ++ r).takeWhile host.isSpace = blanks ∧
        (blanks ++ r).dropWhile host.isSpace = r := by
      have htail : ∀ d ∈ blanks, host.isSpace d = true :=
        fun d hd => hblanks d (List.mem_cons_of_mem c hd)
      rw [List.takeWhile_append_of_pos htail, List.dropWhile_append_of_pos htail]
      cases r with
      | nil => exact ⟨List.append_nil blanks, rfl⟩
      | cons d r => simp [hrest d rfl]
    rw [hway, List.append_assoc] at hcover
    refine mem_seq.mpr ⟨(w, c :: blanks ++ r), (literal_spec _ _ _).mpr ⟨hcover, hword⟩,
      (c :: blanks, r), mem_seq.mpr ⟨([c], blanks ++ r), ?_, (blanks, r), ?_, rfl⟩, ?_⟩
    · show _ ∈ one host.isSpace (c :: (blanks ++ r))
      rw [one, if_pos (hblanks c List.mem_cons_self)]
      exact List.mem_singleton.mpr rfl
    · rw [all, hsplit.1, hsplit.2]
      exact List.mem_singleton.mpr rfl
    · rw [hway]

/-- What stands between a word and a value: quotes, spaces, a sign, spaces, quotes. -/
theorem assignTail_shape (h : way ∈ assignTail host s) : ∃ q a e b r, way.1 = q ++ (a ++ e :: (b ++ r)) ∧
    (∀ c ∈ q, isQuote c = true) ∧ (∀ c ∈ a, host.isSpace c = true) ∧ isAssign e = true ∧
    (∀ c ∈ b, host.isSpace c = true) ∧ ∀ c ∈ r, isQuote c = true := by
  have hfirst : ∀ {s : List Char} {way}, way ∈ first isQuote s → ∀ c ∈ way.1, isQuote c = true := by
    intro s way hway c hc
    cases s with
    | nil =>
      rw [List.mem_singleton.mp hway] at hc
      cases hc
    | cons d s =>
      rw [first] at hway
      split at hway
      · next hd =>
        rw [List.mem_singleton.mp hway, List.mem_singleton] at hc
        rw [hc]
        exact hd
      · rw [List.mem_singleton.mp hway] at hc
        cases hc
  have hall : ∀ {s : List Char} {way}, way ∈ all host.isSpace s →
      ∀ c ∈ way.1, host.isSpace c = true := by
    intro s way hway c hc
    rw [List.mem_singleton.mp hway] at hc
    exact List.mem_takeWhile_imp hc
  obtain ⟨q, hq, v₁, hv₁, rfl⟩ := mem_seq.mp h
  obtain ⟨a, ha, v₂, hv₂, rfl⟩ := mem_seq.mp hv₁
  obtain ⟨e, he, v₃, hv₃, rfl⟩ := mem_seq.mp hv₂
  obtain ⟨b, hb, r, hr, rfl⟩ := mem_seq.mp hv₃
  cases hrest : a.2 with
  | nil =>
    rw [hrest] at he
    cases he
  | cons d x =>
    rw [hrest, one] at he
    split at he
    · next hd =>
      rw [List.mem_singleton.mp he]
      exact ⟨q.1, a.1, d, b.1, r.1, rfl, hfirst hq, hall ha, hd, hall hb, hfirst hr⟩
    · cases he

/-- A head of an assignment: a word, and what stands between it and a value. -/
theorem assignmentHead_shape (h : way ∈ assignmentHead host s) :
    ∃ word ∈ assignmentWords, ∃ w q a e b r, way.1 = w ++ (q ++ (a ++ e :: (b ++ r))) ∧
      Agrees host word.toList w ∧ (∀ c ∈ q, isQuote c = true) ∧
      (∀ c ∈ a, host.isSpace c = true) ∧ isAssign e = true ∧
      (∀ c ∈ b, host.isSpace c = true) ∧ ∀ c ∈ r, isQuote c = true := by
  obtain ⟨w, hw, v, hv, rfl⟩ := mem_seq.mp h
  obtain ⟨part, hpart, hw⟩ := List.mem_flatMap.mp hw
  obtain ⟨word, hword, rfl⟩ := List.mem_map.mp hpart
  obtain ⟨-, hagrees⟩ := (literal_spec _ _ _).mp hw
  obtain ⟨q, a, e, b, r, hv, hq, ha, he, hb, hr⟩ := assignTail_shape hv
  exact ⟨word, hword, w.1, q, a, e, b, r, by rw [hv], hagrees, hq, ha, he, hb, hr⟩

/-- What does not agree with the first letter of `bearer` begins no token. -/
theorem top_bearer_none {c : Char} (hc : host.agrees 'b' c = false) (before : Option Char)
    (s : List Char) : (bearer host).top before (c :: s) = none := by
  refine Pattern.top_of_head_nil ?_
  have hrefuses : Refuses (bearerHead host) fun c => !host.agrees 'b' c := by
    refine refuses_seq (refuses_seq (refuses_one fun c hc => ?_))
    rw [Bool.not_eq_true'] at hc
    exact hc
  refine hrefuses c s ?_
  show (!host.agrees 'b' c) = true
  rw [hc]
  rfl

/-- What agrees with no letter of a word begins no assignment. -/
theorem top_assignment_none {c : Char} (hc : ∀ p ∈ letters, host.agrees p c = false)
    (before : Option Char) (s : List Char) :
    (assignment host).top before (c :: s) = none := by
  refine Pattern.top_of_head_nil ?_
  have hrefuses : Refuses (assignmentHead host) fun d => d = c := by
    refine refuses_seq (refuses_either fun part hpart => ?_)
    obtain ⟨word, hword, rfl⟩ := List.mem_map.mp hpart
    refine refuses_literal (words_ne_nil word hword) fun p hp d hd => ?_
    rw [of_decide_eq_true hd]
    exact hc p (mem_letters_of_word hword hp)
  exact hrefuses c s (decide_eq_true rfl)

theorem IsSeparator.agrees (hsep : IsSeparator host sep) {c p : Char} (hc : c ∈ sep)
    (hp : p ∈ letters) : host.agrees p c = false := by
  obtain ⟨a, e, b, rfl, he, ha, hb⟩ := hsep
  rcases List.mem_append.mp hc with hc | hc
  · exact space_agrees hp (ha c hc)
  · rcases List.mem_cons.mp hc with rfl | hc
    · exact agrees_sign hp (mem_signs_of_assign he)
    · exact space_agrees hp (hb c hc)

theorem mem_letters_b : 'b' ∈ letters := by
  decide

/-- No match begins in a separator, or in its end. -/
theorem IsSeparator.inert (hsep : IsSeparator host sep) (hz : z <:+ sep) :
    (∀ c ∈ z, ∀ b s, (bearer host).top b (c :: s) = none) ∧
      ∀ c ∈ z, ∀ b s, (assignment host).top b (c :: s) = none := by
  constructor
  · intro c hc
    exact top_bearer_none (hsep.agrees (hz.subset hc) mem_letters_b)
  · intro c hc
    exact top_assignment_none fun p hp => hsep.agrees (hz.subset hc) hp

end Heads

/-! ### The name and the separator -/

section Names

variable {host : Host} {k sep w r z : List Char}

/-- A word in front of what is no identifier is the whole name. -/
theorem word_eq_name (hk : ∀ c ∈ k, isIdentifier c = true) (hsep : IsSeparator host sep)
    (hw : ∀ c ∈ w, ∃ p ∈ letters, host.agrees p c = true)
    (hr : ∀ c ∈ r.head?, isIdentifier c = false) (h : w ++ r = k ++ sep) : w = k ∧ r = sep := by
  rcases List.append_eq_append_iff.mp h with ⟨k', hk', hrest⟩ | ⟨s', hs', hrest⟩
  · cases k' with
    | nil =>
      rw [List.append_nil] at hk'
      exact ⟨hk'.symm, hrest⟩
    | cons c k' =>
      rw [hrest] at hr
      have hc := hr c rfl
      rw [hk c (by rw [hk']; exact List.mem_append_right _ List.mem_cons_self)] at hc
      cases hc
  · cases s' with
    | nil =>
      rw [List.append_nil] at hs'
      exact ⟨hs', hrest.symm⟩
    | cons c s' =>
      obtain ⟨p, hp, hpc⟩ := hw c (by rw [hs']; exact List.mem_append_right _ List.mem_cons_self)
      rw [hsep.agrees (by rw [hrest]; exact List.mem_cons_self) hp] at hpc
      cases hpc

theorem letters_of_agrees {word : List Char} (hword : ∀ p ∈ word, p ∈ letters)
    (h : Agrees host word w) : ∀ c ∈ w, ∃ p ∈ letters, host.agrees p c = true := by
  intro c hc
  obtain ⟨p, hp, hpc⟩ := exists_agrees h hc
  exact ⟨p, hword p hp, hpc⟩

theorem space_not_identifier {c : Char} (hc : host.isSpace c = true) :
    isIdentifier c = false := by
  rw [Bool.eq_false_iff]
  intro h
  rw [identifier_not_space h] at hc
  cases hc

/-- At the beginning of a name no token begins, or the name agrees with `bearer`. -/
theorem bearer_step {e : Char} (hk : ∀ c ∈ e :: k, isIdentifier c = true)
    (hsep : IsSeparator host sep) (before : Option Char) :
    ((bearer host).sub before (e :: (k ++ sep)) = e :: (bearer host).sub (some e) (k ++ sep) ∧
      (bearer host).opens before (e :: (k ++ sep)) =
        ((bearer host).opens (some e) (k ++ sep)).map (e :: ·)) ∨
    ∃ z, (bearer host).sub before (e :: (k ++ sep)) = bearerStars ++ z ∧ z <:+ sep ∧
      Agrees host "bearer".toList (e :: k) ∧ ∃ c ∈ sep, host.isSpace c = true := by
  cases htop : (bearer host).top before (e :: (k ++ sep)) with
  | none =>
    exact Or.inl ⟨Pattern.sub_of_find_none (Pattern.find_none_of_top htop),
      Pattern.opens_of_top_none htop⟩
  | some way =>
    obtain ⟨w, blanks, hway, hword, hne, hblanks, hstop, hcover⟩ :=
      mem_bearerHead.mp (Pattern.top_mem htop)
    obtain ⟨c, l, rfl⟩ := List.exists_cons_of_ne_nil hne
    have hc : host.isSpace c = true := hblanks c List.mem_cons_self
    have hhead : ∀ d ∈ (c :: l ++ way.2).head?, isIdentifier d = false := by
      intro d hd
      rw [List.cons_append, List.head?_cons, Option.mem_some_iff] at hd
      rw [← hd]
      exact space_not_identifier hc
    rw [hway, List.append_assoc] at hcover
    obtain ⟨hwk, hsepw⟩ := word_eq_name hk hsep (letters_of_agrees bearer_letters hword) hhead
      hcover
    by_cases hstops : (bearer host).Stops way.2
    · refine Or.inl ⟨Pattern.sub_of_find_none (Pattern.find_none_of_stops htop hstops),
        Pattern.opens_of_turned htop (fun hnil => ?_) hstops⟩
      -- the separator is not of spaces only
      obtain ⟨a, d, b, hd, hassign, -, -⟩ := hsep
      have hdmem : d ∈ c :: l := by
        rw [hnil, List.append_nil] at hsepw
        rw [hsepw, hd]
        exact List.mem_append_right a List.mem_cons_self
      have hdspace := hblanks d hdmem
      rw [assign_not_space hassign] at hdspace
      cases hdspace
    · have hne' : way.2 ≠ [] := by
        intro hnil
        rw [hnil] at hstops
        exact hstops fun d hd => by cases hd
      have hsuffix : way.2.dropWhile (bearer host).run <:+ sep := by
        rw [← hsepw]
        exact (List.dropWhile_suffix _).trans (List.suffix_append _ _)
      refine Or.inr ⟨way.2.dropWhile (bearer host).run, ?_, hsuffix, by rw [← hwk]; exact hword,
        c, by rw [← hsepw]; exact List.mem_cons_self, hc⟩
      rw [Pattern.sub_of_top htop (Pattern.any_of_not_stops hne' hstops),
        Pattern.sub_of_inert (hsep.inert hsuffix).1]
      rfl

/-- **No bearer token begins in the name and the separator, unless the name ends in `bearer` and
spaces follow.** -/
theorem bearer_name (hk : ∀ c ∈ k, isIdentifier c = true) (hsep : IsSeparator host sep)
    (before : Option Char) :
    ((bearer host).sub before (k ++ sep) = k ++ sep ∧
      (bearer host).opens before (k ++ sep) = none) ∨
    ∃ y z, (bearer host).sub before (k ++ sep) = y ++ bearerStars ++ z ∧ z <:+ sep ∧
      (∃ x w, k = x ++ w ∧ Agrees host "bearer".toList w) ∧
      ∃ c ∈ sep, host.isSpace c = true := by
  induction k generalizing before with
  | nil =>
    have hinert := (hsep.inert List.suffix_rfl).1
    exact Or.inl ⟨Pattern.sub_of_inert hinert before, Pattern.opens_of_inert hinert before⟩
  | cons e k ih =>
    rw [List.cons_append]
    rcases bearer_step hk hsep before with ⟨hsub, hopens⟩ | ⟨z, hsub, hz, hword, hspace⟩
    · rcases ih (fun c hc => hk c (List.mem_cons_of_mem e hc)) (some e) with
        ⟨hsame, hnone⟩ | ⟨y, z, hsome, hz, ⟨x, w, hx, hw⟩, hspace⟩
      · refine Or.inl ⟨?_, ?_⟩
        · rw [hsub, hsame]
        · rw [hopens, hnone]
          rfl
      · refine Or.inr ⟨e :: y, z, ?_, hz, ⟨e :: x, w, by rw [hx, List.cons_append], hw⟩, hspace⟩
        rw [hsub, hsome]
        rfl
    · exact Or.inr ⟨[], z, hsub, hz, ⟨[], e :: k, rfl, hword⟩, hspace⟩

theorem first_letters : ∀ word ∈ assignmentWords, word.toList.head?.all (fun p =>
    decide (97 ≤ p.toLower.toNat ∧ p.toLower.toNat ≤ 122)) = true := by
  decide

theorem alphanum_of_lower : ∀ n < 128, 97 ≤ (Char.ofNat n).toLower.toNat →
    (Char.ofNat n).toLower.toNat ≤ 122 → (Char.ofNat n).isAlphanum = true := by
  decide

/-- A word begins with a letter. -/
theorem isWord_of_agrees {e : Char} {word : String} (hword : word ∈ assignmentWords)
    (he : isIdentifier e = true) (h : Agrees host word.toList (e :: k)) :
    host.isWord e = true := by
  obtain ⟨p, l, hpe, -, hpl⟩ := List.forall₂_cons_right_iff.mp h
  have hascii := identifier_ascii he
  have hp : p ∈ letters := mem_letters_of_word hword (by rw [hpl]; exact List.mem_cons_self)
  obtain ⟨-, hlt, -, -⟩ := letters_spec p hp
  rw [host.agrees_ascii p e (by omega) hascii, decide_eq_true_iff] at hpe
  have hfirst := first_letters word hword
  rw [hpl, List.head?_cons, Option.all_some, decide_eq_true_iff] at hfirst
  obtain ⟨hge, hle⟩ := hfirst
  have halnum := alphanum_of_lower e.toNat hascii
  rw [Char.ofNat_toNat, ← hpe] at halnum
  rw [host.isWord_ascii e hascii, halnum hge hle, Bool.true_or]

/-- A name that is one of the words makes a head with the separator. -/
theorem mem_assignmentHead_name {word : String} (hword : word ∈ assignmentWords)
    (h : Agrees host word.toList k) (hsep : IsSeparator host sep) :
    (k ++ sep, []) ∈ assignmentHead host (k ++ sep) := by
  have htail : (sep, []) ∈ assignTail host sep := by
    obtain ⟨a, c, b, rfl, hc, ha, hb⟩ := hsep
    have hcs : host.isSpace c = false := assign_not_space hc
    have hfirst : first isQuote (a ++ c :: b) = [([], a ++ c :: b)] := by
      cases a with
      | nil =>
        have hquote : isQuote c = false := by
          rw [Bool.eq_false_iff]
          intro hquote
          rw [quote_not_assign hquote] at hc
          cases hc
        simp [first, hquote]
      | cons d a =>
        have hquote := space_not_quote host (ha d List.mem_cons_self)
        simp [first, hquote]
    have hall : all host.isSpace (a ++ c :: b) = [(a, c :: b)] := by
      rw [all, List.takeWhile_append_of_pos ha, List.dropWhile_append_of_pos ha]
      simp [hcs]
    have hrest : all host.isSpace b = [(b, [])] := by
      rw [all, List.takeWhile_eq_self_iff.mpr hb, List.dropWhile_eq_nil_iff.mpr hb]
    have hone : one isAssign (c :: b) = [([c], b)] := by
      rw [one, if_pos hc]
    refine mem_seq.mpr ⟨([], a ++ c :: b), by rw [hfirst]; exact List.mem_singleton_self _,
      (a ++ c :: b, []), mem_seq.mpr ⟨(a, c :: b), by rw [hall]; exact List.mem_singleton_self _,
      (c :: b, []), mem_seq.mpr ⟨([c], b), by rw [hone]; exact List.mem_singleton_self _,
      (b, []), mem_seq.mpr ⟨(b, []), by rw [hrest]; exact List.mem_singleton_self _,
      ([], []), List.mem_singleton_self _, by rw [List.append_nil]⟩, rfl⟩, rfl⟩, rfl⟩
  refine mem_seq.mpr ⟨(k, sep), ?_, (sep, []), htail, rfl⟩
  exact List.mem_flatMap.mpr ⟨_, List.mem_map.mpr ⟨word, hword, rfl⟩,
    (literal_spec _ _ _).mpr ⟨rfl, h⟩⟩

/-- A head in the name and the separator is all of them. -/
theorem name_of_mem {way : List Char × List Char} (hk : ∀ c ∈ k, isIdentifier c = true)
    (hsep : IsSeparator host sep) (h : way ∈ assignmentHead host (k ++ sep)) :
    ∃ word ∈ assignmentWords, Agrees host word.toList k := by
  have hcover := assignmentHead_append host _ way h
  obtain ⟨word, hword, w, q, a, e, b, r, hway, hagrees, hq, ha, he, -, -⟩ :=
    assignmentHead_shape h
  have hhead : ∀ c ∈ (q ++ (a ++ e :: (b ++ r)) ++ way.2).head?, isIdentifier c = false := by
    intro c hc
    have hsign : isQuote c = true ∨ host.isSpace c = true ∨ isAssign c = true := by
      cases q with
      | cons d q =>
        rw [List.cons_append, List.cons_append, List.head?_cons, Option.mem_some_iff] at hc
        exact Or.inl (by rw [← hc]; exact hq d List.mem_cons_self)
      | nil =>
        cases a with
        | cons d a =>
          rw [List.nil_append, List.cons_append, List.cons_append, List.head?_cons,
            Option.mem_some_iff] at hc
          exact Or.inr (Or.inl (by rw [← hc]; exact ha d List.mem_cons_self))
        | nil =>
          rw [List.nil_append, List.nil_append, List.cons_append, List.head?_cons,
            Option.mem_some_iff] at hc
          exact Or.inr (Or.inr (by rw [← hc]; exact he))
    rw [Bool.eq_false_iff]
    intro hident
    rcases hsign with hsign | hsign | hsign
    · rw [identifier_not_quote hident] at hsign
      cases hsign
    · rw [identifier_not_space hident] at hsign
      cases hsign
    · rw [identifier_not_assign hident] at hsign
      cases hsign
  rw [hway, List.append_assoc] at hcover
  obtain ⟨hwk, -⟩ := word_eq_name hk hsep
    (letters_of_agrees (fun p hp => mem_letters_of_word hword hp) hagrees) hhead hcover
  exact ⟨word, hword, by rw [← hwk]; exact hagrees⟩

/-- **The value follows a head, just if the name ends in a secret word at a word boundary.** -/
theorem opens_name (hk : ∀ c ∈ k, isIdentifier c = true) (hsep : IsSeparator host sep)
    (before : Option Char) :
    ((assignment host).opens before (k ++ sep)).isSome = true ↔ EndsInWord host before k := by
  induction k generalizing before with
  | nil =>
    rw [List.nil_append, Pattern.opens_of_inert (hsep.inert List.suffix_rfl).2]
    constructor
    · intro h
      cases h
    · rintro ⟨x, w, hxw, ⟨word, hword, hagrees⟩, -⟩
      obtain ⟨-, rfl⟩ := List.append_eq_nil_iff.mp hxw.symm
      exact absurd (List.forall₂_nil_right_iff.mp hagrees) (words_ne_nil word hword)
  | cons e k ih =>
    have hrest := ih (fun c hc => hk c (List.mem_cons_of_mem e hc)) (some e)
    have he := hk e List.mem_cons_self
    rw [List.cons_append]
    by_cases hstart : (∃ word ∈ assignmentWords, Agrees host word.toList (e :: k)) ∧
        before.any host.isWord = false
    · -- the whole name is a word
      obtain ⟨⟨word, hword, hagrees⟩, hbefore⟩ := hstart
      have hstarts : (assignment host).starts before (e :: (k ++ sep)).head? = true := by
        show (before.any host.isWord != host.isWord e) = true
        rw [hbefore, isWord_of_agrees hword he hagrees]
        rfl
      have htop : (assignment host).top before (e :: (k ++ sep)) = some (e :: k ++ sep, []) :=
        Pattern.top_of_mem hstarts (mem_assignmentHead_name hword hagrees hsep)
      rw [Pattern.opens_of_all htop rfl]
      constructor
      · intro _
        exact ⟨[], e :: k, rfl, ⟨word, hword, hagrees⟩, hbefore⟩
      · intro _
        rfl
    · have htop : (assignment host).top before (e :: (k ++ sep)) = none := by
        cases htop : (assignment host).top before (e :: (k ++ sep)) with
        | none => rfl
        | some way =>
          obtain ⟨word, hword, hagrees⟩ := name_of_mem hk hsep (Pattern.top_mem htop)
          refine absurd ⟨⟨word, hword, hagrees⟩, ?_⟩ hstart
          rw [Pattern.top] at htop
          split at htop
          · next hstarts =>
            have hboundary : (before.any host.isWord != host.isWord e) = true := hstarts
            rw [isWord_of_agrees hword he hagrees] at hboundary
            simpa using hboundary
          · cases htop
      rw [Pattern.opens_of_top_none htop, Option.isSome_map, hrest]
      constructor
      · rintro ⟨x, w, rfl, hword, hlast⟩
        exact ⟨e :: x, w, rfl, hword, hlast⟩
      · rintro ⟨x, w, hxw, hword, hlast⟩
        cases x with
        | nil =>
          rw [List.nil_append] at hxw
          rw [hxw] at hstart
          exact absurd ⟨hword, hlast⟩ hstart
        | cons d x =>
          rw [List.cons_append, List.cons.injEq] at hxw
          obtain ⟨rfl, hk'⟩ := hxw
          exact ⟨x, w, hk', hword, hlast⟩

end Names

/-! ### The text in front of the value -/

section Context

variable {host : Host} {pre k sep x y z : List Char}

theorem star_mem_signs : '*' ∈ signs := by
  decide

theorem agrees_star {p : Char} (hp : p ∈ letters) : host.agrees p '*' = false :=
  agrees_sign hp star_mem_signs

/-- No star is in a head. -/
theorem star_not_mem {way : List Char × List Char} {s : List Char}
    (h : way ∈ assignmentHead host s) : '*' ∉ way.1 := by
  obtain ⟨word, hword, w, q, a, e, b, r, hway, hagrees, hq, ha, he, hb, hr⟩ :=
    assignmentHead_shape h
  have hspace : host.isSpace '*' = false := host.isSpace_visible _ (by decide) (by decide)
  have hspaces : ∀ l : List Char, (∀ c ∈ l, host.isSpace c = true) → '*' ∉ l := by
    intro l hl hmem
    have hstar := hl '*' hmem
    rw [hspace] at hstar
    cases hstar
  rw [hway]
  intro hmem
  rcases List.mem_append.mp hmem with hmem | hmem
  · obtain ⟨p, hp, hpc⟩ := exists_agrees hagrees hmem
    rw [agrees_star (mem_letters_of_word hword hp)] at hpc
    cases hpc
  · rcases List.mem_append.mp hmem with hmem | hmem
    · cases hq '*' hmem
    · rcases List.mem_append.mp hmem with hmem | hmem
      · exact hspaces a ha hmem
      · rcases List.mem_cons.mp hmem with rfl | hmem
        · cases he
        · rcases List.mem_append.mp hmem with hmem | hmem
          · exact hspaces b hb hmem
          · cases hr '*' hmem

/-- The spaces at the end of a head follow `:` or `=`. -/
theorem not_head_r {way : List Char × List Char} {s : List Char}
    (h : way ∈ assignmentHead host s) (x : List Char) : way.1 ≠ x ++ ['r', ' '] := by
  intro heq
  obtain ⟨word, hword, w, q, a, e, b, r, hway, -, -, -, he, hb, hr⟩ := assignmentHead_shape h
  have hrev := congrArg List.reverse (hway.symm.trans heq)
  simp only [List.reverse_append, List.reverse_cons, List.append_assoc, List.cons_append,
    List.nil_append, List.reverse_nil] at hrev
  -- from the end: no quote, one space, and no sign before it
  cases hr' : r.reverse with
  | cons c l =>
    rw [hr', List.cons_append, List.cons.injEq] at hrev
    have hc := hr c (by rw [← List.mem_reverse, hr']; exact List.mem_cons_self)
    rw [hrev.1] at hc
    cases hc
  | nil =>
    rw [hr', List.nil_append] at hrev
    cases hb' : b.reverse with
    | nil =>
      rw [hb', List.nil_append, List.cons.injEq] at hrev
      rw [hrev.1] at he
      cases he
    | cons c l =>
      rw [hb', List.cons_append, List.cons.injEq] at hrev
      cases l with
      | nil =>
        rw [List.nil_append, List.cons.injEq] at hrev
        rw [hrev.2.1] at he
        cases he
      | cons d l =>
        rw [List.cons_append, List.cons.injEq] at hrev
        have hd := hb d (by
          rw [← List.mem_reverse, hb']
          exact List.mem_cons_of_mem c List.mem_cons_self)
        rw [hrev.2.1, host.isSpace_visible 'r' (by decide) (by decide)] at hd
        cases hd

theorem blank_not_value : isValue host ' ' = false := space_not_value host host.isSpace_blank

/-- No head goes over the end of a replaced bearer token. -/
theorem not_top_of_stars {b : Option Char} {u : List Char} {way : List Char × List Char}
    (htop : (assignment host).top b (u ++ 'r' :: ' ' :: (stars ++ z)) = some way) :
    way.2.all (assignment host).run = false := by
  have hmem := Pattern.top_mem htop
  have hcover : way.1 ++ way.2 = (u ++ ['r', ' ']) ++ (stars ++ z) := by
    rw [Pattern.append_of_top htop]
    simp
  rw [Bool.eq_false_iff]
  intro hall
  have hvalue := List.all_eq_true.mp hall
  rcases List.append_eq_append_iff.mp hcover with ⟨t, ht, hrest⟩ | ⟨t, ht, hrest⟩
  · cases hrev : t.reverse with
    | nil =>
      rw [List.reverse_eq_nil_iff.mp hrev, List.append_nil] at ht
      exact not_head_r hmem u ht.symm
    | cons c l =>
      -- the space would be in the run
      have hlast := congrArg List.reverse ht
      simp only [List.reverse_append, hrev, List.reverse_cons, List.reverse_nil, List.nil_append,
        List.cons_append, List.cons.injEq] at hlast
      have hc : c ∈ way.2 := by
        rw [hrest]
        exact List.mem_append_left _ (by rw [← List.mem_reverse, hrev]; exact List.mem_cons_self)
      have hblank := hvalue c hc
      rw [← hlast.1] at hblank
      exact Bool.false_ne_true (blank_not_value.symm.trans hblank)
  · cases t with
    | nil =>
      rw [List.append_nil] at ht
      exact not_head_r hmem u ht
    | cons c t =>
      -- a star would be in the head
      have hc : '*' = c := Option.some.inj (congrArg List.head? hrest)
      refine star_not_mem hmem ?_
      rw [ht, hc]
      exact List.mem_append_right _ List.mem_cons_self

/-- **Behind a replaced bearer token no assignment is open.** -/
theorem closed_of_stars (hsep : IsSeparator host sep) (hz : z <:+ sep) (y : List Char) :
    (assignment host).opens none (y ++ bearerStars ++ z) = none := by
  cases hopens : (assignment host).opens none (y ++ bearerStars ++ z) with
  | none => rfl
  | some out =>
    exfalso
    obtain ⟨b, u, way, -, hu, hne, htop, hall, -⟩ :=
      Pattern.exists_top_of_opens none _ out hopens
    have hsplit : y ++ bearerStars ++ z =
        (y ++ ['B', 'e', 'a', 'r', 'e']) ++ 'r' :: ' ' :: (stars ++ z) := by
      simp [bearerStars, stars]
    have hinert : ∀ c ∈ ' ' :: (stars ++ z), ∀ b s, (assignment host).top b (c :: s) = none := by
      intro c hc
      rcases List.mem_cons.mp hc with rfl | hc
      · exact top_assignment_none fun p hp => agrees_sign hp (by decide)
      · rcases List.mem_append.mp hc with hc | hc
        · refine top_assignment_none fun p hp => ?_
          have hstar : c = '*' := by
            simpa [stars] using hc
          rw [hstar]
          exact agrees_star hp
        · exact (hsep.inert hz).2 c hc
    rw [hsplit] at hu
    have hcases : (∃ u₀, u = u₀ ++ 'r' :: ' ' :: (stars ++ z)) ∨ u <:+ ' ' :: (stars ++ z) := by
      rcases List.suffix_or_suffix_of_suffix hu
        (List.suffix_append _ ('r' :: ' ' :: (stars ++ z))) with hshort | ⟨u₀, hlong⟩
      · rcases List.suffix_cons_iff.mp hshort with heq | hshort
        · exact Or.inl ⟨[], heq⟩
        · exact Or.inr hshort
      · exact Or.inl ⟨u₀, hlong.symm⟩
    rcases hcases with ⟨u₀, rfl⟩ | hshort
    · rw [not_top_of_stars htop] at hall
      cases hall
    · cases u with
      | nil => exact hne rfl
      | cons c u =>
        rw [hinert c (hshort.subset List.mem_cons_self)] at htop
        cases htop

theorem words_end : ∀ word ∈ assignmentWords, word.toList.reverse.head? ≠ some 'r' := by
  decide

theorem agrees_reverse {word w : List Char} (h : Agrees host word w) :
    Agrees host word.reverse w.reverse :=
  List.forall₂_reverse_iff.mpr h

/-- No name ends both in `bearer` and in a secret word. -/
theorem not_both {before : Option Char} {w : List Char} (hk : k = x ++ w)
    (hw : Agrees host "bearer".toList w) : ¬ EndsInWord host before k := by
  rintro ⟨x', w', hk', ⟨word, hword, hagrees⟩, -⟩
  have hrev := congrArg List.reverse (hk.symm.trans hk')
  rw [List.reverse_append, List.reverse_append] at hrev
  have hbearer := agrees_reverse hw
  rw [show "bearer".toList.reverse = ['r', 'e', 'r', 'a', 'e', 'b'] from rfl] at hbearer
  obtain ⟨c, l, hc, -, hwc⟩ := List.forall₂_cons_left_iff.mp hbearer
  have hends := words_end word hword
  cases hwr : word.toList.reverse with
  | nil => exact words_ne_nil word hword (List.reverse_eq_nil_iff.mp hwr)
  | cons p u =>
    have hreverse := agrees_reverse hagrees
    rw [hwr] at hreverse hends
    obtain ⟨c', l', hc', -, hwc'⟩ := List.forall₂_cons_left_iff.mp hreverse
    rw [hwc, hwc', List.cons_append, List.cons_append, List.cons.injEq] at hrev
    rw [← hrev.1] at hc'
    have hp : p ∈ letters :=
      mem_letters_of_word hword (by rw [← List.mem_reverse, hwr]; exact List.mem_cons_self)
    refine hends ?_
    rw [List.head?_cons, agrees_unique hp (by decide) hc' hc]

/-- **The text in front of a value, with its bearer tokens replaced.** -/
theorem context_cases (hk : IsSecret host k) (hsep : IsSeparator host sep) (pre : List Char) :
    (∃ y z, (bearer host).sub none (pre ++ (k ++ sep)) = y ++ bearerStars ++ z ∧ z <:+ sep ∧
      ¬ Covered host pre k sep) ∨
    ((bearer host).opens none pre = none ∧
      (bearer host).sub none (pre ++ (k ++ sep)) = (bearer host).sub none pre ++ (k ++ sep) ∧
      (bearer host).opens none (pre ++ (k ++ sep)) = none) := by
  have hsettled := (settled_secret hk hsep pre).1
  cases hopens : (bearer host).opens none pre with
  | some out =>
    have hhead : (k ++ sep).head?.any (bearer host).run = true := by
      cases hks : k ++ sep with
      | nil => exact absurd (List.append_eq_nil_iff.mp hks).1 hk.ne_nil
      | cons c s => exact identifier_token (hk.head sep c (by rw [hks]; rfl))
    have hdrop : (k ++ sep).dropWhile (bearer host).run <:+ sep := by
      have hall : k.all (bearer host).run = true :=
        List.all_eq_true.mpr fun c hc => identifier_token (hk.identifier c hc)
      rw [Pattern.dropWhile_of_all hall]
      exact List.dropWhile_suffix _
    obtain ⟨-, -, way, y, -, -, -, -, rfl⟩ := Pattern.exists_top_of_opens none pre out hopens
    refine Or.inl ⟨y, (k ++ sep).dropWhile (bearer host).run, ?_, hdrop, fun hcovered => ?_⟩
    · rw [Pattern.sub_append_of_open hhead none pre _ hsettled hopens,
        Pattern.sub_of_inert (hsep.inert hdrop).1]
      rfl
    · rw [hcovered.1] at hopens
      cases hopens
  | none =>
    have hsub := Pattern.sub_append_of_closed (k ++ sep) none pre hsettled hopens
    rcases bearer_name hk.identifier hsep (last none pre) with
      ⟨hsame, hnone⟩ | ⟨y, z, hsome, hz, ⟨x, w, hx, hw⟩, c, hc, hspace⟩
    · refine Or.inr ⟨rfl, by rw [hsub, hsame], ?_⟩
      rw [Pattern.opens_append_of_closed (k ++ sep) none pre hsettled hopens, hnone]
      rfl
    · refine Or.inl ⟨(bearer host).sub none pre ++ y, z, ?_, hz, fun hcovered => ?_⟩
      · rw [hsub, hsome]
        simp only [List.append_assoc]
      · obtain ⟨-, hreach⟩ := hcovered
        split at hreach
        · rw [hreach c hc] at hspace
          cases hspace
        · exact not_both hx hw hreach

/-- Some sign, and spaces, stand in front of the value. -/
theorem exists_anchor (hk : IsSecret host k) (hsep : IsSeparator host sep) (pre : List Char) :
    ∃ x d t, (bearer host).sub none (pre ++ (k ++ sep)) = x ++ d :: t ∧ d ∈ anchors ∧
      ∀ c ∈ t, host.isSpace c = true := by
  have hassign : ∀ c, isAssign c = true → c ∈ anchors := by
    intro c hc
    rw [isAssign, Bool.or_eq_true, decide_eq_true_iff, decide_eq_true_iff] at hc
    rcases hc with rfl | rfl <;> decide
  rcases context_cases hk hsep pre with ⟨y, z, hsub, hz, -⟩ | ⟨-, hsub, -⟩
  · obtain ⟨a, c, b, rfl, hc, ha, hb⟩ := hsep
    have hsplit : ∃ x d t, bearerStars ++ z = x ++ d :: t ∧ d ∈ anchors ∧
        ∀ c ∈ t, host.isSpace c = true := by
      rcases List.suffix_or_suffix_of_suffix hz (List.suffix_append a (c :: b)) with
        hshort | ⟨z₀, hlong⟩
      · rcases List.suffix_cons_iff.mp hshort with heq | hshort
        · exact ⟨bearerStars, c, b, by rw [heq], hassign c hc, hb⟩
        · exact ⟨['B', 'e', 'a', 'r', 'e', 'r', ' ', '*', '*', '*'], '*', z, rfl, by decide,
            fun d hd => hb d (hshort.subset hd)⟩
      · exact ⟨bearerStars ++ z₀, c, b, by rw [← hlong, List.append_assoc], hassign c hc, hb⟩
    obtain ⟨x, d, t, hx, hd, ht⟩ := hsplit
    exact ⟨y ++ x, d, t, by rw [hsub, List.append_assoc, hx, List.append_assoc], hd, ht⟩
  · obtain ⟨a, c, b, rfl, hc, ha, hb⟩ := hsep
    refine ⟨(bearer host).sub none pre ++ (k ++ a), c, b, ?_, hassign c hc, hb⟩
    rw [hsub]
    simp only [List.append_assoc]

theorem assign_value {c : Char} (hc : isAssign c = true) : isValue host c = true := by
  rw [isAssign, Bool.or_eq_true, decide_eq_true_iff, decide_eq_true_iff] at hc
  rcases hc with rfl | rfl
  · exact value_of_visible (by decide)
  · exact value_of_visible (by decide)

/-- A separator without spaces may be part of a value. -/
theorem separator_all (hk : IsSecret host k) (hsep : IsSeparator host sep) :
    (k ++ sep).all (assignment host).run = true ↔ ∀ c ∈ sep, host.isSpace c = false := by
  rw [List.all_append, Bool.and_eq_true, List.all_eq_true, List.all_eq_true]
  constructor
  · rintro ⟨-, hall⟩ c hc
    exact (isValue_iff.mp (hall c hc)).2.1
  · intro hnospace
    refine ⟨fun c hc => identifier_value (hk.identifier c hc), fun c hc => ?_⟩
    obtain ⟨a, d, b, rfl, hd, ha, hb⟩ := hsep
    have hspace := hnospace c hc
    rcases List.mem_append.mp hc with hc | hc
    · rw [ha c hc] at hspace
      cases hspace
    · rcases List.mem_cons.mp hc with rfl | hc
      · exact assign_value hd
      · rw [hb c hc] at hspace
        cases hspace

/-- **An assignment reaches the value, just if it is covered.** -/
theorem opens_iff (hk : IsSecret host k) (hsep : IsSeparator host sep) (pre : List Char) :
    ((assignment host).opens none
      ((bearer host).sub none (pre ++ (k ++ sep)))).isSome = true ↔ Covered host pre k sep := by
  rcases context_cases hk hsep pre with ⟨y, z, hsub, hz, hnot⟩ | ⟨hnone, hsub, -⟩
  · rw [hsub, closed_of_stars hsep hz y]
    constructor
    · intro h
      cases h
    · intro h
      exact absurd h hnot
  · have hsettled := (settled_secret hk hsep ((bearer host).sub none pre)).2
    rw [hsub, Covered, hnone]
    cases hopens : (assignment host).opens none ((bearer host).sub none pre) with
    | some out =>
      -- the name continues the value of another assignment
      have hhead : (k ++ sep).head?.any (assignment host).run = true := by
        cases hks : k ++ sep with
        | nil => exact absurd (List.append_eq_nil_iff.mp hks).1 hk.ne_nil
        | cons c s => exact identifier_value (hk.head sep c (by rw [hks]; rfl))
      have hdrop : (k ++ sep).dropWhile (assignment host).run <:+ sep := by
        have hall : k.all (assignment host).run = true :=
          List.all_eq_true.mpr fun c hc => identifier_value (hk.identifier c hc)
        rw [Pattern.dropWhile_of_all hall]
        exact List.dropWhile_suffix _
      rw [Pattern.opens_append_of_open hhead none _ out hsettled hopens,
        Pattern.opens_of_inert (hsep.inert hdrop).2, if_pos (Option.isSome_some),
        ← separator_all hk hsep]
      split
      · next hall => simp [hall]
      · next hall => simp [hall]
    | none =>
      rw [Pattern.opens_append_of_closed (k ++ sep) none _ hsettled hopens, Option.isSome_map,
        Pattern.last_sub none pre hnone none, opens_name hk.identifier hsep]
      simp

end Context

/-! ### The value and what follows -/

section Values

variable {host : Host} {pre k sep post v x : List Char}

/-- The two replacements, one after the other. -/
def sanitized (host : Host) (text : List Char) : List Char :=
  (assignment host).sub none ((bearer host).sub none text)

theorem sanitizeError_eq (host : Host) (text : List Char) :
    sanitizeError host (String.ofList text) = String.ofList (sanitized host text) := by
  rw [sanitizeError, assignment_sub_eq, bearer_sub_eq, String.toList_ofList]
  rfl

theorem bearer_sub_before (b b' : Option Char) (s : List Char) :
    (bearer host).sub b s = (bearer host).sub b' s := by
  cases s with
  | nil => rfl
  | cons c s => rfl

/-- The first character of a text with its bearer tokens replaced. -/
theorem head_bearer (host : Host) (b : Option Char) (c : Char) (s : List Char) :
    ∃ d r, (bearer host).sub b (c :: s) = d :: r ∧ (d = c ∨ d = 'B') := by
  cases hfind : (bearer host).find b (c :: s) with
  | none => exact ⟨c, _, Pattern.sub_of_find_none hfind, Or.inl rfl⟩
  | some way =>
    rw [Pattern.find_eq, Option.filter_eq_some_iff] at hfind
    exact ⟨'B', _, Pattern.sub_of_top hfind.1 hfind.2, Or.inr rfl⟩

/-- An assignment leaves its first character. -/
theorem head_assignment (host : Host) (b : Option Char) (c : Char) (s : List Char) :
    ∃ r, (assignment host).sub b (c :: s) = c :: r := by
  cases hfind : (assignment host).find b (c :: s) with
  | none => exact ⟨_, Pattern.sub_of_find_none hfind⟩
  | some way =>
    rw [Pattern.find_eq, Option.filter_eq_some_iff] at hfind
    obtain ⟨d, l, hway, -⟩ := assignmentHead_first host _ way (Pattern.top_mem hfind.1)
    have hcover := Pattern.append_of_top hfind.1
    rw [hway, List.cons_append, List.cons.injEq] at hcover
    refine ⟨(l ++ stars) ++ (assignment host).sub none (way.2.dropWhile (assignment host).run),
      ?_⟩
    rw [Pattern.sub_of_top hfind.1 hfind.2, ← hcover.1]
    show way.1 ++ stars ++ _ = _
    rw [hway]
    rfl

/-- Behind the separator, no head depends on a value. -/
theorem settled_value (hsep : IsSeparator host sep) (pre : List Char) {s : List Char}
    (hs : ∀ c ∈ s.head?, isValue host c = true) :
    (bearer host).Settled (pre ++ (k ++ sep)) s := by
  obtain ⟨a, e, b, rfl, he, -, hb⟩ := hsep
  have hanchor : e ∈ anchors := by
    rw [isAssign, Bool.or_eq_true, decide_eq_true_iff, decide_eq_true_iff] at he
    rcases he with rfl | rfl <;> decide
  have hsplit : pre ++ (k ++ (a ++ e :: b)) = (pre ++ (k ++ a)) ++ e :: b := by
    simp only [List.append_assoc]
  rw [hsplit]
  exact (settled_left hanchor hb (fun c hc => (isValue_iff.mp (hs c hc)).2.1)
    fun c hc => (isValue_iff.mp (hs c hc)).1).1

theorem settled_replaced (hk : IsSecret host k) (hsep : IsSeparator host sep) (pre : List Char)
    {s : List Char} (hs : ∀ c ∈ s.head?, isValue host c = true) :
    (assignment host).Settled ((bearer host).sub none (pre ++ (k ++ sep))) s := by
  obtain ⟨x, d, t, hx, hd, ht⟩ := exists_anchor hk hsep pre
  rw [hx]
  exact (settled_left hd ht (fun c hc => (isValue_iff.mp (hs c hc)).2.1)
    fun c hc => (isValue_iff.mp (hs c hc)).1).2

theorem mark_value {c : Char} (hc : c ∈ ['!', '#']) : isValue host c = true := by
  rcases List.mem_pair.mp hc with rfl | rfl
  · exact value_of_visible (by decide)
  · exact value_of_visible (by decide)

theorem mark_not_token {c : Char} (hc : c ∈ ['!', '#']) : isToken host c = false := by
  rcases List.mem_pair.mp hc with rfl | rfl
  · exact not_token (by decide)
  · exact not_token (by decide)

theorem mark_agrees {c : Char} (hc : c ∈ ['!', '#']) :
    ∀ p ∈ letters, host.agrees p c = false := by
  intro p hp
  rcases List.mem_pair.mp hc with rfl | rfl
  · exact agrees_sign hp (by decide)
  · exact agrees_sign hp (by decide)

/-- A mark as the value is in front of all that it does not change. -/
theorem bearer_of_mark (hsep : IsSeparator host sep) (pre post : List Char) {c : Char}
    (hc : c ∈ ['!', '#']) : ∃ r, (bearer host).sub none (pre ++ (k ++ sep) ++ c :: post) =
      (bearer host).sub none (pre ++ (k ++ sep)) ++ c :: r := by
  have hstops : (bearer host).Stops (c :: post) := by
    intro d hd
    rw [List.head?_cons, Option.mem_some_iff] at hd
    rw [← hd]
    exact mark_not_token hc
  have hvalue : ∀ d ∈ (c :: post).head?, isValue host d = true := by
    intro d hd
    rw [List.head?_cons, Option.mem_some_iff] at hd
    rw [← hd]
    exact mark_value hc
  refine ⟨(bearer host).sub (some c) post, ?_⟩
  rw [Pattern.sub_append_of_stops hstops none _ (settled_value hsep pre hvalue),
    Pattern.sub_of_find_none (Pattern.find_none_of_top
      (Pattern.top_of_not_run (mark_not_token hc)))]

/-- **Where no assignment reaches the value, a mark is shown.** -/
theorem sanitized_of_mark (hk : IsSecret host k) (hsep : IsSeparator host sep)
    (hnot : ¬ Covered host pre k sep) (post : List Char) {c : Char} (hc : c ∈ ['!', '#']) :
    ∃ r, sanitized host (pre ++ (k ++ sep) ++ c :: post) =
      sanitized host (pre ++ (k ++ sep)) ++ c :: r := by
  obtain ⟨r, hr⟩ := bearer_of_mark (k := k) hsep pre post hc
  have hopens : (assignment host).opens none ((bearer host).sub none (pre ++ (k ++ sep))) =
      none := by
    rw [← Option.not_isSome_iff_eq_none, opens_iff hk hsep pre]
    exact hnot
  have hvalue : ∀ d ∈ (c :: r).head?, isValue host d = true := by
    intro d hd
    rw [List.head?_cons, Option.mem_some_iff] at hd
    rw [← hd]
    exact mark_value hc
  refine ⟨(assignment host).sub (some c) r, ?_⟩
  rw [sanitized, hr, Pattern.sub_append_of_closed (c :: r) none _
    (settled_replaced hk hsep pre hvalue) hopens,
    Pattern.sub_of_find_none (Pattern.find_none_of_top (top_assignment_none (mark_agrees hc) _ _))]
  rfl

theorem text_eq (pre k sep v post : List Char) :
    pre ++ k ++ sep ++ v ++ post = pre ++ (k ++ sep) ++ (v ++ post) := by
  simp only [List.append_assoc]

/-- **Without an assignment that reaches it, a value is not hidden.** -/
theorem not_hides (hk : IsSecret host k) (hsep : IsSeparator host sep)
    (hnot : ¬ Covered host pre k sep) (post : List Char) : ¬ Hides host pre k sep post := by
  intro hhides
  have htext : ∀ c ∈ ['!', '#'], IsText host [c] := by
    intro c hc
    refine ⟨List.cons_ne_nil c [], fun d hd => ?_⟩
    rw [List.mem_singleton.mp hd]
    exact mark_value hc
  have hsame := hhides ['!'] ['#'] (htext '!' (by decide)) (htext '#' (by decide))
  rw [sanitizeError_eq, sanitizeError_eq, text_eq, text_eq] at hsame
  obtain ⟨r, hr⟩ := sanitized_of_mark hk hsep hnot post (c := '!') (by decide)
  obtain ⟨r', hr'⟩ := sanitized_of_mark hk hsep hnot post (c := '#') (by decide)
  have heq := String.ofList_injective hsame
  rw [List.singleton_append, List.singleton_append, hr, hr', List.append_cancel_left_eq,
    List.cons.injEq] at heq
  exact absurd heq.1 (by decide)

/-- **Where an assignment reaches the value, the result begins with what is in front of it, and
goes on behind the characters that may be part of a value.** -/
theorem sanitized_of_covered (hk : IsSecret host k) (hsep : IsSeparator host sep)
    (hcovered : Covered host pre k sep) : ∃ out, ∀ v post, IsText host v →
      sanitized host (pre ++ (k ++ sep) ++ (v ++ post)) = out ++ (assignment host).sub none
        (((bearer host).sub none (v ++ post)).dropWhile (isValue host)) := by
  have hclosed : (bearer host).opens none (pre ++ (k ++ sep)) = none := by
    rcases context_cases hk hsep pre with ⟨-, -, -, -, hnot⟩ | ⟨-, -, hclosed⟩
    · exact absurd hcovered hnot
    · exact hclosed
  obtain ⟨out, hout⟩ := Option.isSome_iff_exists.mp ((opens_iff hk hsep pre).mpr hcovered)
  refine ⟨out, fun v post hv => ?_⟩
  obtain ⟨c, l, rfl⟩ := List.exists_cons_of_ne_nil hv.ne_nil
  have hc : isValue host c = true := hv.value c List.mem_cons_self
  have hvalue : ∀ d ∈ (c :: l ++ post).head?, isValue host d = true := by
    intro d hd
    rw [List.cons_append, List.head?_cons, Option.mem_some_iff] at hd
    rw [← hd]
    exact hc
  obtain ⟨d, r, hdr, hd⟩ := head_bearer host none c (l ++ post)
  have hdvalue : isValue host d = true := by
    rcases hd with rfl | rfl
    · exact hc
    · exact value_of_visible (by decide)
  have hrvalue : ∀ e ∈ (d :: r).head?, isValue host e = true := by
    intro e he
    rw [List.head?_cons, Option.mem_some_iff] at he
    rw [← he]
    exact hdvalue
  rw [sanitized, Pattern.sub_append_of_closed _ none _ (settled_value hsep pre hvalue) hclosed,
    bearer_sub_before (last none (pre ++ (k ++ sep))) none, List.cons_append, hdr]
  have hany : (d :: r).head?.any (assignment host).run = true := hdvalue
  exact Pattern.sub_append_of_open hany none _ out (settled_replaced hk hsep pre hrvalue) hout

/-- A bearer token that begins in a value resumes behind it. -/
theorem resumes_of_find {b : Option Char} {way : List Char × List Char}
    (hv : v ≠ []) (hvalue : ∀ c ∈ v, isValue host c = true)
    (h : (bearer host).find b (v ++ post) = some way) : Resumes host post := by
  rw [Pattern.find_eq, Option.filter_eq_some_iff] at h
  obtain ⟨htop, hany⟩ := h
  obtain ⟨w, blanks, hway, hword, hne, hblanks, -, hcover⟩ :=
    mem_bearerHead.mp (Pattern.top_mem htop)
  obtain ⟨t, rest, hrest⟩ : ∃ t rest, way.2 = t :: rest := by
    cases hrest : way.2 with
    | nil =>
      rw [hrest] at hany
      cases hany
    | cons t rest => exact ⟨t, rest, rfl⟩
  have ht : isToken host t = true := by
    rw [hrest] at hany
    exact hany
  rw [hway, hrest, List.append_assoc] at hcover
  rcases List.append_eq_append_iff.mp hcover with ⟨u, hu, hpost⟩ | ⟨w', hw', hpost⟩
  · -- the value has no space, so it ends with the word
    cases u with
    | nil =>
      rw [List.append_nil] at hu
      rw [List.nil_append] at hpost
      exact ⟨"bearer".toList, [], [], blanks, t, rest, (List.append_nil _).symm, by decide,
        hpost.symm, List.Forall₂.nil, hne, hblanks, ht⟩
    | cons c u =>
      obtain ⟨d, l, rfl⟩ := List.exists_cons_of_ne_nil hne
      rw [List.cons_append, List.cons_append, List.cons.injEq] at hpost
      have hd := hblanks d List.mem_cons_self
      have hcvalue := hvalue c (by rw [hu]; exact List.mem_append_right _ List.mem_cons_self)
      rw [← hpost.1, space_not_value host hd] at hcvalue
      cases hcvalue
  · rw [hw'] at hword
    have htake := List.forall₂_take_append _ _ _ hword
    have hdrop := List.forall₂_drop_append _ _ _ hword
    refine ⟨"bearer".toList.take v.length, "bearer".toList.drop v.length, w', blanks, t, rest,
      (List.take_append_drop _ _).symm, ?_, hpost, hdrop, hne, hblanks, ht⟩
    intro hnil
    rw [hnil] at htake
    exact hv (List.forall₂_nil_left_iff.mp htake)

/-- No token begins in a value behind which none resumes. -/
theorem bearer_of_not_resumes (hpost : ¬ Resumes host post)
    (hvalue : ∀ c ∈ v, isValue host c = true) :
    (bearer host).sub none (v ++ post) = v ++ (bearer host).sub none post := by
  induction v with
  | nil => rfl
  | cons c v ih =>
    have hfind : (bearer host).find none (c :: v ++ post) = none := by
      cases hfind : (bearer host).find none (c :: v ++ post) with
      | none => rfl
      | some way =>
        exact absurd (resumes_of_find (List.cons_ne_nil c v) hvalue hfind) hpost
    rw [List.cons_append] at hfind
    rw [List.cons_append, Pattern.sub_of_find_none hfind, bearer_sub_before (some c) none,
      ih fun d hd => hvalue d (List.mem_cons_of_mem c hd)]
    rfl

/-- Where no token resumes, the value does not matter. -/
theorem hides_of_covered (hk : IsSecret host k) (hsep : IsSeparator host sep)
    (hcovered : Covered host pre k sep) (hpost : ¬ Resumes host post) :
    Hides host pre k sep post := by
  obtain ⟨out, hout⟩ := sanitized_of_covered hk hsep hcovered
  have hresult : ∀ v, IsText host v → sanitized host (pre ++ (k ++ sep) ++ (v ++ post)) =
      out ++ (assignment host).sub none
        (((bearer host).sub none post).dropWhile (isValue host)) := by
    intro v hv
    rw [hout v post hv, bearer_of_not_resumes hpost hv.value,
      List.dropWhile_append_of_pos hv.value]
  intro v w hv hw
  rw [sanitizeError_eq, sanitizeError_eq, text_eq, text_eq, hresult v hv, hresult w hw]

/-- The letters that resume a token begin none. -/
theorem resumed_letters : ∀ p ∈ "bearer".toList.tail, p ∈ letters ∧ p ≠ 'b' :=
  List.all_iff_forall_prop.mp (by decide)

/-- What follows a value is shown from its first space on, unless a token begins in the value. -/
theorem shown_of_resumes {w₁ w₂ w blanks : List Char} {t : Char} (rest : List Char)
    (hsplit : "bearer".toList = w₁ ++ w₂) (hne : w₁ ≠ []) (hw : Agrees host w₂ w)
    (hblanks : blanks ≠ []) (hspace : ∀ c ∈ blanks, host.isSpace c = true)
    (ht : isToken host t = true) : ∃ c d r, (assignment host).sub none
      (((bearer host).sub none (w ++ (blanks ++ t :: rest))).dropWhile (isValue host)) =
        c :: d :: r ∧ d ≠ '*' := by
  have hstar : host.isSpace '*' = false := host.isSpace_visible _ (by decide) (by decide)
  have hletters : ∀ p ∈ w₂, p ∈ letters ∧ p ≠ 'b' := by
    intro p hp
    refine resumed_letters p ?_
    obtain ⟨q, l, rfl⟩ := List.exists_cons_of_ne_nil hne
    rw [hsplit]
    exact List.mem_append_right l hp
  have hinert : ∀ c ∈ w ++ blanks, ∀ b s, (bearer host).top b (c :: s) = none := by
    intro c hc
    refine top_bearer_none ?_
    rcases List.mem_append.mp hc with hc | hc
    · obtain ⟨p, hp, hpc⟩ := exists_agrees hw hc
      rw [Bool.eq_false_iff]
      intro hbc
      exact (hletters p hp).2 (agrees_unique (hletters p hp).1 mem_letters_b hpc hbc)
    · exact space_agrees mem_letters_b (hspace c hc)
  have hwvalue : ∀ c ∈ w, isValue host c = true := by
    intro c hc
    obtain ⟨p, hp, hpc⟩ := exists_agrees hw hc
    exact value_of_agrees (hletters p hp).1 hpc
  obtain ⟨e, r, her, he⟩ := head_bearer host (last none (w ++ blanks)) t rest
  have hestar : e ≠ '*' := by
    rintro rfl
    rcases he with rfl | he
    · rw [not_token (by decide)] at ht
      cases ht
    · exact absurd he (by decide)
  obtain ⟨c, l, rfl⟩ := List.exists_cons_of_ne_nil hblanks
  have hc := hspace c List.mem_cons_self
  have hcvalue : isValue host c = false := space_not_value host hc
  have hpass : ∀ s, (assignment host).sub none (c :: s) = c :: (assignment host).sub (some c) s := by
    intro s
    exact Pattern.sub_of_find_none (Pattern.find_none_of_top (Pattern.top_of_not_run hcvalue))
  rw [← List.append_assoc, Pattern.sub_append_of_inert hinert, her, List.append_assoc,
    List.dropWhile_append_of_pos hwvalue, List.cons_append,
    List.dropWhile_cons_of_neg (by rw [hcvalue]; exact Bool.false_ne_true), hpass]
  cases l with
  | nil =>
    obtain ⟨r', hr'⟩ := head_assignment host (some c) e r
    exact ⟨c, e, r', by rw [List.nil_append, hr'], hestar⟩
  | cons d l =>
    obtain ⟨r', hr'⟩ := head_assignment host (some c) d (l ++ e :: r)
    refine ⟨c, d, r', by rw [List.cons_append, hr'], ?_⟩
    rintro rfl
    rw [hspace '*' (List.mem_cons_of_mem c List.mem_cons_self)] at hstar
    cases hstar

theorem agrees_refl : ∀ w : List Char, (∀ p ∈ w, p ∈ letters) → Agrees host w w := by
  intro w hw
  refine List.forall₂_same.mpr fun p hp => ?_
  obtain ⟨-, hlt, -, -⟩ := letters_spec p (hw p hp)
  rw [host.agrees_ascii p p (by omega) (by omega)]
  exact decide_eq_true rfl

/-- A token that begins in a value is replaced, with a star behind its first space. -/
theorem stars_of_resumes {w₁ w₂ w blanks : List Char} {t : Char} (rest : List Char)
    (hsplit : "bearer".toList = w₁ ++ w₂) (hw₁ : Agrees host w₁ w₁) (hw : Agrees host w₂ w)
    (hblanks : blanks ≠ []) (hspace : ∀ c ∈ blanks, host.isSpace c = true)
    (ht : isToken host t = true) : ∃ r, (assignment host).sub none
      (((bearer host).sub none (w₁ ++ (w ++ (blanks ++ t :: rest)))).dropWhile (isValue host)) =
        ' ' :: '*' :: r := by
  have hmem : (w₁ ++ w ++ blanks, t :: rest) ∈
      bearerHead host (w₁ ++ (w ++ (blanks ++ t :: rest))) := by
    refine mem_bearerHead.mpr ⟨w₁ ++ w, blanks, rfl, ?_, hblanks, hspace, ?_, ?_⟩
    · rw [hsplit]
      exact List.rel_append hw₁ hw
    · intro c hc
      rw [List.head?_cons, Option.mem_some_iff] at hc
      rw [← hc]
      exact space_of_token ht
    · simp only [List.append_assoc]
  have htop : (bearer host).top none (w₁ ++ (w ++ (blanks ++ t :: rest))) =
      some (w₁ ++ w ++ blanks, t :: rest) := Pattern.top_of_mem rfl hmem
  have hword : ∀ c ∈ ['B', 'e', 'a', 'r', 'e', 'r'], isValue host c = true := by
    have hvisible : ∀ c ∈ ['B', 'e', 'a', 'r', 'e', 'r'], c ∈ ":=Bear!#".toList :=
      List.all_iff_forall_prop.mp (by decide)
    exact fun c hc => value_of_visible (hvisible c hc)
  have hstars : ∀ s, (bearerStars ++ s).dropWhile (isValue host) = ' ' :: '*' :: '*' :: '*' ::
      '*' :: s := by
    intro s
    show (['B', 'e', 'a', 'r', 'e', 'r'] ++ ' ' :: '*' :: '*' :: '*' :: '*' :: s).dropWhile _ = _
    rw [List.dropWhile_append_of_pos hword,
      List.dropWhile_cons_of_neg (by rw [blank_not_value]; exact Bool.false_ne_true)]
  rw [Pattern.sub_of_top htop ht]
  show ∃ r, (assignment host).sub none ((bearerStars ++ _).dropWhile _) = _
  rw [hstars, Pattern.sub_of_find_none
    (Pattern.find_none_of_top (Pattern.top_of_not_run blank_not_value))]
  obtain ⟨r, hr⟩ := head_assignment host (some ' ') '*' _
  exact ⟨r, by rw [hr]⟩

/-- **Letters of `bearer` as the value, where a token resumes, are told from a mark.** -/
theorem not_hides_of_resumes (hk : IsSecret host k) (hsep : IsSeparator host sep)
    (hcovered : Covered host pre k sep) (hpost : Resumes host post) :
    ¬ Hides host pre k sep post := by
  intro hhides
  obtain ⟨out, hout⟩ := sanitized_of_covered hk hsep hcovered
  obtain ⟨w₁, w₂, w, blanks, t, rest, hsplit, hne, rfl, hw, hblanks, hspace, ht⟩ := hpost
  have hletters : ∀ p ∈ w₁, p ∈ letters := by
    intro p hp
    exact bearer_letters p (by rw [hsplit]; exact List.mem_append_left w₂ hp)
  have hrefl : Agrees host w₁ w₁ := agrees_refl w₁ hletters
  have hletter : IsText host w₁ := by
    refine ⟨hne, fun c hc => ?_⟩
    obtain ⟨p, hp, hpc⟩ := exists_agrees hrefl hc
    exact value_of_agrees (hletters p hp) hpc
  have hmark : IsText host ['!'] := by
    refine ⟨List.cons_ne_nil '!' [], fun c hc => ?_⟩
    rw [List.mem_singleton.mp hc]
    exact mark_value (by decide)
  have hsame := hhides w₁ ['!'] hletter hmark
  rw [sanitizeError_eq, sanitizeError_eq, text_eq, text_eq] at hsame
  have heq := String.ofList_injective hsame
  have hpass : (bearer host).sub none (['!'] ++ (w ++ (blanks ++ t :: rest))) =
      '!' :: (bearer host).sub none (w ++ (blanks ++ t :: rest)) := by
    rw [List.singleton_append, Pattern.sub_of_find_none (Pattern.find_none_of_top
      (Pattern.top_of_not_run (mark_not_token (by decide)))), bearer_sub_before _ none]
  obtain ⟨r, hr⟩ := stars_of_resumes rest hsplit hrefl hw hblanks hspace ht
  obtain ⟨c, d, r', hr', hd⟩ :=
    shown_of_resumes rest hsplit hne hw hblanks hspace ht
  rw [hout w₁ _ hletter, hout ['!'] _ hmark, hpass,
    List.dropWhile_cons_of_pos (mark_value (by decide)), hr, hr', List.append_cancel_left_eq,
    List.cons.injEq, List.cons.injEq] at heq
  exact hd heq.2.1.symm

end Values

/-! ### The main results -/

/-- **A value behind a secret name is hidden, just if it is covered and no token resumes behind
it.** -/
theorem hides_iff (host : Host) {k sep : List Char} (hk : IsSecret host k)
    (hsep : IsSeparator host sep) (pre post : List Char) :
    Hides host pre k sep post ↔ Covered host pre k sep ∧ ¬ Resumes host post := by
  constructor
  · intro hhides
    have hcovered : Covered host pre k sep := by
      by_contra hnot
      exact not_hides hk hsep hnot post hhides
    exact ⟨hcovered, fun hpost => not_hides_of_resumes hk hsep hcovered hpost hhides⟩
  · rintro ⟨hcovered, hpost⟩
    exact hides_of_covered hk hsep hcovered hpost

namespace Sample

theorem lower_spec : ∀ n < 127, 33 ≤ n → [' ', '\t', '\r', '\n'].all (fun c =>
    decide ((Char.ofNat n).toLower ≠ c.toLower)) = true := by
  decide

theorem mem_of_whitespace {c : Char} (h : c.isWhitespace = true) :
    c ∈ [' ', '\t', '\r', '\n'] := by
  simpa [Char.isWhitespace, or_assoc] using h

theorem isWhitespace_visible (c : Char) (hge : 33 ≤ c.toNat) (_ : c.toNat < 127) :
    c.isWhitespace = false := by
  rw [Bool.eq_false_iff]
  intro h
  have hmem := mem_of_whitespace h
  have hlow : ∀ c ∈ [' ', '\t', '\r', '\n'], c.toNat < 33 :=
    List.all_iff_forall_prop.mp (by decide)
  have hlt := hlow c hmem
  omega

theorem agrees_visible (p c : Char) (hge : 33 ≤ p.toNat) (hlt : p.toNat < 127)
    (h : decide (p.toLower = c.toLower) = true) : c.isWhitespace = false := by
  rw [Bool.eq_false_iff]
  intro hspace
  have hne := List.all_iff_forall_prop.mp (lower_spec p.toNat hlt hge) c
    (mem_of_whitespace hspace)
  rw [Char.ofNat_toNat] at hne
  exact hne (of_decide_eq_true h)

theorem lower_ascii (text : String) (_ : ∀ c ∈ text.toList, c.toNat < 128) :
    (asciiLower text).toList = text.toList.map Char.toLower := String.toList_ofList

theorem isWord_ascii (c : Char) (_ : c.toNat < 128) :
    (c.isAlphanum || c = '_') = (c.isAlphanum || c = '_') := rfl

theorem agrees_ascii (p c : Char) (_ : p.toNat < 128) (_ : c.toNat < 128) :
    decide (p.toLower = c.toLower) = decide (p.toLower = c.toLower) := rfl

theorem agrees_unique (p q c : Char) (_ : p.toNat < 128) (_ : q.toNat < 128)
    (h : decide (p.toLower = c.toLower) = true) (h' : decide (q.toLower = c.toLower) = true) :
    p.toLower = q.toLower :=
  (of_decide_eq_true h).trans (of_decide_eq_true h').symm

/-- Letters and spaces of ASCII only. -/
def texts : Host where
  lower := asciiLower
  isSpace := Char.isWhitespace
  isWord c := c.isAlphanum || c = '_'
  agrees p c := decide (p.toLower = c.toLower)
  lower_ascii := lower_ascii
  isSpace_blank := rfl
  isSpace_visible := isWhitespace_visible
  isWord_ascii := isWord_ascii
  agrees_ascii := agrees_ascii
  agrees_unique := agrees_unique
  agrees_visible := agrees_visible

def dbPassword : List Char := "db_password".toList

theorem dbPassword_secret : IsSecret texts dbPassword :=
  ⟨List.all_eq_true.mp (by decide), by decide⟩

theorem token_secret : IsSecret texts "token".toList :=
  ⟨List.all_eq_true.mp (by decide), by decide⟩

theorem assign_separator : IsSeparator texts ['='] :=
  ⟨[], '=', [], rfl, rfl, List.forall_mem_nil _, List.forall_mem_nil _⟩

theorem isText {c : Char} (hc : isValue texts c = true) : IsText texts [c] :=
  ⟨List.cons_ne_nil c [], List.forall_mem_singleton.mpr hc⟩

end Sample

/-- **What is assigned to `db_password` is shown.** -/
theorem db_password_shown : ¬ HidesSecrets Sample.texts := by
  intro hhides
  have hsame := hhides [] Sample.dbPassword ['='] [] Sample.dbPassword_secret
    Sample.assign_separator ['a'] ['b'] (Sample.isText rfl) (Sample.isText rfl)
  have hshown : sanitizeError Sample.texts "db_password=a" ≠
      sanitizeError Sample.texts "db_password=b" := by
    decide +kernel
  exact hshown hsame

/-- A token is hidden. -/
theorem hides_iff_token : Hides Sample.texts [] "token".toList ['='] [] := by
  refine (hides_iff Sample.texts Sample.token_secret Sample.assign_separator [] []).mpr ⟨⟨rfl, ?_⟩, ?_⟩
  · have hnone : ((assignment Sample.texts).opens none
        ((bearer Sample.texts).sub none [])).isSome = false := rfl
    rw [hnone, if_neg Bool.false_ne_true]
    refine ⟨[], "token".toList, rfl, ⟨"token", by decide, ?_⟩, rfl⟩
    exact agrees_refl _ (fun p hp => mem_letters_of_word (by decide) hp)
  · rintro ⟨_, _, w, blanks, t, rest, _, _, hpost, _⟩
    have hlength := congrArg List.length hpost
    rw [List.length_append, List.length_append, List.length_cons, List.length_nil] at hlength
    omega

end GraphPilot.Secrets
