/-
The environment file of the launcher: `readEnvMap` and `updateEnvValues` of
`cli/bin/graphpilot.js`.

The reader takes the last line of a key, and the writer replaces the first one and keeps
the others.  Both split the file at `\n` or `\r\n`, and the writer joins the lines with
`\n`: a `\r` that a line still ends with is taken for a part of the line ending when the
file is read again.

* `occurrences_rewrite` — what the writer does to the lines of a key;
* `readEnvMap_updated`, `readEnvMap_other` — what is read of a file that has been written;
* `updateEnvValues_iff` — the update sets these keys, and no other, if and only if no key
  of them has another line after its first with another value, and no other value ends
  with `\r`;
* `updateEnvValues_repeated` — a key with two lines keeps its old value.
-/
import GraphPilot.Js.Values
import Mathlib.Data.List.Nodup
import Mathlib.Logic.Function.Basic

namespace GraphPilot.Cli

abbrev Text := List Char

def trim (s : Text) : Text := Js.trim (fun c => c.toNat ∈ Js.spaces) s

/-- Put a character in front of the first line. -/
def extend (c : Char) : List Text → List Text
  | [] => [[c]]
  | l :: ls => (c :: l) :: ls

/-- `content.split(/\r?\n/)` -/
def splitLines : Text → List Text
  | c :: d :: cs =>
    if c = '\r' ∧ d = '\n' then [] :: splitLines cs
    else if c = '\n' then [] :: splitLines (d :: cs)
    else extend c (splitLines (d :: cs))
  | [c] => if c = '\n' then [[], []] else [[c]]
  | [] => [[]]

/-- The key and the value of a line, where there is a `=` in it. -/
def cut (line : Text) : Option (Text × Text) :=
  if '=' ∈ line then
    some (trim (line.takeWhile (· ≠ '=')), (line.dropWhile (· ≠ '=')).tail)
  else none

def isComment (line : Text) : Bool := (trim line).head? = some '#'

/-- `map.set(key, value)` with the key and the value of a line. -/
def readLine (map : Text → Option Text) (line : Text) : Text → Option Text :=
  if line = [] ∨ isComment line then map
  else
    match cut line with
    | some (key, value) => Function.update map key (some value)
    | none => map

/-- `readEnvMap`, of the content of the file, if there is one. -/
def readEnvMap (file : Option Text) : Text → Option Text :=
  match file with
  | none => fun _ => none
  | some content => (splitLines content).foldl readLine fun _ => none

/-- The lines that are kept, those of the pending keys with their new values, and in the
end the keys that have no line. -/
def rewrite : List Text → List (Text × Text) → List Text
  | [], pending => pending.map fun kv => kv.1 ++ '=' :: kv.2
  | line :: lines, pending =>
    match cut line with
    | none => line :: rewrite lines pending
    | some (key, _) =>
      match pending.find? (·.1 = key) with
      | some (_, value) => (key ++ '=' :: value) :: rewrite lines (pending.filter (·.1 ≠ key))
      | none => line :: rewrite lines pending

/-- The lines of the file that is to be written again. -/
def linesOf (file : Option Text) : List Text :=
  match file with
  | none => []
  | some content => if content = [] then [] else splitLines content

/-- What is written of lines. -/
def joinLines (lines : List Text) : Text := ['\n'].intercalate lines ++ ['\n']

/-- `updateEnvValues`: the content of the file afterwards. -/
def updateEnvValues (file : Option Text) (values : List (Text × Text)) : Text :=
  joinLines (rewrite (linesOf file) values)

/-! ### Lines -/

/-- A line without the `\r` that it may end with. -/
def dropCR (line : Text) : Text := if line.getLast? = some '\r' then line.dropLast else line

theorem dropCR_cons (c : Char) {l : Text} (h : l ≠ []) : dropCR (c :: l) = c :: dropCR l := by
  obtain ⟨d, l, rfl⟩ := List.exists_cons_of_ne_nil h
  unfold dropCR
  rw [List.getLast?_cons_cons, List.dropLast_cons_cons]
  split
  · rfl
  · rfl

theorem dropCR_sublist (l : Text) : (dropCR l).Sublist l := by
  unfold dropCR
  split
  · exact List.dropLast_sublist l
  · exact List.Sublist.refl l

theorem dropCR_eq_self {l : Text} (h : '\r' ∉ l) : dropCR l = l :=
  if_neg fun hlast => h (List.mem_of_getLast? hlast)

/-- No line ends with more than is left of it. -/
theorem dropCR_eq_self_iff {l : Text} : dropCR l = l ↔ l.getLast? ≠ some '\r' := by
  unfold dropCR
  split
  · rename_i hlast
    have hpos : 0 < l.length := List.length_pos_of_mem (List.mem_of_getLast? hlast)
    refine ⟨fun heq => ?_, fun hne => absurd hlast hne⟩
    have hlen := congrArg List.length heq
    rw [List.length_dropLast] at hlen
    omega
  · rename_i hlast
    exact ⟨fun _ => hlast, fun _ => rfl⟩

/-- A line and its ending. -/
theorem splitLines_append {l : Text} (h : '\n' ∉ l) (cs : Text) :
    splitLines (l ++ '\n' :: cs) = dropCR l :: splitLines cs := by
  induction l with
  | nil =>
    cases cs with
    | nil => rfl
    | cons d cs => rfl
  | cons c l ih =>
    have hc : c ≠ '\n' := fun heq => h (heq ▸ List.mem_cons_self)
    have hl : '\n' ∉ l := fun hmem => h (List.mem_cons_of_mem _ hmem)
    cases l with
    | nil =>
      rw [List.singleton_append, splitLines]
      by_cases hcr : c = '\r'
      · subst hcr
        rfl
      · have hcut : splitLines ('\n' :: cs) = [] :: splitLines cs := ih hl
        have hkept : dropCR [c] = [c] := if_neg (by simpa using hcr)
        rw [if_neg (fun hand => hcr hand.1), if_neg hc, hcut, hkept]
        rfl
    | cons d l =>
      have hd : d ≠ '\n' := fun heq => hl (heq ▸ List.mem_cons_self)
      rw [dropCR_cons c (List.cons_ne_nil d l), List.cons_append, List.cons_append, splitLines,
        if_neg (fun hand => hd hand.2), if_neg hc, ← List.cons_append, ih hl]
      rfl

theorem not_mem_splitLines (cs : Text) : ∀ l ∈ splitLines cs, '\n' ∉ l := by
  have hextend : ∀ {c : Char} {ls : List Text}, c ≠ '\n' → (∀ l ∈ ls, '\n' ∉ l) →
      ∀ l ∈ extend c ls, '\n' ∉ l := by
    intro c ls hc hls l hl
    cases ls with
    | nil =>
      rw [List.mem_singleton.mp hl]
      simpa using Ne.symm hc
    | cons l' ls =>
      rcases List.mem_cons.mp hl with rfl | hl
      · simpa using ⟨Ne.symm hc, hls l' List.mem_cons_self⟩
      · exact hls l (List.mem_cons_of_mem _ hl)
  induction cs using splitLines.induct with
  | case1 c d cs hand ih =>
    rw [splitLines, if_pos hand]
    simpa using ih
  | case2 d cs hand ih =>
    rw [splitLines, if_neg hand, if_pos rfl]
    simpa using ih
  | case3 c d cs hand hc ih =>
    rw [splitLines, if_neg hand, if_neg hc]
    exact hextend hc ih
  | case4 => simp [splitLines]
  | case5 c hc =>
    rw [splitLines, if_neg hc]
    simpa using Ne.symm hc
  | case6 => simp [splitLines]

/-! ### Keys and values -/

/-- The value that a line gives a key. -/
def found (key line : Text) : Option Text :=
  match cut line with
  | some (k, value) => if k = key ∧ ¬ isComment line then some value else none
  | none => none

/-- The values of a key, in order. -/
def occurrences (key : Text) (lines : List Text) : List Text := lines.filterMap (found key)

theorem cut_append {pre : Text} (h : '=' ∉ pre) (value : Text) :
    cut (pre ++ '=' :: value) = some (trim pre, value) := by
  have hne : ∀ c ∈ pre, (c ≠ '=') = true := by
    intro c hc
    simp only [eq_iff_iff, iff_true]
    rintro rfl
    exact h hc
  unfold cut
  rw [if_pos (by simp)]
  rw [List.takeWhile_append_of_pos (by simpa using hne), List.dropWhile_append_of_pos (by simpa using hne)]
  simp

theorem cut_eq_some {line : Text} {kv : Text × Text} (h : cut line = some kv) :
    ∃ pre, '=' ∉ pre ∧ line = pre ++ '=' :: kv.2 ∧ kv.1 = trim pre := by
  unfold cut at h
  split at h
  · rename_i hmem
    obtain ⟨pre, post, rfl, hpre⟩ := List.eq_append_cons_of_mem hmem
    have hcut := cut_append hpre post
    unfold cut at hcut
    rw [if_pos hmem] at hcut
    rw [hcut] at h
    cases h
    exact ⟨pre, hpre, rfl, rfl⟩
  · cases h

theorem cut_eq_none {line : Text} : cut line = none ↔ '=' ∉ line := by
  unfold cut
  split
  · rename_i h
    simp [h]
  · rename_i h
    simp [h]

/-- A line with a `=` is a comment if its key begins with `#`. -/
theorem isComment_iff {line : Text} {kv : Text × Text} (h : cut line = some kv) :
    isComment line = true ↔ kv.1.head? = some '#' := by
  obtain ⟨pre, -, rfl, hkey⟩ := cut_eq_some h
  rw [hkey]
  unfold isComment trim
  rw [decide_eq_true_eq, Js.head?_trim, Js.head?_trim, List.dropWhile_append]
  split
  · rename_i hnil
    rw [List.isEmpty_iff.mp hnil, List.dropWhile_cons_of_neg (by decide)]
    simp
  · rename_i hne
    cases hdrop : pre.dropWhile fun c => decide (c.toNat ∈ Js.spaces) with
    | nil => rw [hdrop] at hne; exact absurd rfl hne
    | cons c rest => rfl

theorem found_of_cut {line key : Text} {kv : Text × Text} (h : cut line = some kv)
    (hkey : key.head? ≠ some '#') : found key line = if kv.1 = key then some kv.2 else none := by
  unfold found
  rw [h]
  dsimp only
  by_cases hk : kv.1 = key
  · have hcomment : isComment line = false := by
      rw [← Bool.not_eq_true, isComment_iff h, hk]
      exact hkey
    simp [hk, hcomment]
  · simp [hk]

theorem found_of_ne {line key : Text} {kv : Text × Text} (h : cut line = some kv)
    (hk : kv.1 ≠ key) : found key line = none := by
  unfold found
  rw [h]
  simp [hk]

theorem found_of_none {line : Text} (h : cut line = none) (key : Text) : found key line = none := by
  unfold found
  rw [h]

/-- Reading a line sets the key that the line gives a value. -/
theorem readLine_apply (map : Text → Option Text) (line key : Text) :
    readLine map line key = (found key line).or (map key) := by
  unfold readLine found
  cases hcut : cut line with
  | none => simp
  | some kv =>
    obtain ⟨k, value⟩ := kv
    dsimp only
    split
    · rename_i hskip
      have hcomment : isComment line = true := by
        refine hskip.resolve_left ?_
        rintro rfl
        cases hcut
      simp [hcomment]
    · rename_i hread
      have hcomment : ¬ isComment line = true := fun h => hread (Or.inr h)
      by_cases hk : k = key
      · subst hk
        simp [hcomment]
      · rw [Function.update_of_ne (Ne.symm hk)]
        simp [hk]

/-- What is read: the last value. -/
theorem foldl_readLine (lines : List Text) (key : Text) :
    lines.foldl readLine (fun _ => none) key = (occurrences key lines).getLast? := by
  induction lines using List.reverseRecOn with
  | nil => rfl
  | append_singleton lines line ih =>
    have hstep : occurrences key (lines ++ [line]) =
        occurrences key lines ++ (found key line).toList := by
      unfold occurrences
      rw [List.filterMap_append]
      cases hfound : found key line <;> simp [hfound]
    rw [List.foldl_concat, readLine_apply, ih, hstep]
    cases found key line with
    | none => simp
    | some value => simp

theorem readEnvMap_eq (file : Option Text) (key : Text) :
    readEnvMap file key = (occurrences key (linesOf file)).getLast? := by
  cases file with
  | none => rfl
  | some content =>
    by_cases hcontent : content = []
    · subst hcontent
      rfl
    · unfold linesOf
      dsimp only
      rw [if_neg hcontent]
      exact foldl_readLine _ key

/-! ### The update -/

/-- What the keys and the values of an update are: texts without line breaks, the keys
distinct, trimmed, without `=` and not beginning with `#`. -/
structure Updatable (values : List (Text × Text)) : Prop where
  distinct : (values.map Prod.fst).Nodup
  key : ∀ kv ∈ values, trim kv.1 = kv.1 ∧ '=' ∉ kv.1 ∧ kv.1.head? ≠ some '#'
  oneLine : ∀ kv ∈ values, ('\n' ∉ kv.1 ∧ '\r' ∉ kv.1) ∧ '\n' ∉ kv.2 ∧ '\r' ∉ kv.2

theorem Updatable.mono {values values' : List (Text × Text)} (h : Updatable values)
    (hsub : values'.Sublist values) : Updatable values' :=
  ⟨(hsub.map Prod.fst).nodup h.distinct, fun kv hkv => h.key kv (hsub.subset hkv),
    fun kv hkv => h.oneLine kv (hsub.subset hkv)⟩

/-- The line that is written for a key. -/
theorem Updatable.cut {values : List (Text × Text)} (h : Updatable values) {kv : Text × Text}
    (hkv : kv ∈ values) : cut (kv.1 ++ '=' :: kv.2) = some kv := by
  obtain ⟨htrim, hequals, -⟩ := h.key kv hkv
  rw [cut_append hequals, htrim]

theorem Updatable.eq_of_key {values : List (Text × Text)} (h : Updatable values)
    {kv kv' : Text × Text} (hkv : kv ∈ values) (hkv' : kv' ∈ values) (heq : kv.1 = kv'.1) :
    kv = kv' :=
  List.inj_on_of_nodup_map h.distinct hkv hkv' heq

theorem mem_of_find {pending : List (Text × Text)} {key : Text} {kv : Text × Text}
    (h : pending.find? (·.1 = key) = some kv) : kv ∈ pending ∧ kv.1 = key :=
  ⟨List.mem_of_find?_eq_some h, by simpa using List.find?_some h⟩

/-- The pending value of a key is its only one. -/
theorem Updatable.find {pending : List (Text × Text)} (h : Updatable pending) {kv : Text × Text}
    (hkv : kv ∈ pending) : pending.find? (·.1 = kv.1) = some kv := by
  cases hfind : pending.find? (·.1 = kv.1) with
  | none =>
    have hnone := List.find?_eq_none.mp hfind kv hkv
    exact absurd (decide_eq_true rfl) hnone
  | some kv' =>
    obtain ⟨hmem, heq⟩ := mem_of_find hfind
    rw [h.eq_of_key hmem hkv heq]

theorem occurrences_cons (key line : Text) (lines : List Text) :
    occurrences key (line :: lines) = (found key line).toList ++ occurrences key lines := by
  unfold occurrences
  cases hfound : found key line <;> simp [hfound]

/-- The lines of a key that is not updated are kept. -/
theorem occurrences_rewrite_other {pending : List (Text × Text)} (h : Updatable pending)
    {key : Text} (hkey : ∀ kv ∈ pending, kv.1 ≠ key) (lines : List Text) :
    occurrences key (rewrite lines pending) = occurrences key lines := by
  induction lines generalizing pending with
  | nil =>
    refine List.filterMap_eq_nil_iff.mpr fun line hline => ?_
    obtain ⟨kv, hkv, rfl⟩ := List.mem_map.mp hline
    exact found_of_ne (h.cut hkv) (hkey kv hkv)
  | cons line lines ih =>
    unfold rewrite
    cases hcut : Cli.cut line with
    | none => dsimp only; rw [occurrences_cons, occurrences_cons, ih h hkey]
    | some kw =>
      obtain ⟨k, w⟩ := kw
      dsimp only
      cases hfind : pending.find? (·.1 = k) with
      | none => dsimp only; rw [occurrences_cons, occurrences_cons, ih h hkey]
      | some kv =>
        obtain ⟨hmem, hk⟩ := mem_of_find hfind
        have hne : k ≠ key := hk ▸ hkey kv hmem
        have hline : Cli.cut (k ++ '=' :: kv.2) = some kv := hk ▸ h.cut hmem
        dsimp only
        rw [occurrences_cons, occurrences_cons, found_of_ne hcut hne,
          found_of_ne hline (hk ▸ hne),
          ih (h.mono List.filter_sublist) fun kv' hkv' => hkey kv' (List.mem_of_mem_filter hkv')]

theorem occurrences_append (key : Text) (lines lines' : List Text) :
    occurrences key (lines ++ lines') = occurrences key lines ++ occurrences key lines' :=
  List.filterMap_append

theorem found_line {pending : List (Text × Text)} (h : Updatable pending) {kv : Text × Text}
    (hkv : kv ∈ pending) : found kv.1 (kv.1 ++ '=' :: kv.2) = some kv.2 := by
  rw [found_of_cut (h.cut hkv) (h.key kv hkv).2.2, if_pos rfl]

/-- The lines for the keys that have none. -/
theorem occurrences_pending {pending : List (Text × Text)} (h : Updatable pending)
    {kv : Text × Text} (hkv : kv ∈ pending) :
    occurrences kv.1 (rewrite [] pending) = [kv.2] := by
  have hline := found_line h hkv
  obtain ⟨before, after, rfl, -⟩ := List.eq_append_cons_of_mem hkv
  have hdistinct := h.distinct
  rw [List.map_append, List.map_cons, List.nodup_middle, List.nodup_cons, List.mem_append,
    not_or] at hdistinct
  obtain ⟨⟨hbefore, hafter⟩, -⟩ := hdistinct
  -- no other line is one of the key
  have hnone : ∀ {pending : List (Text × Text)}, Updatable pending →
      kv.1 ∉ pending.map Prod.fst → occurrences kv.1 (rewrite [] pending) = [] := by
    intro pending hpending hnot
    refine occurrences_rewrite_other hpending (fun kv' hkv' heq => hnot ?_) []
    exact heq ▸ List.mem_map_of_mem hkv'
  have hsplit : rewrite [] (before ++ kv :: after) =
      rewrite [] before ++ (kv.1 ++ '=' :: kv.2) :: rewrite [] after := List.map_append
  rw [hsplit, occurrences_append, occurrences_cons, hline,
    hnone (h.mono (List.sublist_append_left _ _)) hbefore,
    hnone (h.mono ((List.sublist_cons_self kv after).trans (List.sublist_append_right _ _))) hafter]
  rfl

/-- Of the lines of a key that is updated the first one is replaced. -/
theorem occurrences_rewrite {pending : List (Text × Text)} (h : Updatable pending)
    {kv : Text × Text} (hkv : kv ∈ pending) (lines : List Text) :
    occurrences kv.1 (rewrite lines pending) = kv.2 :: (occurrences kv.1 lines).tail := by
  have hhash := (h.key kv hkv).2.2
  induction lines generalizing pending with
  | nil => exact occurrences_pending h hkv
  | cons line lines ih =>
    unfold rewrite
    cases hcut : Cli.cut line with
    | none =>
      dsimp only
      rw [occurrences_cons, occurrences_cons, found_of_none hcut, ih h hkv]
      rfl
    | some kw =>
      obtain ⟨k, w⟩ := kw
      dsimp only
      by_cases hk : k = kv.1
      · -- the first line of the key
        subst hk
        have hrest : ∀ kv' ∈ pending.filter (·.1 ≠ kv.1), kv'.1 ≠ kv.1 :=
          fun kv' hkv' => by simpa using (List.mem_filter.mp hkv').2
        rw [h.find hkv]
        dsimp only
        rw [occurrences_cons, occurrences_cons, found_line h hkv, found_of_cut hcut hhash,
          if_pos rfl, occurrences_rewrite_other (h.mono List.filter_sublist) hrest]
        rfl
      · have hother : found kv.1 line = none := found_of_ne hcut hk
        cases hfind : pending.find? (·.1 = k) with
        | none =>
          dsimp only
          rw [occurrences_cons, occurrences_cons, hother, ih h hkv]
          rfl
        | some kv' =>
          obtain ⟨hmem, hk'⟩ := mem_of_find hfind
          have hline : Cli.cut (k ++ '=' :: kv'.2) = some kv' := hk' ▸ h.cut hmem
          have hkept : kv ∈ pending.filter (·.1 ≠ k) :=
            List.mem_filter.mpr ⟨hkv, decide_eq_true (Ne.symm hk)⟩
          dsimp only
          rw [occurrences_cons, occurrences_cons, hother,
            found_of_ne hline (hk' ▸ hk),
            ih (h.mono List.filter_sublist) hkept]
          rfl

/-! ### The file that has been written -/

/-- The ending of a line belongs to its value. -/
theorem dropCR_append (pre value : Text) :
    dropCR (pre ++ '=' :: value) = pre ++ '=' :: dropCR value := by
  induction pre with
  | nil =>
    cases value with
    | nil => rfl
    | cons c value => exact dropCR_cons '=' (List.cons_ne_nil c value)
  | cons c pre ih =>
    rw [List.cons_append, dropCR_cons c (by simp), ih]
    rfl

theorem cut_dropCR (line : Text) :
    cut (dropCR line) = (cut line).map fun kv => (kv.1, dropCR kv.2) := by
  cases hcut : cut line with
  | none => exact cut_eq_none.mpr fun hmem => cut_eq_none.mp hcut ((dropCR_sublist line).subset hmem)
  | some kv =>
    obtain ⟨pre, hpre, rfl, hkey⟩ := cut_eq_some hcut
    rw [dropCR_append, cut_append hpre, ← hkey]
    rfl

theorem found_dropCR (key line : Text) : found key (dropCR line) = (found key line).map dropCR := by
  have hcut := cut_dropCR line
  cases hline : cut line with
  | none =>
    rw [hline] at hcut
    rw [found_of_none hline, found_of_none hcut]
    rfl
  | some kv =>
    obtain ⟨k, value⟩ := kv
    rw [hline] at hcut
    have hcomment : isComment (dropCR line) = isComment line := by
      rw [Bool.eq_iff_iff, isComment_iff hline, isComment_iff hcut]
    unfold found
    rw [hcut, hline]
    dsimp only [Option.map_some]
    rw [hcomment]
    split
    · rfl
    · rfl

theorem joinLines_singleton (l : Text) : joinLines [l] = l ++ '\n' :: [] := by
  simp [joinLines, List.intercalate]

theorem joinLines_cons (l l' : Text) (lines : List Text) :
    joinLines (l :: l' :: lines) = l ++ '\n' :: joinLines (l' :: lines) := by
  simp [joinLines, List.intercalate]

/-- The lines that are read are those that have been written, without a `\r` at their ends. -/
theorem splitLines_joinLines {lines : List Text} (h : ∀ l ∈ lines, '\n' ∉ l) (hne : lines ≠ []) :
    splitLines (joinLines lines) = lines.map dropCR ++ [[]] := by
  induction lines with
  | nil => exact absurd rfl hne
  | cons l lines ih =>
    have hl := h l List.mem_cons_self
    cases lines with
    | nil =>
      rw [joinLines_singleton, splitLines_append hl]
      rfl
    | cons l' lines =>
      rw [joinLines_cons, splitLines_append hl,
        ih (fun l'' hl'' => h l'' (List.mem_cons_of_mem _ hl'')) (List.cons_ne_nil l' lines)]
      rfl

theorem occurrences_joinLines {lines : List Text} (h : ∀ l ∈ lines, '\n' ∉ l) (key : Text) :
    occurrences key (splitLines (joinLines lines)) = (occurrences key lines).map dropCR := by
  by_cases hne : lines = []
  · subst hne
    rfl
  · rw [splitLines_joinLines h hne, occurrences_append]
    have hempty : occurrences key [[]] = [] := rfl
    rw [hempty, List.append_nil]
    unfold occurrences
    rw [List.filterMap_map, List.map_filterMap]
    exact List.filterMap_congr fun line _ => found_dropCR key line

/-- A line that is written for a key is one line. -/
theorem Updatable.not_mem {values : List (Text × Text)} (h : Updatable values) {kv : Text × Text}
    (hkv : kv ∈ values) : '\n' ∉ kv.1 ++ '=' :: kv.2 := by
  obtain ⟨⟨hkey, -⟩, hvalue, -⟩ := h.oneLine kv hkv
  intro hmem
  rcases List.mem_append.mp hmem with hmem | hmem
  · exact hkey hmem
  · rcases List.mem_cons.mp hmem with heq | hmem
    · cases heq
    · exact hvalue hmem

theorem not_mem_rewrite {pending : List (Text × Text)} (h : Updatable pending) {lines : List Text}
    (hlines : ∀ l ∈ lines, '\n' ∉ l) : ∀ l ∈ rewrite lines pending, '\n' ∉ l := by
  induction lines generalizing pending with
  | nil =>
    intro l hl
    obtain ⟨kv, hkv, rfl⟩ := List.mem_map.mp hl
    exact h.not_mem hkv
  | cons line lines ih =>
    have hline := hlines line List.mem_cons_self
    have hrest : ∀ l ∈ lines, '\n' ∉ l := fun l hl => hlines l (List.mem_cons_of_mem _ hl)
    have hkept : ∀ l ∈ line :: rewrite lines pending, '\n' ∉ l :=
      List.forall_mem_cons.mpr ⟨hline, ih h hrest⟩
    unfold rewrite
    cases hcut : Cli.cut line with
    | none => exact hkept
    | some kw =>
      dsimp only
      cases hfind : pending.find? (·.1 = kw.1) with
      | none => exact hkept
      | some kv =>
        obtain ⟨hmem, hk⟩ := mem_of_find hfind
        refine List.forall_mem_cons.mpr ⟨?_, ih (h.mono List.filter_sublist) hrest⟩
        exact hk ▸ h.not_mem hmem

theorem not_mem_linesOf (file : Option Text) : ∀ l ∈ linesOf file, '\n' ∉ l := by
  intro l hl
  cases file with
  | none => cases hl
  | some content =>
    unfold linesOf at hl
    dsimp only at hl
    split at hl
    · cases hl
    · exact not_mem_splitLines content l hl

section Updated

variable {file : Option Text} {values : List (Text × Text)}

/-- The values of a key in the file that has been written. -/
theorem occurrences_updated (h : Updatable values) (key : Text) :
    occurrences key (linesOf (some (updateEnvValues file values))) =
      (occurrences key (rewrite (linesOf file) values)).map dropCR := by
  have hne : updateEnvValues file values ≠ [] := by
    unfold updateEnvValues joinLines
    simp
  have hlines : linesOf (some (updateEnvValues file values)) =
      splitLines (updateEnvValues file values) := if_neg hne
  rw [hlines]
  exact occurrences_joinLines (not_mem_rewrite h (not_mem_linesOf file)) key

/-- A key that is not updated keeps its value, but for a `\r` at its end. -/
theorem readEnvMap_other (h : Updatable values) {key : Text} (hkey : ∀ kv ∈ values, kv.1 ≠ key) :
    readEnvMap (some (updateEnvValues file values)) key = (readEnvMap file key).map dropCR := by
  rw [readEnvMap_eq, readEnvMap_eq, occurrences_updated h, occurrences_rewrite_other h hkey,
    List.getLast?_map]

/-- A key that is updated has its new value, if no other line of it is behind the first. -/
theorem readEnvMap_updated (h : Updatable values) {kv : Text × Text} (hkv : kv ∈ values) :
    readEnvMap (some (updateEnvValues file values)) kv.1 =
      if (occurrences kv.1 (linesOf file)).length ≤ 1 then some kv.2
      else (readEnvMap file kv.1).map dropCR := by
  have hvalue : dropCR kv.2 = kv.2 := dropCR_eq_self (h.oneLine kv hkv).2.2
  rw [readEnvMap_eq, readEnvMap_eq, occurrences_updated h, occurrences_rewrite h hkv]
  rcases occurrences kv.1 (linesOf file) with - | ⟨first, - | ⟨second, rest⟩⟩
  · simp [hvalue]
  · simp [hvalue]
  · rw [if_neg (by simp)]
    show (List.map dropCR (kv.2 :: second :: rest)).getLast? = _
    rw [List.getLast?_map, List.getLast?_cons_cons, List.getLast?_cons_cons]

/-- The old map with these keys set to these values. -/
def setAll (map : Text → Option Text) (values : List (Text × Text)) : Text → Option Text :=
  values.foldl (fun map kv => Function.update map kv.1 (some kv.2)) map

theorem setAll_other {map : Text → Option Text} {key : Text} (h : ∀ kv ∈ values, kv.1 ≠ key) :
    setAll map values key = map key := by
  induction values generalizing map with
  | nil => rfl
  | cons kv values ih =>
    have hkey : kv.1 ≠ key := h kv List.mem_cons_self
    have hstep : setAll map (kv :: values) key =
        setAll (Function.update map kv.1 (some kv.2)) values key := rfl
    rw [hstep, ih fun kv' hkv' => h kv' (List.mem_cons_of_mem _ hkv'),
      Function.update_of_ne (Ne.symm hkey)]

theorem setAll_of_mem {map : Text → Option Text} (h : Updatable values) {kv : Text × Text}
    (hkv : kv ∈ values) : setAll map values kv.1 = some kv.2 := by
  induction values generalizing map with
  | nil => cases hkv
  | cons first values ih =>
    have hstep : setAll map (first :: values) kv.1 =
        setAll (Function.update map first.1 (some first.2)) values kv.1 := rfl
    rw [hstep]
    rcases List.mem_cons.mp hkv with rfl | hkv
    · have hnot : kv.1 ∉ values.map Prod.fst := (List.nodup_cons.mp h.distinct).1
      have hother : ∀ kv' ∈ values, kv'.1 ≠ kv.1 := by
        intro kv' hkv' heq
        exact hnot (heq ▸ List.mem_map_of_mem hkv')
      rw [setAll_other hother, Function.update_self]
    · exact ih (h.mono (List.sublist_cons_self _ _)) hkv

/-- The file has no second line of a key that is updated with another value, and no other
value that ends with `\r`. -/
structure Settled (file : Option Text) (values : List (Text × Text)) : Prop where
  lines : ∀ kv ∈ values, (occurrences kv.1 (linesOf file)).length ≤ 1 ∨
    (readEnvMap file kv.1).map dropCR = some kv.2
  endings : ∀ key, (∀ kv ∈ values, kv.1 ≠ key) → ∀ value, readEnvMap file key = some value →
    value.getLast? ≠ some '\r'

/-- The update of a map, as far as the file is read afterwards. -/
theorem readEnvMap_update_iff (h : Updatable values) :
    readEnvMap (some (updateEnvValues file values)) = setAll (readEnvMap file) values ↔
      Settled file values := by
  constructor
  · intro heq
    refine ⟨fun kv hkv => ?_, fun key hkey value hvalue => ?_⟩
    · have hread := congrFun heq kv.1
      rw [readEnvMap_updated h hkv, setAll_of_mem h hkv] at hread
      split at hread
      · rename_i hlen
        exact Or.inl hlen
      · exact Or.inr hread
    · have hread := congrFun heq key
      rw [readEnvMap_other h hkey, setAll_other hkey, hvalue] at hread
      exact dropCR_eq_self_iff.mp (Option.some.inj hread)
  · intro hsettled
    funext key
    by_cases hkey : ∀ kv ∈ values, kv.1 ≠ key
    · rw [readEnvMap_other h hkey, setAll_other hkey]
      cases hvalue : readEnvMap file key with
      | none => rfl
      | some value =>
        exact congrArg some (dropCR_eq_self_iff.mpr (hsettled.endings key hkey value hvalue))
    · push Not at hkey
      obtain ⟨kv, hkv, rfl⟩ := hkey
      rw [readEnvMap_updated h hkv, setAll_of_mem h hkv]
      split
      · rfl
      · rename_i hlen
        exact (hsettled.lines kv hkv).resolve_left hlen

/-- After such an update the file is settled for the same update. -/
theorem Settled.updated (h : Updatable values) (hsettled : Settled file values) :
    Settled (some (updateEnvValues file values)) values := by
  have hread := (readEnvMap_update_iff h).mpr hsettled
  refine ⟨fun kv hkv => Or.inr ?_, fun key hkey value hvalue => ?_⟩
  · rw [hread, setAll_of_mem h hkv]
    exact congrArg some (dropCR_eq_self (h.oneLine kv hkv).2.2)
  · rw [hread, setAll_other hkey] at hvalue
    exact hsettled.endings key hkey value hvalue

/-- To set the keys again changes nothing. -/
theorem setAll_setAll (h : Updatable values) (map : Text → Option Text) :
    setAll (setAll map values) values = setAll map values := by
  funext key
  by_cases hkey : ∀ kv ∈ values, kv.1 ≠ key
  · rw [setAll_other hkey]
  · push Not at hkey
    obtain ⟨kv, hkv, rfl⟩ := hkey
    rw [setAll_of_mem h hkv, setAll_of_mem h hkv]

/-- The update is one of the map, and the same update again changes nothing, if and only
if the file is settled. -/
theorem updateEnvValues_iff (file : Option Text) (values : List (Text × Text))
    (h : Updatable values) :
    readEnvMap (some (updateEnvValues file values)) = setAll (readEnvMap file) values ∧
        readEnvMap (some (updateEnvValues (some (updateEnvValues file values)) values)) =
          readEnvMap (some (updateEnvValues file values)) ↔
      Settled file values := by
  constructor
  · rintro ⟨hset, -⟩
    exact (readEnvMap_update_iff h).mp hset
  · intro hsettled
    have hset := (readEnvMap_update_iff h).mpr hsettled
    refine ⟨hset, ?_⟩
    rw [(readEnvMap_update_iff h).mpr (hsettled.updated h), hset, setAll_setAll h]

end Updated

namespace Sample

def port : List (Text × Text) := [("PORT".toList, "8001".toList)]

theorem updatable_port : Updatable port := by
  refine ⟨by decide, fun kv hkv => ?_, fun kv hkv => ?_⟩
  · obtain rfl := List.mem_singleton.mp hkv
    decide
  · obtain rfl := List.mem_singleton.mp hkv
    decide

/-- A file with two lines for the key. -/
def repeated : Text := "PORT=8000\nPORT=8000\n".toList

end Sample

theorem updateEnvValues_iff_port :
    readEnvMap (some (updateEnvValues (some Sample.repeated) Sample.port)) =
          setAll (readEnvMap (some Sample.repeated)) Sample.port ∧
        readEnvMap (some (updateEnvValues
          (some (updateEnvValues (some Sample.repeated) Sample.port)) Sample.port)) =
          readEnvMap (some (updateEnvValues (some Sample.repeated) Sample.port)) ↔
      Settled (some Sample.repeated) Sample.port :=
  updateEnvValues_iff _ _ Sample.updatable_port

/-- The second line of the key is kept, and it is the one that is read. -/
theorem updateEnvValues_repeated :
    ¬ ∀ (file : Option Text) (values : List (Text × Text)), Updatable values →
      readEnvMap (some (updateEnvValues file values)) = setAll (readEnvMap file) values ∧
        readEnvMap (some (updateEnvValues (some (updateEnvValues file values)) values)) =
          readEnvMap (some (updateEnvValues file values)) := by
  intro h
  have hset := (h (some Sample.repeated) Sample.port Sample.updatable_port).1
  have hread := congrFun hset "PORT".toList
  revert hread
  decide

end GraphPilot.Cli
