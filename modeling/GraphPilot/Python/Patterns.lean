/-
Replacement of matches in a text that comes in two pieces.

A pattern is an expression with at most one way at a place, from a character of its class on.
Its head at a place may stand at the end of the first piece, or be followed there by characters
of the class only; then the match is open, and what follows may belong to it.

* `sub_append_of_open`, `sub_append_of_closed` — a match that the first piece leaves open
  swallows the beginning of the second, else both are replaced apart;
* `opens_append_of_open`, `opens_append_of_closed` — whether the pieces leave a match open.
-/
import GraphPilot.Python.Regex

namespace Python.Regex

variable {α : Type}

/-- The last character of a text that follows a character or nothing. -/
def last : Option α → List α → Option α
  | before, [] => before
  | _, c :: s => last (some c) s

theorem last_append (before : Option α) (x y : List α) :
    last before (x ++ y) = last (last before x) y := by
  induction x generalizing before with
  | nil => rfl
  | cons c x ih => exact ih (some c)

theorem last_of_ne_nil {x : List α} (hx : x ≠ []) (b b' : Option α) : last b x = last b' x := by
  cases x with
  | nil => exact absurd rfl hx
  | cons c x => rfl

/-- An expression that has one way at a place, from a character of the class on. -/
structure Pattern (α : Type) extends Expression α where
  head_single : ∀ s, (head s).length ≤ 1
  head_append : ∀ s, ∀ way ∈ head s, way.1 ++ way.2 = s
  head_first : ∀ s, ∀ way ∈ head s, ∃ c x, way.1 = c :: x ∧ run c = true

namespace Pattern

variable (m : Pattern α)

/-- The head at a place, whether or not a character of the class follows. -/
def top (before : Option α) (s : List α) : Option (List α × List α) :=
  if m.starts before s.head? then (m.head s).head? else none

/-- Whether a match that begins in the text may go on behind it: then what it is replaced by, and
the replacement of the text before the match.  `skip` characters belong to the last match. -/
def opensFrom : Option α → ℕ → List α → Option (List α)
  | _, _, [] => none
  | _, skip + 1, c :: s => opensFrom (some c) skip s
  | before, 0, c :: s =>
    match m.top before (c :: s) with
    | none => (opensFrom (some c) 0 s).map (c :: ·)
    | some way =>
      if way.2.all m.run then some (m.repl way.1)
      else if way.2.head?.any m.run then
        (opensFrom (some c) (s.length - (way.2.dropWhile m.run).length) s).map (m.repl way.1 ++ ·)
      else (opensFrom (some c) 0 s).map (c :: ·)

/-- The text before a match that may go on behind the text, and the match, replaced. -/
def opens (before : Option α) (s : List α) : Option (List α) := m.opensFrom before 0 s

section Steps

variable {m} {before b b' : Option α} {c : α} {s x h r out : List α} {way : List α × List α}

theorem top_mem (h : m.top before s = some way) : way ∈ m.head s := by
  rw [top] at h
  split at h
  · exact List.mem_of_mem_head? h
  · cases h

theorem top_of_mem (hstarts : m.starts before s.head? = true) (h : way ∈ m.head s) :
    m.top before s = some way := by
  have hsingle := m.head_single s
  rw [top, if_pos hstarts]
  cases hways : m.head s with
  | nil =>
    rw [hways] at h
    cases h
  | cons way' ways =>
    rw [hways, List.length_cons] at hsingle
    have hnil : ways = [] := List.length_eq_zero_iff.mp (by omega)
    rw [hways, hnil, List.mem_singleton] at h
    rw [h, List.head?_cons]

theorem top_of_head_nil (h : m.head s = []) : m.top before s = none := by
  rw [top, h]
  split
  · rfl
  · rfl

theorem append_of_top (h : m.top before s = some way) : way.1 ++ way.2 = s :=
  m.head_append s way (top_mem h)

theorem find_eq (before : Option α) (s : List α) :
    m.find before s = (m.top before s).filter fun way => way.2.head?.any m.run := by
  rw [Expression.find, top]
  by_cases hstarts : m.starts before s.head? = true
  · rw [if_pos hstarts, if_pos hstarts]
    have hsingle := m.head_single s
    cases hways : m.head s with
    | nil => rfl
    | cons way ways =>
      have hnil : ways = [] := by
        rw [hways, List.length_cons] at hsingle
        exact List.length_eq_zero_iff.mp (by omega)
      rw [hnil, List.head?_cons, List.find?_singleton, Option.filter_some]
  · rw [if_neg hstarts, if_neg hstarts]
    rfl

theorem run_of_top (h : m.top before (c :: s) = some way) : m.run c = true := by
  obtain ⟨d, x, hway, hd⟩ := m.head_first _ way (top_mem h)
  have happend := append_of_top h
  rw [hway, List.cons_append] at happend
  rw [← (List.cons.inj happend).1]
  exact hd

/-- No match begins with a character outside the class. -/
theorem top_of_not_run (hc : m.run c = false) : m.top before (c :: s) = none := by
  cases htop : m.top before (c :: s) with
  | none => rfl
  | some way =>
    have hrun := run_of_top htop
    rw [hc] at hrun
    cases hrun

/-- What is left behind a match is shorter than the text. -/
theorem length_after (h : m.top before (c :: s) = some way) :
    (way.2.dropWhile m.run).length ≤ s.length := by
  obtain ⟨d, x, hway, hd⟩ := m.head_first _ way (top_mem h)
  have happend := congrArg List.length (append_of_top h)
  have hle := (List.dropWhile_suffix m.run (l := way.2)).length_le
  rw [hway, List.length_append, List.length_cons, List.length_cons] at happend
  omega

/-- What is left behind a match is what the text ends with. -/
theorem drop_after (h : m.top before (c :: s) = some way) :
    s.drop (s.length - (way.2.dropWhile m.run).length) = way.2.dropWhile m.run := by
  have hle := length_after h
  have hsuffix : way.2.dropWhile m.run <:+ c :: s := by
    have happend := append_of_top h
    rw [← happend]
    exact (List.dropWhile_suffix m.run).trans (List.suffix_append way.1 way.2)
  have hs : way.2.dropWhile m.run <:+ s := by
    rcases List.suffix_cons_iff.mp hsuffix with heq | hs
    · rw [heq, List.length_cons] at hle
      omega
    · exact hs
  exact (List.suffix_iff_eq_drop.mp hs).symm

end Steps

/-! ### One step of a replacement -/

/-- The text is empty, or begins with a character outside the class. -/
def Stops (s : List α) : Prop := ∀ c ∈ s.head?, m.run c = false

section Equations

variable {m} {before b b' : Option α} {c : α} {s x : List α} {way : List α × List α}

theorem stops_dropWhile (s : List α) : m.Stops (s.dropWhile m.run) := by
  intro c hc
  have hnot := List.head?_dropWhile_not m.run s
  rw [Option.mem_def.mp hc] at hnot
  exact hnot

theorem any_of_not_stops (hs : s ≠ []) (h : ¬ m.Stops s) : s.head?.any m.run = true := by
  cases s with
  | nil => exact absurd rfl hs
  | cons c s =>
    cases hc : m.run c with
    | true => simp [hc]
    | false =>
      refine absurd (fun d hd => ?_) h
      rw [List.head?_cons, Option.mem_some_iff] at hd
      rw [← hd]
      exact hc

theorem not_any_of_stops (h : m.Stops s) : s.head?.any m.run = false := by
  cases s with
  | nil => rfl
  | cons c s => exact h c rfl

theorem subFrom_eq (before : Option α) (skip : ℕ) (s : List α) :
    m.subFrom before skip s = m.sub (last before (s.take skip)) (s.drop skip) := by
  induction s generalizing before skip with
  | nil => cases skip <;> rfl
  | cons c s ih =>
    cases skip with
    | zero => rfl
    | succ skip => exact ih (some c) skip

theorem sub_nil : m.sub before [] = [] := rfl

theorem sub_of_find_none (h : m.find before (c :: s) = none) :
    m.sub before (c :: s) = c :: m.sub (some c) s := by
  show m.subFrom before 0 (c :: s) = _
  simp only [Expression.subFrom, h]
  rfl

theorem find_none_of_top (h : m.top before s = none) : m.find before s = none := by
  rw [find_eq, h]
  rfl

theorem find_none_of_stops (h : m.top before s = some way) (hway : m.Stops way.2) :
    m.find before s = none := by
  rw [find_eq, h, Option.filter_some, not_any_of_stops hway]
  rfl

/-- The first character of a text in front of which no match goes on. -/
theorem sub_of_stops (hs : m.Stops s) (b b' : Option α) : m.sub b s = m.sub b' s := by
  cases s with
  | nil => rfl
  | cons c s =>
    have hc : m.run c = false := hs c rfl
    rw [sub_of_find_none (find_none_of_top (top_of_not_run hc)),
      sub_of_find_none (find_none_of_top (top_of_not_run hc))]

theorem sub_of_top (h : m.top before s = some way) (hway : way.2.head?.any m.run = true) :
    m.sub before s = m.repl way.1 ++ m.sub none (way.2.dropWhile m.run) := by
  have hfind : m.find before s = some way := by
    rw [find_eq, h, Option.filter_some, if_pos hway]
  cases s with
  | nil =>
    obtain ⟨c, x, hc, -⟩ := m.head_first _ way (top_mem h)
    have happend := append_of_top h
    rw [hc] at happend
    cases happend
  | cons c s =>
    show m.subFrom before 0 (c :: s) = _
    simp only [Expression.subFrom, hfind]
    rw [subFrom_eq, drop_after h, sub_of_stops (stops_dropWhile way.2) _ none]

theorem opensFrom_eq (before : Option α) (skip : ℕ) (s : List α) :
    m.opensFrom before skip s = m.opens (last before (s.take skip)) (s.drop skip) := by
  induction s generalizing before skip with
  | nil => cases skip <;> rfl
  | cons c s ih =>
    cases skip with
    | zero => rfl
    | succ skip => exact ih (some c) skip

theorem opens_of_top_none (h : m.top before (c :: s) = none) :
    m.opens before (c :: s) = (m.opens (some c) s).map (c :: ·) := by
  show m.opensFrom before 0 (c :: s) = _
  simp only [opensFrom, h]
  rfl

theorem opens_of_stops (hs : m.Stops s) (b b' : Option α) : m.opens b s = m.opens b' s := by
  cases s with
  | nil => rfl
  | cons c s =>
    have hc : m.run c = false := hs c rfl
    rw [opens_of_top_none (top_of_not_run hc), opens_of_top_none (top_of_not_run hc)]

theorem opens_of_all (h : m.top before (c :: s) = some way) (hway : way.2.all m.run = true) :
    m.opens before (c :: s) = some (m.repl way.1) := by
  show m.opensFrom before 0 (c :: s) = _
  simp only [opensFrom, h, hway, if_true]

theorem all_eq_true_of_dropWhile (h : s.dropWhile m.run = []) : s.all m.run = true := by
  rw [List.all_eq_true]
  exact List.dropWhile_eq_nil_iff.mp h

theorem dropWhile_of_stops (h : m.Stops s) : s.dropWhile m.run = s := by
  cases s with
  | nil => rfl
  | cons c s => exact List.dropWhile_cons_of_neg (by rw [h c rfl]; exact Bool.false_ne_true)

theorem dropWhile_of_all (h : s.all m.run = true) (x : List α) :
    (s ++ x).dropWhile m.run = x.dropWhile m.run := by
  rw [List.dropWhile_append_of_pos (List.all_eq_true.mp h)]

theorem not_all_of_dropWhile (h : s.dropWhile m.run ≠ []) : s.all m.run = false := by
  rw [Bool.eq_false_iff]
  intro hall
  exact h (List.dropWhile_eq_nil_iff.mpr (List.all_eq_true.mp hall))

/-- A match inside the text. -/
theorem opens_of_top (h : m.top before (c :: s) = some way)
    (hway : way.2.head?.any m.run = true) (hrest : way.2.dropWhile m.run ≠ []) :
    m.opens before (c :: s) =
      (m.opens none (way.2.dropWhile m.run)).map (m.repl way.1 ++ ·) := by
  show m.opensFrom before 0 (c :: s) = _
  simp only [opensFrom, h, not_all_of_dropWhile hrest, hway, if_true, Bool.false_eq_true,
    if_false]
  rw [opensFrom_eq, drop_after h, opens_of_stops (stops_dropWhile way.2) _ none]

/-- A head with nothing behind it that the class has. -/
theorem opens_of_turned (h : m.top before (c :: s) = some way) (hne : way.2 ≠ [])
    (hway : m.Stops way.2) :
    m.opens before (c :: s) = (m.opens (some c) s).map (c :: ·) := by
  have hany := not_any_of_stops hway
  have hall : way.2.all m.run = false := by
    cases hrest : way.2 with
    | nil => exact absurd hrest hne
    | cons d x =>
      rw [hrest, List.head?_cons, Option.any_some] at hany
      rw [List.all_cons, hany, Bool.false_and]
  show m.opensFrom before 0 (c :: s) = _
  simp only [opensFrom, h, hall, hany, Bool.false_eq_true, if_false]
  rfl

end Equations

/-- Induction along the scan of a text. -/
theorem scan {P : Option α → List α → Prop} (nil : ∀ b, P b [])
    (pass : ∀ b c s, m.top b (c :: s) = none → P (some c) s → P b (c :: s))
    (turned : ∀ b c s way, m.top b (c :: s) = some way → way.2 ≠ [] → m.Stops way.2 →
      P (some c) s → P b (c :: s))
    (left : ∀ b c s way, m.top b (c :: s) = some way → way.2.all m.run = true →
      P (some c) s → P b (c :: s))
    (hit : ∀ b c s way, m.top b (c :: s) = some way → way.2.head?.any m.run = true →
      way.2.dropWhile m.run ≠ [] → P none (way.2.dropWhile m.run) → P b (c :: s))
    (b : Option α) (s : List α) : P b s := by
  induction hn : s.length using Nat.strong_induction_on generalizing b s with
  | _ n ih =>
    cases s with
    | nil => exact nil b
    | cons c s =>
      rw [List.length_cons] at hn
      cases htop : m.top b (c :: s) with
      | none => exact pass b c s htop (ih s.length (by omega) (some c) s rfl)
      | some way =>
        by_cases hrest : way.2.dropWhile m.run = []
        · exact left b c s way htop (all_eq_true_of_dropWhile hrest)
            (ih s.length (by omega) (some c) s rfl)
        · have hne : way.2 ≠ [] := by
            intro hnil
            rw [hnil] at hrest
            exact hrest rfl
          by_cases hstops : m.Stops way.2
          · exact turned b c s way htop hne hstops (ih s.length (by omega) (some c) s rfl)
          · have hle := length_after htop
            exact hit b c s way htop (any_of_not_stops hne hstops) hrest
              (ih _ (by omega) none _ rfl)

/-! ### A text in two pieces -/

/-- What follows the text is no part of a head that begins in the text. -/
def Settled (x s : List α) : Prop :=
  ∀ b y, y <:+ x → y ≠ [] → m.top b (y ++ s) = (m.top b y).map fun way => (way.1, way.2 ++ s)

section Pieces

variable {m} {before : Option α} {c : α} {s x y out : List α} {way : List α × List α}

theorem Settled.mono (h : m.Settled x s) (hy : y <:+ x) : m.Settled y s :=
  fun b z hz hne => h b z (hz.trans hy) hne

theorem Settled.tail (h : m.Settled (c :: x) s) : m.Settled x s := h.mono (List.suffix_cons c x)

theorem settled_of_decided (h : ∀ y, y <:+ x → y ≠ [] → Decided m.head y s) :
    m.Settled x s := by
  intro b y hy hne
  rw [top, top, List.head?_append_of_ne_nil y hne, h y hy hne]
  split
  · rw [List.head?_map]
  · rfl

theorem suffix_of_top (h : m.top before s = some way) : way.2.dropWhile m.run <:+ s := by
  have happend := append_of_top h
  rw [← happend]
  exact (List.dropWhile_suffix m.run).trans (List.suffix_append way.1 way.2)

theorem Settled.top_none (h : m.Settled (c :: x) s) (htop : m.top before (c :: x) = none) :
    m.top before (c :: (x ++ s)) = none := by
  have hsettled := h before (c :: x) List.suffix_rfl (List.cons_ne_nil c x)
  rw [htop] at hsettled
  exact hsettled

theorem Settled.top_some (h : m.Settled (c :: x) s) (htop : m.top before (c :: x) = some way) :
    m.top before (c :: (x ++ s)) = some (way.1, way.2 ++ s) := by
  have hsettled := h before (c :: x) List.suffix_rfl (List.cons_ne_nil c x)
  rw [htop] at hsettled
  exact hsettled

theorem stops_append (hx : x ≠ []) (h : m.Stops x) (s : List α) : m.Stops (x ++ s) := by
  intro c hc
  rw [List.head?_append_of_ne_nil x hx] at hc
  exact h c hc

theorem any_append (h : x.head?.any m.run = true) (s : List α) :
    (x ++ s).head?.any m.run = true := by
  cases x with
  | nil => cases h
  | cons c x => exact h

theorem dropWhile_append_of_ne (h : x.dropWhile m.run ≠ []) (s : List α) :
    (x ++ s).dropWhile m.run = x.dropWhile m.run ++ s := by
  rw [List.dropWhile_append]
  cases hx : x.dropWhile m.run with
  | nil => exact absurd hx h
  | cons c y => rfl

/-- **A match left open swallows the beginning of what follows.** -/
theorem sub_append_of_open (hs : s.head?.any m.run = true) (before : Option α) (x : List α) :
    ∀ out, m.Settled x s → m.opens before x = some out →
      m.sub before (x ++ s) = out ++ m.sub none (s.dropWhile m.run) := by
  refine m.scan (P := fun b x => ∀ out, m.Settled x s → m.opens b x = some out →
    m.sub b (x ++ s) = out ++ m.sub none (s.dropWhile m.run)) ?_ ?_ ?_ ?_ ?_ before x
  · intro b out _ h
    cases h
  · intro b c x htop ih out hsettled h
    rw [opens_of_top_none htop, Option.map_eq_some_iff] at h
    obtain ⟨out', hout', rfl⟩ := h
    rw [List.cons_append, sub_of_find_none (find_none_of_top (hsettled.top_none htop)),
      ih out' hsettled.tail hout', List.cons_append]
  · intro b c x way htop hne hstops ih out hsettled h
    rw [opens_of_turned htop hne hstops, Option.map_eq_some_iff] at h
    obtain ⟨out', hout', rfl⟩ := h
    rw [List.cons_append, sub_of_find_none
      (find_none_of_stops (hsettled.top_some htop) (stops_append hne hstops s)),
      ih out' hsettled.tail hout', List.cons_append]
  · intro b c x way htop hall _ out hsettled h
    rw [opens_of_all htop hall, Option.some_inj] at h
    have hany : (way.2 ++ s).head?.any m.run = true := by
      cases hway : way.2 with
      | nil => exact hs
      | cons d y =>
        rw [hway, List.all_cons, Bool.and_eq_true] at hall
        rw [List.cons_append, List.head?_cons, Option.any_some]
        exact hall.1
    rw [List.cons_append, sub_of_top (hsettled.top_some htop) hany, ← h]
    dsimp only
    rw [dropWhile_of_all hall]
  · intro b c x way htop hany hrest ih out hsettled h
    rw [opens_of_top htop hany hrest, Option.map_eq_some_iff] at h
    obtain ⟨out', hout', rfl⟩ := h
    rw [List.cons_append, sub_of_top (hsettled.top_some htop) (any_append hany s)]
    dsimp only
    rw [dropWhile_append_of_ne hrest, ih out' (hsettled.mono (suffix_of_top htop)) hout',
      List.append_assoc]

/-- **What follows a text with no open match is replaced by itself.** -/
theorem sub_append_of_closed (s : List α) (before : Option α) (x : List α) :
    m.Settled x s → m.opens before x = none →
      m.sub before (x ++ s) = m.sub before x ++ m.sub (last before x) s := by
  refine m.scan (P := fun b x => m.Settled x s → m.opens b x = none →
    m.sub b (x ++ s) = m.sub b x ++ m.sub (last b x) s) ?_ ?_ ?_ ?_ ?_ before x
  · intro b _ _
    rfl
  · intro b c x htop ih hsettled h
    rw [opens_of_top_none htop, Option.map_eq_none_iff] at h
    rw [List.cons_append, sub_of_find_none (find_none_of_top (hsettled.top_none htop)),
      sub_of_find_none (find_none_of_top htop), ih hsettled.tail h]
    rfl
  · intro b c x way htop hne hstops ih hsettled h
    rw [opens_of_turned htop hne hstops, Option.map_eq_none_iff] at h
    rw [List.cons_append, sub_of_find_none
      (find_none_of_stops (hsettled.top_some htop) (stops_append hne hstops s)),
      sub_of_find_none (find_none_of_stops htop hstops), ih hsettled.tail h]
    rfl
  · intro b c x way htop hall _ hsettled h
    rw [opens_of_all htop hall] at h
    cases h
  · intro b c x way htop hany hrest ih hsettled h
    rw [opens_of_top htop hany hrest, Option.map_eq_none_iff] at h
    have hlast : last b (c :: x) = last none (way.2.dropWhile m.run) := by
      obtain ⟨y, hy⟩ := suffix_of_top htop
      rw [← hy, last_append, last_of_ne_nil hrest]
    rw [List.cons_append, sub_of_top (hsettled.top_some htop) (any_append hany s),
      sub_of_top htop hany, hlast]
    dsimp only
    rw [dropWhile_append_of_ne hrest, ih (hsettled.mono (suffix_of_top htop)) h,
      List.append_assoc]

/-- A character outside the class closes every match in front of it. -/
theorem sub_append_of_stops (hs : m.Stops s) (before : Option α) (x : List α) :
    m.Settled x s → m.sub before (x ++ s) = m.sub before x ++ m.sub none s := by
  refine m.scan (P := fun b x => m.Settled x s →
    m.sub b (x ++ s) = m.sub b x ++ m.sub none s) ?_ ?_ ?_ ?_ ?_ before x
  · intro b _
    exact sub_of_stops hs b none
  · intro b c x htop ih hsettled
    rw [List.cons_append, sub_of_find_none (find_none_of_top (hsettled.top_none htop)),
      sub_of_find_none (find_none_of_top htop), ih hsettled.tail]
    rfl
  · intro b c x way htop hne hstops ih hsettled
    rw [List.cons_append, sub_of_find_none
      (find_none_of_stops (hsettled.top_some htop) (stops_append hne hstops s)),
      sub_of_find_none (find_none_of_stops htop hstops), ih hsettled.tail]
    rfl
  · intro b c x way htop hall ih hsettled
    have hsome := hsettled.top_some htop
    by_cases hnil : way.2 = []
    · -- the head stands at the end of the text, and nothing of the class follows it
      have hx : m.Stops way.2 := by
        rw [hnil]
        intro d hd
        cases hd
      have hxs : m.Stops (way.2 ++ s) := by
        rw [hnil, List.nil_append]
        exact hs
      rw [List.cons_append, sub_of_find_none (find_none_of_stops hsome hxs),
        sub_of_find_none (find_none_of_stops htop hx), ih hsettled.tail]
      rfl
    · have hany : way.2.head?.any m.run = true := by
        cases hway : way.2 with
        | nil => exact absurd hway hnil
        | cons d y =>
          rw [hway, List.all_cons, Bool.and_eq_true] at hall
          exact hall.1
      have hdrop := dropWhile_of_all hall []
      rw [List.append_nil] at hdrop
      rw [List.cons_append, sub_of_top hsome (any_append hany s), sub_of_top htop hany]
      dsimp only
      rw [dropWhile_of_all hall, hdrop, List.append_assoc]
      show _ = m.repl way.1 ++ m.sub none s
      rw [dropWhile_of_stops hs]
  · intro b c x way htop hany hrest ih hsettled
    rw [List.cons_append, sub_of_top (hsettled.top_some htop) (any_append hany s),
      sub_of_top htop hany]
    dsimp only
    rw [dropWhile_append_of_ne hrest, ih (hsettled.mono (suffix_of_top htop)),
      List.append_assoc]

/-- Whether a match left open goes on to the end of what follows. -/
theorem opens_append_of_open (hs : s.head?.any m.run = true) (before : Option α) (x : List α) :
    ∀ out, m.Settled x s → m.opens before x = some out →
      m.opens before (x ++ s) =
        if s.all m.run then some out
        else (m.opens none (s.dropWhile m.run)).map (out ++ ·) := by
  refine m.scan (P := fun b x => ∀ out, m.Settled x s → m.opens b x = some out →
    m.opens b (x ++ s) = if s.all m.run then some out
      else (m.opens none (s.dropWhile m.run)).map (out ++ ·)) ?_ ?_ ?_ ?_ ?_ before x
  · intro b out _ h
    cases h
  · intro b c x htop ih out hsettled h
    rw [opens_of_top_none htop, Option.map_eq_some_iff] at h
    obtain ⟨out', hout', rfl⟩ := h
    rw [List.cons_append, opens_of_top_none (hsettled.top_none htop), ih out' hsettled.tail hout']
    split
    · rfl
    · rw [Option.map_map]
      rfl
  · intro b c x way htop hne hstops ih out hsettled h
    rw [opens_of_turned htop hne hstops, Option.map_eq_some_iff] at h
    obtain ⟨out', hout', rfl⟩ := h
    have hne' : way.2 ++ s ≠ [] := List.append_ne_nil_of_left_ne_nil hne s
    rw [List.cons_append,
      opens_of_turned (hsettled.top_some htop) hne' (stops_append hne hstops s),
      ih out' hsettled.tail hout']
    split
    · rfl
    · rw [Option.map_map]
      rfl
  · intro b c x way htop hall _ out hsettled h
    rw [opens_of_all htop hall, Option.some_inj] at h
    have hany : (way.2 ++ s).head?.any m.run = true := by
      cases hway : way.2 with
      | nil => exact hs
      | cons d y =>
        rw [hway, List.all_cons, Bool.and_eq_true] at hall
        rw [List.cons_append, List.head?_cons, Option.any_some]
        exact hall.1
    rw [List.cons_append]
    by_cases hsall : s.all m.run = true
    · have happend : (way.2 ++ s).all m.run = true := by
        rw [List.all_append, hall, hsall]
        rfl
      rw [opens_of_all (hsettled.top_some htop) happend, if_pos hsall, ← h]
    · have hrest : (way.2 ++ s).dropWhile m.run ≠ [] := by
        rw [dropWhile_of_all hall]
        intro hnil
        exact hsall (all_eq_true_of_dropWhile hnil)
      rw [opens_of_top (hsettled.top_some htop) hany hrest, if_neg hsall, ← h]
      dsimp only
      rw [dropWhile_of_all hall]
  · intro b c x way htop hany hrest ih out hsettled h
    rw [opens_of_top htop hany hrest, Option.map_eq_some_iff] at h
    obtain ⟨out', hout', rfl⟩ := h
    have hrest' : (way.2 ++ s).dropWhile m.run ≠ [] := by
      rw [dropWhile_append_of_ne hrest]
      exact List.append_ne_nil_of_left_ne_nil hrest s
    rw [List.cons_append, opens_of_top (hsettled.top_some htop) (any_append hany s) hrest']
    dsimp only
    rw [dropWhile_append_of_ne hrest, ih out' (hsettled.mono (suffix_of_top htop)) hout']
    split
    · rfl
    · rw [Option.map_map]
      simp only [Function.comp_def, List.append_assoc]

/-- With no open match in front of it, a text opens the matches that it opens by itself. -/
theorem opens_append_of_closed (s : List α) (before : Option α) (x : List α) :
    m.Settled x s → m.opens before x = none →
      m.opens before (x ++ s) = (m.opens (last before x) s).map (m.sub before x ++ ·) := by
  refine m.scan (P := fun b x => m.Settled x s → m.opens b x = none →
    m.opens b (x ++ s) = (m.opens (last b x) s).map (m.sub b x ++ ·)) ?_ ?_ ?_ ?_ ?_ before x
  · intro b _ _
    show m.opens b s = (m.opens b s).map fun out => out
    rw [Option.map_id']
  · intro b c x htop ih hsettled h
    rw [opens_of_top_none htop, Option.map_eq_none_iff] at h
    rw [List.cons_append, opens_of_top_none (hsettled.top_none htop),
      sub_of_find_none (find_none_of_top htop), ih hsettled.tail h, Option.map_map]
    rfl
  · intro b c x way htop hne hstops ih hsettled h
    rw [opens_of_turned htop hne hstops, Option.map_eq_none_iff] at h
    have hne' : way.2 ++ s ≠ [] := List.append_ne_nil_of_left_ne_nil hne s
    rw [List.cons_append,
      opens_of_turned (hsettled.top_some htop) hne' (stops_append hne hstops s),
      sub_of_find_none (find_none_of_stops htop hstops), ih hsettled.tail h, Option.map_map]
    rfl
  · intro b c x way htop hall _ hsettled h
    rw [opens_of_all htop hall] at h
    cases h
  · intro b c x way htop hany hrest ih hsettled h
    rw [opens_of_top htop hany hrest, Option.map_eq_none_iff] at h
    have hlast : last b (c :: x) = last none (way.2.dropWhile m.run) := by
      obtain ⟨y, hy⟩ := suffix_of_top htop
      rw [← hy, last_append, last_of_ne_nil hrest]
    have hrest' : (way.2 ++ s).dropWhile m.run ≠ [] := by
      rw [dropWhile_append_of_ne hrest]
      exact List.append_ne_nil_of_left_ne_nil hrest s
    rw [List.cons_append, opens_of_top (hsettled.top_some htop) (any_append hany s) hrest',
      sub_of_top htop hany, hlast]
    dsimp only
    rw [dropWhile_append_of_ne hrest, ih (hsettled.mono (suffix_of_top htop)) h, Option.map_map]
    simp only [Function.comp_def, List.append_assoc]

/-- Characters with which no match begins. -/
theorem sub_append_of_inert (hx : ∀ c ∈ x, ∀ b s, m.top b (c :: s) = none) (before : Option α)
    (s : List α) : m.sub before (x ++ s) = x ++ m.sub (last before x) s := by
  induction x generalizing before with
  | nil => rfl
  | cons c x ih =>
    rw [List.cons_append,
      sub_of_find_none (find_none_of_top (hx c List.mem_cons_self before (x ++ s))),
      ih (fun d hd => hx d (List.mem_cons_of_mem c hd))]
    rfl

theorem opens_of_inert (hx : ∀ c ∈ x, ∀ b s, m.top b (c :: s) = none) (before : Option α) :
    m.opens before x = none := by
  induction x generalizing before with
  | nil => rfl
  | cons c x ih =>
    rw [opens_of_top_none (hx c List.mem_cons_self before x),
      ih (fun d hd => hx d (List.mem_cons_of_mem c hd))]
    rfl

theorem sub_of_inert (hx : ∀ c ∈ x, ∀ b s, m.top b (c :: s) = none) (before : Option α) :
    m.sub before x = x := by
  have happend := sub_append_of_inert hx before []
  rw [List.append_nil, sub_nil, List.append_nil] at happend
  exact happend

/-- The match that is open begins in the text, and nothing outside the class follows its head. -/
theorem exists_top_of_opens (before : Option α) (x : List α) :
    ∀ out, m.opens before x = some out → ∃ b y way z, y <:+ x ∧ y ≠ [] ∧
      m.top b y = some way ∧ way.2.all m.run = true ∧ out = z ++ m.repl way.1 := by
  refine m.scan (P := fun before x => ∀ out, m.opens before x = some out →
    ∃ b y way z, y <:+ x ∧ y ≠ [] ∧ m.top b y = some way ∧ way.2.all m.run = true ∧
      out = z ++ m.repl way.1) ?_ ?_ ?_ ?_ ?_ before x
  · intro before out h
    cases h
  · intro before c x htop ih out h
    rw [opens_of_top_none htop, Option.map_eq_some_iff] at h
    obtain ⟨out', hout', rfl⟩ := h
    obtain ⟨b, y, way, z, hy, hne, hway, hall, rfl⟩ := ih out' hout'
    exact ⟨b, y, way, c :: z, hy.trans (List.suffix_cons c x), hne, hway, hall, rfl⟩
  · intro before c x way htop hne hstops ih out h
    rw [opens_of_turned htop hne hstops, Option.map_eq_some_iff] at h
    obtain ⟨out', hout', rfl⟩ := h
    obtain ⟨b, y, way', z, hy, hne', hway, hall, rfl⟩ := ih out' hout'
    exact ⟨b, y, way', c :: z, hy.trans (List.suffix_cons c x), hne', hway, hall, rfl⟩
  · intro before c x way htop hall _ out h
    rw [opens_of_all htop hall, Option.some_inj] at h
    exact ⟨before, c :: x, way, [], List.suffix_rfl, List.cons_ne_nil c x, htop, hall, h.symm⟩
  · intro before c x way htop hany hrest ih out h
    rw [opens_of_top htop hany hrest, Option.map_eq_some_iff] at h
    obtain ⟨out', hout', rfl⟩ := h
    obtain ⟨b, y, way', z, hy, hne', hway, hall, rfl⟩ := ih out' hout'
    refine ⟨b, y, way', m.repl way.1 ++ z, hy.trans (suffix_of_top htop), hne', hway, hall, ?_⟩
    rw [List.append_assoc]

/-- With no open match, the last character stays. -/
theorem last_sub (before : Option α) (x : List α) :
    m.opens before x = none → ∀ b, last b (m.sub before x) = last b x := by
  refine m.scan (P := fun before x => m.opens before x = none →
    ∀ b, last b (m.sub before x) = last b x) ?_ ?_ ?_ ?_ ?_ before x
  · intro before _ b
    rfl
  · intro before c x htop ih h b
    rw [opens_of_top_none htop, Option.map_eq_none_iff] at h
    rw [sub_of_find_none (find_none_of_top htop)]
    exact ih h (some c)
  · intro before c x way htop hne hstops ih h b
    rw [opens_of_turned htop hne hstops, Option.map_eq_none_iff] at h
    rw [sub_of_find_none (find_none_of_stops htop hstops)]
    exact ih h (some c)
  · intro before c x way htop hall _ h b
    rw [opens_of_all htop hall] at h
    cases h
  · intro before c x way htop hany hrest ih h b
    rw [opens_of_top htop hany hrest, Option.map_eq_none_iff] at h
    obtain ⟨y, hy⟩ := suffix_of_top htop
    rw [sub_of_top htop hany, last_append, ih h, ← hy, last_append]
    exact last_of_ne_nil hrest _ _

end Pieces

end Pattern

end Python.Regex
