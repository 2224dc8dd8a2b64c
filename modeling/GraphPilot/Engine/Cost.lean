/-
The prices of models: `engine/cost.py`.

A model that is no key of the table has the prices of the first family, in the order of the
table, that its lower case begins with.  One family is a prefix of another and comes before
it, so that the dated names of the longer one get the prices of the shorter
(`mini_priced_as_gpt4o`).

* `find_family` — the family that is found for a text that begins with one;
* `resolvePrices_of_longest` — the price is that of the longest family, but for this one;
* `family_prices` — and so for every suffixed name, in any letter case.
-/
import Mathlib.Data.Bool.AllAny
import Mathlib.Data.Rat.Defs
import Mathlib.Data.List.Infix
import Mathlib.Tactic.NormNum

namespace GraphPilot.Engine

/-- The prices of a million tokens, in dollars. -/
structure Prices where
  input : ℚ
  output : ℚ

def gpt4o : Prices := ⟨2.50, 10.00⟩

def gpt4oMini : Prices := ⟨0.15, 0.60⟩

def claudeSonnet : Prices := ⟨3.00, 15.00⟩

def claudeOpus : Prices := ⟨15.00, 75.00⟩

/-- `COST_PER_1M_TOKENS`. -/
def costPer1MTokens : List (String × Prices) := [
  ("gpt-4o", gpt4o),
  ("gpt-4o-mini", gpt4oMini),
  ("claude-sonnet", claudeSonnet),
  ("claude-opus", claudeOpus)]

/-- `str.lower`; ASCII characters are lowered one by one, whatever follows. -/
structure Lower where
  lower : String → String
  lower_ascii : ∀ a : List Char, (∀ c ∈ a, c.toNat < 128) →
    lower (String.ofList a) = String.ofList (a.map Char.toLower)
  lower_prefix : ∀ a b : List Char, (∀ c ∈ a, c.toNat < 128) →
    a.map Char.toLower <+: (lower (String.ofList (a ++ b))).toList

/-- `part in s`. -/
def occurs (part s : String) : Bool := decide (part.toList <:+: s.toList)

/-- `s.startswith(start)`. -/
def startsWith (s start : String) : Bool := start.toList.isPrefixOf s.toList

/-- `_resolve_prices`. -/
def resolvePrices (host : Lower) (model : String) : Prices :=
  match costPer1MTokens.lookup model with
  | some prices => prices
  | none =>
    let lowered := host.lower model
    match costPer1MTokens.find? fun known => startsWith lowered known.1 with
    | some known => known.2
    | none =>
      if occurs "opus" lowered then claudeOpus
      else if occurs "sonnet" lowered then claudeSonnet
      else if startsWith lowered "gpt-4o-mini" || occurs "mini" lowered then gpt4oMini
      else claudeOpus

/-! ### The first family that matches -/

section Families

variable {host : Lower} {m model text : String} {prices : Prices}

theorem startsWith_iff {start : String} :
    startsWith text start = true ↔ start.toList <+: text.toList := List.isPrefixOf_iff_prefix

/-- No text begins with two names unless one of these begins with the other. -/
theorem startsWith_eq_false {start : String} (hm : m.toList <+: text.toList)
    (h : ¬ start.toList <+: m.toList) (h' : ¬ m.toList <+: start.toList) :
    startsWith text start = false := by
  rw [Bool.eq_false_iff]
  intro hstart
  rw [startsWith_iff] at hstart
  rcases List.prefix_or_prefix_of_prefix hstart hm with hpre | hpre
  · exact h hpre
  · exact h' hpre

/-- The first family of the table that a text begins with. -/
theorem find_family (hm : (m, prices) ∈ costPer1MTokens) (hpre : m.toList <+: text.toList) :
    (costPer1MTokens.find? fun known => startsWith text known.1) =
      some (if m = "gpt-4o-mini" then ("gpt-4o", gpt4o) else (m, prices)) := by
  simp only [costPer1MTokens, List.mem_cons, List.not_mem_nil, or_false, Prod.mk.injEq] at hm
  unfold costPer1MTokens
  rcases hm with ⟨rfl, rfl⟩ | ⟨rfl, rfl⟩ | ⟨rfl, rfl⟩ | ⟨rfl, rfl⟩
  · have hfirst : startsWith text "gpt-4o" = true := startsWith_iff.mpr hpre
    simp [hfirst]
  · -- the longer name begins with the shorter one, which comes first
    have hfirst : startsWith text "gpt-4o" = true := by
      have hshort : "gpt-4o".toList <+: "gpt-4o-mini".toList := by decide
      rw [startsWith_iff]
      exact hshort.trans hpre
    simp [hfirst]
  · have h₁ : startsWith text "gpt-4o" = false := startsWith_eq_false hpre (by decide) (by decide)
    have h₂ : startsWith text "gpt-4o-mini" = false :=
      startsWith_eq_false hpre (by decide) (by decide)
    have h₃ : startsWith text "claude-sonnet" = true := startsWith_iff.mpr hpre
    simp [h₁, h₂, h₃]
  · have h₁ : startsWith text "gpt-4o" = false := startsWith_eq_false hpre (by decide) (by decide)
    have h₂ : startsWith text "gpt-4o-mini" = false :=
      startsWith_eq_false hpre (by decide) (by decide)
    have h₃ : startsWith text "claude-sonnet" = false :=
      startsWith_eq_false hpre (by decide) (by decide)
    have h₄ : startsWith text "claude-opus" = true := startsWith_iff.mpr hpre
    simp [h₁, h₂, h₃, h₄]

/-- The names of the families are in lower case. -/
theorem lower_family (hm : (m, prices) ∈ costPer1MTokens) :
    host.lower m = m ∧ ∀ c ∈ m.toList, c.toNat < 128 := by
  have hlower : ∀ known ∈ costPer1MTokens, known.1.toList.map Char.toLower = known.1.toList ∧
      known.1.toList.all (fun c => decide (c.toNat < 128)) = true := by
    intro known hknown
    simp only [costPer1MTokens, List.mem_cons, List.not_mem_nil, or_false] at hknown
    rcases hknown with rfl | rfl | rfl | rfl <;> decide
  obtain ⟨hmap, hall⟩ := hlower _ hm
  have hascii := List.all_iff_forall_prop.mp hall
  have hself := host.lower_ascii m.toList hascii
  rw [hmap, String.ofList_toList] at hself
  exact ⟨hself, hascii⟩

/-- The table has each name once. -/
theorem lookup_family (hm : (m, prices) ∈ costPer1MTokens) :
    costPer1MTokens.lookup m = some prices := by
  simp only [costPer1MTokens, List.mem_cons, List.not_mem_nil, or_false, Prod.mk.injEq] at hm
  rcases hm with ⟨rfl, rfl⟩ | ⟨rfl, rfl⟩ | ⟨rfl, rfl⟩ | ⟨rfl, rfl⟩ <;> rfl

/-- A model that is a key of the table. -/
theorem mem_of_lookup (h : costPer1MTokens.lookup model = some prices) :
    (model, prices) ∈ costPer1MTokens := by
  obtain ⟨before, after, hlist, -⟩ := List.lookup_eq_some_iff.mp h
  rw [hlist]
  exact List.mem_append_right _ List.mem_cons_self

/-- The longest family that a text begins with. -/
def Longest (m text : String) : Prop :=
  m.toList <+: text.toList ∧ ∀ known ∈ costPer1MTokens, m.length < known.1.length →
    ¬ known.1.toList <+: text.toList

theorem gpt4o_ne_gpt4oMini : gpt4o ≠ gpt4oMini := by
  intro h
  have houtput : (10.00 : ℚ) = 0.60 := congrArg Prices.output h
  norm_num at houtput

/-- **A model has the price of its longest family**, except for those of `gpt-4o-mini` under
another name. -/
theorem resolvePrices_of_longest (hm : (m, prices) ∈ costPer1MTokens)
    (hlongest : Longest m (host.lower model)) :
    resolvePrices host model = prices ↔ (m = "gpt-4o-mini" → model = "gpt-4o-mini") := by
  obtain ⟨hpre, hlonger⟩ := hlongest
  cases hlookup : costPer1MTokens.lookup model with
  | some prices' =>
    -- the model is itself a family, and so the longest one
    have hmem := mem_of_lookup hlookup
    have hself : host.lower model = model := (lower_family hmem).1
    rw [hself] at hpre hlonger
    have hle : model.toList.length ≤ m.toList.length := by
      by_contra hlt
      rw [String.length_toList, String.length_toList] at hlt
      exact hlonger _ hmem (Nat.lt_of_not_le hlt) List.prefix_rfl
    have hsame : m = model := String.toList_injective (hpre.eq_of_length_le hle)
    subst hsame
    have hprices : resolvePrices host m = prices := by
      unfold resolvePrices
      rw [lookup_family hm]
    exact iff_of_true hprices id
  | none =>
    have hne : model ≠ "gpt-4o-mini" := by
      rintro rfl
      cases hlookup
    unfold resolvePrices
    rw [hlookup]
    dsimp only
    rw [find_family hm hpre]
    by_cases hmini : m = "gpt-4o-mini"
    · rw [if_pos hmini]
      have hprices : prices = gpt4oMini := by
        have hlookup' := lookup_family hm
        rw [hmini] at hlookup'
        exact (Option.some.inj hlookup').symm
      rw [hprices]
      exact iff_of_false gpt4o_ne_gpt4oMini fun h => hne (h hmini)
    · rw [if_neg hmini]
      exact iff_of_true rfl fun h => absurd h hmini

/-! ### Models of a family, and others -/

/-- No family matches, and none of the words that are looked for after them. -/
def Unknown (lowered : String) : Prop :=
  (∀ known ∈ costPer1MTokens, ¬ known.1.toList <+: lowered.toList) ∧
    ∀ word ∈ ["opus", "sonnet", "mini"], occurs word lowered = false

/-- A model that nothing matches has the highest prices. -/
theorem resolvePrices_of_unknown (h : Unknown (host.lower model)) :
    ∀ known ∈ costPer1MTokens, known.2.input ≤ (resolvePrices host model).input ∧
      known.2.output ≤ (resolvePrices host model).output := by
  obtain ⟨hfamilies, hwords⟩ := h
  have hlookup : costPer1MTokens.lookup model = none := by
    cases hlookup : costPer1MTokens.lookup model with
    | none => rfl
    | some prices =>
      have hmem := mem_of_lookup hlookup
      refine absurd ?_ (hfamilies _ hmem)
      rw [(lower_family hmem).1]
  have hfind : (costPer1MTokens.find? fun known => startsWith (host.lower model) known.1) = none := by
    rw [List.find?_eq_none]
    intro known hknown hstart
    exact hfamilies known hknown (startsWith_iff.mp hstart)
  have hstart : startsWith (host.lower model) "gpt-4o-mini" = false := by
    rw [Bool.eq_false_iff]
    intro hstart
    exact hfamilies ("gpt-4o-mini", gpt4oMini) (by simp [costPer1MTokens])
      (startsWith_iff.mp hstart)
  have hprices : resolvePrices host model = claudeOpus := by
    unfold resolvePrices
    rw [hlookup]
    dsimp only
    rw [hfind]
    simp [hwords "opus", hwords "sonnet", hwords "mini", hstart]
  intro known hknown
  rw [hprices]
  simp only [costPer1MTokens, List.mem_cons, List.not_mem_nil, or_false] at hknown
  rcases hknown with rfl | rfl | rfl | rfl <;>
    constructor <;> norm_num [gpt4o, gpt4oMini, claudeSonnet, claudeOpus]

/-- A suffixed name of a family, in any letter case. -/
theorem longest_of_suffix {a s : List Char} (ha : a.map Char.toLower = m.toList ++ ['-'])
    (hm : (m, prices) ∈ costPer1MTokens)
    (hlonger : ∀ known ∈ costPer1MTokens, m.length < known.1.length →
      ¬ known.1.toList <+: (host.lower (String.ofList (a ++ s))).toList) :
    Longest m (host.lower (String.ofList (a ++ s))) := by
  have hfamily : host.lower m = m ∧ ∀ c ∈ m.toList, c.toNat < 128 := lower_family hm
  have hascii : ∀ c ∈ a, c.toNat < 128 := by
    intro c hc
    have hlower : c.toLower ∈ m.toList ++ ['-'] := by
      rw [← ha]
      exact List.mem_map_of_mem hc
    have hlt : c.toLower.toNat < 128 := by
      rcases List.mem_append.mp hlower with hmem | hmem
      · exact hfamily.2 _ hmem
      · rw [List.mem_singleton.mp hmem]
        decide
    by_cases hupper : c.val ≥ 'A'.val ∧ c.val ≤ 'Z'.val
    · have hle : c.toNat ≤ 'Z'.toNat := UInt32.le_iff_toNat_le.mp hupper.2
      exact lt_of_le_of_lt hle (by decide)
    · have hsame : c.toLower = c := by
        unfold Char.toLower
        exact dif_neg hupper
      rwa [hsame] at hlt
  have hpre := host.lower_prefix a s hascii
  rw [ha] at hpre
  exact ⟨(List.prefix_append _ _).trans hpre, hlonger⟩

/-- **The suffixed models of a family have its price**, unless the family is `gpt-4o-mini`.
The price is otherwise that of the longest family that matches, and the highest one if nothing
does. -/
theorem family_prices {a s : List Char} (hm : (m, prices) ∈ costPer1MTokens)
    (ha : a.map Char.toLower = m.toList ++ ['-'])
    (hlonger : ∀ known ∈ costPer1MTokens, m.length < known.1.length →
      ¬ known.1.toList <+: (host.lower (String.ofList (a ++ s))).toList) :
    (resolvePrices host (String.ofList (a ++ s)) = prices ↔ m ≠ "gpt-4o-mini") ∧
      (∀ model m' prices', (m', prices') ∈ costPer1MTokens → Longest m' (host.lower model) →
        (resolvePrices host model = prices' ↔ (m' = "gpt-4o-mini" → model = "gpt-4o-mini"))) ∧
      ∀ model, Unknown (host.lower model) → ∀ known ∈ costPer1MTokens,
        known.2.input ≤ (resolvePrices host model).input ∧
          known.2.output ≤ (resolvePrices host model).output := by
  refine ⟨?_, fun model m' prices' => resolvePrices_of_longest, fun model =>
    resolvePrices_of_unknown⟩
  have hlongest := longest_of_suffix ha hm hlonger
  rw [resolvePrices_of_longest hm hlongest]
  constructor
  · rintro h rfl
    -- the suffixed name is longer than the name
    have hname := congrArg String.toList (h rfl)
    have hlength := congrArg List.length ha
    rw [String.toList_ofList] at hname
    have htotal := congrArg List.length hname
    rw [List.length_append] at htotal
    rw [List.length_map, List.length_append, List.length_singleton] at hlength
    omega
  · intro h hmini
    exact absurd hmini h

end Families

namespace Sample

def lower (s : String) : String := String.ofList (s.toList.map Char.toLower)

theorem lower_ascii (a : List Char) (_ : ∀ c ∈ a, c.toNat < 128) :
    lower (String.ofList a) = String.ofList (a.map Char.toLower) := by
  unfold lower
  rw [String.toList_ofList]

theorem lower_prefix (a b : List Char) (_ : ∀ c ∈ a, c.toNat < 128) :
    a.map Char.toLower <+: (lower (String.ofList (a ++ b))).toList := by
  unfold lower
  rw [String.toList_ofList, String.toList_ofList, List.map_append]
  exact List.prefix_append _ _

def host : Lower := ⟨lower, lower_ascii, lower_prefix⟩

end Sample

theorem family_prices_opus :
    (resolvePrices Sample.host (String.ofList ("Claude-Opus-".toList ++ "4".toList)) = claudeOpus ↔
      "claude-opus" ≠ "gpt-4o-mini") ∧
      (∀ model m' prices', (m', prices') ∈ costPer1MTokens →
        Longest m' (Sample.host.lower model) → (resolvePrices Sample.host model = prices' ↔
          (m' = "gpt-4o-mini" → model = "gpt-4o-mini"))) ∧
      ∀ model, Unknown (Sample.host.lower model) → ∀ known ∈ costPer1MTokens,
        known.2.input ≤ (resolvePrices Sample.host model).input ∧
          known.2.output ≤ (resolvePrices Sample.host model).output := by
  refine family_prices (m := "claude-opus") (by simp [costPer1MTokens]) (by decide) ?_
  intro known hknown hlt
  simp only [costPer1MTokens, List.mem_cons, List.not_mem_nil, or_false] at hknown
  rcases hknown with rfl | rfl | rfl | rfl
  · exact absurd hlt (by decide)
  · exact absurd hlt (by decide)
  · decide
  · exact absurd hlt (by decide)

/-- A dated name of the smaller model. -/
theorem mini_priced_as_gpt4o : ¬ ∀ (host : Lower) (m : String) (prices : Prices) (a s : List Char),
    (m, prices) ∈ costPer1MTokens → a.map Char.toLower = m.toList ++ ['-'] →
    (∀ known ∈ costPer1MTokens, m.length < known.1.length →
      ¬ known.1.toList <+: (host.lower (String.ofList (a ++ s))).toList) →
    resolvePrices host (String.ofList (a ++ s)) = prices := by
  intro h
  have hmini := h Sample.host "gpt-4o-mini" gpt4oMini "gpt-4o-mini-".toList "2024-07-18".toList
    (by simp [costPer1MTokens]) (by decide) ?_
  · exact gpt4o_ne_gpt4oMini hmini
  · intro known hknown hlt
    simp only [costPer1MTokens, List.mem_cons, List.not_mem_nil, or_false] at hknown
    rcases hknown with rfl | rfl | rfl | rfl
    · exact absurd hlt (by decide)
    · exact absurd hlt (by decide)
    · decide
    · exact absurd hlt (by decide)

end GraphPilot.Engine
