import Caret.Proofs.Config.Rules
import Mathlib.Data.List.Pairwise

/-!
# The violation that is reported

Of a configuration that breaks the rules one violation is reported, and it is the
first one. Here "first" is said without a list: a `Spot` is a place at which a rule
may be broken, be it in this configuration or not, and `Spot.Before` is the fixed
order of all such places. The common words come first, then the words of the
locales, by the names of the locales in the order of their code points, then the
line terminators as they are listed. A violation is the first one if nothing is wrong
at any place before its own (`Config.IsFirstViolation`).

The sections of the locales come from a table that has no order of its own.
`Config.violationsOver` goes through them as a program would that is given the names
in some order and sorts them. Whatever order that is, the violations come out the
same (`Config.violationsOver_of_perm`), so the verdict does not depend on it.
-/

namespace Caret

/-! ## Places -/

/-- The place of a word among the words. -/
def Word.rank : Word → Nat
  | near => 0
  | line => 1
  | column => 2

/-- **A place at which a rule may be broken.** -/
inductive Spot where
  /-- A word of the common phrases. -/
  | word (w : Word)
  /-- A word of the phrases of a locale. -/
  | localeWord (name : String) (w : Word)
  /-- A line terminator, by the number of those listed before it. -/
  | terminator (index : Nat)

/-- What is wrong with a word of the phrases at `place`, if it is set there. -/
def blankWord? (place : String) (phrases : Option PhraseOverrides) (w : Word) : Option Violation :=
  match phrases.bind (·.get w) with
  | some text => if Text.isBlank text then some (.blankWord place w) else none
  | none => none

namespace Spot

/-- **What is wrong at a place** of a configuration. -/
def violation? (c : Config) : Spot → Option Violation
  | word w => blankWord? "phrases" c.phrases w
  | localeWord name w =>
    blankWord? ("locales." ++ name ++ ".phrases") ((c.locale? name).bind (·.phrases)) w
  | terminator index => (c.lineTerminators.getD [])[index]?.bind terminatorViolation?

/-- **The order of the places.** -/
def Before : Spot → Spot → Prop
  | word w, word w' => w.rank < w'.rank
  | word _, localeWord _ _ => True
  | word _, terminator _ => True
  | localeWord _ _, word _ => False
  | localeWord name w, localeWord name' w' => name < name' ∨ name = name' ∧ w.rank < w'.rank
  | localeWord _ _, terminator _ => True
  | terminator _, word _ => False
  | terminator _, localeWord _ _ => False
  | terminator index, terminator index' => index < index'

theorem Before.asymm {s s' : Spot} (h : s.Before s') : ¬ s'.Before s := by
  cases s with
  | word w => cases s' with
    | word w' => exact Nat.lt_asymm h
    | localeWord | terminator => exact id
  | localeWord name w => cases s' with
    | word => exact h.elim
    | terminator => exact id
    | localeWord name' w' =>
      rintro (hname | ⟨rfl, hw⟩)
      · obtain hname' | ⟨rfl, -⟩ := h
        · exact String.lt_asymm hname hname'
        · exact String.lt_irrefl _ hname
      · obtain hname' | ⟨-, hw'⟩ := h
        · exact String.lt_irrefl _ hname'
        · exact Nat.lt_asymm hw hw'
  | terminator index => cases s' with
    | word | localeWord => exact h.elim
    | terminator index' => exact Nat.lt_asymm h

end Spot

namespace Config

/-- **A violation that is the first one**: there is nothing wrong at any place before its own. -/
def IsFirstViolation (c : Config) (v : Violation) : Prop :=
  ∃ s : Spot, s.violation? c = some v ∧ ∀ s' : Spot, s'.Before s → s'.violation? c = none

/-! ## Going through the places -/

/-- The places of a configuration, in the order in which they are looked at. -/
def spots (c : Config) : List Spot :=
  Word.all.map .word ++ c.locales.keys.flatMap (fun name => Word.all.map (.localeWord name)) ++
    (List.range (c.lineTerminators.getD []).length).map .terminator

theorem elim_violations (phrases : Option PhraseOverrides) (place : String) :
    (phrases.elim [] fun p => p.violations place) = Word.all.filterMap (blankWord? place phrases) := by
  cases phrases with
  | none => rfl
  | some p =>
    show (Word.all.filterMap fun w => (p.get w).map (w, ·)).filterMap _ = _
    rw [List.filterMap_filterMap]
    refine List.filterMap_congr fun w _ => ?_
    unfold blankWord?
    show _ = match p.get w with
      | some text => if Text.isBlank text then some (Violation.blankWord place w) else none
      | none => none
    cases p.get w with
    | none => rfl
    | some text => rfl

theorem filterMap_eq_range {α β : Type} (f : α → Option β) (as : List α) :
    as.filterMap f = (List.range as.length).filterMap fun i => as[i]?.bind f := by
  induction as with
  | nil => rfl
  | cons a as ih =>
    rw [List.length_cons, List.range_succ_eq_map, List.filterMap_cons, List.filterMap_cons,
      List.filterMap_map, ih]
    rfl

/-- **The violations are what is wrong at the places**, one after the other. -/
theorem violations_eq_filterMap (c : Config) :
    c.violations = c.spots.filterMap (·.violation? c) := by
  have hlocales : (c.locales.entries.flatMap fun e =>
        e.2.phrases.elim [] fun p => p.violations ("locales." ++ e.1 ++ ".phrases"))
      = (c.locales.keys.flatMap fun name => Word.all.map (Spot.localeWord name)).filterMap
        (·.violation? c) := by
    unfold Dict.keys
    rw [List.filterMap_flatMap, List.flatMap_map]
    refine List.flatMap_congr fun e he => ?_
    have hfind : c.locale? e.1 = some e.2 := Dict.find?_eq_some_iff.2 he
    rw [elim_violations, List.filterMap_map]
    refine List.filterMap_congr fun w _ => ?_
    show _ = blankWord? _ ((c.locale? e.1).bind (·.phrases)) w
    rw [hfind]
    rfl
  unfold violations spots
  rw [List.filterMap_append, List.filterMap_append, List.filterMap_map, List.filterMap_map,
    elim_violations, hlocales, filterMap_eq_range terminatorViolation?]
  rfl

theorem pairwise_map_all {f : Word → Spot}
    (h : ∀ w w' : Word, w.rank < w'.rank → (f w).Before (f w')) :
    (Word.all.map f).Pairwise Spot.Before := by
  rw [List.pairwise_map]
  exact List.Pairwise.imp (fun {w w'} hw => h w w' hw)
    (show Word.all.Pairwise fun w w' => w.rank < w'.rank by decide)

/-- The places are looked at in their order. -/
theorem pairwise_spots (c : Config) : c.spots.Pairwise Spot.Before := by
  have hkeys : c.locales.keys.Pairwise (· < ·) := by
    unfold Dict.keys
    rw [List.pairwise_map]
    exact c.locales.ascending
  unfold spots
  refine List.pairwise_append.2 ⟨List.pairwise_append.2 ⟨?_, ?_, ?_⟩, ?_, ?_⟩
  · exact pairwise_map_all fun w w' h => h
  · refine List.pairwise_flatMap.2 ⟨fun name _ => ?_, hkeys.imp fun {name name'} h => ?_⟩
    · exact pairwise_map_all fun w w' h => .inr ⟨rfl, h⟩
    · intro s hs s' hs'
      obtain ⟨w, -, rfl⟩ := List.mem_map.1 hs
      obtain ⟨w', -, rfl⟩ := List.mem_map.1 hs'
      exact .inl h
  · intro s hs s' hs'
    obtain ⟨w, -, rfl⟩ := List.mem_map.1 hs
    obtain ⟨name, -, hs'⟩ := List.mem_flatMap.1 hs'
    obtain ⟨w', -, rfl⟩ := List.mem_map.1 hs'
    trivial
  · rw [List.pairwise_map]
    exact List.pairwise_lt_range
  · intro s hs s' hs'
    obtain ⟨index, -, rfl⟩ := List.mem_map.1 hs'
    obtain hs | hs := List.mem_append.1 hs
    · obtain ⟨w, -, rfl⟩ := List.mem_map.1 hs
      trivial
    · obtain ⟨name, -, hs⟩ := List.mem_flatMap.1 hs
      obtain ⟨w, -, rfl⟩ := List.mem_map.1 hs
      trivial

/-- No place at which something is wrong is left out. -/
theorem mem_spots_of_violation? {c : Config} {s : Spot} {v : Violation}
    (h : s.violation? c = some v) : s ∈ c.spots := by
  have hall : ∀ w : Word, w ∈ Word.all := by
    intro w
    cases w
    all_goals decide
  unfold spots
  cases s with
  | word w =>
    exact List.mem_append_left _ (List.mem_append_left _ (List.mem_map_of_mem (hall w)))
  | localeWord name w =>
    refine List.mem_append_left _ (List.mem_append_right _ (List.mem_flatMap.2 ⟨name, ?_, ?_⟩))
    · cases hname : c.locale? name with
      | none =>
        have hnone : blankWord? _ ((c.locale? name).bind (·.phrases)) w = some v := h
        rw [hname] at hnone
        cases hnone
      | some s => exact List.mem_map.2 ⟨(name, s), Dict.find?_eq_some_iff.1 hname, rfl⟩
    · exact List.mem_map_of_mem (hall w)
  | terminator index =>
    obtain ⟨text, htext, -⟩ := Option.bind_eq_some_iff.1 h
    obtain ⟨hindex, -⟩ := List.getElem?_eq_some_iff.1 htext
    exact List.mem_append_right _ (List.mem_map_of_mem (List.mem_range.2 hindex))

/-- **The first of the violations is the first violation.** -/
theorem isFirstViolation_iff {c : Config} {v : Violation} :
    c.IsFirstViolation v ↔ c.violations.head? = some v := by
  rw [violations_eq_filterMap, List.head?_filterMap]
  constructor
  · rintro ⟨s, hs, hbefore⟩
    obtain ⟨front, back, heq⟩ := List.append_of_mem (mem_spots_of_violation? hs)
    refine List.findSome?_eq_some_iff.2 ⟨front, s, back, heq, hs, fun s' hs' => hbefore s' ?_⟩
    have hpairwise := c.pairwise_spots
    rw [heq, List.pairwise_append] at hpairwise
    exact hpairwise.2.2 s' hs' s (List.mem_cons_self ..)
  · intro h
    obtain ⟨front, s, back, heq, hs, hfront⟩ := List.findSome?_eq_some_iff.1 h
    refine ⟨s, hs, fun s' hbefore => ?_⟩
    cases hs' : s'.violation? c with
    | none => rfl
    | some v' =>
      -- `s'` is on the list as well, and can stand neither at `s` nor behind it
      have hmem := mem_spots_of_violation? hs'
      have hpairwise := c.pairwise_spots
      rw [heq] at hmem hpairwise
      rw [List.pairwise_append, List.pairwise_cons] at hpairwise
      obtain hmem | hmem := List.mem_append.1 hmem
      · rw [hfront s' hmem] at hs'
        cases hs'
      · obtain rfl | hmem := List.mem_cons.1 hmem
        · exact absurd hbefore hbefore.asymm
        · exact absurd hbefore (hpairwise.2.1.1 s' hmem).asymm

/-! ## Locales without an order -/

/-- **The violations as they are found over the names of the locales in some order.** The names are
sorted, and the section of each is looked up. -/
def violationsOver (c : Config) (names : List String) : List Violation :=
  (c.phrases.elim [] fun p => p.violations "phrases") ++
    (names.mergeSort fun a b => decide (a ≤ b)).flatMap (fun name =>
      ((c.locale? name).bind (·.phrases)).elim [] fun p =>
        p.violations ("locales." ++ name ++ ".phrases")) ++
    (c.lineTerminators.getD []).filterMap terminatorViolation?

/-- Sorting the names of the locales gives them as they are kept. -/
theorem mergeSort_of_perm {c : Config} {names : List String} (h : names.Perm c.localeNames) :
    (names.mergeSort fun a b => decide (a ≤ b)) = c.localeNames := by
  have hsorted : (names.mergeSort fun a b => decide (a ≤ b)).Pairwise (· ≤ ·) := by
    have htrans : ∀ a b d : String, decide (a ≤ b) = true → decide (b ≤ d) = true →
        decide (a ≤ d) = true := by
      simp only [decide_eq_true_eq]
      exact fun a b d => String.le_trans
    have htotal : ∀ a b : String, (decide (a ≤ b) || decide (b ≤ a)) = true := by
      simp only [Bool.or_eq_true, decide_eq_true_eq]
      exact fun a b => String.le_total a b
    exact (List.pairwise_mergeSort htrans htotal names).imp fun {a b} hab => of_decide_eq_true hab
  have hkeys : c.localeNames.Pairwise (· ≤ ·) := by
    unfold localeNames Dict.keys
    rw [List.pairwise_map]
    exact c.locales.ascending.imp fun {a b} hab => String.not_lt.1 (String.lt_asymm hab)
  exact ((List.mergeSort_perm names _).trans h).eq_of_pairwise
    (fun a b _ _ hab hba => String.le_antisymm hab hba) hsorted hkeys

/-- **The violations do not depend on the order of the locales.** -/
theorem violationsOver_of_perm {c : Config} {names : List String} (h : names.Perm c.localeNames) :
    c.violationsOver names = c.violations := by
  unfold violationsOver violations
  rw [mergeSort_of_perm h]
  unfold localeNames Dict.keys
  rw [List.flatMap_map]
  congr 2
  refine List.flatMap_congr fun e he => ?_
  have hfind : c.locale? e.1 = some e.2 := Dict.find?_eq_some_iff.2 he
  rw [hfind]
  rfl

/-! ## The verdict -/

/-- **The verdict on a configuration.** A text that is not blank and that is read in the format of
its path is loaded as it was read exactly if it follows the rules. If it does not, the error names
the first violation. And whatever order the names of the locales are given in, the verdict is the
one that is found by sorting them and going through the sections. -/
theorem load_verdict {text path : String} {format : ConfigFormat} {c : Config}
    (hblank : Text.isBlank text = false) (hformat : ConfigFormat.ofPath? path = some format)
    (hparse : parse format text = .ok c) :
    (load text path = .ok c ↔ c.FollowsRules)
      ∧ (¬ c.FollowsRules →
        ∃ v, c.IsFirstViolation v ∧ load text path = .error (.invalid path v.message))
      ∧ ∀ names : List String, names.Perm c.localeNames →
        load text path = match c.violationsOver names with
          | [] => .ok c
          | v :: _ => .error (.invalid path v.message) := by
  rw [load_of_parse hblank hformat hparse]
  refine ⟨⟨fun h => ?_, fun h => ?_⟩, fun h => ?_, fun names hnames => ?_⟩
  · exact followsRules_of_validated (mapError_eq_ok_iff.1 h)
  · rw [validated_of_followsRules h]
    rfl
  · obtain ⟨v, hv, hvalidated⟩ := validated_of_not_followsRules h
    refine ⟨v, isFirstViolation_iff.2 hv, ?_⟩
    rw [hvalidated]
    rfl
  · rw [violationsOver_of_perm hnames]
    unfold validated
    cases c.violations with
    | nil => rfl
    | cons v vs => rfl

/-- Of violations in two locales and among the line terminators, the one is named whose locale
comes first by name, though the text has it last. -/
theorem load_verdict_locales :
    let text := "\x7b\"lineTerminators\": [\"\\r\\n\", \" \"], \"locales\": \x7b" ++
      "\"fr\": \x7b\"phrases\": \x7b\"near\": \" \"\x7d\x7d, " ++
      "\"de\": \x7b\"phrases\": \x7b\"column\": \"\\u3000\", \"line\": \"\"\x7d\x7d\x7d\x7d"
    let c : Config :=
      { lineTerminators := some ["\r\n", " "]
        locales := ⟨[("de", { phrases := some { line := "", column := "\u3000" } }),
          ("fr", { phrases := some { near := " " } })], by decide⟩ }
    Text.isBlank text = false ∧ ConfigFormat.ofPath? "a.json" = some .json
      ∧ parse .json text = .ok c ∧ ¬ c.FollowsRules
      ∧ c.IsFirstViolation (.blankWord "locales.de.phrases" .line)
      ∧ load text "a.json"
        = .error (.invalid "a.json" "'locales.de.phrases.line' must not be empty") := by
  intro text c
  have hblank : Text.isBlank text = false := by decide +kernel
  have hformat : ConfigFormat.ofPath? "a.json" = some .json := by decide
  have hparse : parse .json text = .ok c := eq_ok_of_toOption (by decide +kernel)
  have hrules : ¬ c.FollowsRules := fun h => absurd (isValid_iff.2 h) (by decide)
  obtain ⟨-, hfirst, -⟩ := load_verdict hblank hformat hparse
  obtain ⟨v, hv, hload⟩ := hfirst hrules
  obtain rfl : Violation.blankWord "locales.de.phrases" .line = v :=
    Option.some.inj (isFirstViolation_iff.1 hv)
  exact ⟨hblank, hformat, hparse, hrules, hv, hload⟩

end Config

end Caret
