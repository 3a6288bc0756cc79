import Caret.Proofs.Location
import Mathlib.Data.List.Sort

/-!
# Sets of line terminators

A set of line terminators is made from characters in any order and with any
repetitions, and it keeps a list: the line feed, and behind it the other characters,
each where it is first mentioned. `InOrderOfMention` says of a list that it is in that
order without a word of how it is made, and there is one such list
(`InOrderOfMention.eq`). The loop that puts one character after the other behind the
list so far never leaves that order: what has been mentioned keeps its place, and what
has not been is first mentioned at the end (`InOrderOfMention.add`).

The order is for answers that show the list. Queries are normalized, and errors are
located, by asking of a character whether it is a member. So sets with the same members
do the same to every query (`normalize_congr`) and to every error
(`Formatter.error_congr_terminators`), and other sets do not: where a character is in one
of two sets alone, an error at the end of the query of this one character is on the second
line under that set, and on the first under the other (`mem_iff_of_error`).
-/

namespace Caret

namespace LineTerminators

/-! ## The order of first mention -/

/-- **The characters of a list in order of first mention.** -/
structure InOrderOfMention (cs listed : List Char) : Prop where
  /-- What is listed is what is mentioned. -/
  mem_iff : ∀ c, c ∈ listed ↔ c ∈ cs
  /-- What is mentioned earlier is listed earlier, so nothing is listed twice. -/
  ascending : listed.Pairwise fun a b => cs.idxOf a < cs.idxOf b

variable {cs listed listed' : List Char}

/-- **There is one list in order of first mention.** -/
theorem InOrderOfMention.eq (h : InOrderOfMention cs listed) (h' : InOrderOfMention cs listed') :
    listed = listed' := by
  have : Std.Irrefl fun a b => cs.idxOf a < cs.idxOf b := ⟨fun _ => Nat.lt_irrefl _⟩
  have : Std.Antisymm fun a b => cs.idxOf a < cs.idxOf b :=
    ⟨fun _ _ hab hba => absurd hba (Nat.lt_asymm hab)⟩
  exact h.ascending.eq_of_mem_iff h'.ascending fun c => (h.mem_iff c).trans (h'.mem_iff c).symm

theorem inOrderOfMention_nil : InOrderOfMention [] [] :=
  ⟨fun _ => Iff.rfl, List.Pairwise.nil⟩

/-- **One more character** keeps the order. -/
theorem InOrderOfMention.add (h : InOrderOfMention cs listed) (c : Char) :
    InOrderOfMention (cs ++ [c]) (add listed c) where
  mem_iff x := by rw [mem_add, h.mem_iff, List.mem_append, List.mem_singleton]
  ascending := by
    have hkept : ∀ a ∈ listed, (cs ++ [c]).idxOf a = cs.idxOf a := fun a ha =>
      List.idxOf_append_of_mem ((h.mem_iff a).1 ha)
    have hlisted : listed.Pairwise fun a b => (cs ++ [c]).idxOf a < (cs ++ [c]).idxOf b :=
      h.ascending.imp_of_mem fun ha hb hab => by rwa [hkept _ ha, hkept _ hb]
    by_cases hc : c ∈ listed
    · rwa [add_of_mem hc]
    · rw [add_of_notMem hc]
      have hnew : c ∉ cs := fun hmem => hc ((h.mem_iff c).2 hmem)
      refine List.pairwise_append.2 ⟨hlisted, List.pairwise_singleton _ _, fun a ha b hb => ?_⟩
      obtain rfl := List.mem_singleton.1 hb
      calc (cs ++ [b]).idxOf a = cs.idxOf a := hkept a ha
        _ < cs.length := List.idxOf_lt_length_of_mem ((h.mem_iff a).1 ha)
        _ = (cs ++ [b]).idxOf b := by
          rw [List.idxOf_append_of_notMem hnew, List.idxOf_cons_self, Nat.add_zero]

/-- **Any characters** keep the order. -/
theorem InOrderOfMention.foldl_add (h : InOrderOfMention cs listed) (ds : List Char) :
    InOrderOfMention (cs ++ ds) (ds.foldl LineTerminators.add listed) := by
  induction ds generalizing cs listed with
  | nil => rwa [List.append_nil]
  | cons d ds ih =>
    rw [List.append_cons]
    exact ih (h.add d)

/-! ## The list of a set -/

theorem add_cons_of_ne {x c : Char} (h : c ≠ x) : add (x :: cs) c = x :: add cs c := by
  by_cases hc : c ∈ cs
  · rw [add_of_mem hc, add_of_mem (List.mem_cons_of_mem x hc)]
  · rw [add_of_notMem hc, add_of_notMem (List.not_mem_cons_of_ne_of_not_mem h hc), List.cons_append]

/-- What is listed first stays first, and its further mentions make no difference. -/
theorem foldl_add_cons (x : Char) (cs acc : List Char) :
    cs.foldl add (x :: acc) = x :: (cs.filter (· ≠ x)).foldl add acc := by
  induction cs generalizing acc with
  | nil => rfl
  | cons c cs ih =>
    rw [List.foldl_cons]
    by_cases hc : c = x
    · subst hc
      rw [add_of_mem (List.mem_cons_self ..), ih, List.filter_cons_of_neg (by simp)]
    · rw [add_cons_of_ne hc, ih, List.filter_cons_of_pos (by simpa using hc), List.foldl_cons]

/-- **The list of a set**: the line feed, and the other characters in order of first mention. -/
theorem exists_others (cs : List Char) :
    ∃ others, (ofList cs).chars = '\n' :: others
      ∧ InOrderOfMention (cs.filter (· ≠ '\n')) others := by
  refine ⟨_, foldl_add_cons '\n' cs [], ?_⟩
  have horder := inOrderOfMention_nil.foldl_add (cs.filter (· ≠ '\n'))
  rwa [List.nil_append] at horder

/-- Characters that are mentioned once are listed as they come. -/
theorem foldl_add_of_nodup {acc : List Char} (h : (acc ++ cs).Nodup) :
    cs.foldl add acc = acc ++ cs := by
  induction cs generalizing acc with
  | nil => rw [List.foldl_nil, List.append_nil]
  | cons c cs ih =>
    have hc : c ∉ acc := fun hmem =>
      (List.nodup_append.1 h).2.2 c hmem c (List.mem_cons_self ..) rfl
    rw [List.append_cons] at h
    rw [List.foldl_cons, add_of_notMem hc, ih h, ← List.append_cons]

/-- **A set is made again from its list.** -/
theorem ofList_chars (t : LineTerminators) : ofList t.chars = t := by
  obtain ⟨chars, hfirst, hnodup⟩ := t
  obtain ⟨others, rfl⟩ := List.head?_eq_some_iff.1 hfirst
  have hlist : ('\n' :: others).foldl add ['\n'] = '\n' :: others := by
    rw [List.foldl_cons, add_of_mem (List.mem_singleton_self _)]
    exact foldl_add_of_nodup hnodup
  unfold ofList
  simp only [hlist]

/-- Sets have the same members if the same characters are mentioned, but for the line feed. -/
theorem mem_ofList_iff_mem_ofList {ds : List Char} :
    (∀ c, c ∈ (ofList cs).chars ↔ c ∈ (ofList ds).chars)
      ↔ ∀ c, c ≠ '\n' → (c ∈ cs ↔ c ∈ ds) := by
  refine forall_congr' fun c => ?_
  rw [mem_ofList, mem_ofList]
  by_cases hc : c = '\n'
  · simp only [hc, true_or, ne_eq, not_true_eq_false, false_implies]
  · simp only [hc, false_or, ne_eq, not_false_eq_true, true_implies]

end LineTerminators

/-! ## Sets with the same members -/

variable {t u : LineTerminators}

/-- What a character is shown as depends on the members. -/
theorem shownChar_congr (h : ∀ c, c ∈ u.chars ↔ c ∈ t.chars) (c : Char) :
    shownChar u c = shownChar t c := by
  have hcontains : u.contains c = t.contains c := by
    rw [Bool.eq_iff_iff, LineTerminators.contains_eq_true, LineTerminators.contains_eq_true, h]
  unfold shownChar
  rw [hcontains]

/-- **A query is normalized by the members.** -/
theorem normalize_congr (h : ∀ c, c ∈ u.chars ↔ c ∈ t.chars) (query : String) :
    normalize u query = normalize t query := by
  unfold normalize normalizeChars
  rw [funext (shownChar_congr h)]

namespace Formatter

/-- An error depends on the line terminators by the normalized form of its query. -/
theorem error_congr_terminators {f : Formatter} {o : Occurrence}
    (h : normalize { f with terminators := u } o.query
      = normalize { f with terminators := t } o.query)
    (description : String) (cause : Option Cause) :
    error { f with terminators := u } o description cause
      = error { f with terminators := t } o description cause := by
  have hposition : ∀ n, position { f with terminators := u } o.query n
      = position { f with terminators := t } o.query n := fun n => by
    unfold position
    rw [h]
  exact error_congr (f := { f with terminators := t }) (g := { f with terminators := u }) rfl rfl
    (fun n _ => hposition n) o.label description cause

end Formatter

/-! ## Sets with different members -/

/-- The end of a query of one character is on the second line if that is a terminator. -/
theorem LineTerminators.line_scan_singleton (t : LineTerminators) (c : Char) :
    (t.scan [c] 1).line = if t.contains c then 2 else 1 := by
  have hbody : t.bodyLength [c] = if t.contains c then 0 else 1 := by
    rw [bodyLength, List.rdropWhile_singleton]
    split <;> rfl
  rw [scan, hbody]
  split
  · rfl
  · rename_i hc
    show 1 + [c].countP t.contains = 1
    rw [List.countP_singleton, if_neg hc]

/-- **Members show in errors**: sets under which all errors are the same have the same
members. -/
theorem mem_iff_of_error {f : Formatter}
    (h : ∀ o description cause, Formatter.error { f with terminators := u } o description cause
      = Formatter.error { f with terminators := t } o description cause) (c : Char) :
    c ∈ u.chars ↔ c ∈ t.chars := by
  have hline : (u.scan [c] 1).line = (t.scan [c] 1).line := by
    have herror := h ⟨String.ofList [c], some 1, none⟩ "" none
    rw [Formatter.error_eq_scan _ none "" none (by simp) (by decide),
      Formatter.error_eq_scan _ none "" none (by simp) (by decide), String.toList_ofList] at herror
    exact congrArg (fun e : QueryError => e.state.line) (Except.ok.inj herror)
  rw [LineTerminators.line_scan_singleton, LineTerminators.line_scan_singleton] at hline
  rw [← LineTerminators.contains_eq_true, ← LineTerminators.contains_eq_true]
  grind

namespace LineTerminators

/-- **Only the members of a set of line terminators matter.** The list of a set that is made from
some characters is the line feed, and behind it the other characters in order of first mention,
none of them twice; its members are the line feed and these characters, and the list makes the
set again. Sets that are made from the same characters, but for the line feed and in whatever
order and number, normalize all queries alike and have all their errors in common; and only these
sets do. -/
theorem only_members_matter (cs : List Char) :
    (∃ others, (ofList cs).chars = '\n' :: others
      ∧ ∀ listed, InOrderOfMention (cs.filter (· ≠ '\n')) listed ↔ listed = others)
    ∧ (ofList cs).chars.Nodup
    ∧ (∀ c, (ofList cs).contains c = true ↔ c = '\n' ∨ c ∈ cs)
    ∧ ofList (ofList cs).chars = ofList cs
    ∧ ∀ (ds : List Char) (f : Formatter),
        ((∀ c, c ≠ '\n' → (c ∈ cs ↔ c ∈ ds))
          ↔ ∀ query, normalize (ofList cs) query = normalize (ofList ds) query)
        ∧ ((∀ c, c ≠ '\n' → (c ∈ cs ↔ c ∈ ds))
          ↔ ∀ o description cause,
              Formatter.error { f with terminators := ofList cs } o description cause
                = Formatter.error { f with terminators := ofList ds } o description cause) := by
  refine ⟨?_, (ofList cs).nodup, fun c => contains_eq_true.trans mem_ofList, ofList_chars _,
    fun ds f => ?_⟩
  · obtain ⟨others, hchars, horder⟩ := exists_others cs
    exact ⟨others, hchars, fun listed => ⟨fun h => h.eq horder, fun h => h ▸ horder⟩⟩
  · rw [← mem_ofList_iff_mem_ofList]
    have herror (h : ∀ query, normalize (ofList cs) query = normalize (ofList ds) query)
        (o : Occurrence) := Formatter.error_congr_terminators (f := f) (o := o) (h o.query)
    exact ⟨⟨normalize_congr, fun h => mem_iff_of_error (herror h)⟩,
      ⟨fun h => herror (normalize_congr h), mem_iff_of_error⟩⟩

/-- Two lists of one set's members, in two orders, and a set that lacks one of them. -/
theorem only_members_matter_reordered :
    let t := ofList ['\r', ' ', '\r']
    let u := ofList [' ', '\n', '\r']
    t.chars = ['\n', '\r', ' '] ∧ u.chars = ['\n', ' ', '\r']
      ∧ normalize t "a b\r\tc \r" = normalize u "a b\r\tc \r"
      ∧ Formatter.error { terminators := t } ⟨"a b\r\tc \r", some 8, none⟩ "unexpected end" none
        = Formatter.error { terminators := u } ⟨"a b\r\tc \r", some 8, none⟩ "unexpected end" none
      ∧ ¬ ∀ query, normalize t query = normalize (ofList ['\r']) query := by
  intro t u
  obtain ⟨-, -, -, -, hsets⟩ := only_members_matter ['\r', ' ', '\r']
  have hsame : ∀ c, c ≠ '\n' → (c ∈ ['\r', ' ', '\r'] ↔ c ∈ [' ', '\n', '\r']) := by
    intro c hc
    grind
  refine ⟨by decide, by decide, (hsets _ {}).1.1 hsame _, (hsets _ {}).2.1 hsame _ _ _, ?_⟩
  rw [← (hsets ['\r'] {}).1]
  exact fun hall => absurd ((hall ' ' (by decide)).1 (by decide)) (by decide)

end LineTerminators

end Caret
