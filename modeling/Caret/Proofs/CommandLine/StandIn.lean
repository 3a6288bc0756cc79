import Caret.Proofs.CommandLine.Stages
import Caret.Proofs.Config.Formatters
import Caret.Proofs.Normalization

/-!
# A normalized query stands in for the query

The program prints normalized queries, and what it prints can be its input again.
An error is then located as in the query that was normalized: nothing that is shown of
an error depends on the query but through its normalized form, which is the same
(`Formatter.normalize_printed`), and through its length, which bounds the offsets.

That the length differs is what there is to say about the tail. A query may end with
any number of terminators, the printed one ends with one line feed; offsets behind that
one are in the query alone, and all others have one position in both
(`Formatter.position_congr`).

The line terminators that a configuration may set do not hold the space
(`space_notMem_of_loadFormatter`), without which a second round would go on changing
the query.
-/

namespace Caret

/-- A printed normalized query is normalized to itself. -/
theorem Formatter.normalize_printed {f : Formatter} (hspace : ' ' ∉ f.terminators.chars)
    (query : String) :
    f.normalize (f.normalize query ++ "\n") = f.normalize query := by
  refine String.toList_injective ?_
  unfold normalize
  rw [toList_normalize, String.toList_append, toList_normalize]
  exact normalizeChars_append_lineFeed hspace query.toList

namespace CommandLine

/-- **Queries with one normalized form have one answer** to a command that locates an error, if
its offset is past the end of neither. -/
theorem locate_congr {f : Formatter} {options : LocateOptions} {query other : String}
    (h : f.normalize other = f.normalize query)
    (hquery : ∀ n ∈ options.offset, n ≤ query.length)
    (hother : ∀ n ∈ options.offset, n ≤ other.length) (isColored : Bool) :
    locate isColored f options other = locate isColored f options query := by
  have herror := Formatter.error_congr (f := f) (g := f) rfl rfl
    (fun n hn => Formatter.position_congr h (hquery n hn) (hother n hn))
    options.label options.description none
  rw [locate_of_inside hquery, locate_of_inside hother]
  unfold errorText humanText
  rw [herror, h]

/-- **The space is no line terminator** of a formatter that a run makes. -/
theorem space_notMem_of_loadFormatter {env : Environment} {config locale : Option String}
    {f : Formatter} (h : loadFormatter env config locale = .ok f) :
    ' ' ∉ f.terminators.chars := by
  unfold loadFormatter at h
  split at h
  · obtain ⟨c, hc, hf⟩ := bind_eq_ok_iff.1 (mapError_eq_ok_iff.1 h)
    have hload := mapError_eq_ok_iff.1 hc
    unfold Config.loadFile at hload
    split at hload
    · cases hload
    · exact (Formatter.of_ofConfig (Config.followsRules_of_load hload) hf).2
  · exact (Formatter.of_ofConfig Config.followsRules_default (mapError_eq_ok_iff.1 h)).2

/-- To locate an error in what a normalized query is printed as has the outcome it has in the
query. -/
theorem run_of_printed {env env' : Environment} {locating again : List String}
    {config locale : Option String} {options : LocateOptions} {input input' query : String}
    {f : Formatter}
    (hlocating : Invocation.ofArgs locating = .ok ⟨config, locale, .locate options, input⟩)
    (hagain : Invocation.ofArgs again = .ok ⟨config, locale, .locate options, input'⟩)
    (hload : loadFormatter env config locale = .ok f) (hread : readInput env input = .ok query)
    (hload' : loadFormatter env' config locale = .ok f)
    (hread' : readInput env' input' = .ok (f.normalize query ++ "\n"))
    (hcolored : env'.isColored = env.isColored)
    (hoffset : ∀ n ∈ options.offset, n ≤ query.length ∧ n ≤ (f.normalize query).length + 1) :
    run env' again = run env locating := by
  have hspace := space_notMem_of_loadFormatter hload
  have hprinted : (f.normalize query ++ "\n").length = (f.normalize query).length + 1 :=
    String.length_append _ _
  have hlocate : locate env.isColored f options (f.normalize query ++ "\n")
      = locate env.isColored f options query := by
    refine locate_congr (Formatter.normalize_printed hspace query)
      (fun n hn => (hoffset n hn).1) (fun n hn => ?_) _
    rw [hprinted]
    exact (hoffset n hn).2
  rw [run_of_stages hagain hload' hread', run_of_stages hlocating hload hread, hcolored]
  exact congrArg outcomeOf hlocate

/-- **A normalized query stands in for the query.** What a run prints that normalizes a query is
the normalized form and a line feed. To locate an error there, with the same formatter, has the
outcome it has in the query, if the offset is one of the query and at most one past the end
of the normalized form. In particular this holds where the printed text is piped into the
standard input. -/
theorem normalized_stands_in {env : Environment} {normalizing locating : List String}
    {config locale : Option String} {options : LocateOptions} {input query : String}
    {f : Formatter}
    (hnormalizing : Invocation.ofArgs normalizing = .ok ⟨config, locale, .normalize, input⟩)
    (hlocating : Invocation.ofArgs locating = .ok ⟨config, locale, .locate options, input⟩)
    (hload : loadFormatter env config locale = .ok f) (hread : readInput env input = .ok query)
    (hoffset : ∀ n ∈ options.offset, n ≤ query.length ∧ n ≤ (f.normalize query).length + 1) :
    run env normalizing = ⟨0, f.normalize query ++ "\n", ""⟩
      ∧ (∀ env' again input',
          Invocation.ofArgs again = .ok ⟨config, locale, .locate options, input'⟩ →
          loadFormatter env' config locale = .ok f → env'.isColored = env.isColored →
          readInput env' input' = .ok (run env normalizing).stdout →
          run env' again = run env locating)
      ∧ ∀ again, Invocation.ofArgs again = .ok ⟨config, locale, .locate options, "-"⟩ →
          run { env with input := (run env normalizing).stdout.toUTF8 } again
            = run env locating := by
  have hnormal : run env normalizing = ⟨0, f.normalize query ++ "\n", ""⟩ := by
    rw [run_of_stages hnormalizing hload hread]
    rfl
  rw [hnormal]
  refine ⟨rfl, fun env' again input' hagain hload' hcolored hread' => ?_, fun again hagain => ?_⟩
  · exact run_of_printed hlocating hagain hload hread hload' hread' hcolored hoffset
  · refine run_of_printed hlocating hagain hload hread ?_ (readInput_of_input rfl) rfl hoffset
    exact (loadFormatter_congr rfl rfl config locale).trans hload

/-- The printed query has a shorter tail, and other blanks. -/
theorem normalized_stands_in_tail :
    let env : Environment :=
      ⟨⟨fun _ => false, fun _ => .error .notFound⟩, "/q", "a\tb\u2028\n\n".toUTF8, false⟩
    run env ["normalize", "-"] = ⟨0, "a b\n", ""⟩
      ∧ run { env with input := "a b\n".toUTF8 } ["locate", "-", "-o4"]
        = run env ["locate", "-", "-o4"] := by
  intro env
  have hload : loadFormatter env none none = .ok {} := loadFormatter_of_none (by decide +kernel)
  have hread : readInput env "-" = .ok "a\tb\u2028\n\n" := readInput_of_input rfl
  have hnormalizing : Invocation.ofArgs ["normalize", "-"]
      = .ok { command := .normalize, input := "-" } := rfl
  have hlocating : Invocation.ofArgs ["locate", "-", "-o4"]
      = .ok { command := .locate { offset := some 4 }, input := "-" } := rfl
  have hform : Formatter.normalize {} "a\tb\u2028\n\n" = "a b" := by decide
  obtain ⟨hprinted, -, hpiped⟩ := normalized_stands_in hnormalizing hlocating hload hread (by
    rintro n ⟨⟩
    rw [hform]
    decide)
  rw [hform] at hprinted
  rw [hprinted] at hpiped
  exact ⟨hprinted, hpiped _ hlocating⟩

end CommandLine

end Caret
