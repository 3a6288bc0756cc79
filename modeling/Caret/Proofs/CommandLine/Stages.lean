import Caret.CommandLine.Run
import Caret.Proofs.Outcomes
import Caret.Proofs.Snapshot
import Mathlib.Data.String.Basic

/-!
# A run is staged, and prints all or nothing

A run makes its formatter, reads its input, and answers, and the first of these
that fails is what it reports. So a failure of a stage depends on what the stages up
to it look at and on nothing else: `Invocation.run_of_loadFormatter` and
`Invocation.run_of_readInput` say what the run is then, in terms in which the later
arguments do not occur. `Invocation.Ends` lists the ways in which a run ends, and what is said
of all runs is read off that list.

Behind the stages are functions with contracts, and a call outside of one would end
the program on the spot, with an exit code of its own. The commands stay inside all of
them. An offset past the end of the query is a failure of the third stage, which is
looked for first (`locate_of_past`); every other offset resolves, and a position counts
from one, so that the excerpt at it can take one off its line and its column
(`exists_errorText`). Only the sums of counts ask for something more: a query whose
length, and one, is a count. What fits into memory is of such a length.

That a run ends because of its offset can be seen from its report, since the three
stages begin theirs with different letters.
-/

namespace Caret

/-! ## The length of what is read -/

theorem Text.length_le_utf8Len (cs : List Char) : cs.length ≤ String.utf8Len cs := by
  induction cs with
  | nil => exact Nat.le_refl _
  | cons c cs ih =>
    have hpos := c.utf8Size_pos
    rw [String.utf8Len_cons, List.length_cons]
    omega

/-- A text has at most as many characters as bytes. -/
theorem length_le_of_decodeText {bytes : ByteArray} {text : String}
    (h : decodeText bytes = .ok text) : text.length ≤ bytes.size := by
  unfold decodeText String.fromUTF8? at h
  split at h
  · rename_i text' hdecoded
    cases h
    split at hdecoded
    · cases hdecoded
      rw [← String.length_toList, ← String.utf8ByteSize_ofByteArray, ← String.utf8Len_toList]
      exact Text.length_le_utf8Len _
    · cases hdecoded
  · cases h

/-- A text is what its bytes are decoded to. -/
theorem decodeText_toUTF8 (text : String) : decodeText text.toUTF8 = .ok text := by
  have hdecoded : String.fromUTF8? text.toUTF8 = some text := dif_pos text.isValidUTF8
  unfold decodeText
  rw [hdecoded]

/-! ## Positions count from one -/

theorem ErrorState.one_le_of_position? {s : ErrorState} {p : Position}
    (h : s.position? = some p) : 1 ≤ p.line ∧ 1 ≤ p.column := by
  unfold position? at h
  split at h
  · cases h
  · rename_i hzero
    cases h
    show 1 ≤ s.line ∧ 1 ≤ s.column
    omega

namespace CommandLine

/-- **The excerpt at a position** that counts from one shows the line there, if there is one. -/
theorem Excerpt.at?_eq (text : String) {p : Position} (hline : 1 ≤ p.line)
    (hcolumn : 1 ≤ p.column) :
    Excerpt.at? text p = .ok ((Text.segments '\n' text.toList)[p.line - 1]?.map
      fun line => ⟨p.line, line, p.column - 1⟩) := by
  refine bind_eq_ok_iff.2 ⟨_, if_pos hline, ?_⟩
  cases (Text.segments '\n' text.toList)[p.line - 1]? with
  | none => rfl
  | some line => exact bind_eq_ok_iff.2 ⟨_, if_pos hcolumn, rfl⟩

/-- **The text for people of an error with a position**: the message, and the excerpt at the
position if the normalized form has a line there. -/
theorem humanText_of_position {isColored : Bool} {f : Formatter} {query : String} {e : QueryError}
    {p : Position} (h : e.position? = some p) :
    humanText isColored f query e = .ok
      (((Text.segments '\n' (f.normalize query).toList)[p.line - 1]?.elim
        (styled isColored .red "✗" ++ " " ++ styled isColored .bold e.message)
        fun line => styled isColored .red "✗" ++ " " ++ styled isColored .bold e.message ++ "\n"
          ++ Excerpt.text isColored ⟨p.line, line, p.column - 1⟩)) := by
  obtain ⟨hline, hcolumn⟩ := ErrorState.one_le_of_position? h
  unfold humanText
  rw [h]
  show (Excerpt.at? (f.normalize query) p >>= _) = _
  rw [Excerpt.at?_eq (f.normalize query) hline hcolumn]
  cases (Text.segments '\n' (f.normalize query).toList)[p.line - 1]? with
  | none => rfl
  | some line => rfl

/-- **Every error has a text for people**, with an excerpt or without. -/
theorem exists_humanText (isColored : Bool) (f : Formatter) (query : String) (e : QueryError) :
    ∃ text, humanText isColored f query e = .ok text := by
  cases hp : e.position? with
  | none =>
    unfold humanText
    rw [hp]
    exact ⟨_, rfl⟩
  | some p => exact ⟨_, humanText_of_position hp⟩

/-! ## Locating an error -/

section Locate

variable {isColored : Bool} {f : Formatter} {options : LocateOptions} {query : String}

/-- **The text that shows an error** whose offset, if there is one, is not past the end. -/
def errorText (isColored : Bool) (f : Formatter) (options : LocateOptions) (query : String) :
    Except ContractError String := do
  let e ← f.error ⟨query, options.offset, options.label⟩ options.description none
  match options.format with
  | .human => humanText isColored f query e
  | .json => return e.snapshot.toWideJson

/-- An offset past the end is looked for before an error is made. -/
theorem locate_of_past {offset : Nat} (hoffset : options.offset = some offset)
    (hpast : query.length < offset) :
    locate isColored f options query = .error (.failure (offsetFailure offset query.length)) := by
  unfold locate
  rw [hoffset, Option.filter_some_pos (by simpa using hpast)]

theorem locate_of_inside (h : ∀ n ∈ options.offset, n ≤ query.length) :
    locate isColored f options query
      = (errorText isColored f options query).mapError .contract := by
  have hinside : options.offset.filter (query.length < ·) = none := by
    rw [Option.filter_eq_none_iff]
    intro n hn
    rw [decide_eq_true_eq]
    exact Nat.not_lt.2 (h n hn)
  unfold locate errorText
  rw [hinside]
  cases f.error ⟨query, options.offset, options.label⟩ options.description none with
  | error e => rfl
  | ok e =>
    cases options.format with
    | human => rfl
    | json => rfl

/-- **An error is shown for every offset that is not past the end**: no call is outside its
contract. -/
theorem exists_errorText (h : ∀ n ∈ options.offset, n ≤ query.length)
    (hlimit : query.length + 1 < wordLimit) :
    ∃ text, errorText isColored f options query = .ok text := by
  obtain ⟨e, he⟩ := f.exists_error options.label options.description none h hlimit
  unfold errorText
  cases options.format with
  | human =>
    obtain ⟨text, htext⟩ := exists_humanText isColored f query e
    exact ⟨text, bind_eq_ok_iff.2 ⟨e, he, htext⟩⟩
  | json => exact ⟨_, bind_eq_ok_iff.2 ⟨e, he, rfl⟩⟩

end Locate

/-! ## One stage after the other -/

/-- **The texts of an environment fit into memory**: a word counts their bytes, and one more. -/
structure Environment.FitsMemory (env : Environment) : Prop where
  /-- The standard input fits. -/
  input : env.input.size + 1 < wordLimit
  /-- Every file fits. -/
  files : ∀ path bytes, env.files.read path = .ok bytes → bytes.size + 1 < wordLimit

section Stages

variable {env : Environment} {i : Invocation} {failure : Failure} {f : Formatter}
  {query path : String}

/-- A query that is read from what fits into memory has a length that is a count. -/
theorem length_of_readInput (hmemory : env.FitsMemory) (h : readInput env path = .ok query) :
    query.length + 1 < wordLimit := by
  unfold readInput at h
  split at h
  · have hle := length_le_of_decodeText (mapError_eq_ok_iff.1 h)
    have hfits := hmemory.input
    omega
  · obtain ⟨bytes, hbytes, htext⟩ := bind_eq_ok_iff.1 (mapError_eq_ok_iff.1 h)
    have hle := length_le_of_decodeText htext
    have hfits := hmemory.files path bytes hbytes
    omega

/-- A text on the standard input is read from there. -/
theorem readInput_of_input (h : env.input = query.toUTF8) : readInput env "-" = .ok query := by
  have hstandard : isStandardInput "-" = true := by decide
  unfold readInput
  rw [if_pos hstandard, h, decodeText_toUTF8]
  rfl

/-- The formatter comes from the files, the working directory, and what is asked for. -/
theorem loadFormatter_congr {env' : Environment} (hfiles : env'.files = env.files)
    (hdirectory : env'.directory = env.directory) (config locale : Option String) :
    loadFormatter env' config locale = loadFormatter env config locale := by
  unfold loadFormatter configPath?
  rw [hfiles, hdirectory]

/-- Without a configuration file there is the default formatter. -/
theorem loadFormatter_of_none {config : Option String} (h : configPath? env config = none) :
    loadFormatter env config none = .ok {} := by
  unfold loadFormatter
  rw [h]
  rfl

/-- Without a formatter nothing is read. -/
theorem Invocation.run_of_loadFormatter
    (h : loadFormatter env i.config i.locale = .error failure) :
    i.run env = .error (.failure failure) := by
  unfold run
  rw [h]
  rfl

/-- Without a query nothing is answered. -/
theorem Invocation.run_of_readInput (hload : loadFormatter env i.config i.locale = .ok f)
    (h : readInput env i.input = .error failure) : i.run env = .error (.failure failure) := by
  unfold run
  rw [hload, h]
  rfl

/-- With both there is an answer to give. -/
theorem Invocation.run_of_stages (hload : loadFormatter env i.config i.locale = .ok f)
    (hread : readInput env i.input = .ok query) :
    i.run env = answer env.isColored f i.command query := by
  unfold run
  rw [hload, hread]
  rfl

/-- **The ways in which a run ends**, by the stages that it gets through. -/
inductive Invocation.Ends (env : Environment) (i : Invocation) :
    Except RunError String → Prop where
  /-- There is no formatter. -/
  | unloaded {failure : Failure} (hload : loadFormatter env i.config i.locale = .error failure) :
      Ends env i (.error (.failure failure))
  /-- There is a formatter, and no query. -/
  | unread {f : Formatter} {failure : Failure}
      (hload : loadFormatter env i.config i.locale = .ok f)
      (hread : readInput env i.input = .error failure) : Ends env i (.error (.failure failure))
  /-- There are both, and an offset that is past the end. -/
  | pastEnd {f : Formatter} {query : String} {options : LocateOptions} {offset : Nat}
      (hload : loadFormatter env i.config i.locale = .ok f)
      (hread : readInput env i.input = .ok query) (hcommand : i.command = .locate options)
      (hoffset : options.offset = some offset) (hpast : query.length < offset) :
      Ends env i (.error (.failure (offsetFailure offset query.length)))
  /-- There are both, and the query is so long that a count leaves its range. -/
  | overlong {f : Formatter} {query : String} {e : ContractError}
      (hload : loadFormatter env i.config i.locale = .ok f)
      (hread : readInput env i.input = .ok query) (hlong : wordLimit ≤ query.length + 1) :
      Ends env i (.error (.contract e))
  /-- There are both, and an answer. -/
  | answered {f : Formatter} {query text : String}
      (hload : loadFormatter env i.config i.locale = .ok f)
      (hread : readInput env i.input = .ok query)
      (hanswer : answer env.isColored f i.command query = .ok text) : Ends env i (.ok text)

/-- **Every run ends in one of these ways.** -/
theorem Invocation.ends (env : Environment) (i : Invocation) : i.Ends env (i.run env) := by
  cases hload : loadFormatter env i.config i.locale with
  | error failure =>
    rw [run_of_loadFormatter hload]
    exact .unloaded hload
  | ok f =>
    cases hread : readInput env i.input with
    | error failure =>
      rw [run_of_readInput hload hread]
      exact .unread hload hread
    | ok query =>
      rw [run_of_stages hload hread]
      cases hanswer : answer env.isColored f i.command query with
      | ok text => exact .answered hload hread hanswer
      | error e =>
        cases hcommand : i.command with
        | normalize =>
          rw [hcommand] at hanswer
          cases hanswer
        | locate options =>
          rw [hcommand, answer] at hanswer
          by_cases hinside : ∀ n ∈ options.offset, n ≤ query.length
          · rw [locate_of_inside hinside] at hanswer
            obtain ⟨e, he, rfl⟩ := mapError_eq_error_iff.1 hanswer
            refine .overlong hload hread (Nat.not_lt.1 fun hlimit => ?_)
            obtain ⟨text, htext⟩ := exists_errorText hinside hlimit
            rw [htext] at he
            cases he
          · simp only [not_forall, not_le] at hinside
            obtain ⟨offset, hoffset, hpast⟩ := hinside
            rw [locate_of_past hoffset hpast] at hanswer
            cases hanswer
            exact .pastEnd hload hread hcommand hoffset hpast

/-- **No run calls anything outside its contract** where the texts fit into memory. -/
theorem Invocation.run_ne_contract (hmemory : env.FitsMemory) (e : ContractError) :
    i.run env ≠ .error (.contract e) := by
  intro hrun
  have hends := i.ends env
  rw [hrun] at hends
  cases hends with
  | overlong hload hread hlong => exact absurd (length_of_readInput hmemory hread) (by omega)

/-- What ends without a call outside its contract ends with one of two codes. -/
theorem code_outcomeOf {result : Except RunError String}
    (h : ∀ e, result ≠ .error (.contract e)) :
    (outcomeOf result).code = 0 ∨ (outcomeOf result).code = 1 := by
  cases result with
  | ok text => exact .inl rfl
  | error e =>
    cases e with
    | failure failure => exact .inr rfl
    | contract e => exact absurd rfl (h e)

/-- **Nothing but answers is printed.** -/
theorem stdout_outcomeOf {result : Except RunError String} (h : (outcomeOf result).code ≠ 0) :
    (outcomeOf result).stdout = "" := by
  cases result with
  | ok text => exact absurd rfl h
  | error e =>
    cases e with
    | failure failure => rfl
    | contract e => rfl

theorem run_of_ofArgs {args : List String} (h : Invocation.ofArgs args = .ok i) :
    run env args = outcomeOf (i.run env) := by
  unfold run
  rw [h]

end Stages

/-! ## What is reported -/

/-- The report of a failure has the first letter of its message at a fixed place. -/
theorem Failure.getElem?_report (failure : Failure) :
    failure.report.toList[7]? = (failure.message.toList ++ ['\n']).head? := by
  unfold report
  cases hmessage : failure.message.toList with
  | nil => simp [String.toList_append, hmessage]
  | cons c cs => simp [String.toList_append, hmessage]

/-- **No other failure is reported as that of an offset**: each begins with a letter of its own
stage. -/
theorem Failure.report_ne_offsetFailure {failure : Failure} {c : Char}
    (h : failure.message.toList.head? = some c) (hletter : c ≠ 'O') (offset length : Nat) :
    failure.report ≠ (offsetFailure offset length).report := by
  intro heq
  have hat := congrArg (·.toList[7]?) heq
  simp only [getElem?_report, List.head?_append, h] at hat
  have hoffset : (offsetFailure offset length).message.toList.head? = some 'O' := by
    unfold offsetFailure
    simp only [String.toList_append, List.head?_append]
    rfl
  rw [hoffset] at hat
  exact hletter (Option.some.inj hat)

section Letters

variable {env : Environment} {failure : Failure}

theorem letter_of_loadFormatter {config locale : Option String}
    (h : loadFormatter env config locale = .error failure) :
    ∃ c, failure.message.toList.head? = some c ∧ c ≠ 'O' := by
  unfold loadFormatter at h
  split at h
  · obtain ⟨e, -, rfl⟩ := mapError_eq_error_iff.1 h
    refine ⟨'F', ?_, by decide⟩
    unfold configFailure
    rw [String.toList_append, List.head?_append]
    rfl
  · obtain ⟨e, -, rfl⟩ := mapError_eq_error_iff.1 h
    refine ⟨'I', ?_, by decide⟩
    show "Invalid diagnostics config".toList.head? = _
    rfl

theorem letter_of_readInput {path : String} (h : readInput env path = .error failure) :
    ∃ c, failure.message.toList.head? = some c ∧ c ≠ 'O' := by
  unfold readInput at h
  split at h
  · obtain ⟨e, -, rfl⟩ := mapError_eq_error_iff.1 h
    refine ⟨'F', ?_, by decide⟩
    show "Failed to read query from stdin".toList.head? = _
    rfl
  · obtain ⟨e, -, rfl⟩ := mapError_eq_error_iff.1 h
    refine ⟨'F', ?_, by decide⟩
    rw [String.toList_append, List.head?_append]
    rfl

end Letters

section Runs

variable {env : Environment} {args : List String} {i : Invocation}

/-- **A run that locates an error ends because of the offset** exactly if there is a formatter
and a query, and the offset is past the end of the query. -/
theorem run_eq_offsetFailure_iff (hargs : Invocation.ofArgs args = .ok i)
    {options : LocateOptions} (hcommand : i.command = .locate options) :
    (∃ offset length, run env args = ⟨1, "", (offsetFailure offset length).report⟩)
      ↔ ∃ f query offset, loadFormatter env i.config i.locale = .ok f
        ∧ readInput env i.input = .ok query ∧ options.offset = some offset
        ∧ query.length < offset := by
  rw [run_of_ofArgs hargs]
  constructor
  · rintro ⟨offset, length, houtcome⟩
    have hends := i.ends env
    generalize i.run env = result at houtcome hends
    cases hends with
    | unloaded hload =>
      obtain ⟨c, hc, hletter⟩ := letter_of_loadFormatter hload
      exact absurd (congrArg Outcome.stderr houtcome)
        (Failure.report_ne_offsetFailure hc hletter offset length)
    | unread hload hread =>
      obtain ⟨c, hc, hletter⟩ := letter_of_readInput hread
      exact absurd (congrArg Outcome.stderr houtcome)
        (Failure.report_ne_offsetFailure hc hletter offset length)
    | pastEnd hload hread hcommand' hoffset hpast =>
      rw [hcommand] at hcommand'
      cases hcommand'
      exact ⟨_, _, _, hload, hread, hoffset, hpast⟩
    | overlong => exact absurd (congrArg Outcome.code houtcome) (by decide : contractCode ≠ 1)
    | answered => exact absurd (congrArg Outcome.code houtcome) Nat.zero_ne_one
  · rintro ⟨f, query, offset, hload, hread, hoffset, hpast⟩
    refine ⟨offset, query.length, ?_⟩
    rw [Invocation.run_of_stages hload hread, hcommand, answer, locate_of_past hoffset hpast]
    rfl

/-- A run without a formatter reports why, whatever else is asked for. -/
theorem run_of_loadFormatter (hargs : Invocation.ofArgs args = .ok i) {failure : Failure}
    (hload : loadFormatter env i.config i.locale = .error failure) :
    run env args = ⟨1, "", failure.report⟩ := by
  rw [run_of_ofArgs hargs, Invocation.run_of_loadFormatter hload]
  rfl

/-- A run with a formatter and without a query reports why, whatever is asked of the query. -/
theorem run_of_readInput (hargs : Invocation.ofArgs args = .ok i) {f : Formatter}
    {failure : Failure} (hload : loadFormatter env i.config i.locale = .ok f)
    (hread : readInput env i.input = .error failure) :
    run env args = ⟨1, "", failure.report⟩ := by
  rw [run_of_ofArgs hargs, Invocation.run_of_readInput hload hread]
  rfl

/-- A run with both gives its answer. -/
theorem run_of_stages (hargs : Invocation.ofArgs args = .ok i) {f : Formatter} {query : String}
    (hload : loadFormatter env i.config i.locale = .ok f)
    (hread : readInput env i.input = .ok query) :
    run env args = outcomeOf (answer env.isColored f i.command query) := by
  rw [run_of_ofArgs hargs, Invocation.run_of_stages hload hread]

end Runs

/-- **A run is staged, and prints all or nothing.** It ends with an answer or with the failure of
a stage, no call being outside its contract, and without an answer it prints nothing. To locate
an error fails for the offset exactly if the first two stages have been gone through and the
offset is past the end. Without a formatter, runs that agree in what the first stage looks at
have one outcome, and without a query those that agree in what the first two look at. -/
theorem run_staged {env : Environment} {args : List String} {i : Invocation}
    (hargs : Invocation.ofArgs args = .ok i) :
    (env.FitsMemory → ((run env args).code = 0 ∨ (run env args).code = 1)
        ∧ ∀ e, i.run env ≠ .error (.contract e))
      ∧ ((run env args).code ≠ 0 → (run env args).stdout = "")
      ∧ (∀ options, i.command = .locate options →
          ((∃ offset length, run env args = ⟨1, "", (offsetFailure offset length).report⟩)
            ↔ ∃ f query offset, loadFormatter env i.config i.locale = .ok f
              ∧ readInput env i.input = .ok query ∧ options.offset = some offset
              ∧ query.length < offset))
      ∧ (∀ failure, loadFormatter env i.config i.locale = .error failure →
          run env args = ⟨1, "", failure.report⟩
          ∧ ∀ env' args' i', Invocation.ofArgs args' = .ok i' → env'.files = env.files →
            env'.directory = env.directory → i'.config = i.config → i'.locale = i.locale →
            run env' args' = run env args)
      ∧ ∀ failure, readInput env i.input = .error failure →
          (run env args).code = 1
          ∧ ∀ args' i', Invocation.ofArgs args' = .ok i' → i'.config = i.config →
            i'.locale = i.locale → i'.input = i.input → run env args' = run env args := by
  refine ⟨fun hmemory => ?_, fun hcode => ?_, fun options => run_eq_offsetFailure_iff hargs, ?_, ?_⟩
  · have hcontract := fun e => i.run_ne_contract hmemory e
    rw [run_of_ofArgs hargs]
    exact ⟨code_outcomeOf hcontract, hcontract⟩
  · rw [run_of_ofArgs hargs] at hcode ⊢
    exact stdout_outcomeOf hcode
  · intro failure hload
    have hrun := run_of_loadFormatter hargs hload
    refine ⟨hrun, fun env' args' i' hargs' hfiles hdirectory hconfig hlocale => ?_⟩
    rw [hrun]
    refine run_of_loadFormatter hargs' ?_
    rw [loadFormatter_congr hfiles hdirectory, hconfig, hlocale, hload]
  · intro failure hread
    -- the first stage is the same in all runs, and where it fails it is what they report
    cases hload : loadFormatter env i.config i.locale with
    | error first =>
      have hrun := run_of_loadFormatter hargs hload
      rw [hrun]
      refine ⟨rfl, fun args' i' hargs' hconfig hlocale _ => run_of_loadFormatter hargs' ?_⟩
      rw [hconfig, hlocale, hload]
    | ok f =>
      have hrun := run_of_readInput hargs hload hread
      rw [hrun]
      refine ⟨rfl, fun args' i' hargs' hconfig hlocale hinput => ?_⟩
      rw [← hconfig, ← hlocale] at hload
      rw [← hinput] at hread
      exact run_of_readInput hargs' hload hread

/-- A query of three characters on the standard input, and no files. -/
theorem run_staged_without_files :
    let env : Environment :=
      ⟨⟨fun _ => false, fun _ => .error .notFound⟩, "/q", "ab\n".toUTF8, false⟩
    env.FitsMemory
      ∧ ((run env ["locate", "-", "-o", "4"]).code = 0
        ∨ (run env ["locate", "-", "-o", "4"]).code = 1)
      ∧ (∃ offset length,
          run env ["locate", "-", "-o", "4"] = ⟨1, "", (offsetFailure offset length).report⟩)
      ∧ run env ["normalize", "q.sql", "-c", "a.yml"]
          = run env ["-c", "a.yml", "locate", "-", "--offset=4", "-fjson"]
      ∧ run env ["locate", "q.sql", "-f", "json"] = run env ["locate", "q.sql", "-o", "4"] := by
  intro env
  have hmemory : env.FitsMemory := ⟨by decide, fun path bytes h => nomatch h⟩
  have hload : loadFormatter env none none = .ok {} := loadFormatter_of_none (by decide +kernel)
  have hread : readInput env "-" = .ok "ab\n" := readInput_of_input rfl
  have hpast : Invocation.ofArgs ["locate", "-", "-o", "4"]
      = .ok { command := .locate { offset := some 4 }, input := "-" } := rfl
  have hnormalize : Invocation.ofArgs ["normalize", "q.sql", "-c", "a.yml"]
      = .ok { config := some "a.yml", command := .normalize, input := "q.sql" } := rfl
  have hlocate : Invocation.ofArgs ["-c", "a.yml", "locate", "-", "--offset=4", "-fjson"]
      = .ok { config := some "a.yml"
              command := .locate { offset := some 4, format := .json }, input := "-" } := rfl
  have hjson : Invocation.ofArgs ["locate", "q.sql", "-f", "json"]
      = .ok { command := .locate { format := .json }, input := "q.sql" } := rfl
  have hoffset : Invocation.ofArgs ["locate", "q.sql", "-o", "4"]
      = .ok { command := .locate { offset := some 4 }, input := "q.sql" } := rfl
  obtain ⟨hends, -, hiff, -⟩ := run_staged hpast
  obtain ⟨-, -, -, hconfig, -⟩ := run_staged hlocate
  obtain ⟨-, -, -, -, hinput⟩ := run_staged hoffset
  refine ⟨hmemory, (hends hmemory).1, (hiff _ rfl).2 ⟨{}, "ab\n", 4, hload, hread, rfl, by decide⟩,
    ?_, ?_⟩
  · exact (hconfig _ rfl).2 env _ _ hnormalize rfl rfl rfl rfl
  · exact (hinput _ rfl).2 _ _ hjson rfl rfl rfl

end CommandLine

end Caret
