import Caret.CommandLine.Run
import Caret.Proofs.Location
import Caret.Proofs.Snapshot.Members

/-!
# Snapshots read back

A snapshot is written as an object of six members, and is read from any members that
show those (`Snapshot.read_of_members`).

None of this looks at characters. A document that shows the object is all that
is asked for, so every text that spells the object is read back, be it compact,
laid out over several lines, or followed by the line feed of a printed answer.

What comes back is the whole snapshot, and so an error restored from it has
the position of the error it was taken of. That zeros stand for no position
loses nothing here, since a resolved position counts from one.
-/

namespace Caret

open Json

/-! ## Snapshots -/

namespace Snapshot

variable {s : Snapshot}

/-- A snapshot of the current version is restored from any text that spells it. -/
theorem ofJson_of_spells (hversion : s.version = currentVersion)
    (hline : s.state.line < wordLimit) (hcolumn : s.state.column < wordLimit) {text : String}
    (h : Spells s.toValue.kinds text.toList) : ofJson text = .ok s := by
  have hword : s.version < versionLimit := by
    rw [hversion]
    decide
  have hmembers : s.members.Perm (s.members ++ []) := .of_eq (List.append_nil _).symm
  have hread : read text = .ok s :=
    read_of_members hword hline hcolumn (List.forall_mem_nil _) hmembers (toValue_eq s ▸ h)
  rw [ofJson_of_read hread, if_pos hversion]

theorem inRange_toValue (hversion : s.version < integerLimit) (hline : s.state.line < wordLimit)
    (hcolumn : s.state.column < wordLimit) : s.toValue.InRange :=
  ⟨hversion, trivial, trivial, trivial, hline, hcolumn, trivial⟩

end Snapshot

/-! ## Errors -/

namespace QueryError

variable {e : QueryError}

/-- The snapshot of an error is read from any text that spells it. -/
theorem ofJson_snapshot (hline : e.state.line < wordLimit) (hcolumn : e.state.column < wordLimit)
    {text : String} (h : Spells e.snapshot.toValue.kinds text.toList) :
    Snapshot.ofJson text = .ok e.snapshot :=
  Snapshot.ofJson_of_spells rfl hline hcolumn h

theorem inRange_snapshot (hline : e.state.line < wordLimit) (hcolumn : e.state.column < wordLimit) :
    e.snapshot.toValue.InRange :=
  Snapshot.inRange_toValue (show 1 < integerLimit by decide) hline hcolumn

end QueryError

/-- **The position of an error** is that of its offset, and there is none without an offset. -/
theorem Formatter.position?_of_error {f : Formatter} {o : Occurrence} {description : String}
    {cause : Option Cause} {e : QueryError} (h : f.error o description cause = .ok e) :
    (e.position? = none ↔ o.offset = none)
      ∧ ∀ offset, o.offset = some offset →
        ∃ p, f.position o.query offset = .ok p ∧ e.position? = some p := by
  obtain ⟨p, hp, rfl⟩ := error_eq_ok_iff.1 h
  rw [position?_compose hp]
  obtain ⟨hoffset, rfl⟩ | ⟨n, q, hoffset, rfl, hq⟩ := mapM_position_eq_ok_iff.1 hp
  · rw [hoffset]
    exact ⟨⟨fun _ => rfl, fun _ => rfl⟩, fun _ h => (nomatch h)⟩
  · rw [hoffset]
    refine ⟨⟨fun h => (nomatch h), fun h => (nomatch h)⟩, ?_⟩
    rintro offset ⟨⟩
    exact ⟨q, hq, rfl⟩

/-- The answer in JSON to a command that locates an error is the wide text of its snapshot. -/
theorem CommandLine.locate_json {f : Formatter} {options : LocateOptions} {query : String}
    {e : QueryError} (hformat : options.format = .json)
    (herror : f.error ⟨query, options.offset, options.label⟩ options.description none = .ok e)
    (isColored : Bool) : locate isColored f options query = .ok e.snapshot.toWideJson := by
  have hinside : options.offset.filter (query.length < ·) = none := by
    rw [Option.filter_eq_none_iff]
    intro offset hoffset
    obtain ⟨p, hp, -⟩ := (Formatter.position?_of_error herror).2 offset hoffset
    rw [decide_eq_true_eq]
    exact Nat.not_lt.2 (Formatter.le_of_position hp)
  unfold locate
  rw [hinside, herror, hformat]

/-- **A snapshot undoes its texts.** The compact text of the snapshot of any error, the wide
text, and what the program prints for it are all read back as the snapshot; the compact text
has no character below U+0020. The error that is restored has the message and the parts of the
first one and no cause. If the first one was made for an occurrence, the restored one has a
position exactly when an offset was given, and it is the one that the offset resolves to. -/
theorem snapshot_roundtrip (e : QueryError) (hline : e.state.line < wordLimit)
    (hcolumn : e.state.column < wordLimit) :
    Snapshot.ofJson e.snapshot.toJson = .ok e.snapshot
      ∧ (∀ c ∈ e.snapshot.toJson.toList, 0x20 ≤ c.toNat)
      ∧ Snapshot.ofJson e.snapshot.toWideJson = .ok e.snapshot
      ∧ (∀ (isColored : Bool) (f : Formatter) (options : CommandLine.LocateOptions)
          (query : String), options.format = .json →
          f.error ⟨query, options.offset, options.label⟩ options.description none = .ok e →
          ∃ text, CommandLine.locate isColored f options query = .ok text
            ∧ Snapshot.ofJson text = .ok e.snapshot
            ∧ Snapshot.ofJson (CommandLine.outcomeOf (.ok text)).stdout = .ok e.snapshot)
      ∧ ∃ r, (Snapshot.ofJson e.snapshot.toJson >>= QueryError.ofSnapshot) = .ok r
        ∧ r.message = e.message ∧ r.state = e.state ∧ r.position? = e.position? ∧ r.cause = none
        ∧ ∀ (f : Formatter) (o : Occurrence) (description : String) (cause : Option Cause),
          f.error o description cause = .ok e →
          (r.position? = none ↔ o.offset = none)
            ∧ ∀ offset, o.offset = some offset →
              ∃ p, f.position o.query offset = .ok p ∧ r.position? = some p := by
  have hvalue := QueryError.inRange_snapshot hline hcolumn
  have hcompact : Snapshot.ofJson e.snapshot.toJson = .ok e.snapshot :=
    QueryError.ofJson_snapshot hline hcolumn (Value.spells_toCompact hvalue)
  have hspells : Spells e.snapshot.toValue.kinds e.snapshot.toWideJson.toList :=
    Value.spells_toWide hvalue
  have hwide : Snapshot.ofJson e.snapshot.toWideJson = .ok e.snapshot :=
    QueryError.ofJson_snapshot hline hcolumn hspells
  refine ⟨hcompact, ?_, hwide, ?_, ?_⟩
  · intro c hc
    rw [Snapshot.toJson, Value.toCompact, String.toList_ofList] at hc
    exact Value.le_of_mem_write 0 _ c hc
  · intro isColored f options query hformat herror
    refine ⟨_, CommandLine.locate_json hformat herror isColored, hwide,
      QueryError.ofJson_snapshot hline hcolumn ?_⟩
    -- What is printed has a line feed behind the text, which is one more gap.
    show Spells _ (e.snapshot.toWideJson ++ "\n").toList
    rw [String.toList_append]
    refine hspells.append_gap ?_
    intro c hc
    rw [List.mem_singleton.1 hc]
    rfl
  · refine ⟨⟨e.message, e.state, none⟩, ?_, rfl, rfl, rfl, rfl, ?_⟩
    · rw [hcompact]
      rfl
    · intro f o description cause h
      have hposition := Formatter.position?_of_error h
      exact hposition

/-- The snapshot of an error whose text is full of characters that are escaped. -/
theorem snapshot_roundtrip_escaped :
    let f : Formatter := {}
    let options : CommandLine.LocateOptions :=
      { offset := some 4, description := "\x01\x7f\t", label := some (.literal "\\\u2028😀"),
        format := .json }
    let query := "a\n\"b\\"
    ∃ e text, f.error ⟨query, options.offset, options.label⟩ options.description none = .ok e
      ∧ e.state.line < wordLimit ∧ e.state.column < wordLimit
      ∧ CommandLine.locate false f options query = .ok text
      ∧ Snapshot.ofJson text = .ok e.snapshot
      ∧ ∃ r, (Snapshot.ofJson e.snapshot.toJson >>= QueryError.ofSnapshot) = .ok r
        ∧ r.message = e.message ∧ r.position? = some ⟨2, 3⟩ := by
  intro f options query
  have herror := f.error_eq_scan options.label options.description none
    (show 4 ≤ query.length by decide) (by decide)
  have hscan : f.terminators.scan query.toList 4 = ⟨2, 3⟩ := by decide
  rw [hscan] at herror
  have hline : 2 < wordLimit := by decide
  have hcolumn : 3 < wordLimit := by decide
  obtain ⟨-, -, -, hlocate, r, hr, hmessage, -, hposition, -⟩ :=
    snapshot_roundtrip (f.compose options.description (some ⟨2, 3⟩) options.label none)
      hline hcolumn
  obtain ⟨text, htext, hread, -⟩ := hlocate false f options query rfl herror
  exact ⟨_, text, herror, hline, hcolumn, htext, hread, r, hr, hmessage, hposition⟩

end Caret
