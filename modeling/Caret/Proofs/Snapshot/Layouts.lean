import Caret.Proofs.Snapshot.Members

/-!
# Snapshots in other layouts

The text of a snapshot need not be the one that is written. Here is what becomes of the
texts that differ from it: in the order of their members, in members that nobody asks
for, in white space (`Snapshot.ofJson_of_members`), and in their version
(`Snapshot.ofJson_of_other_version`).

A version is there so that layouts which cannot be read are told from texts that are no
snapshots. It is looked at last, though: a text of another version is recognised only if
all else about it is as the current version has it.
-/

namespace Caret.Snapshot

open Json

variable {s : Snapshot}

/-- **Reading does not depend on the layout.** If the members of a snapshot stand in any order,
among members with other names whose values are scalars, with any white space between them, the
snapshot is restored if it is of the current version, and refused for its version otherwise. If
one of the six names is left out or stands more than once, the text is no snapshot. -/
theorem ofJson_of_members (hversion : s.version < versionLimit) (hline : s.state.line < wordLimit)
    (hcolumn : s.state.column < wordLimit) :
    (∀ (extras ms : List (String × Value)) (text : String),
        (∀ m ∈ extras, m.1 ∉ memberNames ∧ m.2.IsScalar) → ms.Perm (s.members ++ extras) →
        Spells (Value.object ms).kinds text.toList →
        ofJson text
          = if s.version = currentVersion then .ok s else .error (.unsupportedVersion s.version))
      ∧ ∀ name ∈ memberNames, ∀ (ms : List (String × Value)) (text : String),
        (ms.map Prod.fst).count name ≠ 1 → Spells (Value.object ms).kinds text.toList →
        ∃ e, ofJson text = .error (.json e) := by
  refine ⟨fun extras ms text hextras hms h => ?_, fun name hname ms text hcount h => ?_⟩
  · exact ofJson_of_read (read_of_members hversion hline hcolumn hextras hms h)
  · exact ofJson_of_count_ne_one hname hcount h

/-- Members in reverse order, behind others, and in a wide text; of the current version, of another
one, and without the version. -/
theorem ofJson_of_members_reversed :
    let state : ErrorState := ⟨"m", "line 1, column 2", 1, 2⟩
    let before : List (String × Value) :=
      [("cause", .null), ("code", .number 7), ("column", .number 2), ("line", .number 1),
        ("contextPhrase", .text "line 1, column 2"), ("description", .text "m"),
        ("message", .text "m.")]
    ofJson (Value.object (before ++ [("version", .number 1)])).toWide = .ok ⟨1, "m.", state⟩
      ∧ ofJson (Value.object (before ++ [("version", .number 2)])).toWide
        = .error (.unsupportedVersion 2)
      ∧ ∃ e, ofJson (Value.object before).toWide = .error (.json e) := by
  intro state before
  have hextras : ∀ m ∈ [("code", Value.number 7), ("cause", Value.null)],
      m.1 ∉ memberNames ∧ m.2.IsScalar :=
    List.forall_mem_cons.2 ⟨⟨by decide, trivial⟩, List.forall_mem_singleton.2 ⟨by decide, trivial⟩⟩
  have hbefore : ∀ ms, Value.InRangeMembers ms → Value.InRangeMembers (before ++ ms) := fun ms hms =>
    ⟨trivial, show 7 < integerLimit by decide, show 2 < integerLimit by decide,
      show 1 < integerLimit by decide, trivial, trivial, trivial, hms⟩
  obtain ⟨hcurrent, hmissing⟩ := ofJson_of_members (s := ⟨1, "m.", state⟩)
    (by decide) (by decide) (by decide)
  obtain ⟨hother, -⟩ := ofJson_of_members (s := ⟨2, "m.", state⟩)
    (by decide) (by decide) (by decide)
  refine ⟨hcurrent _ _ _ hextras (List.reverse_perm _) (Value.spells_toWide (hbefore _ ?_)),
    hother _ _ _ hextras (List.reverse_perm _) (Value.spells_toWide (hbefore _ ?_)),
    hmissing "version" (by decide) _ _ (by decide) (Value.spells_toWide ?_)⟩
  · exact ⟨show 1 < integerLimit by decide, trivial⟩
  · exact ⟨show 2 < integerLimit by decide, trivial⟩
  · exact hbefore [] trivial

/-- The version that a text shows is the one that is read. -/
theorem IsWrittenIn.version_eq {members : List (Key × Document)} (h : s.IsWrittenIn members)
    {v : Nat} (hv : v < versionLimit) {d : Document} (hd : d ∈ valuesOf "version" (named members))
    (hshows : Shows d (.number v)) : s.version = v := by
  obtain ⟨d', hvalues, hread⟩ := h.version.exists_eq
  rw [hvalues, List.mem_singleton] at hd
  rw [← hd, readNat_of_shows hshows hv] at hread
  exact (Except.ok.inj hread).symm

/-- **Another version is recognised** exactly if all other members are as the current version has
them: each of their names holds one value of its type. Otherwise the text is refused as no
snapshot, whatever its version. -/
theorem ofJson_of_other_version {text : String} {start stop : Nat}
    {members : List (Key × Document)}
    (htext : Document.ofText text.toList = (.object start members (.closed stop), none)) {v : Nat}
    (hlimit : v < versionLimit) (hother : v ≠ currentVersion)
    (hversion : ∃ d ∈ valuesOf "version" (named members), Shows d (.number v)) :
    (ofJson text = .error (.unsupportedVersion v) ↔ ∃ s : Snapshot, s.IsWrittenIn members)
      ∧ ((¬ ∃ s : Snapshot, s.IsWrittenIn members) → ∃ e, ofJson text = .error (.json e)) := by
  obtain ⟨d, hd, hshows⟩ := hversion
  have hnone : (¬ ∃ s : Snapshot, s.IsWrittenIn members) →
      ∃ e, ofJson text = .error (.json e) := fun h =>
    ofJson_of_not_read fun s hread => h ⟨s, (read_eq_ok_iff htext).1 hread⟩
  refine ⟨⟨fun h => ?_, ?_⟩, hnone⟩
  · by_contra hwritten
    obtain ⟨e, he⟩ := hnone hwritten
    rw [he] at h
    cases h
  · rintro ⟨s, hs⟩
    obtain rfl := hs.version_eq hlimit hd hshows
    rw [ofJson_of_read ((read_eq_ok_iff htext).2 hs), if_neg hother]

/-- A snapshot of the next version in the current layout, with one more member. -/
theorem ofJson_of_other_version_next :
    let ms : List (String × Value) :=
      [("version", .number 2), ("message", .text "m."), ("description", .text "m"),
        ("contextPhrase", .text ""), ("line", .number 0), ("column", .number 0), ("cause", .null)]
    ofJson (Value.object ms).toCompact = .error (.unsupportedVersion 2) := by
  intro ms
  have hvalue : (Value.object ms).InRange :=
    ⟨show 2 < integerLimit by decide, trivial, trivial, trivial, show 0 < integerLimit by decide,
      show 0 < integerLimit by decide, trivial, trivial⟩
  obtain ⟨d, hd, hdocument⟩ := ofText_of_spells (Value.spells_toCompact hvalue)
  obtain ⟨start, members, stop, rfl, hmembers⟩ := hd.exists_of_object
  have hversion := exists_mem_valuesOf (named_of_shows hmembers).2 (List.mem_cons_self ..)
  have hextras : ∀ m ∈ [("cause", Value.null)], m.1 ∉ memberNames ∧ m.2.IsScalar :=
    List.forall_mem_singleton.2 ⟨by decide, trivial⟩
  have hwritten : IsWrittenIn ⟨2, "m.", ⟨"m", "", 0, 0⟩⟩ members :=
    isWrittenIn_of_shows (by decide) (by decide) (by decide) hextras (List.Perm.refl _) hmembers
  exact (ofJson_of_other_version hdocument (by decide) (by decide) hversion).1.2 ⟨_, hwritten⟩

/-- Without the members of the current layout the version of a text is not recognised. -/
theorem version_alone_not_recognised :
    ¬ ∀ (text : String) (start stop : Nat) (members : List (Key × Document)) (v : Nat),
      Document.ofText text.toList = (.object start members (.closed stop), none) →
      v < versionLimit → v ≠ currentVersion →
      (∃ d ∈ valuesOf "version" (named members), Shows d (.number v)) →
      ofJson text = .error (.unsupportedVersion v) := by
  intro h
  have htext : (Value.object [("version", .number 2)]).toCompact = "\x7b\"version\":2\x7d" := by
    decide +kernel
  have hspells := Value.spells_toCompact
    (show (Value.object [("version", .number 2)]).InRange from
      ⟨show 2 < integerLimit by decide, trivial⟩)
  rw [htext] at hspells
  obtain ⟨d, hd, hdocument⟩ := ofText_of_spells hspells
  obtain ⟨start, members, stop, rfl, hmembers⟩ := hd.exists_of_object
  have hversion := exists_mem_valuesOf (named_of_shows hmembers).2 (List.mem_singleton_self _)
  have hrecognised := h _ start stop members 2 hdocument (by decide) (by decide) hversion
  obtain ⟨e, he⟩ := ofJson_of_count_ne_one (show "message" ∈ memberNames by decide)
    (by decide) hspells
  rw [he] at hrecognised
  cases hrecognised

end Caret.Snapshot
