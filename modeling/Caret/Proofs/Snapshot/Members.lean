import Caret.Proofs.Json.Members
import Caret.Snapshot.Json
import Mathlib.Data.List.Nodup

/-!
# What a snapshot is read from

The six members of a snapshot are the fields of two records. Its own two are read as
they come, and all others are set aside until the object ends and are gone through
once more for the parts of the error. Both runs leave the members that no field names
where they are, and neither asks in which order the members stand.

`Snapshot.IsWrittenIn` says without any run what comes of both: under each of the six
names stands one value, which is read as that of the snapshot, and every other member
can be taken. `readRecord_eq_ok_iff` shows that an object is read as a snapshot exactly
if the snapshot is written in its members. The steps of the two runs are described by
what they do to the slots (`ErrorStateFields.Ends`, `SnapshotFields.Ends`), and such a
description carries over to the runs (`foldlM_eq_ok_iff`).
-/

namespace Caret

open Json

/-- **A field is put into a record** as what its slot is filled with. -/
theorem readField_bind_eq_ok_iff {α σ : Type} {name : String} {key : Key} {slot : Option α}
    {read : Reader α} {d : Document} {put : Option α → σ} {s : σ} :
    (readField name key slot read d >>= fun v => pure (put v)) = .ok s
      ↔ ∃ v, Filled read slot [d] v ∧ put v = s := by
  rw [bind_eq_ok_iff]
  refine exists_congr fun v => and_congr readField_eq_ok_iff ?_
  show Except.ok (put v) = Except.ok s ↔ _
  rw [Except.ok.injEq]

/-! ## The parts of an error -/

namespace ErrorStateFields

/-- **The fields after some members**: each slot is filled with what stands under its name. -/
structure Ends (s : ErrorStateFields) (ms : List NamedMember) (s' : ErrorStateFields) : Prop where
  description : Filled readText s.description (valuesOf "description" ms) s'.description
  contextPhrase : Filled readText s.contextPhrase (valuesOf "contextPhrase" ms) s'.contextPhrase
  line : Filled readCount s.line (valuesOf "line" ms) s'.line
  column : Filled readCount s.column (valuesOf "column" ms) s'.column

variable {s s' : ErrorStateFields} {m : NamedMember} {ms : List NamedMember}

theorem ends_iff : s.Ends ms s' ↔
    Filled readText s.description (valuesOf "description" ms) s'.description
      ∧ Filled readText s.contextPhrase (valuesOf "contextPhrase" ms) s'.contextPhrase
      ∧ Filled readCount s.line (valuesOf "line" ms) s'.line
      ∧ Filled readCount s.column (valuesOf "column" ms) s'.column :=
  ⟨fun ⟨h₁, h₂, h₃, h₄⟩ => ⟨h₁, h₂, h₃, h₄⟩, fun ⟨h₁, h₂, h₃, h₄⟩ => ⟨h₁, h₂, h₃, h₄⟩⟩

theorem ends_nil : s.Ends [] s' ↔ s = s' := by
  obtain ⟨t₁, t₂, n₁, n₂⟩ := s
  obtain ⟨t₁', t₂', n₁', n₂'⟩ := s'
  rw [ends_iff, mk.injEq]
  exact and_congr filled_nil (and_congr filled_nil (and_congr filled_nil filled_nil))

/-- The description can be cut behind the first member. -/
theorem ends_cons :
    s.Ends (m :: ms) s' ↔ ∃ s₁ : ErrorStateFields, s.Ends [m] s₁ ∧ s₁.Ends ms s' := by
  constructor
  · rintro ⟨h₁, h₂, h₃, h₄⟩
    obtain ⟨t₁, hfirst₁, hrest₁⟩ := filled_valuesOf_cons.1 h₁
    obtain ⟨t₂, hfirst₂, hrest₂⟩ := filled_valuesOf_cons.1 h₂
    obtain ⟨n₁, hfirst₃, hrest₃⟩ := filled_valuesOf_cons.1 h₃
    obtain ⟨n₂, hfirst₄, hrest₄⟩ := filled_valuesOf_cons.1 h₄
    exact ⟨⟨t₁, t₂, n₁, n₂⟩, ⟨hfirst₁, hfirst₂, hfirst₃, hfirst₄⟩,
      ⟨hrest₁, hrest₂, hrest₃, hrest₄⟩⟩
  · rintro ⟨s₁, hfirst, hrest⟩
    exact ⟨filled_valuesOf_cons.2 ⟨_, hfirst.description, hrest.description⟩,
      filled_valuesOf_cons.2 ⟨_, hfirst.contextPhrase, hrest.contextPhrase⟩,
      filled_valuesOf_cons.2 ⟨_, hfirst.line, hrest.line⟩,
      filled_valuesOf_cons.2 ⟨_, hfirst.column, hrest.column⟩⟩

/-- **A member fills the slot of its name** and no other. -/
theorem addStateMember_eq_ok_iff {stop : Nat} :
    addStateMember stop s m = .ok s' ↔ s.Ends [m] s' := by
  obtain ⟨key, name, d⟩ := m
  obtain ⟨t₁, t₂, n₁, n₂⟩ := s'
  rw [ends_iff]
  simp only [valuesOf_singleton]
  unfold addStateMember
  fun_cases add? s key name d
  case case5 h₁ h₂ h₃ h₄ =>
    rw [if_neg h₁, if_neg h₂, if_neg h₃, if_neg h₄]
    simp only [filled_nil]
    rw [Except.ok.injEq, ← mk.injEq]
  all_goals
    dsimp only
    rw [mapError_eq_ok_iff, readField_bind_eq_ok_iff]
    simp [filled_nil, and_assoc, and_left_comm, and_comm]

/-- Fields are complete if each slot is filled. -/
theorem complete_eq_ok_iff {stop : Nat} {state : ErrorState} :
    s.complete stop = .ok state
      ↔ s = ⟨some state.description, some state.contextPhrase, some state.line,
        some state.column⟩ := by
  obtain ⟨t₁, t₂, n₁, n₂⟩ := s
  obtain ⟨u₁, u₂, k₁, k₂⟩ := state
  unfold complete
  simp only [bind_eq_ok_iff, requireField_eq_ok_iff, mk.injEq]
  simp [pure, Except.pure]

end ErrorStateFields

/-- **The parts of an error are read** if each of their names holds one of them. -/
theorem readStateMembers_eq_ok_iff {ms : List NamedMember} {stop : Nat} {state : ErrorState} :
    readStateMembers ms stop = .ok state
      ↔ Holds ms "description" readText state.description
        ∧ Holds ms "contextPhrase" readText state.contextPhrase
        ∧ Holds ms "line" readCount state.line ∧ Holds ms "column" readCount state.column := by
  have hrun : ∀ s', ms.foldlM (addStateMember stop) {} = .ok s'
      ↔ ErrorStateFields.Ends {} ms s' := fun s' =>
    foldlM_eq_ok_iff (fun _ _ => ErrorStateFields.ends_nil)
      (fun _ _ _ _ => ErrorStateFields.ends_cons)
      (fun _ _ _ => ErrorStateFields.addStateMember_eq_ok_iff)
  unfold readStateMembers
  rw [bind_eq_ok_iff]
  simp only [hrun, ErrorStateFields.complete_eq_ok_iff]
  rw [exists_eq_right, ErrorStateFields.ends_iff]
  rfl

/-! ## The members of a snapshot -/

namespace SnapshotFields

/-- A name that is set aside for the parts of the error. -/
def IsSetAside (name : String) : Prop := name ≠ "version" ∧ name ≠ "message"

instance (name : String) : Decidable (IsSetAside name) :=
  inferInstanceAs (Decidable (_ ∧ _))

/-- The members that are set aside. -/
def setAside (ms : List NamedMember) : List NamedMember :=
  ms.filter fun m => IsSetAside m.2.1

theorem holds_setAside {α : Type} {read : Reader α} {ms : List NamedMember} {name : String} {a : α}
    (h : IsSetAside name) : Holds (setAside ms) name read a ↔ Holds ms name read a :=
  holds_filter (p := fun name => IsSetAside name) (decide_eq_true h)

/-- **The fields after some members**: the slots are filled, and all other members, which can be
taken, are set aside. -/
structure Ends (s : SnapshotFields) (ms : List NamedMember) (s' : SnapshotFields) : Prop where
  version : Filled (readNat versionLimit "u32") s.version (valuesOf "version" ms) s'.version
  message : Filled readText s.message (valuesOf "message" ms) s'.message
  others : (setAside ms).reverse ++ s.others = s'.others
  takes : ∀ m ∈ ms, IsSetAside m.2.1 → m.2.2.take (snapshotDepth - 1) = .ok ()

variable {s s' : SnapshotFields} {m : NamedMember} {ms : List NamedMember}

theorem ends_iff : s.Ends ms s' ↔
    Filled (readNat versionLimit "u32") s.version (valuesOf "version" ms) s'.version
      ∧ Filled readText s.message (valuesOf "message" ms) s'.message
      ∧ (setAside ms).reverse ++ s.others = s'.others
      ∧ ∀ m ∈ ms, IsSetAside m.2.1 → m.2.2.take (snapshotDepth - 1) = .ok () :=
  ⟨fun ⟨h₁, h₂, h₃, h₄⟩ => ⟨h₁, h₂, h₃, h₄⟩, fun ⟨h₁, h₂, h₃, h₄⟩ => ⟨h₁, h₂, h₃, h₄⟩⟩

theorem ends_nil : s.Ends [] s' ↔ s = s' := by
  obtain ⟨n, t, others⟩ := s
  obtain ⟨n', t', others'⟩ := s'
  rw [ends_iff, mk.injEq]
  refine and_congr filled_nil (and_congr filled_nil ?_)
  exact and_iff_left fun _ h => absurd h List.not_mem_nil

/-- The description can be cut behind the first member. -/
theorem ends_cons :
    s.Ends (m :: ms) s' ↔ ∃ s₁ : SnapshotFields, s.Ends [m] s₁ ∧ s₁.Ends ms s' := by
  have hothers : (setAside (m :: ms)).reverse ++ s.others
      = (setAside ms).reverse ++ ((setAside [m]).reverse ++ s.others) := by
    unfold setAside
    rw [← List.append_assoc, ← List.reverse_append, ← List.filter_append, List.singleton_append]
  constructor
  · rintro ⟨h₁, h₂, h₃, h₄⟩
    obtain ⟨n, hfirst₁, hrest₁⟩ := filled_valuesOf_cons.1 h₁
    obtain ⟨t, hfirst₂, hrest₂⟩ := filled_valuesOf_cons.1 h₂
    obtain ⟨hfirst₄, hrest₄⟩ := List.forall_mem_cons.1 h₄
    exact ⟨⟨n, t, _⟩, ⟨hfirst₁, hfirst₂, rfl, List.forall_mem_singleton.2 hfirst₄⟩,
      ⟨hrest₁, hrest₂, hothers.symm.trans h₃, hrest₄⟩⟩
  · rintro ⟨s₁, hfirst, hrest⟩
    refine ⟨filled_valuesOf_cons.2 ⟨_, hfirst.version, hrest.version⟩,
      filled_valuesOf_cons.2 ⟨_, hfirst.message, hrest.message⟩, ?_,
      List.forall_mem_cons.2 ⟨hfirst.takes m (List.mem_singleton_self m), hrest.takes⟩⟩
    rw [hothers, hfirst.others, hrest.others]

/-- **A member fills the slot of its name** or is set aside. -/
theorem add_eq_ok_iff :
    snapshotRecord.add s m.1 m.2.1 m.2.2 = .ok s' ↔ s.Ends [m] s' := by
  obtain ⟨key, name, d⟩ := m
  obtain ⟨n, t, others⟩ := s'
  rw [ends_iff]
  simp only [valuesOf_singleton]
  unfold snapshotRecord
  dsimp only
  split
  · rw [readField_bind_eq_ok_iff]
    simp [filled_nil, setAside, IsSetAside]
  · rw [readField_bind_eq_ok_iff]
    simp [filled_nil, setAside, IsSetAside, and_left_comm]
  · next hversion hmessage =>
    have hname : IsSetAside name := ⟨hversion, hmessage⟩
    rw [if_neg hversion, if_neg hmessage, filled_nil, filled_nil, bind_eq_ok_iff]
    simp [setAside, hname, pure, Except.pure, Unique.exists_iff, and_assoc, and_comm]

end SnapshotFields

/-! ## Snapshots -/

namespace Snapshot

/-- The members that a snapshot is written as. -/
def members (s : Snapshot) : List (String × Value) :=
  ("version", .number s.version) :: ("message", .text s.message) :: s.state.members

/-- The names of the members of a snapshot. -/
def memberNames : List String :=
  ["version", "message", "description", "contextPhrase", "line", "column"]

/-- **A snapshot is written in members** if each of the six names holds what the snapshot has, and
every other member can be taken. -/
structure IsWrittenIn (s : Snapshot) (members : List (Key × Document)) : Prop where
  keys : ∀ m ∈ members, ∃ name, m.1.text = .ok name
  version : Holds (named members) "version" (readNat versionLimit "u32") s.version
  message : Holds (named members) "message" readText s.message
  description : Holds (named members) "description" readText s.state.description
  contextPhrase : Holds (named members) "contextPhrase" readText s.state.contextPhrase
  line : Holds (named members) "line" readCount s.state.line
  column : Holds (named members) "column" readCount s.state.column
  others : ∀ m ∈ named members, m.2.1 ∉ memberNames → m.2.2.take (snapshotDepth - 1) = .ok ()

variable {s : Snapshot} {members : List (Key × Document)}

theorem mem_memberNames {name : String} : name ∈ memberNames ↔ name = "version" ∨ name = "message"
    ∨ name = "description" ∨ name = "contextPhrase" ∨ name = "line" ∨ name = "column" := by
  simp [memberNames]

theorem isSetAside_of_not_mem {name : String} (h : name ∉ memberNames) :
    SnapshotFields.IsSetAside name :=
  ⟨fun hname => h (hname ▸ by decide), fun hname => h (hname ▸ by decide)⟩

/-- The members that are set aside can be taken if those among them that are fields are read. -/
theorem IsWrittenIn.take_eq_ok (h : s.IsWrittenIn members) {m : NamedMember}
    (hm : m ∈ named members) (hname : SnapshotFields.IsSetAside m.2.1) :
    m.2.2.take (snapshotDepth - 1) = .ok () := by
  obtain ⟨key, name, d⟩ := m
  by_cases hmem : name ∈ memberNames
  · obtain rfl | rfl | rfl | rfl | rfl | rfl := mem_memberNames.1 hmem
    · exact absurd rfl hname.1
    · exact absurd rfl hname.2
    · exact take_of_shows_text (readText_eq_ok_iff.1 (h.description.read_eq hm)) _
    · exact take_of_shows_text (readText_eq_ok_iff.1 (h.contextPhrase.read_eq hm)) _
    · exact take_of_shows_number (readNat_eq_ok_iff.1 (h.line.read_eq hm)).1 _
    · exact take_of_shows_number (readNat_eq_ok_iff.1 (h.column.read_eq hm)).1 _
  · exact h.others _ hm hmem

/-- Fields are complete if the slots are filled and the parts of the error are read. -/
theorem complete_eq_ok_iff {fields : SnapshotFields} {stop : Nat} :
    snapshotRecord.complete fields stop = .ok s
      ↔ fields.version = some s.version ∧ fields.message = some s.message
        ∧ readStateMembers fields.others.reverse stop = .ok s.state := by
  obtain ⟨n, t, state⟩ := s
  unfold snapshotRecord
  simp only [bind_eq_ok_iff, requireField_eq_ok_iff]
  simp [pure, Except.pure]

/-- **An object is read as a snapshot** exactly if the snapshot is written in its members. -/
theorem readRecord_eq_ok_iff {start stop : Nat} :
    readRecord snapshotRecord (.object start members (.closed stop)) = .ok s
      ↔ s.IsWrittenIn members := by
  have hrun : ∀ fields, foldMembers snapshotRecord.add snapshotRecord.start members = .ok fields
      ↔ (∀ m ∈ members, ∃ name, m.1.text = .ok name)
        ∧ SnapshotFields.Ends {} (named members) fields := fun fields =>
    foldMembers_eq_ok_iff.trans (and_congr_right fun _ =>
      foldlM_eq_ok_iff (fun _ _ => SnapshotFields.ends_nil) (fun _ _ _ _ => SnapshotFields.ends_cons)
        (fun _ _ _ => SnapshotFields.add_eq_ok_iff))
  show (foldMembers snapshotRecord.add snapshotRecord.start members >>= fun fields =>
    snapshotRecord.complete fields stop) = .ok s ↔ _
  rw [bind_eq_ok_iff]
  simp only [hrun, complete_eq_ok_iff]
  constructor
  · rintro ⟨⟨_, _, others⟩, ⟨hkeys, h⟩, rfl, rfl, hstate⟩
    obtain rfl : (SnapshotFields.setAside (named members)).reverse ++ [] = others := h.others
    rw [List.append_nil, List.reverse_reverse, readStateMembers_eq_ok_iff] at hstate
    obtain ⟨hdescription, hcontextPhrase, hline, hcolumn⟩ := hstate
    exact ⟨hkeys, h.version, h.message,
      (SnapshotFields.holds_setAside (by decide)).1 hdescription,
      (SnapshotFields.holds_setAside (by decide)).1 hcontextPhrase,
      (SnapshotFields.holds_setAside (by decide)).1 hline,
      (SnapshotFields.holds_setAside (by decide)).1 hcolumn,
      fun m hm hname => h.takes m hm (isSetAside_of_not_mem hname)⟩
  · intro h
    refine ⟨⟨some s.version, some s.message, _⟩, ⟨h.keys, h.version, h.message, rfl,
      fun m hm => h.take_eq_ok hm⟩, rfl, rfl, ?_⟩
    rw [List.append_nil, List.reverse_reverse, readStateMembers_eq_ok_iff]
    exact ⟨(SnapshotFields.holds_setAside (by decide)).2 h.description,
      (SnapshotFields.holds_setAside (by decide)).2 h.contextPhrase,
      (SnapshotFields.holds_setAside (by decide)).2 h.line,
      (SnapshotFields.holds_setAside (by decide)).2 h.column⟩

/-! ## Members that are written -/

theorem toValue_eq (s : Snapshot) : s.toValue = .object s.members := rfl

theorem map_fst_members (s : Snapshot) : s.members.map Prod.fst = memberNames := rfl

theorem valuesUnder_of_perm {extras ms : List (String × Value)}
    (hextras : ∀ m ∈ extras, m.1 ∉ memberNames) (hms : ms.Perm (s.members ++ extras))
    {name : String} (hname : name ∈ memberNames) :
    valuesUnder name ms = valuesUnder name s.members := by
  have hperm := perm_valuesUnder hms name
  rw [valuesUnder_append,
    valuesUnder_eq_nil fun m hm h => hextras m hm (h ▸ hname), List.append_nil] at hperm
  have hlength : (valuesUnder name s.members).length = 1 := by
    rw [length_valuesUnder, map_fst_members]
    exact List.count_eq_one_of_mem (by decide) hname
  obtain ⟨v, hv⟩ := List.length_eq_one_iff.1 hlength
  rw [hv] at hperm ⊢
  exact List.perm_singleton.1 hperm

/-- **A snapshot is written in members that show its own**, in any order and among others. -/
theorem isWrittenIn_of_shows (hversion : s.version < versionLimit)
    (hline : s.state.line < wordLimit) (hcolumn : s.state.column < wordLimit)
    {extras ms : List (String × Value)}
    (hextras : ∀ m ∈ extras, m.1 ∉ memberNames ∧ m.2.IsScalar) (hms : ms.Perm (s.members ++ extras))
    (h : ShowsMembers members ms) : s.IsWrittenIn members := by
  obtain ⟨hkeys, hnamed⟩ := named_of_shows h
  have hvalues : ∀ name ∈ memberNames, valuesUnder name ms = valuesUnder name s.members :=
    fun name hname => valuesUnder_of_perm (fun m hm => (hextras m hm).1) hms hname
  refine ⟨hkeys, holds_of_valuesUnder hnamed (hvalues "version" (by decide)) fun d hd => ?_,
    holds_of_valuesUnder hnamed (hvalues "message" (by decide)) fun d hd => ?_,
    holds_of_valuesUnder hnamed (hvalues "description" (by decide)) fun d hd => ?_,
    holds_of_valuesUnder hnamed (hvalues "contextPhrase" (by decide)) fun d hd => ?_,
    holds_of_valuesUnder hnamed (hvalues "line" (by decide)) fun d hd => ?_,
    holds_of_valuesUnder hnamed (hvalues "column" (by decide)) fun d hd => ?_, ?_⟩
  · exact readNat_of_shows hd hversion "u32"
  · exact readText_of_shows hd
  · exact readText_of_shows hd
  · exact readText_of_shows hd
  · exact readNat_of_shows hd hline "usize"
  · exact readNat_of_shows hd hcolumn "usize"
  · -- a member with another name is one of the others
    intro n hn hname
    obtain ⟨m, hm, hnm, hshows⟩ := exists_mem_of_forall₂ hnamed.flip hn
    obtain hm | hm := List.mem_append.1 (hms.mem_iff.1 hm)
    · exact absurd (hnm ▸ List.mem_map_of_mem hm) hname
    · exact take_of_shows_scalar hshows (hextras m hm).2 _

/-- **No snapshot is written in members that show** one of the six names twice or not at all. -/
theorem IsWrittenIn.count_eq_one (h : s.IsWrittenIn members) {ms : List (String × Value)}
    (hms : ShowsMembers members ms) {name : String} (hname : name ∈ memberNames) :
    (ms.map Prod.fst).count name = 1 := by
  obtain ⟨-, hnamed⟩ := named_of_shows hms
  obtain rfl | rfl | rfl | rfl | rfl | rfl := mem_memberNames.1 hname
  · exact count_of_holds hnamed h.version
  · exact count_of_holds hnamed h.message
  · exact count_of_holds hnamed h.description
  · exact count_of_holds hnamed h.contextPhrase
  · exact count_of_holds hnamed h.line
  · exact count_of_holds hnamed h.column

/-! ## Texts -/

section Texts

variable {text : String} {start stop : Nat}

/-- **A text is read as a snapshot** exactly if the snapshot is written in its members. -/
theorem read_eq_ok_iff
    (h : Document.ofText text.toList = (.object start members (.closed stop), none)) :
    read text = .ok s ↔ s.IsWrittenIn members := by
  rw [read, readTextAs_of_ofText _ h, mapError_eq_ok_iff, readRecord_eq_ok_iff]

/-- What is read is restored or refused by its version. -/
theorem ofJson_of_read (h : read text = .ok s) :
    ofJson text
      = if s.version = currentVersion then .ok s else .error (.unsupportedVersion s.version) := by
  rw [ofJson, h]
  show (s.checkVersion >>= fun _ => pure s) = _
  unfold checkVersion
  split <;> rfl

/-- What is not read is refused for its text. -/
theorem ofJson_of_not_read (h : ∀ s, read text ≠ .ok s) : ∃ e, ofJson text = .error (.json e) := by
  cases hread : read text with
  | error e =>
    refine ⟨e, ?_⟩
    rw [ofJson, hread]
  | ok s => exact absurd hread (h s)

/-- **A snapshot is read from its members**, in any order, among others and in any layout. -/
theorem read_of_members (hversion : s.version < versionLimit) (hline : s.state.line < wordLimit)
    (hcolumn : s.state.column < wordLimit) {extras ms : List (String × Value)}
    (hextras : ∀ m ∈ extras, m.1 ∉ memberNames ∧ m.2.IsScalar) (hms : ms.Perm (s.members ++ extras))
    {text : String} (h : Spells (Value.object ms).kinds text.toList) : read text = .ok s := by
  obtain ⟨d, hd, htext⟩ := ofText_of_spells h
  obtain ⟨start, members, stop, rfl, hmembers⟩ := hd.exists_of_object
  exact (read_eq_ok_iff htext).2
    (isWrittenIn_of_shows hversion hline hcolumn hextras hms hmembers)

/-- **No snapshot is read from members** among which one of the six names does not stand once. -/
theorem ofJson_of_count_ne_one {name : String} (hname : name ∈ memberNames)
    {ms : List (String × Value)} (hcount : (ms.map Prod.fst).count name ≠ 1)
    (h : Spells (Value.object ms).kinds text.toList) : ∃ e, ofJson text = .error (.json e) := by
  obtain ⟨d, hd, htext⟩ := ofText_of_spells h
  obtain ⟨start, members, stop, rfl, hmembers⟩ := hd.exists_of_object
  refine ofJson_of_not_read fun s hread => hcount ?_
  exact ((read_eq_ok_iff htext).1 hread).count_eq_one hmembers hname

end Texts

end Snapshot

end Caret
