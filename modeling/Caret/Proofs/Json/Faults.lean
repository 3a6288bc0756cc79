import Caret.Json.Reader
import Caret.Proofs.Outcomes

/-!
# No reader gets past a fault

The tree of a text is built even if the text is malformed. It then holds the
place where the text goes wrong, as a node or as the end of a container, and
such a tree is *faulty*. A reader is **wary** if it reads nothing out of a
faulty tree. That is not true of just any function on trees: skipping a list,
or looking only at those members of an object that have a name one knows, may
well miss the fault.

All readers of which others are made are wary, and stay so when they are put
together, since whatever is not taken is skipped, and skipping is wary too
(`Document.Faulty.skip_ne_ok`). So what comes of a text can be trusted to be all
that was written there.
-/

namespace Caret.Json

/-- An end of a container that is none. -/
def Close.IsFault : Close → Prop
  | .broken _ | .brokenKey _ => True
  | .closed _ | .unreached => False

/-- **A faulty document**: the text goes wrong at a node of it or at the end of a container. -/
inductive Document.Faulty : Document → Prop
  | broken {start b} : Faulty (.broken start b)
  | item {start items close d} (hmem : d ∈ items) (h : Faulty d) :
    Faulty (.array start items close)
  | member {start members close m} (hmem : m ∈ members) (h : Faulty m.2) :
    Faulty (.object start members close)
  | array {start items close} (h : close.IsFault) : Faulty (.array start items close)
  | object {start members close} (h : close.IsFault) : Faulty (.object start members close)

/-- **A wary reader** reads nothing out of a faulty document. -/
def Wary {α : Type} (read : Reader α) : Prop :=
  ∀ d a, read d = .ok a → ¬ d.Faulty

/-! ## Ends of containers -/

theorem Close.not_isFault_of_endArray {close : Close} {reading : Reading} {stop : Nat}
    (h : close.endArray reading = .ok stop) : ¬ close.IsFault := by
  cases close with
  | closed | unreached => exact id
  | broken | brokenKey => cases h

theorem Close.not_isFault_of_endObject {close : Close} {reading : Reading} {stop : Nat}
    (h : close.endObject reading = .ok stop) : ¬ close.IsFault := by
  cases close with
  | closed | unreached => exact id
  | broken => cases h
  | brokenKey =>
    cases reading
    all_goals cases h

/-- An outcome that is discarded is one. -/
theorem exists_of_discard {ε α : Type} {x : Except ε α} {u : Unit} (h : discard x = .ok u) :
    ∃ a, x = .ok a := by
  cases x with
  | error e => cases h
  | ok a => exact ⟨a, rfl⟩

theorem not_faulty_array {start : Nat} {items : List Document} {close : Close}
    (hitems : ∀ d ∈ items, ¬ d.Faulty) (hclose : ¬ close.IsFault) :
    ¬ (Document.array start items close).Faulty := by
  rintro (_ | ⟨hmem, h⟩ | _ | h)
  · exact hitems _ hmem h
  · exact hclose h

theorem not_faulty_object {start : Nat} {members : List (Key × Document)} {close : Close}
    (hmembers : ∀ m ∈ members, ¬ m.2.Faulty) (hclose : ¬ close.IsFault) :
    ¬ (Document.object start members close).Faulty := by
  rintro (_ | _ | ⟨hmem, h⟩ | _ | h)
  · exact hmembers _ hmem h
  · exact hclose h

/-! ## Skipping -/

theorem skip_of_mem_skipItems {items : List Document} (h : skipItems items = .ok ()) :
    ∀ d ∈ items, d.skip = .ok () := by
  induction items with
  | nil => exact List.forall_mem_nil _
  | cons d ds ih =>
    rw [skipItems] at h
    obtain ⟨_, hd, hds⟩ := bind_eq_ok_iff.1 h
    exact List.forall_mem_cons.2 ⟨hd, ih hds⟩

theorem skip_of_mem_skipMembers {members : List (Key × Document)}
    (h : skipMembers members = .ok ()) : ∀ m ∈ members, m.2.skip = .ok () := by
  induction members with
  | nil => exact List.forall_mem_nil _
  | cons m ms ih =>
    rw [skipMembers] at h
    obtain ⟨_, hm, hms⟩ := bind_eq_ok_iff.1 h
    exact List.forall_mem_cons.2 ⟨hm, ih hms⟩

/-- **A faulty document cannot be skipped.** -/
theorem Document.Faulty.skip_ne_ok {d : Document} (h : d.Faulty) : d.skip ≠ .ok () := by
  induction h with
  | broken =>
    rw [skip]
    exact nofun
  | item hmem _ ih =>
    rw [skip]
    intro hskip
    obtain ⟨_, hitems, -⟩ := bind_eq_ok_iff.1 hskip
    exact ih (skip_of_mem_skipItems hitems _ hmem)
  | member hmem _ ih =>
    rw [skip]
    intro hskip
    obtain ⟨_, hmembers, -⟩ := bind_eq_ok_iff.1 hskip
    exact ih (skip_of_mem_skipMembers hmembers _ hmem)
  | array hclose =>
    rw [skip]
    intro hskip
    obtain ⟨_, -, hend⟩ := bind_eq_ok_iff.1 hskip
    obtain ⟨_, hstop⟩ := exists_of_discard hend
    exact Close.not_isFault_of_endArray hstop hclose
  | object hclose =>
    rw [skip]
    intro hskip
    obtain ⟨_, -, hend⟩ := bind_eq_ok_iff.1 hskip
    obtain ⟨_, hstop⟩ := exists_of_discard hend
    exact Close.not_isFault_of_endObject hstop hclose

/-! ## Scalars, lists and dictionaries -/

theorem wary_text : Wary readText := by
  rintro (⟨_, _, _⟩ | _ | _ | _) a h hfaulty
  · cases hfaulty
  all_goals cases h

/-- What is not null is read as present. -/
theorem readOption_of_ne_null {α : Type} (read : Reader α) {d : Document}
    (h : ∀ start stop, d ≠ .scalar start stop .null) : readOption read d = some <$> read d := by
  unfold readOption
  split
  · exact absurd rfl (h _ _)
  · rfl

namespace Wary

variable {α : Type} {read : Reader α}

theorem option (h : Wary read) : Wary (readOption read) := by
  intro d a hread
  by_cases hnull : ∃ start stop, d = .scalar start stop .null
  · obtain ⟨start, stop, rfl⟩ := hnull
    exact fun hfaulty => (nomatch hfaulty)
  · rw [readOption_of_ne_null read fun start stop heq => hnull ⟨start, stop, heq⟩] at hread
    obtain ⟨a, ha, -⟩ := map_eq_ok_iff.1 hread
    exact h d a ha

theorem list (h : Wary read) : Wary (readList read) := by
  rintro (_ | ⟨start, items, close⟩ | _ | _) as hread
  · cases hread
  · obtain ⟨values, hvalues, hrest⟩ := bind_eq_ok_iff.1 hread
    obtain ⟨_, hend, -⟩ := bind_eq_ok_iff.1 hrest
    obtain ⟨_, hstop⟩ := exists_of_discard hend
    refine not_faulty_array (fun d hd => ?_) (Close.not_isFault_of_endArray hstop)
    obtain ⟨a, ha⟩ := exists_of_mapM_eq_ok hvalues d hd
    exact h d a ha
  · cases hread
  · cases hread

end Wary

/-- **Every member that is folded has been a step.** -/
theorem exists_of_foldMembers {σ : Type} {step : σ → Key → String → Document → Except Fault σ}
    {s s' : σ} {members : List (Key × Document)} (h : foldMembers step s members = .ok s') :
    ∀ m ∈ members, ∃ s₁ k s₂, m.1.text = .ok k ∧ step s₁ m.1 k m.2 = .ok s₂ := by
  induction members generalizing s with
  | nil => exact List.forall_mem_nil _
  | cons m ms ih =>
    rw [foldMembers, List.foldlM_cons] at h
    obtain ⟨s₂, hstep, hrest⟩ := bind_eq_ok_iff.1 h
    obtain ⟨k, hk, hstep⟩ := bind_eq_ok_iff.1 hstep
    exact List.forall_mem_cons.2 ⟨⟨s, k, s₂, hk, hstep⟩, ih hrest⟩

/-- A step of a fold that reads or skips what it is given. -/
def WaryStep {σ : Type} (step : σ → Key → String → Document → Except Fault σ) : Prop :=
  ∀ s key name d s', step s key name d = .ok s' → ¬ d.Faulty

/-- Members of which none is faulty are what a fold of such steps leaves. -/
theorem WaryStep.not_faulty_of_mem {σ : Type}
    {step : σ → Key → String → Document → Except Fault σ} (hstep : WaryStep step) {s s' : σ}
    {members : List (Key × Document)} (h : foldMembers step s members = .ok s') :
    ∀ m ∈ members, ¬ m.2.Faulty := by
  intro m hm
  obtain ⟨_, _, _, -, hread⟩ := exists_of_foldMembers h m hm
  exact hstep _ _ _ _ _ hread

theorem Wary.dict {α : Type} {read : Reader α} (h : Wary read) : Wary (readDict read) := by
  have hstep : WaryStep fun (d : Dict α) (_ : Key) name v => return d.insert name (← read v) := by
    intro s _ name v s' hread
    obtain ⟨a, ha, -⟩ := bind_eq_ok_iff.1 hread
    exact h v a ha
  rintro (_ | _ | ⟨start, members, close⟩ | _) d hread
  · cases hread
  · cases hread
  · obtain ⟨entries, hentries, hrest⟩ := bind_eq_ok_iff.1 hread
    obtain ⟨_, hend, -⟩ := bind_eq_ok_iff.1 hrest
    obtain ⟨_, hstop⟩ := exists_of_discard hend
    exact not_faulty_object (hstep.not_faulty_of_mem hentries)
      (Close.not_isFault_of_endObject hstop)
  · cases hread

/-! ## Records -/

/-- **A record is read warily** if its members are and, where arrays are accepted, their
elements. -/
theorem Wary.record {α σ : Type} {r : Record σ α} (hadd : WaryStep r.add)
    (hitems : ∀ read ∈ r.ofItems?, ∀ items close a, read items close = .ok a →
      (∀ d ∈ items, ¬ d.Faulty) ∧ ¬ close.IsFault) : Wary (readRecord r) := by
  rintro (_ | ⟨start, items, close⟩ | ⟨start, members, close⟩ | _) a hread
  · cases hread
  · rw [readRecord] at hread
    split at hread
    · rename_i read hofItems
      obtain ⟨hall, hclose⟩ := hitems read hofItems items close a hread
      exact not_faulty_array hall hclose
    · cases hread
  · obtain ⟨fields, hfields, hrest⟩ := bind_eq_ok_iff.1 hread
    obtain ⟨_, hstop, -⟩ := bind_eq_ok_iff.1 hrest
    exact not_faulty_object (hadd.not_faulty_of_mem hfields) (Close.not_isFault_of_endObject hstop)
  · cases hread

section Parts

variable {α : Type} {read : Reader α}

theorem Wary.field (h : Wary read) (name : String) (key : Key) (slot : Option α) :
    Wary (readField name key slot read) := by
  intro d a hread
  unfold readField at hread
  split at hread
  · cases hread
  · obtain ⟨a, ha, -⟩ := map_eq_ok_iff.1 hread
    exact h d a ha

/-- What is behind the next element of an array may be faulty, but the element is not. -/
theorem Wary.nextItem (h : Wary read) {close : Close} {items : List Document}
    {r : Option α × List Document} (hread : nextItem read close items = .ok r) :
    (∀ d ∈ r.2, ¬ d.Faulty) → ∀ d ∈ items, ¬ d.Faulty := by
  intro hall
  cases items with
  | nil => exact List.forall_mem_nil _
  | cons d ds =>
    obtain ⟨a, ha, hr⟩ := bind_eq_ok_iff.1 hread
    cases hr
    exact List.forall_mem_cons.2 ⟨h d a ha, hall⟩

theorem Wary.requireItem (h : Wary read) {close : Close} {expected : String} {index : Nat}
    {items : List Document} {r : α × List Document}
    (hread : requireItem read close expected index items = .ok r) :
    (∀ d ∈ r.2, ¬ d.Faulty) → ∀ d ∈ items, ¬ d.Faulty := by
  intro hall
  cases items with
  | nil =>
    obtain ⟨_, -, hr⟩ := bind_eq_ok_iff.1 hread
    cases hr
  | cons d ds =>
    obtain ⟨a, ha, hr⟩ := bind_eq_ok_iff.1 hread
    cases hr
    exact List.forall_mem_cons.2 ⟨h d a ha, hall⟩

/-- An array that has ended has no more elements and ends with its bracket. -/
theorem endItems_eq_ok {close : Close} {items : List Document} {u : Unit}
    (h : endItems close items = .ok u) : items = [] ∧ ¬ close.IsFault := by
  cases items with
  | nil =>
    obtain ⟨_, hstop⟩ := exists_of_discard h
    exact ⟨rfl, Close.not_isFault_of_endArray hstop⟩
  | cons d ds => cases h

end Parts

end Caret.Json
