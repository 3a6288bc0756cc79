import Caret.Proofs.Dict
import Caret.Proofs.Json.Reading
import Mathlib.Data.List.Forall2

/-!
# Forms of values

Of one value there may be more than one thing to write, since the entries of a
dictionary stand in any order. A **form** of a type says what may be written of
each of its values.

A reader **undoes** a form when it reads every value back from whatever is
written of it in that form. Lists and dictionaries have forms made of the form
of their elements, and their readers undo these as soon as the reader of the
elements undoes its own (`Undoes.list`, `Undoes.dict`). The statement is about
documents, so it says nothing of layouts; `Undoes.readTextAs` takes it to texts
in any layout.
-/

namespace Caret.Json

/-- **A form** of the values of a type: what may be written of each. -/
abbrev Form (α : Type) := α → Value → Prop

namespace Form

/-- A text is written as it is. -/
def text : Form String := fun s v => v = .text s

theorem text_self (s : String) : text s (.text s) := rfl

variable {α : Type} (form : Form α)

/-- What is there is written by itself. Absence is not written. -/
def present : Form (Option α) := fun a? v => ∃ a, a? = some a ∧ form a v

/-- A list is written element by element. -/
def list : Form (List α) := fun as v => ∃ vs, List.Forall₂ form as vs ∧ v = .array vs

/-- An entry of a dictionary is written as a member. -/
def entry (e : String × α) (m : String × Value) : Prop := m.1 = e.1 ∧ form e.2 m.2

/-- **A dictionary is written entry by entry**, and the entries in any order. -/
def dict : Form (Dict α) := fun d v =>
  ∃ es ms, es.Perm d.entries ∧ List.Forall₂ form.entry es ms ∧ v = .object ms

end Form

/-! ## Values in range -/

theorem Value.inRangeItems_of_forall {vs : List Value} (h : ∀ v ∈ vs, v.InRange) :
    Value.InRangeItems vs := by
  induction vs with
  | nil => trivial
  | cons v vs ih =>
    rw [List.forall_mem_cons] at h
    exact ⟨h.1, ih h.2⟩

theorem Value.inRangeMembers_of_forall {ms : List (String × Value)}
    (h : ∀ m ∈ ms, m.2.InRange) : Value.InRangeMembers ms := by
  induction ms with
  | nil => trivial
  | cons m ms ih =>
    rw [List.forall_mem_cons] at h
    exact ⟨h.1, ih h.2⟩

/-- Where elements are related one by one, each on the right is related to one on the left. -/
theorem exists_mem_of_forall₂ {α β : Type} {R : α → β → Prop} {as : List α} {bs : List β}
    (h : List.Forall₂ R as bs) {b : β} (hb : b ∈ bs) : ∃ a ∈ as, R a b := by
  induction h with
  | nil => cases hb
  | @cons a _ _ _ hfirst _ ih =>
    obtain rfl | hb := List.mem_cons.1 hb
    · exact ⟨a, List.mem_cons_self .., hfirst⟩
    · obtain ⟨a', ha', hR⟩ := ih hb
      exact ⟨a', List.mem_cons_of_mem _ ha', hR⟩

/-! ## Readers that undo forms -/

/-- **A reader undoes a form**: what is written in the form can be written in full, and is
read back from every document that shows it. -/
structure Undoes {α : Type} (read : Reader α) (form : Form α) : Prop where
  inRange : ∀ {a v}, form a v → v.InRange
  read_of_shows : ∀ {a v d}, form a v → Shows d v → read d = .ok a

theorem undoes_text : Undoes readText Form.text where
  inRange := by
    rintro s _ rfl
    exact trivial
  read_of_shows := by
    rintro s _ d rfl hd
    exact readText_of_shows hd

namespace Undoes

variable {α : Type} {read : Reader α} {form : Form α}

/-- Null stands for absence, so what is there must not be written as null. -/
theorem present (h : Undoes read form) (hnull : ∀ a, ¬ form a .null) :
    Undoes (readOption read) form.present where
  inRange := by
    rintro _ v ⟨a, -, ha⟩
    exact h.inRange ha
  read_of_shows := by
    rintro _ v d ⟨a, rfl, ha⟩ hd
    have hread : read d = .ok a := h.read_of_shows ha hd
    have hsome : readOption read d = some <$> read d := by
      cases hd with
      | null => exact absurd ha (hnull a)
      | _ => rfl
    rw [hsome, hread]
    rfl

/-- The elements of a list are read back one by one. -/
theorem mapM_items (h : Undoes read form) {as : List α} {vs : List Value}
    (has : List.Forall₂ form as vs) {items : List Document} (hitems : ShowsItems items vs) :
    items.mapM read = .ok as := by
  induction has generalizing items with
  | nil =>
    cases hitems
    rfl
  | cons hfirst _ ih =>
    cases hitems with
    | cons hd hds =>
      rw [List.mapM_cons, h.read_of_shows hfirst hd, ih hds]
      rfl

theorem list (h : Undoes read form) : Undoes (readList read) form.list where
  inRange := by
    rintro as _ ⟨vs, hvs, rfl⟩
    refine Value.inRangeItems_of_forall fun v hv => ?_
    obtain ⟨a, -, ha⟩ := exists_mem_of_forall₂ hvs hv
    exact h.inRange ha
  read_of_shows := by
    rintro as _ d ⟨vs, hvs, rfl⟩ hd
    cases hd with
    | @array _ items _ _ hitems =>
      show (items.mapM read >>= fun values => pure values) = _
      rw [h.mapM_items hvs hitems]
      rfl

/-- The entries of a dictionary are put in one by one. -/
theorem foldMembers_entries (h : Undoes read form) {es : List (String × α)}
    {ms : List (String × Value)} (hes : List.Forall₂ form.entry es ms)
    {members : List (Key × Document)} (hmembers : ShowsMembers members ms) (d : Dict α) :
    foldMembers (fun d _ name v => return d.insert name (← read v)) d members
      = .ok (d.insertAll es) := by
  induction hes generalizing members d with
  | nil =>
    cases hmembers
    rfl
  | @cons e m es ms hentry _ ih =>
    obtain ⟨k, v⟩ := m
    obtain ⟨rfl, hv⟩ := hentry
    obtain ⟨key, doc, rest, rfl, hkey, hdoc, hrest⟩ := hmembers.exists_of_cons
    have hstep : (do return d.insert e.1 (← read doc) : Except Fault (Dict α))
        = .ok (d.insert e.1 e.2) := by
      rw [h.read_of_shows hv hdoc]
      rfl
    rw [foldMembers_cons hkey hstep]
    exact ih hrest (d.insert e.1 e.2)

/-- **A dictionary is read back**, whatever the order of its entries. -/
theorem dict (h : Undoes read form) : Undoes (readDict read) form.dict where
  inRange := by
    rintro d _ ⟨es, ms, -, hms, rfl⟩
    refine Value.inRangeMembers_of_forall fun m hm => ?_
    obtain ⟨e, -, hentry⟩ := exists_mem_of_forall₂ hms hm
    exact h.inRange hentry.2
  read_of_shows := by
    rintro d _ doc ⟨es, ms, hperm, hms, rfl⟩ hdoc
    obtain ⟨start, members, stop, rfl, hmembers⟩ := hdoc.exists_of_object
    have hfold := h.foldMembers_entries hms hmembers .empty
    rw [Dict.insertAll_of_perm hperm] at hfold
    show (foldMembers _ Dict.empty members >>= fun entries => pure entries) = _
    rw [hfold]
    rfl

/-- **What a reader undoes is read back from its text**, in any layout. -/
theorem readTextAs (h : Undoes read form) {a : α} {v : Value} (ha : form a v) (l : Layout) :
    readTextAs read (String.ofList (v.write l 0)) = .ok a := by
  have hspells : Spells v.kinds (String.ofList (v.write l 0)).toList := by
    rw [String.toList_ofList]
    exact Value.spells_kinds_write l (h.inRange ha)
  obtain ⟨d, hd, htext⟩ := readTextAs_of_spells read hspells
  rw [htext, h.read_of_shows ha hd]
  rfl

end Undoes

end Caret.Json
