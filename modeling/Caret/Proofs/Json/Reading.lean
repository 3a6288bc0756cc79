import Caret.Json.Reader
import Caret.Proofs.Json.Tree

/-!
# Reading trees of values

A reader is run on the tree of a text, but what it makes of the tree should
only depend on the value that the tree shows. For each of the readers of
which others are made, this is one statement here: its outcome on *any*
document that shows a given value. The places inside the documents drop out,
since they occur in faults only.

A record is read member by member, so its statement is about one member: the
step that the record takes for it, and the members that are left.
-/

namespace Caret.Json

/-! ## Scalars -/

theorem readText_of_shows {d : Document} {s : String} (h : Shows d (.text s)) :
    readText d = .ok s := by
  cases h
  rfl

theorem readNat_of_shows {d : Document} {n : Nat} (h : Shows d (.number n)) {limit : Nat}
    (hn : n < limit) (expected : String) : readNat limit expected d = .ok n := by
  cases h
  exact if_pos hn

/-- **Only a document that shows a text** is read as that text. -/
theorem readText_eq_ok_iff {d : Document} {s : String} :
    readText d = .ok s ↔ Shows d (.text s) := by
  refine ⟨fun h => ?_, readText_of_shows⟩
  unfold readText at h
  split at h
  · cases h
    exact .text
  · cases h

/-- **Only a document that shows a number** below the limit is read as that number. -/
theorem readNat_eq_ok_iff {limit : Nat} {expected : String} {d : Document} {n : Nat} :
    readNat limit expected d = .ok n ↔ Shows d (.number n) ∧ n < limit := by
  refine ⟨fun h => ?_, fun ⟨hshows, hn⟩ => readNat_of_shows hshows hn expected⟩
  unfold readNat at h
  split at h
  · split at h
    · split at h
      · next hm =>
        cases h
        exact ⟨.number, hm⟩
      · cases h
    · cases h
    · cases h
  · cases h

/-- A text is taken at any depth. -/
theorem take_of_shows_text {d : Document} {s : String} (h : Shows d (.text s)) (depth : Nat) :
    d.take depth = .ok () := by
  cases h
  rfl

/-- A number is taken at any depth. -/
theorem take_of_shows_number {d : Document} {n : Nat} (h : Shows d (.number n)) (depth : Nat) :
    d.take depth = .ok () := by
  cases h
  rfl

/-! ## Records -/

section Fields

variable {α σ : Type}

/-- A field that has not been read before is read. -/
theorem readField_none {read : Reader α} {d : Document} {a : α} (h : read d = .ok a)
    (name : String) (key : Key) : readField name key none read d = .ok (some a) := by
  rw [readField, Option.isSome_none, if_neg Bool.false_ne_true, h]
  rfl

/-- A step that gives a state is followed by the steps from that state. -/
theorem foldlM_cons_of_ok {β : Type} {step : σ → β → Except Fault σ} {s s' : σ} {b : β}
    (h : step s b = .ok s') (bs : List β) :
    List.foldlM step s (b :: bs) = List.foldlM step s' bs := by
  rw [List.foldlM_cons, h]
  rfl

/-- **A member is added before those behind it.** -/
theorem foldMembers_cons {step : σ → Key → String → Document → Except Fault σ} {s s' : σ}
    {key : Key} {k : String} {d : Document} (hkey : key.text = .ok k)
    (hstep : step s key k d = .ok s') (members : List (Key × Document)) :
    foldMembers step s ((key, d) :: members) = foldMembers step s' members := by
  refine foldlM_cons_of_ok ?_ members
  show (key.text >>= fun k => step s key k d) = _
  rw [hkey]
  exact hstep

/-- **An object is read** by folding its members and completing what they give. -/
theorem readRecord_of_closed {r : Record σ α} {s : σ} {members : List (Key × Document)}
    (h : foldMembers r.add r.start members = .ok s) (start stop : Nat) :
    readRecord r (.object start members (.closed stop)) = r.complete s stop := by
  show (foldMembers r.add r.start members >>= fun s => _) = _
  rw [h]
  rfl

end Fields

/-! ## Texts -/

section Texts

variable {α : Type} {text : String}

/-- **A text is read** as its document is, if nothing follows that. -/
theorem readTextAs_of_ofText (read : Reader α) {d : Document}
    (h : Document.ofText text.toList = (d, none)) :
    readTextAs read text = (read d).mapError (·.inText text.toList) := by
  unfold readTextAs
  simp only [h]
  show Except.mapError _ (read d >>= fun v => pure v) = _
  rw [bind_pure]

/-- **A text is read as some document that shows the value it spells.** -/
theorem readTextAs_of_spells (read : Reader α) {v : Value} (h : Spells v.kinds text.toList) :
    ∃ d, Shows d v ∧ readTextAs read text = (read d).mapError (·.inText text.toList) := by
  obtain ⟨d, hd, htext⟩ := ofText_of_spells h
  exact ⟨d, hd, readTextAs_of_ofText read htext⟩

end Texts

end Caret.Json
