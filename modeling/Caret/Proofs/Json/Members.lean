import Caret.Proofs.Json.Forms
import Caret.Proofs.Outcomes

/-!
# Members by name

A record is read member by member, in the order of the text. What comes of it should
depend on less: for each name, on the values that stand under it (`valuesOf`). This
module has what is needed to say so.

A slot of a record takes one value and refuses a second one. `Filled` says what a
slot holds after some values, as one equation between lists of outcomes: what it held
before and what was read since is what it holds now. As a slot holds at most one
value, so do both sides, and a second value or one that cannot be read leaves the
equation without a solution. In particular an empty slot is filled with `a` exactly
if there is one value and it is read as `a`.

`foldlM_eq_ok_iff` takes such a description of one step to a whole run. It asks of the
description only that it can be cut behind the first member.
-/

namespace Caret.Json

/-! ## Names -/

/-- A member with the name that its key was taken as. -/
abbrev NamedMember := Key × String × Document

/-- **The members with their names.** Members whose key cannot be taken have none. -/
def named (members : List (Key × Document)) : List NamedMember :=
  members.filterMap fun m => m.1.text.toOption.map fun name => (m.1, name, m.2)

/-- **The values that stand under a name**, in their order. -/
def valuesOf (name : String) (ms : List NamedMember) : List Document :=
  (ms.filter fun m => m.2.1 = name).map (·.2.2)

theorem named_cons {key : Key} {name : String} (h : key.text = .ok name) (d : Document)
    (members : List (Key × Document)) :
    named ((key, d) :: members) = (key, name, d) :: named members := by
  unfold named
  rw [List.filterMap_cons, h]
  rfl

section ValuesOf

variable {name : String} {m : NamedMember}

theorem valuesOf_cons_of_eq (h : m.2.1 = name) (ms : List NamedMember) :
    valuesOf name (m :: ms) = m.2.2 :: valuesOf name ms := by
  unfold valuesOf
  rw [List.filter_cons_of_pos (by simpa using h), List.map_cons]

theorem valuesOf_cons_of_ne (h : m.2.1 ≠ name) (ms : List NamedMember) :
    valuesOf name (m :: ms) = valuesOf name ms := by
  unfold valuesOf
  rw [List.filter_cons_of_neg (by simpa using h)]

theorem valuesOf_cons (name : String) (m : NamedMember) (ms : List NamedMember) :
    valuesOf name (m :: ms) = valuesOf name [m] ++ valuesOf name ms := by
  by_cases h : m.2.1 = name
  · rw [valuesOf_cons_of_eq h, valuesOf_cons_of_eq h]
    rfl
  · rw [valuesOf_cons_of_ne h, valuesOf_cons_of_ne h]
    rfl

theorem valuesOf_singleton (name : String) (m : NamedMember) :
    valuesOf name [m] = if m.2.1 = name then [m.2.2] else [] := by
  split
  · next h => exact valuesOf_cons_of_eq h []
  · next h => exact valuesOf_cons_of_ne h []

theorem mem_valuesOf {m : NamedMember} {ms : List NamedMember} (h : m ∈ ms) :
    m.2.2 ∈ valuesOf m.2.1 ms :=
  List.mem_map_of_mem (List.mem_filter.2 ⟨h, decide_eq_true rfl⟩)

/-- Members that are kept for their names keep their values. -/
theorem valuesOf_filter {p : String → Bool} (h : p name = true) (ms : List NamedMember) :
    valuesOf name (ms.filter fun m => p m.2.1) = valuesOf name ms := by
  unfold valuesOf
  rw [List.filter_filter]
  congr 2
  funext m
  by_cases hm : m.2.1 = name
  · simp [hm, h]
  · simp [hm]

end ValuesOf

/-! ## Runs over members -/

section Runs

variable {σ : Type}

/-- **Members are folded** by taking their names and going through them. -/
theorem foldMembers_eq_ok_iff {step : σ → Key → String → Document → Except Fault σ} {s s' : σ}
    {members : List (Key × Document)} :
    foldMembers step s members = .ok s'
      ↔ (∀ m ∈ members, ∃ name, m.1.text = .ok name)
        ∧ (named members).foldlM (fun s m => step s m.1 m.2.1 m.2.2) s = .ok s' := by
  induction members generalizing s with
  | nil => exact (and_iff_right (List.forall_mem_nil _)).symm
  | cons m members ih =>
    obtain ⟨key, d⟩ := m
    rw [List.forall_mem_cons]
    cases hkey : key.text with
    | error f =>
      have hfold : foldMembers step s ((key, d) :: members) = .error f := by
        show ((key.text >>= fun name => step s key name d) >>= fun s => _) = _
        rw [hkey]
        rfl
      rw [hfold]
      exact iff_of_false (fun h => nomatch h) (fun ⟨⟨⟨_, h⟩, _⟩, _⟩ => nomatch h)
    | ok name =>
      have hfold : foldMembers step s ((key, d) :: members)
          = (step s key name d >>= fun s => foldMembers step s members) := by
        show ((key.text >>= fun name => step s key name d) >>= fun s => _) = _
        rw [hkey]
        rfl
      rw [hfold, named_cons hkey, List.foldlM_cons, bind_eq_ok_iff, bind_eq_ok_iff,
        and_iff_right (show ∃ k, Except.ok (ε := Fault) name = .ok k from ⟨name, rfl⟩)]
      constructor
      · rintro ⟨s₁, hstep, hrest⟩
        obtain ⟨hkeys, hrest⟩ := ih.1 hrest
        exact ⟨hkeys, s₁, hstep, hrest⟩
      · rintro ⟨hkeys, s₁, hstep, hrest⟩
        exact ⟨s₁, hstep, ih.2 ⟨hkeys, hrest⟩⟩

/-- **A run of steps ends as described** if each step does, and the description can be cut behind
its first member. -/
theorem foldlM_eq_ok_iff {α : Type} {step : σ → α → Except Fault σ} {Ends : σ → List α → σ → Prop}
    (hnil : ∀ s s', Ends s [] s' ↔ s = s')
    (hcons : ∀ s a as s', Ends s (a :: as) s' ↔ ∃ s₁, Ends s [a] s₁ ∧ Ends s₁ as s')
    (hstep : ∀ s a s', step s a = .ok s' ↔ Ends s [a] s') {as : List α} {s s' : σ} :
    as.foldlM step s = .ok s' ↔ Ends s as s' := by
  induction as generalizing s with
  | nil =>
    rw [hnil]
    show Except.ok s = Except.ok s' ↔ _
    rw [Except.ok.injEq]
  | cons a as ih =>
    rw [List.foldlM_cons, bind_eq_ok_iff, hcons]
    exact exists_congr fun s₁ => and_congr (hstep s a s₁) ih

end Runs

/-! ## Slots -/

section Slots

variable {α : Type} {read : Reader α} {slot slot' : Option α}

/-- **What a slot holds after some values**: what it held before and what has been read of them,
one value in all. -/
def Filled (read : Reader α) (slot : Option α) (ds : List Document) (slot' : Option α) : Prop :=
  slot.toList.map Except.ok ++ ds.map read = slot'.toList.map Except.ok

theorem map_ok_toList_inj {a? b? : Option α}
    (h : a?.toList.map (Except.ok (ε := Fault)) = b?.toList.map Except.ok) : a? = b? := by
  cases a? with
  | none => cases b? with
    | none => rfl
    | some b => cases h
  | some a => cases b? with
    | none => cases h
    | some b =>
      cases h
      rfl

/-- Without a value a slot stays as it is. -/
theorem filled_nil : Filled read slot [] slot' ↔ slot = slot' := by
  unfold Filled
  rw [List.map_nil, List.append_nil]
  refine ⟨map_ok_toList_inj, fun h => ?_⟩
  rw [h]

/-- A slot that is filled with something was empty before or has stayed as it was. -/
theorem Filled.eq_none {d : Document} {ds : List Document} (h : Filled read slot (d :: ds) slot') :
    slot = none := by
  cases slot with
  | none => rfl
  | some a =>
    have hlength := congrArg List.length h
    have hle : (slot'.toList.map (Except.ok (ε := Fault))).length ≤ 1 := by
      cases slot' with
      | none => exact Nat.zero_le 1
      | some b => exact Nat.le_refl 1
    rw [← hlength] at hle
    simp at hle

/-- **Reading a field fills its slot** with one value. -/
theorem readField_eq_ok_iff {name : String} {key : Key} {d : Document} :
    readField name key slot read d = .ok slot' ↔ Filled read slot [d] slot' := by
  constructor
  · intro h
    unfold readField at h
    cases slot with
    | some a => cases h
    | none =>
      obtain ⟨a, ha, rfl⟩ := map_eq_ok_iff.1 h
      show [read d] = [Except.ok a]
      rw [ha]
  · intro h
    obtain rfl := h.eq_none
    cases slot' with
    | none => cases h
    | some a => exact readField_none (List.singleton_inj.1 h) name key

/-- **Values fill a slot one after the other.** -/
theorem filled_append {ds es : List Document} (hds : ds.length ≤ 1) :
    Filled read slot (ds ++ es) slot'
      ↔ ∃ slot₁, Filled read slot ds slot₁ ∧ Filled read slot₁ es slot' := by
  constructor
  · intro h
    match ds with
    | [] => exact ⟨slot, filled_nil.2 rfl, h⟩
    | [d] =>
      obtain rfl := Filled.eq_none h
      -- the slot holds at most one value, so it is that of `d`, and nothing follows
      cases slot' with
      | none => cases h
      | some a =>
        obtain ⟨hd, hes⟩ := List.cons_eq_cons.1 h
        refine ⟨some a, ?_, ?_⟩
        · show [read d] = [Except.ok a]
          rw [hd]
        · show Except.ok a :: es.map read = [Except.ok a]
          rw [show es.map read = [] from hes]
    | _ :: _ :: _ => simp at hds
  · rintro ⟨slot₁, hfirst, hrest⟩
    unfold Filled at *
    rw [List.map_append, ← List.append_assoc, hfirst, hrest]

theorem length_valuesOf_singleton (name : String) (m : NamedMember) :
    (valuesOf name [m]).length ≤ 1 := by
  unfold valuesOf
  rw [List.length_map]
  exact List.length_filter_le _ [m]

/-- The values under a name fill a slot member by member. -/
theorem filled_valuesOf_cons {name : String} {m : NamedMember} {ms : List NamedMember} :
    Filled read slot (valuesOf name (m :: ms)) slot'
      ↔ ∃ slot₁, Filled read slot (valuesOf name [m]) slot₁
        ∧ Filled read slot₁ (valuesOf name ms) slot' := by
  rw [valuesOf_cons]
  exact filled_append (length_valuesOf_singleton name m)

/-- **One value stands under a name**, and it is read as `a`: an empty slot is filled with it. -/
def Holds (ms : List NamedMember) (name : String) (read : Reader α) (a : α) : Prop :=
  (valuesOf name ms).map read = [.ok a]

theorem Holds.exists_eq {ms : List NamedMember} {name : String} {a : α}
    (h : Holds ms name read a) : ∃ d, valuesOf name ms = [d] ∧ read d = .ok a :=
  List.map_eq_singleton_iff.1 h

/-- Whatever stands under a name that holds something is read as that. -/
theorem Holds.read_eq {ms : List NamedMember} {m : NamedMember} {a : α}
    (h : Holds ms m.2.1 read a) (hm : m ∈ ms) : read m.2.2 = .ok a := by
  obtain ⟨d, hd, hread⟩ := h.exists_eq
  have hmem := mem_valuesOf hm
  rw [hd, List.mem_singleton] at hmem
  rw [hmem, hread]

/-- Members that are kept for their names hold what they did. -/
theorem holds_filter {p : String → Bool} {ms : List NamedMember} {name : String} {a : α}
    (h : p name = true) : Holds (ms.filter fun m => p m.2.1) name read a ↔ Holds ms name read a := by
  rw [Holds, Holds, valuesOf_filter h]

theorem requireField_eq_ok_iff {name : String} {stop : Nat} {a : α} :
    requireField name slot stop = .ok a ↔ slot = some a := by
  cases slot with
  | none => exact iff_of_false (fun h => nomatch h) (fun h => nomatch h)
  | some b =>
    show Except.ok b = Except.ok a ↔ _
    rw [Except.ok.injEq, Option.some.injEq]

end Slots

/-! ## Values that are shown -/

/-- **A member shows a member that is written**: it has its name and shows its value. -/
def NamedShows (n : NamedMember) (m : String × Value) : Prop :=
  n.2.1 = m.1 ∧ Shows n.2.2 m.2

/-- A value that is no container. -/
def Value.IsScalar : Value → Prop
  | .null | .boolean _ | .number _ | .text _ => True
  | .array _ | .object _ => False

/-- **A scalar is taken** at any depth. -/
theorem take_of_shows_scalar {d : Document} {v : Value} (h : Shows d v) (hv : v.IsScalar)
    (depth : Nat) : d.take depth = .ok () := by
  cases h with
  | null | boolean | number | text => rfl
  | array | object => exact hv.elim

/-- **Members that show others** have names, and show them one by one. -/
theorem named_of_shows {members : List (Key × Document)} {ms : List (String × Value)}
    (h : ShowsMembers members ms) :
    (∀ m ∈ members, ∃ name, m.1.text = .ok name)
      ∧ List.Forall₂ NamedShows (named members) ms := by
  induction ms generalizing members with
  | nil =>
    cases h
    exact ⟨List.forall_mem_nil _, .nil⟩
  | cons m ms ih =>
    obtain ⟨k, v⟩ := m
    obtain ⟨key, d, rest, rfl, hkey, hd, hrest⟩ := h.exists_of_cons
    obtain ⟨hkeys, hnamed⟩ := ih hrest
    rw [named_cons hkey]
    exact ⟨List.forall_mem_cons.2 ⟨⟨k, hkey⟩, hkeys⟩, .cons ⟨rfl, hd⟩ hnamed⟩

/-- The values that stand under a name among members that are written. -/
def valuesUnder (name : String) (ms : List (String × Value)) : List Value :=
  (ms.filter fun m => m.1 = name).map (·.2)

theorem length_valuesUnder (name : String) (ms : List (String × Value)) :
    (valuesUnder name ms).length = (ms.map Prod.fst).count name := by
  unfold valuesUnder
  rw [List.length_map, ← List.countP_eq_length_filter, List.count, List.countP_map]
  rfl

theorem valuesUnder_append (name : String) (ms ns : List (String × Value)) :
    valuesUnder name (ms ++ ns) = valuesUnder name ms ++ valuesUnder name ns := by
  unfold valuesUnder
  rw [List.filter_append, List.map_append]

/-- No value stands under a name that no member has. -/
theorem valuesUnder_eq_nil {name : String} {ms : List (String × Value)}
    (h : ∀ m ∈ ms, m.1 ≠ name) : valuesUnder name ms = [] := by
  unfold valuesUnder
  rw [List.filter_eq_nil_iff.2 fun m hm => by simpa using h m hm, List.map_nil]

theorem perm_valuesUnder {ms ns : List (String × Value)} (h : ms.Perm ns) (name : String) :
    (valuesUnder name ms).Perm (valuesUnder name ns) :=
  (h.filter _).map _

section Shown

variable {ns : List NamedMember} {ms : List (String × Value)}

/-- **The values under a name show** what was written under that name. -/
theorem forall₂_valuesOf (h : List.Forall₂ NamedShows ns ms)
    (name : String) : List.Forall₂ Shows (valuesOf name ns) (valuesUnder name ms) := by
  unfold valuesUnder
  induction h with
  | nil => exact .nil
  | @cons n m ns ms hfirst _ ih =>
    obtain ⟨hname, hshows⟩ := hfirst
    by_cases hm : n.2.1 = name
    · rw [valuesOf_cons_of_eq hm, List.filter_cons_of_pos (by simpa using hname ▸ hm)]
      exact .cons hshows ih
    · rw [valuesOf_cons_of_ne hm, List.filter_cons_of_neg (by simpa using hname ▸ hm)]
      exact ih

/-- A value that is written under a name is shown by one that stands under it. -/
theorem exists_mem_valuesOf (h : List.Forall₂ NamedShows ns ms) {name : String} {v : Value}
    (hv : (name, v) ∈ ms) : ∃ d ∈ valuesOf name ns, Shows d v :=
  exists_mem_of_forall₂ (forall₂_valuesOf h name)
    (List.mem_map.2 ⟨(name, v), List.mem_filter.2 ⟨hv, decide_eq_true rfl⟩, rfl⟩)

variable {α : Type} {name : String} {read : Reader α} {a : α}

/-- A name holds what is read of the one value that was written under it. -/
theorem holds_of_valuesUnder
    (h : List.Forall₂ NamedShows ns ms) {v : Value}
    (hvalue : valuesUnder name ms = [v]) (hread : ∀ d, Shows d v → read d = .ok a) :
    Holds ns name read a := by
  have hvalues := forall₂_valuesOf h name
  rw [hvalue] at hvalues
  obtain ⟨d, ds, hshows, hds, hd⟩ := List.forall₂_cons_right_iff.1 hvalues
  obtain rfl := List.forall₂_nil_right_iff.1 hds
  rw [Holds, hd, List.map_singleton, hread d hshows]

/-- **A name that holds something** was written once. -/
theorem count_of_holds (h : List.Forall₂ NamedShows ns ms)
    (hholds : Holds ns name read a) : (ms.map Prod.fst).count name = 1 := by
  obtain ⟨d, hd, -⟩ := hholds.exists_eq
  rw [← length_valuesUnder, ← (forall₂_valuesOf h name).length_eq, hd, List.length_singleton]

end Shown

end Caret.Json
