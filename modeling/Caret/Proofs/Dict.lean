import Caret.Dict
import Mathlib.Data.List.Perm.Basic

/-!
# Dictionaries and their entries

A dictionary keeps its entries in the order of their keys, so it forgets the
order in which they were put in. That is what lets a dictionary be written
with its entries in any order: `insertAll_of_perm` says that putting the
entries into an empty dictionary one by one gives the dictionary back, however
they are shuffled.

The key to it is that both lists are ascending. Inserting a new key is a
permutation of putting it in front (`perm_insertEntry`), and two ascending
lists that are permutations of each other are the same list.

What is looked up does not depend on the order either. A key that has just been
set has the value it was set to, and the others keep theirs (`find?_insert`). So of
two dictionaries, one laid over the other, the upper one answers wherever it has an
entry, whatever the entry holds (`find?_overlay`).
-/

namespace Caret.Dict

variable {α : Type}

/-- No key has two entries. -/
theorem nodup_keys (d : Dict α) : d.keys.Nodup := by
  unfold keys List.Nodup
  rw [List.pairwise_map]
  refine d.ascending.imp (fun {a b} h => ?_)
  intro heq
  rw [heq] at h
  exact String.lt_irrefl _ h

/-- **What is looked up is an entry**, and every entry is found. -/
theorem find?_eq_some_iff {d : Dict α} {k : String} {v : α} :
    d.find? k = some v ↔ (k, v) ∈ d.entries := by
  unfold find?
  rw [List.lookup_eq_some_iff]
  constructor
  · rintro ⟨front, back, heq, -⟩
    rw [heq]
    simp
  · intro h
    obtain ⟨front, back, heq⟩ := List.append_of_mem h
    refine ⟨front, back, heq, fun e he => ?_⟩
    -- an entry in front of the one for `k` has a smaller key
    have hlt : e.1 < k := by
      have hasc := d.ascending
      rw [heq, List.pairwise_append] at hasc
      exact hasc.2.2 e he (k, v) (List.mem_cons_self ..)
    simp only [bne_iff_ne, ne_eq]
    rintro rfl
    exact String.lt_irrefl _ hlt

/-- Dictionaries with the same entries are equal. -/
theorem eq_of_perm {d d' : Dict α} (h : d.entries.Perm d'.entries) : d = d' := by
  have hentries : d.entries = d'.entries :=
    h.eq_of_pairwise (fun a b _ _ hab hba => absurd hba (String.lt_asymm hab))
      d.ascending d'.ascending
  cases d
  cases d'
  simpa only [mk.injEq] using hentries

/-- A new key is put somewhere among the others, which stay. -/
theorem perm_insertEntry {k : String} {v : α} {es : List (String × α)}
    (h : k ∉ es.map Prod.fst) : (insertEntry k v es).Perm ((k, v) :: es) := by
  induction es with
  | nil => exact List.Perm.refl _
  | cons e es ih =>
    rw [List.map_cons, List.mem_cons, not_or] at h
    simp only [insertEntry]
    split
    · exact List.Perm.refl _
    · rw [if_neg h.1]
      exact ((ih h.2).cons e).trans (List.Perm.swap (k, v) e es)

/-- New keys are put among the others, which stay. -/
theorem perm_entries_insertAll {d : Dict α} {es : List (String × α)}
    (h : (es.map Prod.fst ++ d.keys).Nodup) :
    (d.insertAll es).entries.Perm (es ++ d.entries) := by
  induction es generalizing d with
  | nil => exact List.Perm.refl _
  | cons e es ih =>
    rw [List.map_cons, List.cons_append, List.nodup_cons, List.mem_append, not_or] at h
    obtain ⟨⟨hother, hnew⟩, hnodup⟩ := h
    have hinsert : (d.insert e.1 e.2).entries.Perm (e :: d.entries) := perm_insertEntry hnew
    have hkeys : (es.map Prod.fst ++ (d.insert e.1 e.2).keys).Perm
        (e.1 :: (es.map Prod.fst ++ d.keys)) :=
      ((hinsert.map Prod.fst).append_left _).trans List.perm_middle
    have hnodup' : (es.map Prod.fst ++ (d.insert e.1 e.2).keys).Nodup := by
      refine hkeys.nodup_iff.2 (List.nodup_cons.2 ⟨?_, hnodup⟩)
      rw [List.mem_append, not_or]
      exact ⟨hother, hnew⟩
    exact (ih hnodup').trans ((hinsert.append_left es).trans List.perm_middle)

/-- **A dictionary is built back from its entries**, in whatever order they come. -/
theorem insertAll_of_perm {d : Dict α} {es : List (String × α)} (h : es.Perm d.entries) :
    (empty : Dict α).insertAll es = d := by
  have hnodup : (es.map Prod.fst ++ (empty : Dict α).keys).Nodup := by
    show (es.map Prod.fst ++ []).Nodup
    rw [List.append_nil]
    exact (h.map Prod.fst).nodup_iff.2 d.nodup_keys
  have hperm := perm_entries_insertAll hnodup
  rw [show (empty : Dict α).entries = [] from rfl, List.append_nil] at hperm
  exact eq_of_perm (hperm.trans h)

/-! ## Looking up behind a change -/

theorem lookup_cons_eq_ite (e : String × α) (es : List (String × α)) (k : String) :
    (e :: es).lookup k = if k = e.1 then some e.2 else es.lookup k := by
  rw [List.lookup_cons]
  by_cases h : k = e.1
  · rw [beq_iff_eq.2 h, if_pos h]
  · rw [beq_eq_false_iff_ne.2 h, if_neg h]

theorem lookup_insertEntry (k k' : String) (v : α) (es : List (String × α)) :
    (insertEntry k v es).lookup k' = if k' = k then some v else es.lookup k' := by
  induction es with
  | nil => exact lookup_cons_eq_ite (k, v) [] k'
  | cons e es ih =>
    simp only [insertEntry]
    split
    · exact lookup_cons_eq_ite (k, v) (e :: es) k'
    · split
      · rename_i heq
        rw [lookup_cons_eq_ite, lookup_cons_eq_ite, ← heq]
        by_cases h : k' = k
        · rw [if_pos h, if_pos h]
        · rw [if_neg h, if_neg h, if_neg h]
      · rename_i hne
        rw [lookup_cons_eq_ite, lookup_cons_eq_ite, ih]
        -- the entry in front has another key, so it answers as before
        by_cases h : k' = e.1
        · rw [if_pos h, if_pos h, if_neg fun hk => hne (hk.symm.trans h)]
        · rw [if_neg h, if_neg h]

/-- **A key that is set has its value**, and all others have what they had. -/
theorem find?_insert (d : Dict α) (k k' : String) (v : α) :
    (d.insert k v).find? k' = if k' = k then some v else d.find? k' :=
  lookup_insertEntry k k' v d.entries

/-- Where no key comes twice, what is put in answers before what was there. -/
theorem find?_insertAll {d : Dict α} {es : List (String × α)} (h : (es.map Prod.fst).Nodup)
    (k : String) : (d.insertAll es).find? k = (es.lookup k <|> d.find? k) := by
  induction es generalizing d with
  | nil => rfl
  | cons e es ih =>
    rw [List.map_cons, List.nodup_cons] at h
    show ((d.insert e.1 e.2).insertAll es).find? k = _
    rw [ih h.2, find?_insert, lookup_cons_eq_ite]
    by_cases hk : k = e.1
    · have hnone : es.lookup k = none := by
        rw [List.lookup_eq_none_iff]
        intro x hx
        rw [hk, bne_iff_ne]
        exact fun heq => h.1 (List.mem_map.2 ⟨x, hx, heq.symm⟩)
      rw [hnone, if_pos hk, if_pos hk]
      rfl
    · rw [if_neg hk, if_neg hk]

/-- **The upper dictionary answers first**, and the lower one for the keys that it lacks. -/
theorem find?_overlay (base top : Dict α) (k : String) :
    (base.overlay top).find? k = (top.find? k <|> base.find? k) :=
  find?_insertAll top.nodup_keys k

end Caret.Dict
