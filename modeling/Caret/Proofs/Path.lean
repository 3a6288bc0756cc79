import Caret.Path
import Caret.Proofs.Lines

/-!
# What a path is made of

One way can be written as many paths: slashes are doubled, points stand between them, a slash
stands at the end. What a path is made of are its **components**, the parts that say something,
and whether it starts at the root.

Climbing and joining are defined on texts, where they have to mind all this. On components they
are what they are meant to be. The parent of a path lacks its last component and is without one
exactly if the path is (`parent?_cases`), so that the paths above a path are as many as its
components (`isSome_above?_iff`). A name that is joined to a path is a component behind those of
the path (`components_join`) and its name again (`fileName?_join`), however the path is
written.
-/

namespace Caret.Path

/-! ## Components -/

/-- The parts that say something: the first unless it is empty, and all others that are
neither empty nor a point. -/
def significant : List (List Char) → List (List Char)
  | [] => []
  | first :: rest => (if first = [] then [] else [first]) ++ rest.filter (!isIdle ·)

/-- **The components of a path.** That it starts at the root is none of them. -/
def components (path : String) : List (List Char) := significant (parts path)

/-- A path that starts at the root. -/
def IsAbsolute (path : String) : Prop := path.toList.head? = some '/'

instance (path : String) : Decidable (IsAbsolute path) :=
  inferInstanceAs (Decidable (path.toList.head? = some '/'))

theorem filter_dropWhile_isIdle (ps : List (List Char)) :
    (ps.dropWhile isIdle).filter (!isIdle ·) = ps.filter (!isIdle ·) := by
  induction ps with
  | nil => rfl
  | cons p ps ih =>
    cases hp : isIdle p with
    | true => rw [List.dropWhile_cons_of_pos hp, ih, List.filter_cons_of_neg (by simp [hp])]
    | false => rw [List.dropWhile_cons_of_neg (by simp [hp])]

/-- What is ignored at the end says nothing. -/
theorem significant_trimmed (ps : List (List Char)) :
    significant (trimmed ps) = significant ps := by
  cases ps with
  | nil => rfl
  | cons first rest =>
    show _ ++ (rest.reverse.dropWhile isIdle).reverse.filter (!isIdle ·) = _ ++ _
    rw [List.filter_reverse, filter_dropWhile_isIdle, ← List.filter_reverse, List.reverse_reverse]

theorem significant_concat {ps : List (List Char)} {last : List Char} (hne : ps ≠ [])
    (hlast : isIdle last = false) : significant (ps ++ [last]) = significant ps ++ [last] := by
  obtain ⟨first, rest, rfl⟩ := List.exists_cons_of_ne_nil hne
  show _ ++ (rest ++ [last]).filter (!isIdle ·) = _ ++ rest.filter (!isIdle ·) ++ [last]
  rw [List.filter_append, List.filter_cons_of_pos (by simp [hlast]), List.filter_nil,
    List.append_assoc]

theorem significant_concat_nil (ps : List (List Char)) :
    significant (ps ++ [[]]) = significant ps := by
  cases ps with
  | nil => rfl
  | cons first rest =>
    show _ ++ (rest ++ [[]]).filter (!isIdle ·) = _ ++ rest.filter (!isIdle ·)
    rw [List.filter_append, List.filter_cons_of_neg (by simp [isIdle]), List.filter_nil,
      List.append_nil]

theorem head?_trimmed (ps : List (List Char)) : (trimmed ps).head? = ps.head? := by
  cases ps with
  | nil => rfl
  | cons first rest => rfl

theorem trimmed_concat {ps : List (List Char)} {last : List Char} (hlast : isIdle last = false) :
    trimmed (ps ++ [last]) = ps ++ [last] := by
  cases ps with
  | nil => rfl
  | cons first rest =>
    show first :: ((rest ++ [last]).reverse.dropWhile isIdle).reverse = first :: (rest ++ [last])
    rw [List.reverse_append, List.reverse_singleton, List.singleton_append,
      List.dropWhile_cons_of_neg (by simp [hlast]), List.reverse_cons, List.reverse_reverse]

/-- There are no slashes in parts. -/
theorem slash_notMem_of_mem_parts {path : String} {p : List Char} (h : p ∈ parts path) :
    '/' ∉ p := by
  obtain ⟨n, hn⟩ := List.getElem?_of_mem h
  obtain ⟨before, behind, hpiece, -, -⟩ := Text.exists_isPiece hn
  exact hpiece.notMem

/-- Parts that are joined are parted again. -/
theorem parts_joined {ps : List (List Char)} (hne : ps ≠ []) (h : ∀ p ∈ ps, '/' ∉ p) :
    parts (String.ofList (joined ps)) = ps := by
  rw [parts, String.toList_ofList]
  induction ps with
  | nil => exact absurd rfl hne
  | cons p ps ih =>
    obtain ⟨hp, hps⟩ := List.forall_mem_cons.1 h
    cases ps with
    | nil => exact Text.segments_of_notMem hp
    | cons q qs =>
      show Text.segments '/' (p ++ '/' :: joined (q :: qs)) = _
      rw [Text.segments_append_cons_self, Text.segments_of_notMem hp,
        ih (List.cons_ne_nil q qs) hps, List.singleton_append]

/-- A path starts at the root if its first part is empty and not the only one. -/
theorem isAbsolute_iff {path : String} :
    IsAbsolute path ↔ (parts path).head? = some [] ∧ parts path ≠ [[]] := by
  rw [IsAbsolute, parts]
  cases path.toList with
  | nil => simp [Text.segments]
  | cons c cs =>
    obtain ⟨s, ss, hs⟩ := List.exists_cons_of_ne_nil (Text.segments_ne_nil '/' cs)
    by_cases hc : c = '/'
    · subst hc
      simp [Text.segments_cons_self, hs]
    · simp [Text.segments_cons_of_ne hc hs, hc]

/-! ## Climbing -/

/-- The path with the given parts. A single empty part stands for the root. -/
def ofParts : List (List Char) → String
  | [[]] => "/"
  | ps => String.ofList (joined ps)

theorem components_ofParts {ps : List (List Char)} (hne : ps ≠ []) (h : ∀ p ∈ ps, '/' ∉ p) :
    components (ofParts ps) = significant ps
      ∧ (IsAbsolute (ofParts ps) ↔ ps.head? = some []) := by
  by_cases hroot : ps = [[]]
  · subst hroot
    exact ⟨rfl, by decide⟩
  · have htext : ofParts ps = String.ofList (joined ps) := by
      rw [ofParts]
      rintro rfl
      exact hroot rfl
    have hparts := parts_joined hne h
    rw [htext, isAbsolute_iff, components, hparts]
    exact ⟨rfl, fun hhead => hhead.1, fun hhead => ⟨hhead, hroot⟩⟩

/-- The parts of a path up to one that is not the first end with what says something. -/
theorem components_of_solidParts {path : String} {ps : List (List Char)} {last : List Char}
    (hne : ps ≠ []) (h : solidParts path = ps ++ [last]) :
    components path = significant (trimmed ps) ++ [last]
      ∧ (IsAbsolute path ↔ (trimmed ps).head? = some []) := by
  have hdropLast : (solidParts path).dropLast ≠ [] := by rwa [h, List.dropLast_concat]
  have hgetLast : (solidParts path).getLast? = some last := by rw [h, List.getLast?_concat]
  have hidle : isIdle last = false := isIdle_getLast_trimmed hdropLast hgetLast
  have hlong : parts path ≠ [[]] := by
    intro heq
    rw [solidParts, heq] at h
    have hlength := congrArg List.length h
    rw [List.length_append] at hlength
    exact hne (List.length_eq_zero_iff.1 (Nat.succ.inj hlength).symm)
  have hhead : (parts path).head? = (trimmed ps).head? := by
    rw [head?_trimmed, ← head?_trimmed (parts path), ← List.head?_append_of_ne_nil _ hne, ← h]
    rfl
  constructor
  · rw [components, ← significant_trimmed, significant_trimmed ps]
    show significant (solidParts path) = _
    rw [h, significant_concat hne hidle]
  · rw [isAbsolute_iff, hhead]
    exact ⟨fun hroot => hroot.1, fun hroot => ⟨hroot, hlong⟩⟩

/-- Climbing from a part that is not the first drops it, and what is ignored before it. -/
theorem parent?_of_solidParts {path : String} {ps : List (List Char)} {last : List Char}
    (hne : ps ≠ []) (h : solidParts path = ps ++ [last]) :
    parent? path = some (ofParts (trimmed ps)) := by
  have hlength : (ps ++ [last]).length ≠ 1 := by
    rw [List.length_append]
    exact fun heq => hne (List.length_eq_zero_iff.1 (Nat.succ.inj heq))
  rw [parent?, h]
  split
  · rename_i hnil
    exact absurd hnil (List.concat_ne_nil last ps)
  · rename_i hroot
    exact absurd (congrArg List.length hroot) hlength
  · rename_i part hpart hone
    exact absurd (congrArg List.length hone) hlength
  · rw [List.dropLast_concat]
    split
    · rename_i hroot
      rw [hroot, ofParts]
    · rename_i hroot
      rw [ofParts]
      exact hroot

/-- A single part that is not empty is the only component, and has the empty path above it. -/
theorem components_of_single {path : String} {last : List Char} (hne : last ≠ [])
    (h : solidParts path = [last]) :
    parent? path = some "" ∧ components path = [last] ∧ ¬ IsAbsolute path := by
  have hhead : (parts path).head? = some last := by
    rw [← head?_trimmed (parts path)]
    show (solidParts path).head? = _
    rw [h]
    rfl
  refine ⟨?_, ?_, ?_⟩
  · rw [parent?, h]
    cases last with
    | nil => exact absurd rfl hne
    | cons c cs => rfl
  · rw [components, ← significant_trimmed]
    show significant (solidParts path) = _
    rw [h]
    show (if last = [] then [] else [last]) ++ [] = _
    rw [if_neg hne]
    rfl
  · rw [isAbsolute_iff, hhead]
    exact fun hroot => hne (Option.some.inj hroot.1)

/-- **The parent of a path lacks its last component**, and starts at the root if the path does.
A path without components has no parent. -/
theorem parent?_cases (path : String) :
    (parent? path = none ∧ components path = [])
      ∨ ∃ parent last, parent? path = some parent ∧ components path = components parent ++ [last]
        ∧ (IsAbsolute parent ↔ IsAbsolute path) := by
  have hsolid : significant (solidParts path) = components path := significant_trimmed (parts path)
  rcases List.eq_nil_or_concat' (solidParts path) with hnil | ⟨ps, last, hconcat⟩
  · rw [hnil] at hsolid
    exact .inl ⟨by rw [parent?, hnil], hsolid.symm⟩
  by_cases hne : ps = []
  · subst hne
    by_cases hlast : last = []
    · subst hlast
      rw [hconcat] at hsolid
      have hnone : parent? path = none := by
        rw [parent?, hconcat]
        rfl
      exact .inl ⟨hnone, hsolid.symm⟩
    · obtain ⟨hparent, hcomponents, habsolute⟩ := components_of_single hlast hconcat
      exact .inr ⟨"", last, hparent, hcomponents,
        fun hroot => absurd hroot (by decide), fun hroot => absurd hroot habsolute⟩
  · obtain ⟨hcomponents, habsolute⟩ := components_of_solidParts hne hconcat
    have htrimmed : trimmed ps ≠ [] := by
      obtain ⟨first, rest, rfl⟩ := List.exists_cons_of_ne_nil hne
      exact List.cons_ne_nil _ _
    have hslash : ∀ p ∈ trimmed ps, '/' ∉ p := fun p hp => by
      have hmem : p ∈ solidParts path := by
        rw [hconcat]
        exact List.mem_append_left _ ((isPrefix_trimmed ps).subset hp)
      exact slash_notMem_of_mem_parts ((isPrefix_trimmed (parts path)).subset hmem)
    obtain ⟨hparent, hroot⟩ := components_ofParts htrimmed hslash
    refine .inr ⟨_, last, parent?_of_solidParts hne hconcat, ?_, hroot.trans habsolute.symm⟩
    rw [hparent, hcomponents]

/-- **The path some steps above a path**, as far as there is one. -/
def above? (path : String) : Nat → Option String
  | 0 => some path
  | k + 1 => (above? path k).bind parent?

theorem above?_succ (path : String) (k : Nat) :
    above? path (k + 1) = (parent? path).bind (above? · k) := by
  induction k with
  | zero => exact (Option.bind_fun_some (parent? path)).symm
  | succ k ih =>
    show (above? path (k + 1)).bind parent? = _
    rw [ih, Option.bind_assoc]
    rfl

/-- **The path some steps above a path lacks as many of its last components.** -/
theorem components_of_above? {path directory : String} {k : Nat}
    (h : above? path k = some directory) :
    (∃ passed, passed.length = k ∧ components path = components directory ++ passed)
      ∧ (IsAbsolute directory ↔ IsAbsolute path) := by
  induction k generalizing directory with
  | zero =>
    obtain rfl : path = directory := Option.some.inj h
    exact ⟨⟨[], rfl, (List.append_nil _).symm⟩, Iff.rfl⟩
  | succ k ih =>
    obtain ⟨below, hbelow, hparent⟩ := Option.bind_eq_some_iff.1 h
    obtain ⟨⟨passed, hlength, heq⟩, habsolute⟩ := ih hbelow
    obtain ⟨hnone, -⟩ | ⟨parent, last, hsome, hlast, hiff⟩ := parent?_cases below
    · rw [hnone] at hparent
      cases hparent
    · obtain rfl : parent = directory := Option.some.inj (hsome.symm.trans hparent)
      refine ⟨⟨last :: passed, congrArg (· + 1) hlength, ?_⟩, hiff.trans habsolute⟩
      rw [heq, hlast, List.append_assoc, List.singleton_append]

/-- **There are as many paths above a path as it has components.** -/
theorem isSome_above?_iff {path : String} {k : Nat} :
    (above? path k).isSome ↔ k ≤ (components path).length := by
  constructor
  · intro h
    obtain ⟨directory, hdirectory⟩ := Option.isSome_iff_exists.1 h
    obtain ⟨⟨passed, hlength, heq⟩, -⟩ := components_of_above? hdirectory
    rw [heq, List.length_append, hlength]
    exact Nat.le_add_left _ _
  · intro h
    induction k with
    | zero => rfl
    | succ k ih =>
      obtain ⟨below, hbelow⟩ := Option.isSome_iff_exists.1 (ih (Nat.le_of_succ_le h))
      obtain ⟨⟨passed, hlength, heq⟩, -⟩ := components_of_above? hbelow
      obtain ⟨-, hnil⟩ | ⟨parent, last, hsome, -, -⟩ := parent?_cases below
      · rw [heq, hnil, List.nil_append, hlength] at h
        exact absurd h (Nat.not_succ_le_self k)
      · rw [above?, hbelow, Option.bind_some, hsome]
        rfl

/-- The paths above a path in their order. -/
theorem getElem?_ancestors (path : String) (k : Nat) : (ancestors path)[k]? = above? path k := by
  induction k generalizing path with
  | zero =>
    rw [ancestors]
    split <;> rfl
  | succ k ih =>
    rw [above?_succ, ancestors]
    split
    · rename_i hnone
      rw [hnone]
      rfl
    · rename_i parent hparent
      rw [hparent, List.getElem?_cons_succ, ih]
      rfl

theorem mem_ancestors_iff {path directory : String} :
    directory ∈ ancestors path ↔ ∃ k, above? path k = some directory := by
  simp only [List.mem_iff_getElem?, getElem?_ancestors]

theorem mem_take_ancestors_iff {path directory : String} {n : Nat} :
    directory ∈ (ancestors path).take n ↔ ∃ k < n, above? path k = some directory := by
  simp only [List.mem_iff_getElem?, List.getElem?_take, getElem?_ancestors,
    Option.ite_none_right_eq_some]

/-! ## Joining -/

/-- **A name**: a part that says something and is not two points. -/
def IsName (name : String) : Prop :=
  '/' ∉ name.toList ∧ isIdle name.toList = false ∧ name.toList ≠ ['.', '.']

instance (name : String) : Decidable (IsName name) :=
  inferInstanceAs (Decidable ('/' ∉ name.toList ∧ isIdle name.toList = false
    ∧ name.toList ≠ ['.', '.']))

/-- **What is joined to a path is a part behind those of the path**, and in the place of an empty
one at the end of it. -/
theorem exists_parts_join (directory : String) {name : String} (h : '/' ∉ name.toList) :
    ∃ ps, parts (join directory name) = ps ++ [name.toList]
      ∧ (parts directory = ps ∨ parts directory = ps ++ [[]]) := by
  rw [join]
  split
  · rename_i hopen
    rw [parts, String.toList_append]
    rcases List.eq_nil_or_concat' directory.toList with hnil | ⟨cs, c, hconcat⟩
    · rw [hnil]
      refine ⟨[], Text.segments_of_notMem h, .inr ?_⟩
      rw [parts, hnil]
      rfl
    · have hne : directory ≠ "" := by
        rintro rfl
        exact absurd hconcat (by simp)
      have hc : c = '/' := by simpa [hne, hconcat] using hopen
      subst hc
      rw [hconcat]
      refine ⟨Text.segments '/' cs, ?_, .inr ?_⟩
      · rw [List.append_assoc, List.singleton_append, Text.segments_append_cons_self,
          Text.segments_of_notMem h]
      · rw [parts, hconcat, Text.segments_append_cons_self]
        rfl
  · refine ⟨parts directory, ?_, .inl rfl⟩
    rw [parts, String.toList_append, String.toList_append]
    show Text.segments '/' (directory.toList ++ ['/'] ++ name.toList) = _
    rw [List.append_assoc, List.singleton_append, Text.segments_append_cons_self,
      Text.segments_of_notMem h]
    rfl

/-- **A name that is joined to a path is a component behind those of the path.** -/
theorem components_join (directory : String) {name : String} (h : IsName name) :
    components (join directory name) = components directory ++ [name.toList] := by
  obtain ⟨hslash, hidle, -⟩ := h
  obtain ⟨ps, hjoin, hparts⟩ := exists_parts_join directory hslash
  have hdirectory : components directory = significant ps := by
    rw [components]
    rcases hparts with heq | heq
    · rw [heq]
    · rw [heq, significant_concat_nil]
  rw [hdirectory, components, hjoin]
  cases ps with
  | nil =>
    have hne : name.toList ≠ [] := by
      intro hnil
      rw [hnil] at hidle
      cases hidle
    show (if name.toList = [] then [] else [name.toList]) ++ [] = [] ++ [name.toList]
    rw [if_neg hne]
    rfl
  | cons first rest => exact significant_concat (List.cons_ne_nil first rest) hidle

/-- What is joined to a path starts at the root if the path does. -/
theorem isAbsolute_join (directory : String) {name : String} (h : IsName name) :
    IsAbsolute (join directory name) ↔ IsAbsolute directory := by
  have hname : name.toList.head? ≠ some '/' := fun hhead =>
    h.1 (List.mem_of_head? hhead)
  rw [IsAbsolute, IsAbsolute, join]
  rcases List.eq_nil_or_concat' directory.toList with hnil | ⟨cs, c, hconcat⟩
  · have hempty : directory.isEmpty = true := by
      rw [String.isEmpty_iff]
      exact String.toList_eq_nil_iff.1 hnil
    rw [if_pos (by rw [hempty]; rfl), String.toList_append, hnil, List.nil_append]
    exact ⟨fun hhead => absurd hhead hname, fun hhead => (nomatch hhead)⟩
  · have hne : directory.toList ≠ [] := by
      rw [hconcat]
      exact List.concat_ne_nil c cs
    split
    · rw [String.toList_append, List.head?_append_of_ne_nil _ hne]
    · rw [String.toList_append, String.toList_append, List.append_assoc,
        List.head?_append_of_ne_nil _ hne]

/-- **A name that is joined to a path is its name.** -/
theorem fileName?_join (directory : String) {name : String} (h : IsName name) :
    fileName? (join directory name) = some name := by
  obtain ⟨hslash, hidle, hup⟩ := h
  obtain ⟨ps, hjoin, -⟩ := exists_parts_join directory hslash
  have hlast : (solidParts (join directory name)).getLast? = some name.toList := by
    rw [solidParts, hjoin, trimmed_concat hidle, List.getLast?_concat]
  rw [fileName?, hlast]
  show (if isIdle name.toList || name.toList == ['.', '.'] then none
    else some (String.ofList name.toList)) = _
  rw [if_neg (by simpa [hidle] using hup), String.ofList_toList]

end Caret.Path
