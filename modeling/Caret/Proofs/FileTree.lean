import Caret.FileTree
import Caret.Proofs.Outcomes
import Caret.Proofs.Path

/-!
# Where paths lead

A path is walked part by part, and each step asks the tree whether there is something to step
on. Since there are no links, the tree has no other say in it: a walk that is not stopped ends
where the components of the path alone lead (`FileTree.eq_reached_of_locate`), a name downwards
and two points upwards.

Such a way can go up and down and up again. Made short it is a number of levels up and then
some names down (`Way`), and from that it is told whether it ends at or below the place that it
starts from (`Way.isPrefix_target_iff`): the names that it leaves by going up have to be those
that it comes back by.
-/

namespace Caret

namespace Place

/-- The place that a part leads to, if nothing is in the way. -/
def follow (place : Place) (part : List Char) : Place :=
  if Path.isIdle part then place
  else if part = ['.', '.'] then place.dropLast
  else place ++ [String.ofList part]

/-- **The place that a path leads to** from a place, if nothing is in the way. -/
def reached (here : Place) (path : String) : Place :=
  (Path.components path).foldl follow (if Path.IsAbsolute path then [] else here)

theorem follow_of_isIdle {place : Place} {part : List Char} (h : Path.isIdle part = true) :
    place.follow part = place := if_pos h

theorem follow_of_isName {place : Place} {name : String} (h : Path.IsName name) :
    place.follow name.toList = place ++ [name] := by
  obtain ⟨-, hidle, hup⟩ := h
  rw [follow, if_neg (by simp [hidle]), if_neg hup, String.ofList_toList]

/-- Parts that say nothing can be passed over. -/
theorem foldl_follow_filter (place : Place) (ps : List (List Char)) :
    (ps.filter (!Path.isIdle ·)).foldl follow place = ps.foldl follow place := by
  induction ps generalizing place with
  | nil => rfl
  | cons p ps ih =>
    cases hp : Path.isIdle p with
    | true =>
      rw [List.filter_cons_of_neg (by simp [hp]), List.foldl_cons, follow_of_isIdle hp, ih]
    | false => rw [List.filter_cons_of_pos (by simp [hp]), List.foldl_cons, List.foldl_cons, ih]

theorem foldl_follow_significant (place : Place) (ps : List (List Char)) :
    (Path.significant ps).foldl follow place = ps.foldl follow place := by
  cases ps with
  | nil => rfl
  | cons first rest =>
    show List.foldl follow place (_ ++ _) = _
    rw [List.foldl_append, foldl_follow_filter, List.foldl_cons]
    split
    · rename_i hfirst
      subst hfirst
      rfl
    · rfl

/-- A name that is joined to a path leads to an entry of the place that the path leads to. -/
theorem reached_join (here : Place) (directory : String) {name : String} (h : Path.IsName name) :
    here.reached (Path.join directory name) = here.reached directory ++ [name] := by
  rw [reached, Path.components_join directory h, List.foldl_append, List.foldl_cons,
    List.foldl_nil, follow_of_isName h, reached]
  simp only [Path.isAbsolute_join directory h]

end Place

namespace FileTree

/-- A step that is not stopped follows its part. -/
theorem eq_follow_of_step {t : FileTree} {place next : Place} {part : List Char}
    (h : t.step place (String.ofList part) = .ok next) : next = place.follow part := by
  have hempty : String.ofList part = String.ofList [] ↔ part = [] := String.ofList_inj
  have hpoint : String.ofList part = String.ofList ['.'] ↔ part = ['.'] := String.ofList_inj
  have hpoints : String.ofList part = String.ofList ['.', '.'] ↔ part = ['.', '.'] :=
    String.ofList_inj
  have hidle : Path.isIdle part = true ↔ part = [] ∨ part = ['.'] := by
    simp [Path.isIdle]
  rw [Place.follow]
  simp only [step, hempty, hpoint, hpoints, ← hidle] at h
  split at h
  · cases h
  · cases h
  · split_ifs at h ⊢ <;> cases h <;> rfl

/-- Steps that are not stopped follow their parts one after the other. -/
theorem eq_foldl_follow_of_foldlM_step {t : FileTree} {start place : Place}
    {ps : List (List Char)} (h : (ps.map String.ofList).foldlM t.step start = .ok place) :
    place = ps.foldl Place.follow start := by
  induction ps generalizing start with
  | nil =>
    cases h
    rfl
  | cons p ps ih =>
    rw [List.map_cons, List.foldlM_cons] at h
    obtain ⟨next, hstep, hrest⟩ := bind_eq_ok_iff.1 h
    rw [ih hrest, eq_follow_of_step hstep, List.foldl_cons]

/-- **A walk that is not stopped ends where the components of its path lead.** -/
theorem eq_reached_of_locate {t : FileTree} {here place : Place} {path : String}
    (h : t.locate here path = .ok place) : place = here.reached path := by
  rw [locate] at h
  rw [Place.reached, Path.components, Place.foldl_follow_significant]
  split_ifs at h with hnul hempty hlong hslash
  · rw [eq_foldl_follow_of_foldlM_step h,
      if_pos (show Path.IsAbsolute path from beq_iff_eq.1 hslash)]
  · rw [eq_foldl_follow_of_foldlM_step h,
      if_neg (show ¬ Path.IsAbsolute path from fun habsolute => hslash (beq_iff_eq.2 habsolute))]

/-- **What counts as a file**: a path that leads to one. A path that leads to a directory or
nowhere does not. -/
theorem isFile_eq_true_iff {t : FileTree} {here : Place} {path : String} :
    t.isFile here path = true
      ↔ ∃ place contents, t.locate here path = .ok place ∧ t.at? place = some (.file contents) := by
  rw [isFile]
  cases t.locate here path with
  | error e => simp
  | ok place =>
    cases hat : t.at? place with
    | none => simp [hat]
    | some node =>
      cases node with
      | file contents => simp [hat]
      | directory entries => simp [hat]

end FileTree

/-! ## Ways made short -/

/-- **A way made short**: how many levels it leads up, and the names that it leads down by
from there. -/
structure Way where
  /-- The levels up. -/
  levels : Nat
  /-- The names down. -/
  names : Place

namespace Way

/-- A way with one more part at its end. -/
def add (way : Way) (part : List Char) : Way :=
  if Path.isIdle part then way
  else if part = ['.', '.'] then
    if way.names = [] then ⟨way.levels + 1, []⟩ else ⟨way.levels, way.names.dropLast⟩
  else ⟨way.levels, way.names ++ [String.ofList part]⟩

/-- The way of some parts. -/
def ofParts (ps : List (List Char)) : Way := ps.foldl add ⟨0, []⟩

/-- Where a way leads from a place. Nothing is above the root. -/
def target (way : Way) (place : Place) : Place := place.rdrop way.levels ++ way.names

/-- One more part leads on from where the way leads. -/
theorem target_add (way : Way) (place : Place) (part : List Char) :
    (way.add part).target place = (way.target place).follow part := by
  rw [add, Place.follow]
  split_ifs with hidle hup hnames
  · rfl
  · rw [target, target, hnames, List.append_nil, List.append_nil, List.rdrop, List.rdrop,
      List.dropLast_eq_take, List.take_take, List.length_take]
    refine congrArg (place.take ·) ?_
    show place.length - (way.levels + 1) = _
    omega
  · rw [target, target, List.dropLast_append_of_ne_nil hnames]
  · exact (List.append_assoc _ _ _).symm

/-- **A way leads where its parts lead one after the other.** -/
theorem target_ofParts (place : Place) (ps : List (List Char)) :
    (ofParts ps).target place = ps.foldl Place.follow place := by
  have hfold : ∀ way : Way,
      (ps.foldl add way).target place = ps.foldl Place.follow (way.target place) := by
    induction ps with
    | nil => exact fun way => rfl
    | cons p ps ih =>
      intro way
      rw [List.foldl_cons, List.foldl_cons, ih, target_add]
  rw [ofParts, hfold, target, List.rdrop_zero, List.append_nil]

/-- **A way ends at or below its start** exactly if it goes down first by the names that it went
up by. -/
theorem isPrefix_target_iff {way : Way} {place : Place} :
    place <+: way.target place ↔ place.rtake way.levels <+: way.names := by
  have hsplit : place.rdrop way.levels ++ place.rtake way.levels = place :=
    List.take_append_drop _ place
  have hinj : place.rdrop way.levels ++ place.rtake way.levels <+: way.target place
      ↔ place.rtake way.levels <+: way.names := List.prefix_append_right_inj _
  rwa [hsplit] at hinj

/-- Without two points among its parts a way does not lead up. -/
theorem levels_ofParts {ps : List (List Char)} (h : ['.', '.'] ∉ ps) : (ofParts ps).levels = 0 := by
  have hfold : ∀ way : Way, (ps.foldl add way).levels = way.levels := by
    induction ps with
    | nil => exact fun way => rfl
    | cons p ps ih =>
      intro way
      obtain ⟨hp, hps⟩ := List.ne_and_not_mem_of_not_mem_cons h
      rw [List.foldl_cons, ih hps, add, if_neg hp.symm]
      split <;> rfl
  exact hfold _

end Way

end Caret
