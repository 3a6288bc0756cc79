import Caret.Config.Discovery
import Caret.Proofs.Config.Rules
import Caret.Proofs.FileTree

/-!
# What the search for a configuration finds

The search looks into one directory after the other and at one name after the other, and stops
at the first file. That it is the first is all there is to say about it
(`find_ends_nearest`): it is in the nearest directory that has any, and there it has the best
name. What is found is read in the format of its name, whatever path leads to it
(`load_of_find`).

Nearest is meant on the path as it is written. The directories that the search goes through are
those that the path leads through, and for most paths these are the ones above its end. Two
points are the exception: they lead upwards, so that to drop them leads down again, to a
directory that need not be above the end of the path at all (`find_below_start`). Where the
directory of what is found lies is told by the components that were dropped on the way to it
(`directory_of_find`).
-/

namespace Caret.Config

/-! ## The first of a list -/

section First

variable {α β : Type}

theorem eq_take_append_of_getElem? {as : List α} {a : α} {n : Nat} (h : as[n]? = some a) :
    as = as.take n ++ a :: as.drop (n + 1) := by
  obtain ⟨hn, rfl⟩ := List.getElem?_eq_some_iff.1 h
  rw [← List.drop_eq_getElem_cons hn, List.take_append_drop]

theorem getElem?_length_append (before behind : List α) (a : α) :
    (before ++ a :: behind)[before.length]? = some a := by
  rw [List.getElem?_append_right (Nat.le_refl _), Nat.sub_self]
  rfl

/-- The first element that passes is at a place before which none does. -/
theorem find?_eq_some_iff_take {p : α → Bool} {as : List α} {a : α} :
    as.find? p = some a
      ↔ ∃ n, as[n]? = some a ∧ p a = true ∧ ∀ b ∈ as.take n, p b = false := by
  rw [List.find?_eq_some_iff_append]
  simp only [Bool.not_eq_true']
  constructor
  · rintro ⟨ha, before, behind, rfl, hbefore⟩
    refine ⟨before.length, getElem?_length_append before behind a, ha, ?_⟩
    rwa [List.take_left]
  · rintro ⟨n, hn, ha, hbefore⟩
    exact ⟨ha, _, _, eq_take_append_of_getElem? hn, hbefore⟩

/-- The first outcome is that of an element at a place before which no other has any. -/
theorem findSome?_eq_some_iff_take {f : α → Option β} {as : List α} {b : β} :
    as.findSome? f = some b
      ↔ ∃ n a, as[n]? = some a ∧ f a = some b ∧ ∀ c ∈ as.take n, f c = none := by
  rw [List.findSome?_eq_some_iff]
  constructor
  · rintro ⟨before, a, behind, rfl, ha, hbefore⟩
    refine ⟨before.length, a, getElem?_length_append before behind a, ha, ?_⟩
    rwa [List.take_left]
  · rintro ⟨n, a, hn, ha, hbefore⟩
    exact ⟨_, a, _, eq_take_append_of_getElem? hn, ha, hbefore⟩

end First

variable {isFile : String → Bool}

/-! ## The best name in a directory -/

theorem findIn_eq_none_iff {directory : String} :
    findIn isFile directory = none
      ↔ ∀ name ∈ fileNames, isFile (Path.join directory name) = false := by
  rw [findIn, List.find?_eq_none]
  simp only [List.forall_mem_map, Bool.not_eq_true]

/-- **What is found in a directory has the best name** of those that are files there. -/
theorem findIn_eq_some_iff {directory file : String} :
    findIn isFile directory = some file
      ↔ ∃ rank name, fileNames[rank]? = some name ∧ isFile (Path.join directory name) = true
        ∧ (∀ better ∈ fileNames.take rank, isFile (Path.join directory better) = false)
        ∧ file = Path.join directory name := by
  rw [findIn, List.find?_map, Option.map_eq_some_iff]
  simp only [find?_eq_some_iff_take, Function.comp_apply]
  constructor
  · rintro ⟨name, ⟨rank, hrank, hname, hbetter⟩, rfl⟩
    exact ⟨rank, name, hrank, hname, hbetter, rfl⟩
  · rintro ⟨rank, name, hrank, hname, hbetter, rfl⟩
    exact ⟨name, ⟨rank, hrank, hname, hbetter⟩, rfl⟩

/-! ## The nearest directory -/

/-- **A file that is nearest**: some steps above the start there is a directory, and in it a file
with the name of some rank; no better name is a file there, and no name at all is a file in the
directories before. -/
structure IsNearest (isFile : String → Bool) (start : String) (steps rank : Nat)
    (directory name : String) : Prop where
  /-- The directory is as many steps above the start. -/
  above : Path.above? start steps = some directory
  /-- The name has that rank. -/
  ranked : fileNames[rank]? = some name
  /-- It is a file. -/
  found : isFile (Path.join directory name) = true
  /-- No better name is a file in the directory. -/
  none_better : ∀ better ∈ fileNames.take rank, isFile (Path.join directory better) = false
  /-- No name is a file in a directory that is nearer. -/
  none_nearer : ∀ k < steps, ∀ nearer ∈ Path.above? start k, ∀ other ∈ fileNames,
    isFile (Path.join nearer other) = false

/-- **What is found is nearest.** -/
theorem find_eq_some_iff {start file : String} :
    find isFile start = some file
      ↔ ∃ steps rank directory name, IsNearest isFile start steps rank directory name
        ∧ file = Path.join directory name := by
  rw [find, findSome?_eq_some_iff_take]
  simp only [Path.getElem?_ancestors, findIn_eq_some_iff, findIn_eq_none_iff]
  constructor
  · rintro ⟨steps, directory, habove, ⟨rank, name, hrank, hname, hbetter, rfl⟩, hnearer⟩
    refine ⟨steps, rank, directory, name, ⟨habove, hrank, hname, hbetter, ?_⟩, rfl⟩
    exact fun k hk nearer hget => hnearer nearer (Path.mem_take_ancestors_iff.2 ⟨k, hk, hget⟩)
  · rintro ⟨steps, rank, directory, name, hnearest, rfl⟩
    refine ⟨steps, directory, hnearest.above, ⟨rank, name, hnearest.ranked, hnearest.found,
      hnearest.none_better, rfl⟩, fun nearer hmem => ?_⟩
    obtain ⟨k, hk, hget⟩ := Path.mem_take_ancestors_iff.1 hmem
    exact hnearest.none_nearer k hk nearer hget

theorem find_eq_none_iff {start : String} :
    find isFile start = none
      ↔ ∀ k, ∀ directory ∈ Path.above? start k, ∀ name ∈ fileNames,
        isFile (Path.join directory name) = false := by
  rw [find, List.findSome?_eq_none_iff]
  simp only [findIn_eq_none_iff, Path.mem_ancestors_iff]
  exact ⟨fun h k directory hget => h directory ⟨k, hget⟩,
    fun h directory ⟨k, hget⟩ => h k directory hget⟩

/-- The search goes on above a directory without a file, if there is anything above it. -/
theorem find_eq_or (start : String) :
    find isFile start = (findIn isFile start).or ((Path.parent? start).bind (find isFile)) := by
  rw [find, Path.ancestors]
  split
  · rename_i hnone
    rw [hnone, List.findSome?_cons]
    cases findIn isFile start <;> rfl
  · rename_i parent hparent
    rw [hparent, List.findSome?_cons]
    cases findIn isFile start <;> rfl

/-- The search as a loop that looks into a directory and climbs, for a number of rounds. It has
no outcome if these do not suffice. -/
def search (isFile : String → Bool) : Nat → String → Option (Option String)
  | 0, _ => none
  | rounds + 1, directory =>
    match findIn isFile directory with
    | some file => some (some file)
    | none => match Path.parent? directory with
      | some parent => search isFile rounds parent
      | none => some none

/-- **The loop ends** within a round for each component of the path and one more. -/
theorem search_eq {start : String} {rounds : Nat} (h : (Path.components start).length < rounds) :
    search isFile rounds start = some (find isFile start) := by
  induction rounds generalizing start with
  | zero => exact absurd h (Nat.not_lt_zero _)
  | succ rounds ih =>
    rw [search, find_eq_or]
    cases findIn isFile start with
    | some file => rfl
    | none =>
      obtain ⟨hnone, -⟩ | ⟨parent, last, hparent, hcomponents, -⟩ := Path.parent?_cases start
      · rw [hnone]
        rfl
      · rw [hcomponents, List.length_append] at h
        rw [hparent]
        exact ih (Nat.lt_of_succ_lt_succ h)

/-- A file in a directory above the start is found, or one that is no farther away. -/
theorem exists_isNearest_of_le {start directory name : String} {k : Nat}
    (habove : Path.above? start k = some directory) (hname : name ∈ fileNames)
    (hfile : isFile (Path.join directory name) = true) :
    ∃ steps ≤ k, ∃ rank nearest best, IsNearest isFile start steps rank nearest best
      ∧ find isFile start = some (Path.join nearest best) := by
  cases hfind : find isFile start with
  | none =>
    have hnone := find_eq_none_iff.1 hfind k directory habove name hname
    rw [hfile] at hnone
    cases hnone
  | some file =>
    obtain ⟨steps, rank, nearest, best, hnearest, rfl⟩ := find_eq_some_iff.1 hfind
    refine ⟨steps, Nat.le_of_not_lt fun hlt => ?_, rank, nearest, best, hnearest, rfl⟩
    have hnone := hnearest.none_nearer k hlt directory habove name hname
    rw [hfile] at hnone
    cases hnone

/-- **The search ends at the nearest directory and the best name in it**, if any directory above
the start has a file with one of the names, and otherwise with nothing. It takes no more rounds
than the start has components and one; the directories above the start are as many as its
components, each of them the start without some of the last ones. A file that is nearer is
preferred whatever its name, and what counts as a file in a tree is a file and no directory. -/
theorem find_ends_nearest (isFile : String → Bool) (start : String) :
    (∀ rounds, (Path.components start).length < rounds →
      search isFile rounds start = some (find isFile start))
    ∧ (∀ k, (Path.above? start k).isSome ↔ k ≤ (Path.components start).length)
    ∧ (∀ k directory, Path.above? start k = some directory →
      (∃ passed, passed.length = k
        ∧ Path.components start = Path.components directory ++ passed)
      ∧ (Path.IsAbsolute directory ↔ Path.IsAbsolute start))
    ∧ (∀ file, find isFile start = some file
      ↔ ∃ steps rank directory name, IsNearest isFile start steps rank directory name
        ∧ file = Path.join directory name)
    ∧ (find isFile start = none
      ↔ ∀ k, ∀ directory ∈ Path.above? start k, ∀ name ∈ fileNames,
        isFile (Path.join directory name) = false)
    ∧ (∀ k directory name, Path.above? start k = some directory → name ∈ fileNames →
      isFile (Path.join directory name) = true →
      ∃ steps ≤ k, ∃ rank nearest best, IsNearest isFile start steps rank nearest best
        ∧ find isFile start = some (Path.join nearest best))
    ∧ ∀ (t : FileTree) (here : Place) (candidate : String),
      t.isFile here candidate = true
        ↔ ∃ place contents, t.locate here candidate = .ok place
          ∧ t.at? place = some (.file contents) :=
  ⟨fun _ => search_eq, fun _ => Path.isSome_above?_iff, fun _ _ => Path.components_of_above?,
    fun _ => find_eq_some_iff, find_eq_none_iff, fun _ _ _ => exists_isNearest_of_le,
    fun _ _ _ => FileTree.isFile_eq_true_iff⟩

/-- In a directory that is written with a slash and a point too many there is a file of the last
name, and a directory of the first; above it is a file of the first name. -/
theorem find_ends_nearest_worst_name :
    let t : FileTree := .directory [("a", .directory [(".querydiagrc.yml", .file .empty),
      ("b", .directory [(".querydiagrc.yml", .directory []),
        ("querydiag.config.json", .file .empty)])])]
    Path.above? "/a//b/./" 0 = some "/a//b/./" ∧ "querydiag.config.json" ∈ fileNames
      ∧ t.isFile [] (Path.join "/a//b/./" "querydiag.config.json") = true
      ∧ (∃ steps ≤ 0, ∃ rank directory name,
        IsNearest (t.isFile []) "/a//b/./" steps rank directory name
          ∧ find (t.isFile []) "/a//b/./" = some (Path.join directory name))
      ∧ search (t.isFile []) 3 "/a//b/./" = some (find (t.isFile []) "/a//b/./") := by
  intro t
  obtain ⟨hsearch, -, -, -, -, hnearest, -⟩ := find_ends_nearest (t.isFile []) "/a//b/./"
  have hfile : t.isFile [] (Path.join "/a//b/./" "querydiag.config.json") = true := by
    decide +kernel
  exact ⟨rfl, by decide, hfile, hnearest 0 _ _ rfl (by decide) hfile, hsearch 3 (by decide)⟩

/-! ## The format of what is found -/

/-- The names of configuration files are names. -/
theorem isName_of_mem_fileNames : ∀ name ∈ fileNames, Path.IsName name := by decide

/-- **The names of configuration files with their formats.** -/
def fileFormats : List (String × ConfigFormat) :=
  [(".querydiagrc.yml", .yaml), (".querydiagrc.yaml", .yaml), (".querydiagrc.json", .json),
    (".querydiagrc", .either), ("querydiag.config.yml", .yaml), ("querydiag.config.yaml", .yaml),
    ("querydiag.config.json", .json)]

/-- A name has its format in every directory. -/
theorem ofPath?_join {name : String} {format : ConfigFormat} (directory : String)
    (h : (name, format) ∈ fileFormats) :
    ConfigFormat.ofPath? (Path.join directory name) = some format := by
  have hformats : ∀ e ∈ fileFormats, e.1 ∈ fileNames ∧ Path.fileName? e.1 = some e.1
      ∧ ConfigFormat.ofPath? e.1 = some e.2 := by decide
  obtain ⟨hmem, hself, hformat⟩ := hformats _ h
  have hname := isName_of_mem_fileNames _ hmem
  rw [ofPath?_of_fileName? ((Path.fileName?_join directory hname).trans hself.symm), hformat]

/-- **What is found can be read**: whatever path leads to it, it is read in the format of its
name, so that a text is a configuration that follows the rules, or is invalid. -/
theorem load_of_find {start file : String} (hfind : find isFile start = some file)
    (text : String) :
    ∃ directory name format, (name, format) ∈ fileFormats ∧ file = Path.join directory name
      ∧ Path.fileName? file = some name
      ∧ load text file = (if Text.isBlank text then .ok {}
        else (parse format text >>= validated).mapError fun message => .invalid file message)
      ∧ ((∃ c, load text file = .ok c ∧ c.FollowsRules)
        ∨ ∃ message, load text file = .error (.invalid file message))
      ∧ ∀ path, load text file ≠ .error (.unsupportedFormat path) := by
  obtain ⟨steps, rank, directory, name, hnearest, rfl⟩ := find_eq_some_iff.1 hfind
  have hname : name ∈ fileNames := List.mem_of_getElem? hnearest.ranked
  obtain ⟨⟨other, format⟩, hformat, heq⟩ :=
    List.mem_map.1 (show name ∈ fileFormats.map Prod.fst from hname)
  obtain rfl : other = name := heq
  have hpath := ofPath?_join directory hformat
  refine ⟨directory, other, format, hformat, rfl,
    Path.fileName?_join directory (isName_of_mem_fileNames other hname), load_of_ofPath? hpath,
    load_cases hpath text, fun path hload => ?_⟩
  obtain ⟨c, hok, -⟩ | ⟨message, herror⟩ := load_cases hpath text
  · rw [hload] at hok
    cases hok
  · rw [hload] at herror
    cases herror

/-- A bare file in a directory that is written with two points and slashes, and a text that is
neither YAML nor JSON. -/
theorem load_of_find_bare :
    let file := "..//x/../.querydiagrc"
    find (· == file) "..//x/.." = some file
      ∧ ∃ message, load "\x7b" file = .error (.invalid file message) := by
  intro file
  have hfind : find (· == file) "..//x/.." = some file := by decide +kernel
  refine ⟨hfind, ?_⟩
  obtain ⟨-, -, -, -, -, -, -, ⟨c, hok, -⟩ | hinvalid, -⟩ := load_of_find hfind "\x7b"
  · have hnone : (load "\x7b" file).toOption = none := by decide +kernel
    rw [hok] at hnone
    cases hnone
  · exact hinvalid

/-! ## Where what is found lies -/

/-- **What is found lies on the way to the start.** Its directory is where the start without some
of its last components leads, and the start leads to where these components lead from there. The
directory is therefore the one of the start or above it exactly if the dropped components, made
short, go down first by the names that they went up by; they do if there are no two points among
them. -/
theorem directory_of_find {t : FileTree} {here dir : Place} {start file : String}
    (hstart : t.locate here start = .ok dir) (hfind : find (t.isFile here) start = some file) :
    ∃ place directory name contents passed,
      name ∈ fileNames ∧ file = Path.join directory name
      ∧ t.locate here file = .ok (place ++ [name])
      ∧ t.at? (place ++ [name]) = some (.file contents)
      ∧ Path.components start = Path.components directory ++ passed
      ∧ place = here.reached directory
      ∧ dir = (Way.ofParts passed).target place
      ∧ (place <+: dir
        ↔ place.rtake (Way.ofParts passed).levels <+: (Way.ofParts passed).names)
      ∧ (['.', '.'] ∉ passed → place <+: dir) := by
  obtain ⟨steps, rank, directory, name, hnearest, rfl⟩ := find_eq_some_iff.1 hfind
  have hname : name ∈ fileNames := List.mem_of_getElem? hnearest.ranked
  obtain ⟨⟨passed, -, hcomponents⟩, habsolute⟩ := Path.components_of_above? hnearest.above
  obtain ⟨filePlace, contents, hlocate, hat⟩ := FileTree.isFile_eq_true_iff.1 hnearest.found
  have hplace : filePlace = here.reached directory ++ [name] := by
    rw [FileTree.eq_reached_of_locate hlocate,
      Place.reached_join here directory (isName_of_mem_fileNames name hname)]
  rw [hplace] at hlocate hat
  have hdir : dir = (Way.ofParts passed).target (here.reached directory) := by
    rw [FileTree.eq_reached_of_locate hstart, Place.reached, hcomponents, List.foldl_append,
      Way.target_ofParts, Place.reached]
    simp only [habsolute]
  have hprefix : here.reached directory <+: dir
      ↔ (here.reached directory).rtake (Way.ofParts passed).levels
        <+: (Way.ofParts passed).names := by
    rw [hdir, Way.isPrefix_target_iff]
  refine ⟨here.reached directory, directory, name, contents, passed, hname, rfl, hlocate, hat,
    hcomponents, rfl, hdir, hprefix, fun hup => hprefix.2 ?_⟩
  rw [Way.levels_ofParts hup, List.rtake_zero]
  exact List.nil_prefix

/-- From a directory that is written as a way into its sibling and back: what is dropped is
the name of the directory, and not the way back. -/
theorem directory_of_find_sibling :
    let t : FileTree := .directory [("a", .directory [(".querydiagrc.yml", .file .empty),
      ("b", .directory []), ("x", .directory [])])]
    t.locate [] "/a/x/../b" = .ok ["a", "b"]
      ∧ find (t.isFile []) "/a/x/../b" = some "/a/x/../.querydiagrc.yml"
      ∧ ∃ place, t.locate [] "/a/x/../.querydiagrc.yml" = .ok (place ++ [".querydiagrc.yml"])
        ∧ place <+: ["a", "b"] := by
  intro t
  have hstart : t.locate [] "/a/x/../b" = .ok ["a", "b"] := by decide +kernel
  have hfind : find (t.isFile []) "/a/x/../b" = some "/a/x/../.querydiagrc.yml" := by
    decide +kernel
  refine ⟨hstart, hfind, ?_⟩
  obtain ⟨place, directory, name, contents, passed, hname, hfile, hlocate, -, hcomponents, -, -,
    -, hprefix⟩ := directory_of_find hstart hfind
  -- what is dropped is told by the components of the file and of the start
  have hjoin := Path.components_join directory (isName_of_mem_fileNames name hname)
  have hparts : Path.components (Path.join directory name)
      = [['a'], ['x'], ['.', '.']] ++ [".querydiagrc.yml".toList] := by
    rw [← hfile]
    decide
  obtain ⟨hkept, hlast⟩ := List.append_inj' (hjoin.symm.trans hparts) rfl
  obtain rfl : name = ".querydiagrc.yml" := String.toList_inj.1 (List.cons.inj hlast).1
  have hstartParts : Path.components "/a/x/../b" = [['a'], ['x'], ['.', '.']] ++ [['b']] := by
    decide
  rw [hkept, hstartParts] at hcomponents
  obtain rfl := List.append_cancel_left hcomponents
  exact ⟨place, hlocate, hprefix (by decide)⟩

/-- **What is found need not lie above the start.** The parent of a directory that is written as
the way down to the directory and back has no file, nor has anything above it; what is found
lies in the directory below. -/
theorem find_below_start :
    let t : FileTree := .directory [("home", .directory [("a", .directory
      [(".querydiagrc.yml", .file .empty)])])]
    t.locate [] "/home/a/.." = .ok ["home"]
      ∧ (∃ entries, t.at? ["home"] = some (.directory entries))
      ∧ find (t.isFile []) "/home/a/.." = some "/home/a/.querydiagrc.yml"
      ∧ t.locate [] "/home/a/.querydiagrc.yml" = .ok (["home", "a"] ++ [".querydiagrc.yml"])
      ∧ ¬ ["home", "a"] <+: ["home"] := by
  intro t
  exact ⟨by decide +kernel, ⟨_, rfl⟩, by decide +kernel, by decide +kernel, by decide⟩

end Caret.Config
