import Caret.Text.Blank

/-!
# Paths

A path is a text of parts with slashes between them. An absolute path starts
with a slash, and so with an empty part. Parts that are empty or a single point
say nothing, except at the start; behind the last part that says something they
are ignored. A path is climbed as it is written: its parent lacks the last part, even
if that is two points.
-/

namespace Caret.Path

/-- The parts of a path. -/
def parts (path : String) : List (List Char) := Text.segments '/' path.toList

/-- Whether a part says nothing where it is not the first. -/
def isIdle (part : List Char) : Bool := part.isEmpty || part == ['.']

/-- Drops the parts at the end that say nothing. -/
def trimmed : List (List Char) → List (List Char)
  | [] => []
  | first :: rest => first :: (rest.reverse.dropWhile isIdle).reverse

/-- The parts of a path up to the last one that says something. The empty path and the
root have the empty part alone. -/
def solidParts (path : String) : List (List Char) := trimmed (parts path)

/-- The parts with slashes between them. -/
def joined : List (List Char) → List Char
  | [] => []
  | [part] => part
  | part :: ps => part ++ '/' :: joined ps

/-! ## Names and extensions -/

/-- **The name at the end of a path**, if it has one. -/
def fileName? (path : String) : Option String :=
  match (solidParts path).getLast? with
  | none => none
  | some part =>
    if isIdle part || part == ['.', '.'] then none else some (String.ofList part)

/-- The part of a name behind its last point, if there is something before the point. -/
def extensionOf (name : List Char) : Option (List Char) :=
  let reversed := name.reverse
  match reversed.dropWhile (· ≠ '.') with
  | _ :: _ :: _ => some (reversed.takeWhile (· ≠ '.')).reverse
  | _ => none

/-- **The extension of a path**: that of its name. -/
def extension? (path : String) : Option String :=
  ((fileName? path).bind fun name => extensionOf name.toList).map String.ofList

/-! ## Climbing -/

/-- **The parent of a path**: the path without its last part. The root and the empty
path have none; a single relative part has the empty path. -/
def parent? (path : String) : Option String :=
  match solidParts path with
  | [] | [[]] => none
  | [_] => some ""
  | ps =>
    match trimmed ps.dropLast with
    | [[]] => some "/"
    | qs => some (String.ofList (joined qs))

/-- **A path with a name behind it.** Behind an empty path the name stands alone. -/
def join (path name : String) : String :=
  if path.isEmpty || path.toList.getLast? == some '/' then path ++ name
  else path ++ "/" ++ name

/-! ## The length of parents -/

theorem joined_segments (cs : List Char) : joined (Text.segments '/' cs) = cs := by
  induction cs with
  | nil => rfl
  | cons c cs ih =>
    have hne := Text.segments_ne_nil '/' cs
    simp only [Text.segments]
    split
    · rename_i hc
      subst hc
      cases hs : Text.segments '/' cs with
      | nil => exact absurd hs hne
      | cons s ss => simp [joined, ← hs, ih]
    · cases hs : Text.segments '/' cs with
      | nil => exact absurd hs hne
      | cons s ss =>
        rw [hs] at ih
        cases ss with
        | nil => simpa [joined] using ih
        | cons t ts => simpa [joined] using ih

theorem joined_append {ps qs : List (List Char)} (hp : ps ≠ []) (hq : qs ≠ []) :
    joined (ps ++ qs) = joined ps ++ '/' :: joined qs := by
  induction ps with
  | nil => exact absurd rfl hp
  | cons p ps ih =>
    cases ps with
    | nil =>
      cases qs with
      | nil => exact absurd rfl hq
      | cons q qs => simp [joined]
    | cons p' ps => simpa [joined] using ih (by simp)

theorem length_joined_le {ps qs : List (List Char)} (h : ps <+: qs) :
    (joined ps).length ≤ (joined qs).length := by
  obtain ⟨rs, rfl⟩ := h
  by_cases hp : ps = []
  · simp [hp, joined]
  · by_cases hr : rs = []
    · simp [hr]
    · simp [joined_append hp hr]

theorem isPrefix_trimmed (ps : List (List Char)) : trimmed ps <+: ps := by
  cases ps with
  | nil => exact List.nil_prefix
  | cons first rest =>
    have h := (List.dropWhile_suffix isIdle (l := rest.reverse)).reverse
    rw [List.reverse_reverse] at h
    exact List.cons_prefix_cons.2 ⟨rfl, h⟩

theorem isIdle_getLast_trimmed {ps : List (List Char)} {last : List Char}
    (hd : (trimmed ps).dropLast ≠ []) (hl : (trimmed ps).getLast? = some last) :
    isIdle last = false := by
  cases ps with
  | nil => exact absurd rfl hd
  | cons first rest =>
    have hn := List.head?_dropWhile_not isIdle rest.reverse
    have ht : trimmed (first :: rest) =
        first :: (rest.reverse.dropWhile isIdle).reverse := rfl
    rw [ht] at hd hl
    cases hr : rest.reverse.dropWhile isIdle with
    | nil => exact absurd (by rw [hr]; rfl) hd
    | cons part more =>
      rw [hr] at hn hl
      have he : part = last := by simpa [List.getLast?_cons] using hl
      simpa [he] using hn

theorem length_joined_solidParts (path : String) :
    (joined (solidParts path)).length ≤ path.length := by
  have h := length_joined_le (isPrefix_trimmed (parts path))
  rwa [parts, joined_segments, String.length_toList] at h

theorem length_joined_dropLast {ps : List (List Char)} {last : List Char}
    (hd : ps.dropLast ≠ []) (hl : ps.getLast? = some last) :
    (joined ps).length = (joined ps.dropLast).length + last.length + 1 := by
  obtain ⟨qs, rfl⟩ := List.getLast?_eq_some_iff.1 hl
  rw [List.dropLast_concat] at hd ⊢
  rw [joined_append hd (by simp)]
  simp [joined]
  omega

/-- A path is longer than its parent. -/
theorem length_parent? {path parent : String} (h : parent? path = some parent) :
    parent.length < path.length := by
  have hb := length_joined_solidParts path
  unfold parent? at h
  split at h
  · simp at h
  · simp at h
  · rename_i part hne hs
    simp only [Option.some.injEq] at h
    subst h
    have : part ≠ [] := hne
    have := List.length_pos_iff.2 this
    rw [hs] at hb
    simp only [joined] at hb
    simp
    omega
  · rename_i h0 h1 h2
    have hd : (solidParts path).dropLast ≠ [] := by
      intro hd
      match hp : solidParts path with
      | [] => exact h0 hp
      | [part] => exact h2 part hp
      | a :: b :: ps => simp [hp] at hd
    have hq := length_joined_le (isPrefix_trimmed (solidParts path).dropLast)
    match hp : (solidParts path).getLast? with
    | none => exact absurd (List.getLast?_eq_none_iff.1 hp) h0
    | some last =>
      have hl := length_joined_dropLast hd hp
      split at h
      · simp only [Option.some.injEq] at h
        subst h
        have hlast : isIdle last = false := isIdle_getLast_trimmed hd hp
        have : last.length ≠ 0 := by
          intro h0
          simp [isIdle, List.length_eq_zero_iff.1 h0] at hlast
        have : ("/" : String).length = 1 := by decide
        omega
      · simp only [Option.some.injEq] at h
        subst h
        rw [String.length_ofList]
        omega

/-- **The paths above a path**, from the path itself upwards. -/
def ancestors (path : String) : List String :=
  match _h : parent? path with
  | none => [path]
  | some parent => path :: ancestors parent
termination_by path.length
decreasing_by exact length_parent? _h

end Caret.Path
