/-!
# Line terminators

The set of characters that a query lexer treats as line breaks. It is kept
in order of first mention, which answers may show, and it always holds the
line feed, which comes first.
-/

namespace Caret

/-- **A set of line terminators**, in order of first mention. -/
structure LineTerminators where
  /-- The members. -/
  chars : List Char
  /-- The line feed comes first. -/
  lineFeed_first : chars.head? = some '\n'
  /-- No member is listed twice. -/
  nodup : chars.Nodup
  deriving DecidableEq, Repr

namespace LineTerminators

/-- Puts a character behind the members unless it is one already. -/
def add (cs : List Char) (c : Char) : List Char :=
  if c ∈ cs then cs else cs ++ [c]

theorem add_of_mem {cs : List Char} {c : Char} (h : c ∈ cs) : add cs c = cs := if_pos h

theorem add_of_notMem {cs : List Char} {c : Char} (h : c ∉ cs) : add cs c = cs ++ [c] := if_neg h

theorem mem_add {cs : List Char} {c x : Char} : x ∈ add cs c ↔ x ∈ cs ∨ x = c := by
  by_cases hc : c ∈ cs
  · rw [add_of_mem hc]
    exact ⟨.inl, fun hx => hx.elim id (· ▸ hc)⟩
  · rw [add_of_notMem hc, List.mem_append, List.mem_singleton]

theorem nodup_add {cs : List Char} {c : Char} (h : cs.Nodup) : (add cs c).Nodup := by
  by_cases hc : c ∈ cs
  · rwa [add_of_mem hc]
  · rw [add_of_notMem hc]
    exact List.nodup_append.2 ⟨h, by simp, fun a ha b hb => by
      rw [List.mem_singleton] at hb
      exact fun hab => hc (hb ▸ hab ▸ ha)⟩

theorem head?_add {cs : List Char} {c x : Char} (h : cs.head? = some x) :
    (add cs c).head? = some x := by
  by_cases hc : c ∈ cs
  · rwa [add_of_mem hc]
  · rw [add_of_notMem hc, List.head?_append, h]
    rfl

theorem mem_foldl_add {cs acc : List Char} {x : Char} :
    x ∈ cs.foldl add acc ↔ x ∈ acc ∨ x ∈ cs := by
  induction cs generalizing acc with
  | nil => simp
  | cons c cs ih => simp [ih, mem_add, or_assoc]

theorem nodup_foldl_add {cs acc : List Char} (h : acc.Nodup) : (cs.foldl add acc).Nodup := by
  induction cs generalizing acc with
  | nil => exact h
  | cons c cs ih => exact ih (nodup_add h)

theorem head?_foldl_add {cs acc : List Char} {x : Char} (h : acc.head? = some x) :
    (cs.foldl add acc).head? = some x := by
  induction cs generalizing acc with
  | nil => exact h
  | cons c cs ih => exact ih (head?_add h)

/-- The line feed together with the given characters. -/
def ofList (cs : List Char) : LineTerminators :=
  ⟨cs.foldl add ['\n'], head?_foldl_add rfl, nodup_foldl_add (by simp)⟩

/-- Line feed, next line, line separator and paragraph separator. -/
def default : LineTerminators :=
  ofList ['\n', '\u0085', '\u2028', '\u2029']

instance : Inhabited LineTerminators := ⟨default⟩

/-- Whether a character is a line terminator. -/
def contains (t : LineTerminators) (c : Char) : Bool :=
  t.chars.contains c

/-- The line feed is a terminator. -/
theorem lineFeed_mem (t : LineTerminators) : '\n' ∈ t.chars :=
  List.mem_of_mem_head? t.lineFeed_first

@[simp] theorem contains_eq_true {t : LineTerminators} {c : Char} :
    t.contains c = true ↔ c ∈ t.chars := by
  simp [contains]

/-- Membership: the line feed and what was given. -/
theorem mem_ofList {cs : List Char} {x : Char} :
    x ∈ (ofList cs).chars ↔ x = '\n' ∨ x ∈ cs := by
  simp [ofList, mem_foldl_add]

end LineTerminators

end Caret
