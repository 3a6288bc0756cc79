/-!
# Blank text

Which characters are white space, which are control characters, and when a
text counts as blank. White space is the Unicode property of that name,
which core's `Char.isWhitespace` covers for ASCII only; control characters
are the two ranges of category Cc. The two properties overlap without
either holding the other: a tab is both, U+00A0 is white space alone,
U+0000 is a control alone.
-/

namespace Caret.Text

/-- The code points with the Unicode property White_Space. -/
def isWhiteSpace (c : Char) : Bool :=
  let n := c.toNat
  (0x09 ≤ n && n ≤ 0x0D) || n == 0x20 || n == 0x85 || n == 0xA0 || n == 0x1680 ||
    (0x2000 ≤ n && n ≤ 0x200A) || n == 0x2028 || n == 0x2029 || n == 0x202F ||
    n == 0x205F || n == 0x3000

/-- The control characters: U+0000 to U+001F and U+007F to U+009F. -/
def isControl (c : Char) : Bool :=
  let n := c.toNat
  n ≤ 0x1F || (0x7F ≤ n && n ≤ 0x9F)

/-- **A blank text** holds nothing but white space. The empty text is blank. -/
def isBlank (s : String) : Bool :=
  s.toList.all isWhiteSpace

/-- Drops the longest tail whose characters all pass `p`. -/
def dropTrailing (p : Char → Bool) (cs : List Char) : List Char :=
  (cs.reverse.dropWhile p).reverse

/-- The pieces of a text between the occurrences of `sep`, in order; there is
always at least one, and empty pieces count. -/
def segments (sep : Char) : List Char → List (List Char)
  | [] => [[]]
  | c :: cs =>
    if c = sep then [] :: segments sep cs
    else match segments sep cs with
      | [] => [[c]]
      | s :: ss => (c :: s) :: ss

theorem segments_ne_nil (sep : Char) (cs : List Char) : segments sep cs ≠ [] := by
  cases cs with
  | nil => simp [segments]
  | cons c cs =>
    simp only [segments]
    split
    · simp
    · split <;> simp

end Caret.Text
