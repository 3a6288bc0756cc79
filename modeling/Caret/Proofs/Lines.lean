import Caret.Proofs.Offsets
import Mathlib.Data.List.DropRight

/-!
# The lines of a text and a scan of its characters

The index of a text knows its lines by their lengths, and an offset is
resolved by taking lengths off it. A reader who counts does something else:
he goes through the characters before the offset, one line further at each
line feed, and the column is how far the last of them lies behind.

`walk_segments` says that the two agree inside the text, empty lines and
offsets on line feeds included, and `walk_past` says where the walk ends
behind it; `LineIndex.index_counts` puts together what the index of a text
says of it. The reader's count is kept general in which characters end a
line (`Position.behind`), since a query is counted by its terminators and
its shown form by line feeds.
-/

namespace Caret

/-! ## Counting through characters -/

/-- **The position behind some characters**, those that pass `p` ending lines:
one line more than there are ends, and one column more than there are
characters behind the last of them. -/
def Position.behind (p : Char → Bool) (cs : List Char) : Position :=
  ⟨1 + cs.countP p, 1 + (cs.rtakeWhile (fun c => !p c)).length⟩

theorem rtakeWhile_cons_of_neg {p : Char → Bool} {c : Char} (cs : List Char) (h : p c = false) :
    (c :: cs).rtakeWhile p = cs.rtakeWhile p := by
  rw [List.rtakeWhile, List.rtakeWhile, List.reverse_cons, List.takeWhile_append]
  split
  · rw [List.takeWhile_cons_of_neg (by simp [h]), List.append_nil]
    rename_i hall
    rw [(List.takeWhile_prefix p).eq_of_length hall]
  · rfl

theorem rtakeWhile_cons_of_pos {p : Char → Bool} {c : Char} {cs : List Char} (h : p c = true) :
    (c :: cs).rtakeWhile p = if cs.all p then c :: cs else cs.rtakeWhile p := by
  split
  · rename_i hall
    rw [List.rtakeWhile_eq_self_iff]
    rintro x (- | hx)
    · exact h
    · exact List.all_eq_true.1 hall x ‹_›
  · rename_i hall
    rw [List.rtakeWhile, List.rtakeWhile, List.reverse_cons, List.takeWhile_append, if_neg]
    intro hlen
    have heq := (List.takeWhile_prefix p).eq_of_length hlen
    refine hall (List.all_eq_true.2 fun x hx => ?_)
    exact List.mem_takeWhile_imp (heq ▸ List.mem_reverse.2 hx)

/-- Characters that are mapped are counted through as they were, if the map
keeps which of them end lines. -/
theorem Position.behind_map {p q : Char → Bool} {f : Char → Char} (h : ∀ c, q (f c) = p c)
    (cs : List Char) : Position.behind q (cs.map f) = Position.behind p cs := by
  have hcomp : q ∘ f = p := funext h
  have hnot : (fun c => !q c) ∘ f = fun c => !p c := funext fun c => congrArg (!·) (h c)
  rw [Position.behind, Position.behind, List.countP_map, hcomp, List.rtakeWhile,
    ← List.map_reverse, List.takeWhile_map, hnot, ← List.map_reverse, List.length_map,
    ← List.rtakeWhile]

/-! ## Pieces between separators -/

namespace Text

theorem segments_cons_self (sep : Char) (cs : List Char) :
    segments sep (sep :: cs) = [] :: segments sep cs := by
  rw [segments, if_pos rfl]

theorem segments_cons_of_ne {sep c : Char} {cs s : List Char} {ss : List (List Char)}
    (h : c ≠ sep) (hs : segments sep cs = s :: ss) :
    segments sep (c :: cs) = (c :: s) :: ss := by
  rw [segments, if_neg h, hs]

/-- There is one piece more than there are separators. -/
theorem length_segments (sep : Char) (cs : List Char) :
    (segments sep cs).length = cs.count sep + 1 := by
  induction cs with
  | nil => rfl
  | cons c cs ih =>
    by_cases h : c = sep
    · subst h
      rw [segments_cons_self, List.length_cons, ih, List.count_cons_self]
    · obtain ⟨s, ss, hs⟩ := List.exists_cons_of_ne_nil (segments_ne_nil sep cs)
      rw [segments_cons_of_ne h hs, List.count_cons_of_ne h, ← ih, hs]
      rfl

/-- There is a piece, if only an empty one. -/
theorem lengths_segments_ne_nil (sep : Char) (cs : List Char) :
    (segments sep cs).map List.length ≠ [] := by
  simpa using segments_ne_nil sep cs

/-- The pieces and the separators between them make up the text. -/
theorem lengthOf_segments (sep : Char) (cs : List Char) :
    LineIndex.lengthOf ((segments sep cs).map List.length) = cs.length := by
  induction cs with
  | nil => rfl
  | cons c cs ih =>
    by_cases h : c = sep
    · subst h
      rw [segments_cons_self, List.map_cons,
        LineIndex.lengthOf_cons _ (lengths_segments_ne_nil c cs), ih, List.length_nil,
        List.length_cons, Nat.zero_add, Nat.add_comm]
    · obtain ⟨s, ss, hs⟩ := List.exists_cons_of_ne_nil (segments_ne_nil sep cs)
      rw [hs, List.map_cons] at ih
      rw [segments_cons_of_ne h hs, List.map_cons, List.length_cons,
        LineIndex.lengthOf_succ_cons, ih, List.length_cons]

/-- The pieces are those of the library's split. -/
theorem segments_eq_splitOn (sep : Char) (cs : List Char) : segments sep cs = cs.splitOn sep := by
  induction cs with
  | nil => rfl
  | cons c cs ih =>
    rw [List.splitOn_cons_eq_if_modifyHead, ← ih]
    by_cases h : c = sep
    · subst h
      rw [segments_cons_self, if_pos (beq_self_eq_true c)]
    · obtain ⟨s, ss, hs⟩ := List.exists_cons_of_ne_nil (segments_ne_nil sep cs)
      rw [segments_cons_of_ne h hs, if_neg (by simpa using h), hs, List.modifyHead_cons]

/-- The pieces of two texts with a separator between them. -/
theorem segments_append_cons_self (sep : Char) (xs ys : List Char) :
    segments sep (xs ++ sep :: ys) = segments sep xs ++ segments sep ys := by
  rw [segments_eq_splitOn, segments_eq_splitOn, segments_eq_splitOn,
    List.splitOn_append_cons_self]

theorem segments_of_notMem {sep : Char} {cs : List Char} (h : sep ∉ cs) :
    segments sep cs = [cs] := by
  rw [segments_eq_splitOn, List.splitOn_eq_singleton h]

/-- The last piece is what is behind the last separator. -/
theorem getLast?_segments (sep : Char) (cs : List Char) :
    (segments sep cs).getLast? = some (cs.rtakeWhile (fun c => !(c == sep))) := by
  induction cs with
  | nil => rfl
  | cons c cs ih =>
    obtain ⟨s, ss, hs⟩ := List.exists_cons_of_ne_nil (segments_ne_nil sep cs)
    by_cases hc : c = sep
    · subst hc
      rw [segments_cons_self, rtakeWhile_cons_of_neg cs (by simp), ← ih, hs,
        List.getLast?_cons_cons]
    · by_cases hmem : sep ∈ cs
      · -- the character belongs to the first piece, which is not the last one
        have hlength := length_segments sep cs
        rw [hs, List.length_cons, Nat.add_right_cancel_iff] at hlength
        have hne : ss ≠ [] := List.length_pos_iff.1 (hlength ▸ List.count_pos_iff.2 hmem)
        obtain ⟨s', ss', rfl⟩ := List.exists_cons_of_ne_nil hne
        rw [segments_cons_of_ne hc hs, List.getLast?_cons_cons,
          rtakeWhile_cons_of_pos (p := fun c => !(c == sep)) (by simpa using hc), if_neg, ← ih, hs,
          List.getLast?_cons_cons]
        exact fun hall => absurd (List.all_eq_true.1 hall sep hmem) (by simp)
      · have hnotMem : sep ∉ c :: cs := by
          rw [List.mem_cons, not_or]
          exact ⟨Ne.symm hc, hmem⟩
        rw [segments_of_notMem hnotMem, List.getLast?_singleton, List.rtakeWhile_eq_self_iff.2]
        rintro x hx
        have hne : x ≠ sep := fun heq => hnotMem (heq ▸ hx)
        simpa using hne

/-! ## Where a piece lies -/

/-- **A piece of a text between separators**, with what is before and behind it. -/
structure IsPiece (sep : Char) (cs before piece behind : List Char) : Prop where
  /-- The three make up the text. -/
  eq_append : cs = before ++ piece ++ behind
  /-- There is no separator in the piece. -/
  notMem : sep ∉ piece
  /-- If there is anything before it, then a separator right before it. -/
  last_before : ∀ c ∈ before.getLast?, c = sep
  /-- If there is anything behind it, then a separator right behind it. -/
  head_behind : ∀ c ∈ behind.head?, c = sep

/-- A character in front of a text is before each of its pieces, but for a first one that it would
belong to. -/
theorem IsPiece.cons {sep c : Char} {cs before piece behind : List Char}
    (h : IsPiece sep cs before piece behind) (hc : before = [] → c = sep) :
    IsPiece sep (c :: cs) (c :: before) piece behind where
  eq_append := congrArg (c :: ·) h.eq_append
  notMem := h.notMem
  last_before d hd := by
    by_cases hbefore : before = []
    · subst hbefore
      exact (Option.some.inj hd).symm.trans (hc rfl)
    · rw [List.getLast?_cons, List.getLast?_eq_some_getLast hbefore] at hd
      exact h.last_before d ((List.getLast?_eq_some_getLast hbefore).trans hd)
  head_behind := h.head_behind

/-- A character that is no separator, in front of a text, belongs to its first piece. -/
theorem IsPiece.cons_piece {sep c : Char} {cs piece behind : List Char}
    (h : IsPiece sep cs [] piece behind) (hc : c ≠ sep) :
    IsPiece sep (c :: cs) [] (c :: piece) behind where
  eq_append := congrArg (c :: ·) h.eq_append
  notMem := by
    rw [List.mem_cons, not_or]
    exact ⟨hc.symm, h.notMem⟩
  last_before := nofun
  head_behind := h.head_behind

/-- **Each piece lies between separators**, with one before it for each piece before it, and starts
where the lengths of those and the separators add up to. -/
theorem exists_isPiece {sep : Char} {cs piece : List Char} {n : Nat}
    (h : (segments sep cs)[n]? = some piece) :
    ∃ before behind, IsPiece sep cs before piece behind ∧ before.count sep = n
      ∧ before.length = LineIndex.lineStart ((segments sep cs).map List.length) n := by
  induction cs generalizing n piece with
  | nil =>
    cases n with
    | zero =>
      obtain rfl : [] = piece := Option.some.inj h
      exact ⟨[], [], ⟨rfl, List.not_mem_nil, nofun, nofun⟩, rfl, (LineIndex.lineStart_zero _).symm⟩
    | succ n => cases h
  | cons c cs ih =>
    by_cases hc : c = sep
    · subst hc
      rw [segments_cons_self] at h ⊢
      cases n with
      | zero =>
        obtain rfl : [] = piece := Option.some.inj h
        refine ⟨[], c :: cs, ⟨rfl, List.not_mem_nil, nofun, fun d hd => ?_⟩, rfl,
          (LineIndex.lineStart_zero _).symm⟩
        exact (Option.some.inj hd).symm
      | succ n =>
        obtain ⟨before, behind, hpiece, hcount, hstart⟩ := ih h
        refine ⟨c :: before, behind, hpiece.cons fun _ => rfl, ?_, ?_⟩
        · rw [List.count_cons_self, hcount]
        · rw [List.map_cons, LineIndex.lineStart_succ, ← hstart, List.length_cons,
            List.length_nil, Nat.zero_add, Nat.add_comm]
    · obtain ⟨s, ss, hs⟩ := List.exists_cons_of_ne_nil (segments_ne_nil sep cs)
      rw [segments_cons_of_ne hc hs] at h ⊢
      rw [hs] at ih
      cases n with
      | zero =>
        obtain rfl : c :: s = piece := Option.some.inj h
        obtain ⟨before, behind, hpiece, -, hstart⟩ := @ih s 0 rfl
        rw [List.map_cons, LineIndex.lineStart_zero, List.length_eq_zero_iff] at hstart
        subst hstart
        exact ⟨[], behind, hpiece.cons_piece hc, rfl, (LineIndex.lineStart_zero _).symm⟩
      | succ n =>
        obtain ⟨before, behind, hpiece, hcount, hstart⟩ := @ih piece (n + 1) h
        refine ⟨c :: before, behind, hpiece.cons ?_, ?_, ?_⟩
        · rintro rfl
          cases hcount
        · rw [List.count_cons_of_ne hc, hcount]
        · rw [List.map_cons, LineIndex.lineStart_succ] at hstart ⊢
          rw [List.length_cons, hstart, List.length_cons]
          omega

/-- What a text holds on a piece, or right behind it. -/
theorem IsPiece.getElem? {sep : Char} {cs before piece behind : List Char}
    (h : IsPiece sep cs before piece behind) {i : Nat} (hi : i ≤ piece.length) :
    cs[before.length + i]? = piece[i]?.or behind.head? := by
  rw [h.eq_append, List.append_assoc, List.getElem?_append_right (Nat.le_add_right _ _),
    Nat.add_sub_cancel_left]
  rcases Nat.lt_or_eq_of_le hi with hlt | rfl
  · rw [List.getElem?_append_left hlt, List.getElem?_eq_getElem hlt, Option.some_or]
  · rw [List.getElem?_append_right (Nat.le_refl _), Nat.sub_self,
      List.getElem?_eq_none (Nat.le_refl _), Option.none_or, List.head?_eq_getElem?]

end Text

/-! ## The walk is a count -/

namespace LineIndex

/-- A first line that is one longer holds every offset one longer. -/
theorem walk_succ_cons (len : Nat) (lens : List Nat) (offset : Nat) :
    walk ((len + 1) :: lens) (offset + 1)
      = if offset ≤ len then (0, offset + 1) else walk (len :: lens) offset := by
  rw [walk, walk]
  by_cases h : offset ≤ len
  · rw [if_neg (by omega), if_pos h]
  · rw [if_pos (by omega), if_neg h, if_pos (by omega), Nat.add_sub_add_right]

/-- **Walking the lines of a text counts through its characters**: the lines
taken are the line feeds before the offset, and what is left of the offset is
what lies between it and the last of them. -/
theorem walk_segments (cs : List Char) {offset : Nat} (h : offset ≤ cs.length) :
    walk ((Text.segments '\n' cs).map List.length) offset
      = ((cs.take offset).countP (· == '\n'),
        ((cs.take offset).rtakeWhile (fun c => !(c == '\n'))).length) := by
  induction cs generalizing offset with
  | nil =>
    obtain rfl : offset = 0 := by simpa using h
    rfl
  | cons c cs ih =>
    cases offset with
    | zero =>
      rw [List.take_zero]
      refine walk_eq_iff.2 ⟨⟨Nat.zero_le _, fun _ _ => Nat.zero_le _⟩, ?_⟩
      rw [List.countP_nil, lineStart_zero]
      rfl
    | succ offset =>
      have hle : offset ≤ cs.length := Nat.le_of_succ_le_succ h
      rw [List.take_succ_cons]
      by_cases hc : c = '\n'
      · subst hc
        rw [Text.segments_cons_self, List.map_cons, List.length_nil, walk,
          if_pos (Nat.succ_pos _), Nat.add_sub_cancel, ih hle, List.countP_cons_of_pos rfl,
          rtakeWhile_cons_of_neg _ rfl]
      · obtain ⟨s, ss, hs⟩ := List.exists_cons_of_ne_nil (Text.segments_ne_nil '\n' cs)
        have hih := ih hle
        rw [hs, List.map_cons] at hih
        rw [Text.segments_cons_of_ne hc hs, List.map_cons, List.length_cons, walk_succ_cons,
          List.countP_cons_of_neg (by simpa using hc),
          rtakeWhile_cons_of_pos (p := fun c => !(c == '\n')) (by simpa using hc)]
        by_cases hlen : offset ≤ s.length
        · -- the offset is on the first line: there is no line feed before it
          rw [if_pos hlen]
          rw [walk, if_neg (Nat.not_lt.2 hlen), Prod.mk.injEq] at hih
          have hall : (cs.take offset).all (fun c => !(c == '\n')) = true := by
            rw [List.all_eq_true]
            intro x hx
            have := List.countP_eq_zero.1 hih.1.symm x hx
            simpa using this
          rw [if_pos hall, ← hih.1, List.length_cons, List.length_take, Nat.min_eq_left hle]
        · rw [if_neg hlen, hih, if_neg]
          intro hall
          -- without a line feed before it the offset would be on the first line
          have hzero : (cs.take offset).countP (· == '\n') = 0 :=
            List.countP_eq_zero.2 fun x hx => by
              simpa using List.all_eq_true.1 hall x hx
          rw [hzero] at hih
          have hfits := (walk_eq_iff.1 hih).1
          rw [fits_zero] at hfits
          have hlast := (walk_eq_iff.1 hih).2
          rw [lineStart_zero, Nat.zero_add] at hlast
          omega

/-- Behind the text the walk takes all lines. -/
theorem walk_past {lens : List Nat} (hne : lens ≠ []) {offset : Nat} (h : lengthOf lens < offset) :
    walk lens offset = (lens.length, offset - (lengthOf lens + 1)) := by
  refine walk_eq_iff.2 ⟨⟨Nat.le_refl _, fun len hlen => ?_⟩, ?_⟩
  · rw [List.getElem?_eq_none (Nat.le_refl _)] at hlen
    cases hlen
  · rw [lineStart_length hne]
    omega

/-- Past a text the walk ends on no line of it. -/
theorem getElem?_walk_of_lt {cs : List Char} {offset : Nat} (h : cs.length < offset) :
    (Text.segments '\n' cs)[(walk ((Text.segments '\n' cs).map List.length) offset).1]?
      = none := by
  rw [walk_past (Text.lengths_segments_ne_nil '\n' cs) (by rwa [Text.lengthOf_segments]),
    List.length_map]
  exact List.getElem?_eq_none (Nat.le_refl _)

/-- **Inside a text the walk ends on the line that the offset is on**, with one line taken for each
line feed before it, and at the place of the offset on that line, or at its end. -/
theorem exists_line_of_le {cs : List Char} {offset : Nat} (h : offset ≤ cs.length) :
    ∃ before line behind, Text.IsPiece '\n' cs before line behind
      ∧ (Text.segments '\n' cs)[(walk ((Text.segments '\n' cs).map List.length) offset).1]?
        = some line
      ∧ before.count '\n' = (walk ((Text.segments '\n' cs).map List.length) offset).1
      ∧ offset = before.length + (walk ((Text.segments '\n' cs).map List.length) offset).2
      ∧ (walk ((Text.segments '\n' cs).map List.length) offset).2 ≤ line.length := by
  have hend := lineStart_length (Text.lengths_segments_ne_nil '\n' cs)
  rw [Text.lengthOf_segments, List.length_map] at hend
  have hsum := lineStart_walk ((Text.segments '\n' cs).map List.length) offset
  obtain ⟨hcount, hfits⟩ := fits_walk ((Text.segments '\n' cs).map List.length) offset
  generalize walk ((Text.segments '\n' cs).map List.length) offset = place at *
  rw [List.length_map] at hcount
  -- the line behind the last one starts past the text
  have hlt : place.1 < (Text.segments '\n' cs).length := by
    refine Nat.lt_of_le_of_ne hcount fun heq => ?_
    rw [heq] at hsum
    omega
  have hget := List.getElem?_eq_getElem hlt
  obtain ⟨before, behind, hpiece, hbefore, hstart⟩ := Text.exists_isPiece hget
  refine ⟨before, _, behind, hpiece, hget, hbefore, by rw [hstart, hsum], hfits _ ?_⟩
  rw [List.getElem?_map, hget]
  rfl

/-! ## The index of a text -/

theorem textLen_ofText (text : String) : (ofText text).textLen = text.length :=
  (Text.lengthOf_segments '\n' text.toList).trans String.length_toList

/-- There is one line more than there are line feeds. -/
theorem lineCount_ofText (text : String) :
    (ofText text).lineCount = 1 + text.toList.count '\n' := by
  show ((Text.segments '\n' text.toList).map List.length).length = _
  rw [List.length_map, Text.length_segments, Nat.add_comm]

theorem lineLen?_ofText (text : String) (line : Nat) :
    (ofText text).lineLen? line = (text.toList.splitOn '\n')[line]?.map List.length := by
  show ((Text.segments '\n' text.toList).map List.length)[line]? = _
  rw [List.getElem?_map, Text.segments_eq_splitOn]

/-- An offset inside a text resolves to the position behind the characters before it. -/
theorem resolve_ofText {text : String} {offset : Nat} (h : offset ≤ text.length)
    (hlimit : text.length + 1 < wordLimit) :
    (ofText text).resolve offset = .ok (.behind (· == '\n') (text.toList.take offset)) := by
  have hsource : (ofText text).sourceLen = text.length := textLen_ofText text
  have hwalk : walk (ofText text).lineLengths offset
      = ((text.toList.take offset).countP (· == '\n'),
        ((text.toList.take offset).rtakeWhile (fun c => !(c == '\n'))).length) :=
    walk_segments text.toList (by rwa [String.length_toList])
  rw [resolve_of_le (hsource ▸ h) (by omega), hwalk, Position.behind, Nat.add_comm 1,
    Nat.add_comm 1]

/-- **An index resolves as one counts through the text.** It has a line for each piece between
line feeds, which are one more than the line feeds, and knows their lengths and the length of the
text. An offset is on the line that the line feeds before it count, in the column that the
characters behind the last of them count; so the first offset is on the first line in the first
column, and the end of the text is on the last line behind all its characters. For positions the
text must be shorter than the greatest word, as every text is. -/
theorem index_counts (text : String) :
    (ofText text).lineCount = 1 + text.toList.count '\n'
    ∧ (∀ line, (ofText text).lineLen? line
      = (text.toList.splitOn '\n')[line]?.map List.length)
    ∧ (∀ line, (ofText text).lineLen? line = none ↔ (ofText text).lineCount ≤ line)
    ∧ (ofText text).textLen = text.length
    ∧ (ofText text).sourceLen = text.length
    ∧ (text.length + 1 < wordLimit →
      (∀ offset ≤ text.length, (ofText text).resolve offset
        = .ok (.behind (· == '\n') (text.toList.take offset)))
      ∧ (ofText text).resolve 0 = .ok ⟨1, 1⟩
      ∧ ∃ last, (text.toList.splitOn '\n').getLast? = some last
        ∧ (ofText text).resolve text.length
          = .ok ⟨(ofText text).lineCount, last.length + 1⟩) := by
  refine ⟨lineCount_ofText text, lineLen?_ofText text, fun line => List.getElem?_eq_none_iff,
    textLen_ofText text, textLen_ofText text, fun hlimit => ?_⟩
  refine ⟨fun offset hle => resolve_ofText hle hlimit, ?_, ?_⟩
  · rw [resolve_ofText (Nat.zero_le _) hlimit, List.take_zero]
    rfl
  · have hlast := Text.getLast?_segments '\n' text.toList
    rw [Text.segments_eq_splitOn] at hlast
    refine ⟨_, hlast, ?_⟩
    rw [resolve_ofText (Nat.le_refl _) hlimit, lineCount_ofText, ← String.length_toList,
      List.take_length, Position.behind, List.count, Nat.add_comm (List.length _)]

/-- A text that starts with a line feed and ends with two. -/
theorem index_counts_line_feeds :
    "\nab\n\n".length + 1 < wordLimit ∧ (ofText "\nab\n\n").lineCount = 4
      ∧ (ofText "\nab\n\n").resolve 3 = .ok ⟨2, 3⟩
      ∧ (ofText "\nab\n\n").resolve 5 = .ok ⟨4, 1⟩ := by
  have hlimit : "\nab\n\n".length + 1 < wordLimit := by decide
  obtain ⟨hcount, -, -, -, -, hpositions⟩ := index_counts "\nab\n\n"
  obtain ⟨hresolve, -, -⟩ := hpositions hlimit
  exact ⟨hlimit, hcount, hresolve 3 (by decide), hresolve 5 (by decide)⟩

end LineIndex

end Caret
