import Caret.Formatter
import Caret.Proofs.Lines
import Caret.Proofs.Outcomes

/-!
# Where an error lies in the query as written

A formatter locates an error in the normalized form of a query: characters
are rewritten one by one, the tail of line feeds is dropped, what is left is
cut into lines, and the offset is walked down those lines. None of this
shows in where the error ends up. `Formatter.position_eq_scan` says that the
position is a count on the query *as written*, of which characters are
terminators and of nothing else.

The tail of terminators is where the count stops being plain. All of it is
one line, the one behind the last line of the body, and its columns run on
past any terminators in it. So a query has a **body**, which ends with its
last character that is no terminator, and the count is split there: up to
the end of the body it is `Position.behind`, and past it the columns are
what the offset exceeds the body by.
-/

namespace Caret

/-! ## The body of a query -/

/-- **The length of the body** of a query: what is left of it without its tail
of terminators. -/
def LineTerminators.bodyLength (t : LineTerminators) (cs : List Char) : Nat :=
  (cs.rdropWhile t.contains).length

theorem LineTerminators.bodyLength_le (t : LineTerminators) (cs : List Char) :
    t.bodyLength cs ≤ cs.length :=
  (List.rdropWhile_prefix t.contains cs).length_le

/-- A character is shown as a line feed exactly if it is a terminator. -/
theorem shownChar_beq_lineFeed (t : LineTerminators) (c : Char) :
    (shownChar t c == '\n') = t.contains c := by
  rw [Bool.eq_iff_iff, beq_iff_eq, shownChar_eq_lineFeed_iff, LineTerminators.contains_eq_true]

/-- Dropping a tail commutes with a map that keeps what is to be dropped. -/
theorem dropTrailing_map {p q : Char → Bool} {f : Char → Char} (h : ∀ c, q (f c) = p c)
    (cs : List Char) :
    Text.dropTrailing q (cs.map f) = (Text.dropTrailing p cs).map f := by
  have hcomp : q ∘ f = p := funext h
  rw [Text.dropTrailing, Text.dropTrailing, ← List.map_reverse, List.dropWhile_map, hcomp,
    List.map_reverse]

/-- **The normalized form shows the body**, one character for one. -/
theorem normalizeChars_eq_map (t : LineTerminators) (cs : List Char) :
    normalizeChars t cs = (cs.take (t.bodyLength cs)).map (shownChar t) := by
  rw [normalizeChars, dropTrailing_map (shownChar_beq_lineFeed t)]
  refine congrArg (List.map (shownChar t)) ?_
  exact List.prefix_iff_eq_take.1 (List.rdropWhile_prefix t.contains cs)

theorem length_normalizeChars (t : LineTerminators) (cs : List Char) :
    (normalizeChars t cs).length = t.bodyLength cs := by
  rw [normalizeChars_eq_map, List.length_map, List.length_take,
    Nat.min_eq_left (t.bodyLength_le cs)]

/-! ## The count on the query as written -/

/-- **The position of an offset by a count** through the query as written. -/
def LineTerminators.scan (t : LineTerminators) (cs : List Char) (offset : Nat) : Position :=
  if offset ≤ t.bodyLength cs then .behind t.contains (cs.take offset)
  else ⟨2 + (cs.take (t.bodyLength cs)).countP t.contains, offset - t.bodyLength cs⟩

namespace LineIndex

/-- A source that is no shorter than the text has an index, with the lines of the text. -/
theorem withSourceLen_of_le {text : String} {sourceLen : Nat} (h : text.length ≤ sourceLen) :
    ∃ index, withSourceLen text sourceLen = .ok index
      ∧ index.lineLengths = (Text.segments '\n' text.toList).map List.length
      ∧ index.sourceLen = sourceLen := by
  rw [withSourceLen, dif_pos ((textLen_ofText text).trans_le h)]
  exact ⟨_, rfl, rfl, rfl⟩

end LineIndex

/-- The walk down the lines of the normalized form is the count. -/
theorem walk_normalizeChars (t : LineTerminators) (cs : List Char) (offset : Nat) :
    LineIndex.walk ((Text.segments '\n' (normalizeChars t cs)).map List.length) offset
      = ((t.scan cs offset).line - 1, (t.scan cs offset).column - 1) := by
  rw [LineTerminators.scan]
  by_cases h : offset ≤ t.bodyLength cs
  · have htake : (normalizeChars t cs).take offset = (cs.take offset).map (shownChar t) := by
      rw [normalizeChars_eq_map, ← List.map_take, List.take_take, Nat.min_eq_left h]
    rw [LineIndex.walk_segments _ (by rwa [length_normalizeChars]), if_pos h, htake,
      ← Position.behind_map (q := (· == '\n')) (shownChar_beq_lineFeed t), Position.behind,
      Nat.add_sub_cancel_left, Nat.add_sub_cancel_left]
  · have hne := Text.lengths_segments_ne_nil '\n' (normalizeChars t cs)
    have hlen : LineIndex.lengthOf ((Text.segments '\n' (normalizeChars t cs)).map List.length)
        = t.bodyLength cs := by
      rw [Text.lengthOf_segments, length_normalizeChars]
    have hcount : (normalizeChars t cs).count '\n'
        = (cs.take (t.bodyLength cs)).countP t.contains := by
      rw [normalizeChars_eq_map, List.count, List.countP_map]
      exact List.countP_congr fun c _ => by
        rw [Function.comp_apply, shownChar_beq_lineFeed]
    -- All lines are taken, one more than there are terminators in the body.
    rw [LineIndex.walk_past hne (by rwa [hlen, ← Nat.not_le]), if_neg h, hlen, List.length_map,
      Text.length_segments, hcount]
    refine Prod.ext ?_ ?_
    · show _ + 1 = 2 + _ - 1
      omega
    · show offset - (_ + 1) = offset - _ - 1
      omega

theorem LineTerminators.one_le_scan (t : LineTerminators) (cs : List Char) (offset : Nat) :
    1 ≤ (t.scan cs offset).line ∧ 1 ≤ (t.scan cs offset).column := by
  rw [scan]
  split
  · exact ⟨Nat.le_add_right _ _, Nat.le_add_right _ _⟩
  · rename_i h
    refine ⟨?_, ?_⟩
    · show 1 ≤ 2 + _
      omega
    · show 1 ≤ offset - _
      omega

namespace Formatter

/-- **A formatter locates by an index** of the lines of the normalized form, whose source is
the query as written. -/
theorem exists_index (f : Formatter) (query : String) :
    ∃ index : LineIndex,
      index.lineLengths
          = (Text.segments '\n' (normalizeChars f.terminators query.toList)).map List.length
        ∧ index.sourceLen = query.length
        ∧ ∀ offset ≤ query.length, f.position query offset = index.resolve offset := by
  have hle : (f.normalize query).length ≤ query.length := by
    rw [← String.length_toList, ← String.length_toList, normalize, toList_normalize,
      length_normalizeChars]
    exact f.terminators.bodyLength_le _
  obtain ⟨index, hindex, hlines, hsource⟩ := LineIndex.withSourceLen_of_le hle
  refine ⟨index, ?_, hsource, fun offset hoffset => ?_⟩
  · rw [hlines, normalize, toList_normalize]
  · rw [position, if_pos hoffset, hindex]
    rfl

/-- **A formatter locates by counting through the query as written.** -/
theorem position_eq_scan (f : Formatter) {query : String} {offset : Nat}
    (h : offset ≤ query.length) (hlimit : offset + 1 < wordLimit) :
    f.position query offset = .ok (f.terminators.scan query.toList offset) := by
  obtain ⟨index, hlines, hsource, hresolve⟩ := f.exists_index query
  have hpos := f.terminators.one_le_scan query.toList offset
  rw [hresolve offset h, LineIndex.resolve_of_le (h.trans_eq hsource.symm) hlimit, hlines,
    walk_normalizeChars]
  show Except.ok (⟨_ - 1 + 1, _ - 1 + 1⟩ : Position) = _
  rw [Nat.sub_add_cancel hpos.1, Nat.sub_add_cancel hpos.2]

/-- **Queries with one normalized form have their positions in common**, as far as both go. -/
theorem position_congr {f g : Formatter} {query other : String}
    (h : g.normalize other = f.normalize query) {offset : Nat} (hquery : offset ≤ query.length)
    (hother : offset ≤ other.length) : g.position other offset = f.position query offset := by
  obtain ⟨a, halines, hasource, hposition⟩ := f.exists_index query
  obtain ⟨b, hblines, hbsource, hposition'⟩ := g.exists_index other
  have hchars : normalizeChars g.terminators other.toList
      = normalizeChars f.terminators query.toList := by
    rw [← toList_normalize, ← toList_normalize]
    exact congrArg String.toList h
  rw [hposition offset hquery, hposition' offset hother]
  refine LineIndex.resolve_congr ?_ (hother.trans_eq hbsource.symm)
    (hquery.trans_eq hasource.symm)
  rw [hblines, halines, hchars]

theorem le_of_position {f : Formatter} {query : String} {offset : Nat} {p : Position}
    (h : f.position query offset = .ok p) : offset ≤ query.length := by
  rw [position] at h
  split at h
  · assumption
  · cases h

/-- A position that is found counts from one. -/
theorem one_le_of_position {f : Formatter} {query : String} {offset : Nat} {p : Position}
    (h : f.position query offset = .ok p) : 1 ≤ p.line ∧ 1 ≤ p.column := by
  obtain ⟨index, -, -, hresolve⟩ := f.exists_index query
  rw [hresolve offset (le_of_position h)] at h
  exact LineIndex.one_le_of_resolve h

/-- A position that is found is where the walk down the lines of the normalized form ends. -/
theorem walk_of_position {f : Formatter} {query : String} {offset : Nat} {p : Position}
    (h : f.position query offset = .ok p) :
    LineIndex.walk ((Text.segments '\n' (f.normalize query).toList).map List.length) offset
      = (p.line - 1, p.column - 1) := by
  obtain ⟨index, hlines, -, hresolve⟩ := f.exists_index query
  rw [hresolve offset (le_of_position h)] at h
  obtain ⟨-, -, -, rfl⟩ := LineIndex.resolve_eq_ok_iff_walk.1 h
  rw [hlines, normalize, toList_normalize]
  rfl

/-- **No two offsets of a query are at one position**, those in its tail included. -/
theorem position_inj {f : Formatter} {query : String} {a b : Nat} {p : Position}
    (ha : f.position query a = .ok p) (hb : f.position query b = .ok p) : a = b := by
  obtain ⟨index, -, -, hresolve⟩ := f.exists_index query
  rw [hresolve a (le_of_position ha)] at ha
  rw [hresolve b (le_of_position hb)] at hb
  exact LineIndex.resolve_inj ha hb

end Formatter

/-! ## The error -/

namespace Formatter

/-- **What an error is made of**: the position that the offset resolves to, if there
is an offset, and everything else as given. -/
theorem error_eq_ok_iff {f : Formatter} {o : Occurrence} {description : String}
    {cause : Option Cause} {e : QueryError} :
    f.error o description cause = .ok e
      ↔ ∃ p, o.offset.mapM (f.position o.query) = .ok p
        ∧ e = f.compose description p o.label cause := by
  unfold error
  refine bind_eq_ok_iff.trans (exists_congr fun p => and_congr_right fun _ => ?_)
  show Except.ok _ = Except.ok e ↔ _
  rw [Except.ok.injEq, eq_comm]

/-- An error depends on its formatter and its query by the phrases, the resources and the
position of its offset. -/
theorem error_congr {f g : Formatter} {query other : String} {offset : Option Nat}
    (hphrases : g.phrases = f.phrases) (hresources : g.resources = f.resources)
    (h : ∀ n ∈ offset, g.position other n = f.position query n) (label : Option Label)
    (description : String) (cause : Option Cause) :
    g.error ⟨other, offset, label⟩ description cause
      = f.error ⟨query, offset, label⟩ description cause := by
  have hlabel : g.labelText? = f.labelText? := by
    funext label
    unfold labelText?
    rw [hresources]
  have hcompose : ∀ p, g.compose description p label cause
      = f.compose description p label cause := fun p => by
    unfold compose
    rw [hphrases, hlabel]
  unfold error
  simp only [hcompose]
  cases offset with
  | none => rfl
  | some n =>
    show (g.position other n).map some >>= _ = (f.position query n).map some >>= _
    rw [h n rfl]

/-- The error for an offset is composed with its count. -/
theorem error_eq_scan (f : Formatter) {query : String} {offset : Nat} (label : Option Label)
    (description : String) (cause : Option Cause) (h : offset ≤ query.length)
    (hlimit : offset + 1 < wordLimit) :
    f.error ⟨query, some offset, label⟩ description cause
      = .ok (f.compose description (some (f.terminators.scan query.toList offset)) label
        cause) := by
  refine error_eq_ok_iff.2 ⟨_, ?_, rfl⟩
  rw [Option.mapM_some, f.position_eq_scan h hlimit]
  rfl

/-- An error is made for every offset of a query, and where there is none. -/
theorem exists_error (f : Formatter) {query : String} {offset : Option Nat}
    (label : Option Label) (description : String) (cause : Option Cause)
    (h : ∀ n ∈ offset, n ≤ query.length) (hlimit : query.length + 1 < wordLimit) :
    ∃ e, f.error ⟨query, offset, label⟩ description cause = .ok e := by
  cases offset with
  | none => exact ⟨_, error_eq_ok_iff.2 ⟨none, rfl, rfl⟩⟩
  | some offset =>
    have hle := h offset rfl
    exact ⟨_, f.error_eq_scan label description cause hle (by omega)⟩

/-- The offset and what it resolves to are both there or both absent, and the position counts
from one. -/
theorem mapM_position_eq_ok_iff {f : Formatter} {query : String} {offset : Option Nat}
    {p : Option Position} :
    offset.mapM (f.position query) = .ok p
      ↔ (offset = none ∧ p = none)
        ∨ ∃ n q, offset = some n ∧ p = some q ∧ f.position query n = .ok q := by
  cases offset with
  | none =>
    rw [Option.mapM_none]
    constructor
    · rintro ⟨⟩
      exact .inl ⟨rfl, rfl⟩
    · rintro (⟨-, rfl⟩ | ⟨n, q, h, -⟩)
      · rfl
      · cases h
  | some n =>
    rw [Option.mapM_some, map_eq_ok_iff]
    constructor
    · rintro ⟨q, hq, rfl⟩
      exact .inr ⟨n, q, rfl, rfl, hq⟩
    · rintro (⟨h, -⟩ | ⟨_, q, ⟨⟩, rfl, hq⟩)
      · cases h
      · exact ⟨q, hq, rfl⟩

/-- The position of an error is the one it was composed with. -/
theorem position?_compose {f : Formatter} {query : String} {offset : Option Nat}
    {p : Option Position} (h : offset.mapM (f.position query) = .ok p) (description : String)
    (label : Option Label) (cause : Option Cause) :
    (f.compose description p label cause).position? = p := by
  obtain ⟨-, rfl⟩ | ⟨n, q, -, rfl, hq⟩ := mapM_position_eq_ok_iff.1 h
  · rfl
  · obtain ⟨hline, hcolumn⟩ := one_le_of_position hq
    show (if q.line = 0 ∨ q.column = 0 then none else some ⟨q.line, q.column⟩) = some q
    rw [if_neg (by omega)]

end Formatter

/-- Counting up to the end of the body reads nothing behind the offset. -/
theorem LineTerminators.scan_congr {t u : LineTerminators} {cs ds : List Char} {offset : Nat}
    (hmem : ∀ c, u.contains c = t.contains c) (htake : ds.take offset = cs.take offset)
    (ht : offset ≤ t.bodyLength cs) (hu : offset ≤ u.bodyLength ds) :
    u.scan ds offset = t.scan cs offset := by
  have hcontains : u.contains = t.contains := funext hmem
  rw [scan, if_pos hu, scan, if_pos ht, htake, hcontains]

/-- **An error is located by counting through the query as written.** Up to the end of the
body, which is the query without its tail of terminators, the line counts the terminators
before the offset and the column what stands behind the last of them; what the characters
are shown as and what follows the offset make no difference. Past the body, the line is the
one behind its last and the column is what the offset exceeds the body by. -/
theorem error_location (f : Formatter) (query : String) (offset : Nat) (label : Option Label)
    (description : String) (cause : Option Cause) (hoffset : offset ≤ query.length)
    (hlimit : query.length + 1 < wordLimit) :
    ∃ e, f.error ⟨query, some offset, label⟩ description cause = .ok e
      ∧ (offset ≤ f.terminators.bodyLength query.toList →
          e.state.line = 1 + (query.toList.take offset).countP f.terminators.contains
          ∧ e.state.column = 1 + ((query.toList.take offset).rtakeWhile
              (fun c => !f.terminators.contains c)).length)
      ∧ (f.terminators.bodyLength query.toList < offset →
          e.state.line = 2 + (query.toList.take (f.terminators.bodyLength query.toList)).countP
              f.terminators.contains
          ∧ e.state.column = offset - f.terminators.bodyLength query.toList)
      ∧ (offset ≤ f.terminators.bodyLength query.toList →
          ∀ (g : Formatter) (other : String) (label' : Option Label) (description' : String)
            (cause' : Option Cause),
          (∀ c, g.terminators.contains c = f.terminators.contains c) →
          other.toList.take offset = query.toList.take offset →
          offset ≤ g.terminators.bodyLength other.toList →
          ∃ e', g.error ⟨other, some offset, label'⟩ description' cause' = .ok e'
            ∧ e'.state.line = e.state.line ∧ e'.state.column = e.state.column) := by
  have hword : offset + 1 < wordLimit := by omega
  refine ⟨_, f.error_eq_scan label description cause hoffset hword, ?_, ?_, ?_⟩
  · intro hbody
    show (f.terminators.scan _ _).line = _ ∧ (f.terminators.scan _ _).column = _
    rw [LineTerminators.scan, if_pos hbody]
    exact ⟨rfl, rfl⟩
  · intro htail
    show (f.terminators.scan _ _).line = _ ∧ (f.terminators.scan _ _).column = _
    rw [LineTerminators.scan, if_neg (Nat.not_le.2 htail)]
    exact ⟨rfl, rfl⟩
  · intro hbody g other label' description' cause' hmem htake hother
    have hle : offset ≤ other.length := by
      rw [← String.length_toList]
      exact hother.trans (g.terminators.bodyLength_le _)
    have hscan := LineTerminators.scan_congr hmem htake hbody hother
    refine ⟨_, g.error_eq_scan label' description' cause' hle hword, ?_, ?_⟩
    · exact congrArg Position.line hscan
    · exact congrArg Position.column hscan

/-- With blanks and carriage returns for terminators too, an offset in the tail of a query is
on the line behind its body. -/
theorem error_location_tail :
    let f : Formatter := { terminators := .ofList ['\r', ' '] }
    6 ≤ "a b\r\n \r\n".length ∧ "a b\r\n \r\n".length + 1 < wordLimit
      ∧ ∃ e, f.error ⟨"a b\r\n \r\n", some 6, none⟩ "unexpected end" none = .ok e
        ∧ e.state.line = 3 ∧ e.state.column = 3 := by
  intro f
  refine ⟨by decide, by decide, ?_⟩
  obtain ⟨e, he, -, htail, -⟩ := error_location f "a b\r\n \r\n" 6 none "unexpected end" none
    (by decide) (by decide)
  exact ⟨e, he, htail (by decide)⟩

end Caret
