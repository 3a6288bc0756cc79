import Caret.Proofs.Yaml.Lexemes

/-!
# The layout of a JSON text

YAML takes a JSON text for a collection between brackets. Scanning its tokens is
followed here from lexeme to lexeme, as long as the text has lexemes of JSON left.

The invariant is `Midway`. Outside brackets nothing but the outermost bracket is
ever added, so no block collection is opened, and the tokens of what has been read
are final, except that a key may still be marked at its colon. Whether it is, the
text decides: a key is only marked where it is still known for a possible one.

A layout may also come to a fault and have no tokens at all, so each lemma says what
becomes of a layout that has tokens in the end.
-/

namespace Caret.Yaml

open Json (HasLexemes Begins LexemeKind)

/-! ## Layouts -/

/-- **A layout without block collections**, with its tokens, the last one first, and the number
of its open brackets. -/
structure Layout.Holds (s : Layout) (tokens : List Token) (depth : Nat) : Prop where
  tokens_eq : s.tokens = tokens
  indents_eq : s.indents = []
  depth_eq : s.outerKeys.length = depth

namespace Layout.Holds

variable {s s' : Layout} {tokens : List Token} {depth : Nat}

theorem inFlow_succ (h : s.Holds tokens (depth + 1)) : s.inFlow = true := by
  obtain ⟨key, keys, hkeys⟩ := List.exists_cons_of_length_eq_add_one h.depth_eq
  rw [inFlow, hkeys]
  rfl

theorem indent_eq (h : s.Holds tokens depth) : s.indent = -1 := by
  rw [indent, h.indents_eq]

/-- No block collection is ended. -/
theorem closeBlocks (h : s.Holds tokens depth) (column : Int) :
    (s.closeBlocks column).Holds tokens depth ∧ (s.closeBlocks column).keyAllowed = s.keyAllowed
      ∧ (s.closeBlocks column).key = s.key := by
  rw [Layout.closeBlocks]
  split
  · exact ⟨h, rfl, rfl⟩
  · rw [h.indents_eq]
    exact ⟨⟨h.tokens_eq, rfl, h.depth_eq⟩, rfl, rfl⟩

/-- No block collection is started. -/
theorem openBlock_eq (h : s.Holds tokens (depth + 1)) (isMapping : Bool) (column number : Nat) :
    s.openBlock isMapping column number = s := by
  rw [openBlock, h.inFlow_succ]
  rfl

/-- Giving up the possible key changes nothing else. -/
theorem dropKey (h : s.Holds tokens depth) (hdrop : s.dropKey = some s') :
    s'.Holds tokens depth := by
  rw [Layout.dropKey] at hdrop
  split at hdrop
  · cases hdrop
    exact h
  · split at hdrop
    · cases hdrop
    · cases hdrop
      exact ⟨h.tokens_eq, h.indents_eq, h.depth_eq⟩

/-- Where a key may start, it starts behind the tokens so far. -/
theorem noteKey (h : s.Holds tokens depth) {g : Glyph} (hnote : s.noteKey g = some s') :
    s'.Holds tokens depth
      ∧ (s.keyAllowed = true → ∃ k, s'.key = some k ∧ k.number = tokens.length) := by
  rw [Layout.noteKey] at hnote
  split at hnote
  · obtain ⟨s₁, hdrop, rfl⟩ := Option.map_eq_some_iff.1 hnote
    obtain ⟨htokens, hindents, hdepth⟩ := h.dropKey hdrop
    refine ⟨⟨htokens, hindents, hdepth⟩, fun _ => ⟨_, rfl, ?_⟩⟩
    rw [h.tokens_eq]
  · rename_i hkey
    cases hnote
    exact ⟨h, fun hkey' => absurd hkey' hkey⟩

/-- A lexeme that may start a key is added. -/
theorem addKeyStart (h : s.Holds tokens depth) {g : Glyph} {l : Lexeme} {keyAllowed : Bool}
    (hadd : s.addKeyStart g l keyAllowed = some s') :
    s'.Holds (.lexeme l :: tokens) depth ∧ s'.keyAllowed = keyAllowed
      ∧ (s.keyAllowed = true → ∃ k, s'.key = some k ∧ k.number = tokens.length) := by
  obtain ⟨s₁, hnote, rfl⟩ := Option.map_eq_some_iff.1 hadd
  obtain ⟨⟨htokens, hindents, hdepth⟩, hkey⟩ := h.noteKey hnote
  exact ⟨⟨congrArg (_ :: ·) htokens, hindents, hdepth⟩, rfl, hkey⟩

/-- A lexeme that ends a possible key is added. -/
theorem addPlain (h : s.Holds tokens depth) {l : Lexeme} {keyAllowed : Bool}
    (hadd : s.addPlain l keyAllowed = some s') :
    s'.Holds (.lexeme l :: tokens) depth ∧ s'.keyAllowed = keyAllowed := by
  obtain ⟨s₁, hdrop, rfl⟩ := Option.map_eq_some_iff.1 hadd
  obtain ⟨htokens, hindents, hdepth⟩ := h.dropKey hdrop
  exact ⟨⟨congrArg (_ :: ·) htokens, hindents, hdepth⟩, rfl⟩

/-- An opening bracket is added, behind which a key may start. -/
theorem addOpen (h : s.Holds tokens depth) {g : Glyph} {isMapping : Bool}
    (hadd : s.add g (.open isMapping) = some s') :
    s'.Holds (.lexeme (.open isMapping) :: tokens) (depth + 1) ∧ s'.keyAllowed = true := by
  obtain ⟨s₁, hstart, rfl⟩ := Option.map_eq_some_iff.1 hadd
  obtain ⟨⟨htokens, hindents, hdepth⟩, hallowed, -⟩ := h.addKeyStart hstart
  exact ⟨⟨htokens, hindents, congrArg (· + 1) hdepth⟩, hallowed⟩

/-- A closing bracket is added, behind which no key may start. -/
theorem addClose (h : s.Holds tokens (depth + 1)) {g : Glyph} {isMapping : Bool}
    (hadd : s.add g (.close isMapping) = some s') :
    s'.Holds (.lexeme (.close isMapping) :: tokens) depth ∧ s'.keyAllowed = false := by
  obtain ⟨s₁, hplain, rfl⟩ := Option.map_eq_some_iff.1 hadd
  obtain ⟨⟨htokens, hindents, hdepth⟩, hallowed⟩ := h.addPlain hplain
  obtain ⟨key, keys, hkeys⟩ := List.exists_cons_of_length_eq_add_one hdepth
  rw [hkeys] at hdepth ⊢
  exact ⟨⟨htokens, hindents, Nat.succ.inj hdepth⟩, hallowed⟩

/-- **A colon behind a possible key marks it**, if the key is still known. -/
theorem addColon {l : Lexeme} (h : s.Holds (.lexeme l :: tokens) (depth + 1))
    (hkey : ∀ k ∈ s.key, k.number = tokens.length) {g : Glyph} (hadd : s.addColon g = some s') :
    ∃ mark, (mark = [] ∨ mark = [.lexeme .key])
      ∧ s'.Holds (.lexeme .value :: .lexeme l :: (mark ++ tokens)) (depth + 1)
      ∧ s'.keyAllowed = false := by
  rw [Layout.addColon] at hadd
  split at hadd
  · rename_i k hk
    cases hadd
    have hinsert : (s.insertAt k.number (.lexeme .key)).Holds
        (.lexeme l :: .lexeme .key :: tokens) (depth + 1) := by
      refine ⟨?_, h.indents_eq, h.depth_eq⟩
      rw [insertAt, h.tokens_eq, hkey k hk, List.length_cons, Nat.add_sub_cancel_left]
      rfl
    rw [hinsert.openBlock_eq]
    refine ⟨[.lexeme .key], .inr rfl, ⟨?_, hinsert.indents_eq, hinsert.depth_eq⟩, rfl⟩
    exact congrArg (_ :: ·) hinsert.tokens_eq
  · rw [openBlockFor, h.inFlow_succ] at hadd
    obtain ⟨s₁, hs₁, rfl⟩ := Option.map_eq_some_iff.1 hadd
    cases hs₁
    refine ⟨[], .inl rfl, ⟨congrArg (_ :: ·) h.tokens_eq, h.indents_eq, h.depth_eq⟩, ?_⟩
    show (!s.inFlow) = false
    rw [h.inFlow_succ]
    rfl

end Layout.Holds

/-! ### Possible keys that are given up -/

theorem mem_of_dropIfStale {g : Glyph} {key key' : Option PossibleKey}
    (h : Layout.dropIfStale g key = some key') : ∀ k ∈ key', k ∈ key := by
  unfold Layout.dropIfStale at h
  split at h
  · cases h
    exact fun _ hk => hk
  · split at h
    · cases h
      exact fun _ hk => hk
    · split at h
      · cases h
      · cases h
        exact fun _ hk => (nomatch hk)

theorem length_of_mapM_eq_some {α β : Type} {f : α → Option β} {as : List α} {bs : List β}
    (h : as.mapM f = some bs) : bs.length = as.length := by
  induction as generalizing bs with
  | nil =>
    cases h
    rfl
  | cons a as ih =>
    rw [List.mapM_cons] at h
    obtain ⟨b, -, h⟩ := Option.bind_eq_some_iff.1 h
    obtain ⟨bs', hbs, h⟩ := Option.bind_eq_some_iff.1 h
    cases h
    rw [List.length_cons, List.length_cons, ih hbs]

/-- **Before a lexeme only possible keys are given up.** -/
theorem Layout.Holds.before {s here : Layout} {tokens : List Token} {depth : Nat}
    (h : s.Holds tokens depth) {keyAllowed : Bool} {g : Glyph}
    (hbefore : s.before keyAllowed g = some here) :
    here.Holds tokens depth ∧ here.keyAllowed = keyAllowed ∧ ∀ k ∈ here.key, k ∈ s.key := by
  obtain ⟨s₁, hstale, rfl⟩ := Option.map_eq_some_iff.1 hbefore
  obtain ⟨key, hkey, hstale⟩ := Option.bind_eq_some_iff.1 hstale
  obtain ⟨outerKeys, houter, hstale⟩ := Option.bind_eq_some_iff.1 hstale
  cases hstale
  have hlength := (length_of_mapM_eq_some houter).trans h.depth_eq
  have hholds : Layout.Holds { s with keyAllowed, key, outerKeys } tokens depth :=
    ⟨h.tokens_eq, h.indents_eq, hlength⟩
  obtain ⟨hclosed, hallowed, hkeys⟩ := hholds.closeBlocks g.column
  refine ⟨hclosed, hallowed, ?_⟩
  rw [hkeys]
  exact mem_of_dropIfStale hkey

/-! ## One lexeme -/

/-- **What scanning the tokens of a text does next**: it comes to the end or to a lexeme, and
goes on behind that. -/
theorem exists_of_tokensFrom {s : Layout} {gs : List Glyph} {ts : List Token}
    (h : tokensFrom s gs = some ts) :
    ∃ keyAllowed g rest here, skipBetween s.inFlow s.keyAllowed false gs = (keyAllowed, g :: rest)
      ∧ s.before keyAllowed g = some here
      ∧ ((g.isEnd = true ∧ (here.closeBlocks (-1)).dropKey.map (·.tokens.reverse) = some ts)
        ∨ (g.isEnd = false ∧ ∃ l behind next,
          scanLexeme here.inFlow here.indent (g :: rest) = some (l, behind)
            ∧ here.add g l = some next ∧ tokensFrom next behind = some ts)) := by
  rw [tokensFrom] at h
  split at h
  · cases h
  · rename_i keyAllowed g rest hskip
    split at h
    · cases h
    · rename_i here hbefore
      refine ⟨keyAllowed, g, rest, here, hskip, hbefore, ?_⟩
      split at h
      · rename_i hend
        exact .inl ⟨hend, h⟩
      · rename_i hend
        refine .inr ⟨Bool.eq_false_iff.2 hend, ?_⟩
        split at h
        · cases h
        · rename_i l behind hscan
          split at h
          · cases h
          · rename_i next hadd
            exact ⟨l, behind, next, hscan, hadd, h⟩

/-- **Behind a gap, scanning comes to the glyph that ends the gap**, as at a tab it would fail.
The layout has only given up possible keys there. -/
theorem Layout.Holds.exists_here {s : Layout} {tokens : List Token} {depth : Nat}
    (hs : s.Holds tokens depth) {between : List Glyph} (hbetween : IsBetween between) {g : Glyph}
    (hg : g.StopsGap) {gs : List Glyph} {ts : List Token}
    (h : tokensFrom s (between ++ g :: gs) = some ts) :
    ∃ here : Layout, here.Holds tokens depth ∧ (∀ k ∈ here.key, k ∈ s.key)
      ∧ (depth ≠ 0 ∨ s.keyAllowed = true → here.keyAllowed = s.keyAllowed)
      ∧ ((g.isEnd = true ∧ (here.closeBlocks (-1)).dropKey.map (·.tokens.reverse) = some ts)
        ∨ (g.isEnd = false ∧ ∃ l behind next,
          scanLexeme here.inFlow (-1) (g :: gs) = some (l, behind)
            ∧ here.add g l = some next ∧ tokensFrom next behind = some ts)) := by
  obtain ⟨keyAllowed, g', gs', here, hskip, hbefore, hnext⟩ := exists_of_tokensFrom h
  obtain ⟨hhere, hallowed, hkeys⟩ := hs.before hbefore
  rw [hhere.indent_eq] at hnext
  rcases skipBetween_between s.inFlow s.keyAllowed hbetween hg gs with
    ⟨_, hkept, heq⟩ | ⟨_, t, _, ht, heq⟩
  · rw [heq] at hskip
    cases hskip
    refine ⟨here, hhere, hkeys, fun hdepth => ?_, hnext⟩
    refine hallowed.trans (hkept (hdepth.imp_left fun hdepth => ?_))
    obtain ⟨depth, rfl⟩ := Nat.exists_eq_succ_of_ne_zero hdepth
    exact hs.inFlow_succ
  · rw [heq] at hskip
    cases hskip
    rcases hnext with ⟨hend, -⟩ | ⟨-, _, _, _, hscan, -⟩
    · rw [Glyph.isEnd, ht] at hend
      cases hend
    · rw [scanLexeme_tab _ _ ht] at hscan
      cases hscan

/-- **A layout midway in a text** that has the tokens `ts` in the end: its tokens so far, its open
brackets, and the kinds of the lexemes that are left. -/
structure Midway (ts tokens : List Token) (depth : Nat) (kinds : List LexemeKind) (s : Layout) :
    Prop where
  holds : s.Holds tokens depth
  goesOn : ∃ cs i l k, HasLexemes kinds cs ∧ IsFoldFree cs
    ∧ tokensFrom s (glyphsFrom i l k cs) = some ts

namespace Midway

variable {ts tokens : List Token} {depth : Nat} {kinds : List LexemeKind} {s : Layout}

/-- **The next lexeme** is scanned and added, and the text goes on behind it. -/
theorem exists_next {kind : LexemeKind} (h : Midway ts tokens depth (kind :: kinds) s)
    (hkind : ¬ kind.IsFault) (hallowed : depth ≠ 0 ∨ s.keyAllowed = true) :
    ∃ here : Layout, here.Holds tokens depth ∧ here.keyAllowed = s.keyAllowed
      ∧ (∀ k ∈ here.key, k ∈ s.key)
      ∧ ∃ c cs rest i l k lexeme behind next, Begins kind (c :: cs) rest
        ∧ HasLexemes kinds rest ∧ IsFoldFree (c :: cs) ∧ IsFoldFree rest
        ∧ scanLexeme here.inFlow (-1) (⟨c, i, l, k⟩ :: glyphsFrom (i + c.utf8Size) l (k + 1) cs)
          = some (lexeme, behind)
        ∧ here.add ⟨c, i, l, k⟩ lexeme = some next ∧ tokensFrom next behind = some ts := by
  obtain ⟨hs, _, index, line, column, hlexemes, hfold, hgoesOn⟩ := h
  cases hlexemes with
  | @cons gap _ front rest _ hgap hfront hrest =>
    obtain ⟨c, cs, taken, hc, rfl, htaken⟩ := exists_of_begins hfront hkind
    have hspace : ∀ x ∈ (c :: cs).head?, Json.isSpace x = false := by
      intro x hx
      cases hx
      exact isSpace_of_class (by decide) hc
    obtain ⟨between, i, l, k, hbetween, hglyphs⟩ := glyphsFrom_gap index line column hgap hspace
    rw [hglyphs, glyphsFrom_cons i l k (break?_of_class (by decide) hc)] at hgoesOn
    obtain ⟨here, hhere, hkeys, hkept, hend | hnext⟩ := hs.exists_here hbetween (.inl hc) hgoesOn
    · exact absurd (beq_iff_eq.1 hend.1) (ne_of_class hc (by decide))
    · obtain ⟨-, lexeme, behind, next, hscan, hadd, hnext⟩ := hnext
      have hfold' : IsFoldFree rest := IsFoldFree.of_append (htaken ▸ hfold.of_append)
      exact ⟨here, hhere, hkept hallowed, hkeys, c, cs, rest, i, l, k, lexeme, behind, next, hfront,
        hrest, hfold.of_append, hfold', hscan, hadd, hnext⟩

/-- **At the end of a text its tokens are those so far.** -/
theorem tokens_eq (h : Midway ts tokens depth [] s) : ts = tokens.reverse := by
  obtain ⟨hs, _, index, line, column, hlexemes, -, hgoesOn⟩ := h
  cases hlexemes with
  | @nil gap hgap =>
    have hspace : ∀ x ∈ ([] : List Char).head?, Json.isSpace x = false := nofun
    obtain ⟨between, i, l, k, hbetween, hglyphs⟩ := glyphsFrom_gap index line column hgap hspace
    rw [List.append_nil] at hglyphs
    rw [hglyphs, glyphsFrom] at hgoesOn
    obtain ⟨here, hhere, -, -, hend | hnext⟩ := hs.exists_here hbetween (.inr rfl) hgoesOn
    · obtain ⟨last, hlast, rfl⟩ := Option.map_eq_some_iff.1 hend.2
      rw [((hhere.closeBlocks (-1)).1.dropKey hlast).tokens_eq]
    · cases hnext.1

/-- **A bracket, comma or colon is read.** Outside brackets there is no colon. -/
theorem exists_add {kind : LexemeKind} {lexeme : Lexeme}
    (h : Midway ts tokens depth (kind :: kinds) s) (hmark : mark? kind = some lexeme)
    (hallowed : depth ≠ 0 ∨ s.keyAllowed = true ∧ kind ≠ .colon) :
    ∃ here next : Layout, ∃ g, here.Holds tokens depth ∧ (∀ k ∈ here.key, k ∈ s.key)
      ∧ here.add g lexeme = some next
      ∧ ∃ cs i l k, HasLexemes kinds cs ∧ IsFoldFree cs
        ∧ tokensFrom next (glyphsFrom i l k cs) = some ts := by
  have hkind : ¬ kind.IsFault := by
    intro hfault
    cases kind with
    | brokenText | broken | stray => cases hmark
    | _ => exact hfault
  obtain ⟨here, hhere, -, hkeys, c, cs, rest, i, l, k, lexeme', behind, next, hbegins, hrest, -,
    hfold, hscan, hadd, hnext⟩ := h.exists_next hkind (hallowed.imp_right And.left)
  cases hbegins with
  | punctuation hc =>
    have hflow : here.inFlow = true ∨ kind ≠ .colon := by
      refine hallowed.imp (fun hdepth => ?_) And.right
      obtain ⟨depth, rfl⟩ := Nat.exists_eq_succ_of_ne_zero hdepth
      exact hhere.inFlow_succ
    rw [scanLexeme_punctuation hc hmark hflow] at hscan
    cases hscan
    exact ⟨here, next, _, hhere, hkeys, hadd, _, _, _, _, hrest, hfold, hnext⟩
  | word | number | text => cases hmark
  | fault hfault => exact absurd hfault hkind

/-- **A comma is read**, and a key may follow it. -/
theorem comma (h : Midway ts tokens (depth + 1) (.comma :: kinds) s) :
    ∃ next, Midway ts (.lexeme .comma :: tokens) (depth + 1) kinds next
      ∧ next.keyAllowed = true := by
  obtain ⟨here, next, g, hhere, -, hadd, hgoesOn⟩ :=
    h.exists_add rfl (.inl (Nat.succ_ne_zero depth))
  obtain ⟨hholds, hallowed⟩ := hhere.addPlain hadd
  exact ⟨next, ⟨hholds, hgoesOn⟩, hallowed⟩

/-- **An opening bracket is read**, and a key may follow it. -/
theorem openBracket {kind : LexemeKind} {isMapping : Bool}
    (h : Midway ts tokens depth (kind :: kinds) s) (hmark : mark? kind = some (.open isMapping))
    (hallowed : depth ≠ 0 ∨ s.keyAllowed = true) :
    ∃ next, Midway ts (.lexeme (.open isMapping) :: tokens) (depth + 1) kinds next
      ∧ next.keyAllowed = true := by
  have hcolon : kind ≠ .colon := by
    rintro rfl
    cases hmark
  obtain ⟨here, next, g, hhere, -, hadd, hgoesOn⟩ :=
    h.exists_add hmark (hallowed.imp_right fun hallowed => ⟨hallowed, hcolon⟩)
  obtain ⟨hholds, hallowed⟩ := hhere.addOpen hadd
  exact ⟨next, ⟨hholds, hgoesOn⟩, hallowed⟩

/-- **A closing bracket is read**, and no key may follow it. -/
theorem close {kind : LexemeKind} {isMapping : Bool}
    (h : Midway ts tokens (depth + 1) (kind :: kinds) s)
    (hmark : mark? kind = some (.close isMapping)) :
    ∃ next, Midway ts (.lexeme (.close isMapping) :: tokens) depth kinds next
      ∧ next.keyAllowed = false := by
  obtain ⟨here, next, g, hhere, -, hadd, hgoesOn⟩ :=
    h.exists_add hmark (.inl (Nat.succ_ne_zero depth))
  obtain ⟨hholds, hallowed⟩ := hhere.addClose hadd
  exact ⟨next, ⟨hholds, hgoesOn⟩, hallowed⟩

/-- **A colon is read** behind the lexeme of a possible key. -/
theorem colon {lexeme : Lexeme}
    (h : Midway ts (.lexeme lexeme :: tokens) (depth + 1) (.colon :: kinds) s)
    (hkey : ∀ k ∈ s.key, k.number = tokens.length) :
    ∃ mark next, (mark = [] ∨ mark = [.lexeme .key])
      ∧ Midway ts (.lexeme .value :: .lexeme lexeme :: (mark ++ tokens)) (depth + 1) kinds
        next := by
  obtain ⟨here, next, g, hhere, hkeys, hadd, hgoesOn⟩ :=
    h.exists_add rfl (.inl (Nat.succ_ne_zero depth))
  obtain ⟨mark, hmark, hholds, -⟩ := hhere.addColon (fun k hk => hkey k (hkeys k hk)) hadd
  exact ⟨mark, next, hmark, hholds, hgoesOn⟩

/-- **A text is read**, as a possible key if a key may start there. It could be taken. -/
theorem text {taken : Except Json.Fault String}
    (h : Midway ts tokens (depth + 1) (.scalar (.text taken) :: kinds) s) :
    ∃ t next, taken = .ok t
      ∧ Midway ts (.lexeme (.quoted t.toList) :: tokens) (depth + 1) kinds next
      ∧ (s.keyAllowed = true → ∀ k ∈ next.key, k.number = tokens.length) := by
  obtain ⟨here, hhere, hallowed, -, c, cs, rest, i, l, k, lexeme, behind, next, hbegins, hrest,
    hfold, hfold', hscan, hadd, hnext⟩ := h.exists_next id (.inl (Nat.succ_ne_zero depth))
  obtain ⟨_, _, _, heq, hskip, rfl⟩ := hbegins.exists_of_text
  cases heq
  rw [scanLexeme_quote] at hscan
  obtain ⟨⟨t, _⟩, ht, heq⟩ := Option.map_eq_some_iff.1 hscan
  cases heq
  obtain ⟨t', htake, ht', _, _, _, hbehind⟩ :=
    doubleQuoted_of_skipText hskip hfold.tail (Gap.fits_empty _) ht
  obtain rfl : t = t' := ht'
  obtain ⟨hholds, -, hkey⟩ := hhere.addKeyStart hadd
  refine ⟨String.ofList t, next, ?_, ⟨?_, rest, _, _, _, hrest, hfold', hbehind ▸ hnext⟩, ?_⟩
  · rw [htake]
    rfl
  · rw [String.toList_ofList]
    exact hholds
  · intro hs k hk
    obtain ⟨k', hk', hnumber⟩ := hkey (hallowed.trans hs)
    rw [hk'] at hk
    cases hk
    exact hnumber

/-- **A number or word is read** in front of what may follow a value. -/
theorem word {value : Json.Scalar} {kind : LexemeKind}
    (h : Midway ts tokens (depth + 1) (.scalar value :: kind :: kinds) s)
    (hvalue : ∀ r, value ≠ .text r) (hkind : EndsValue kind) :
    ∃ text endsLine next, IsWordOf value text
      ∧ Midway ts (.lexeme (.plain text endsLine) :: tokens) (depth + 1) (kind :: kinds) next := by
  obtain ⟨here, hhere, hallowed, -, c, cs, rest, i, l, k, lexeme, behind, next, hbegins, hrest,
    -, hfold, hscan, hadd, hnext⟩ := h.exists_next id (.inl (Nat.succ_ne_zero depth))
  obtain ⟨word, hcs, hword, hwordOf⟩ := isWord_of_begins hbegins hvalue
  cases hrest with
  | @cons gap _ front rest' _ hgap hfront hrest' =>
    obtain ⟨e, he, rfl⟩ := exists_of_endsValue hkind hfront
    obtain ⟨endsLine, i', l', k', hplain⟩ := scanLexeme_word hword hgap he i l k rest'
    rw [← hcs, glyphsFrom_cons _ _ _ (hword.break?_head hcs)] at hplain
    rw [hhere.inFlow_succ, hplain] at hscan
    cases hscan
    obtain ⟨hholds, -⟩ := hhere.addKeyStart hadd
    exact ⟨word, endsLine, next, hwordOf, hholds, e :: rest', i', l', k', .front_cons hfront hrest',
      hfold.of_append, hnext⟩

end Midway

end Caret.Yaml
