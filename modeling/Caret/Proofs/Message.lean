import Caret.Proofs.Location

/-!
# A message tells where the error is

A message is read by people, and its words are configured: they may be
empty, hold digits, or look like the separators between them. So there is no
cutting a message at a separator. It can still be read back, from its end:
the last digits are the column, what stands before them is known up to the
digits of the line, and what stands before those, the line word apart, is
the label with its separator.

The step is `split_at_last`: where what follows a separator can not hold it,
the last separator is the one. `contextPhrase_inj` takes two such steps, and
`message_inj` adds the words around the context. The main statement,
`message_eq_iff_location`, is about two errors of one formatter with one
description: they have one message exactly if they have one label and one
position. Since offsets of a query are told apart by their positions,
different offsets are told apart by their messages.
-/

namespace Caret

namespace Text

/-- **The last separator splits a text in one way**: if what follows it in either
of two splittings cannot hold it, the two are one. -/
theorem split_at_last {p : Char → Bool} {sep : Char} (hsep : p sep = false)
    {xs ys ds es : List Char} (hds : ∀ c ∈ ds, p c = true) (hes : ∀ c ∈ es, p c = true)
    (h : xs ++ sep :: ds = ys ++ sep :: es) : xs = ys ∧ ds = es := by
  have hnot : ∀ {us : List Char}, (∀ c ∈ us, p c = true) → sep ∉ us := fun hus hmem => by
    rw [hus sep hmem] at hsep
    cases hsep
  obtain ⟨zs, hys, htail⟩ | ⟨zs, hxs, htail⟩ := List.append_eq_append_iff.1 h
  · cases zs with
    | nil =>
      rw [List.append_nil] at hys
      rw [List.nil_append, List.cons.injEq] at htail
      exact ⟨hys.symm, htail.2⟩
    | cons z zs =>
      rw [List.cons_append, List.cons.injEq] at htail
      refine absurd ?_ (hnot hds)
      rw [htail.2]
      exact List.mem_append_right _ (List.mem_cons_self ..)
  · cases zs with
    | nil =>
      rw [List.append_nil] at hxs
      rw [List.nil_append, List.cons.injEq] at htail
      exact ⟨hxs, htail.2.symm⟩
    | cons z zs =>
      rw [List.cons_append, List.cons.injEq] at htail
      refine absurd ?_ (hnot hes)
      rw [htail.2]
      exact List.mem_append_right _ (List.mem_cons_self ..)

/-- A number behind a blank is the digits at the end. -/
theorem split_decimal {xs ys : List Char} {m n : Nat}
    (h : xs ++ ' ' :: decimal m = ys ++ ' ' :: decimal n) : xs = ys ∧ m = n := by
  obtain ⟨hxs, hdigits⟩ := split_at_last (p := Char.isDigit) rfl
    (fun _ => isDigit_of_mem_decimal) (fun _ => isDigit_of_mem_decimal) h
  exact ⟨hxs, decimal_inj.1 hdigits⟩

end Text

/-! ## Contexts -/

theorem labelPhrase_some {text : String} (h : text ≠ "") :
    labelPhrase (some text) = text ++ ", " := by
  rw [labelPhrase, if_neg h]

/-- A label is shown as it is. -/
theorem labelPhrase_inj {a b : Option String} (ha : ∀ text ∈ a, text ≠ "")
    (hb : ∀ text ∈ b, text ≠ "") (h : labelPhrase a = labelPhrase b) : a = b := by
  cases a with
  | none =>
    cases b with
    | none => rfl
    | some u =>
      rw [labelPhrase_some (hb u rfl)] at h
      have := congrArg String.length h
      rw [String.length_append] at this
      exact absurd this (by show 0 ≠ _ + 2; omega)
  | some t =>
    rw [labelPhrase_some (ha t rfl)] at h
    cases b with
    | none =>
      have := congrArg String.length h
      rw [String.length_append] at this
      exact absurd this (by show _ + 2 ≠ 0; omega)
    | some u =>
      rw [labelPhrase_some (hb u rfl), String.append_left_inj] at h
      rw [h]

/-- What is shown of a label ends with a blank, if anything is shown. -/
theorem eq_blank_of_getLast?_labelPhrase {label : Option String} {c : Char}
    (h : (labelPhrase label).toList.getLast? = some c) : c = ' ' := by
  cases label with
  | none => cases h
  | some text =>
    by_cases hempty : text = ""
    · rw [labelPhrase, if_pos hempty] at h
      cases h
    · rw [labelPhrase_some hempty, String.toList_append, List.getLast?_append] at h
      exact (Option.some.inj h).symm

/-- A position behind something, up to the digits of its line and of its column. -/
theorem toList_append_positionPhrase (phrases : Phrases) (s : String) (p : Position) :
    (s ++ positionPhrase phrases (some p)).toList
      = (((s ++ phrases.line).toList ++ ' ' :: Text.decimal p.line)
        ++ (", " ++ phrases.column).toList) ++ ' ' :: Text.decimal p.column := by
  simp [positionPhrase, Text.natText, String.toList_append]

/-- What is shown of a position ends with a digit. -/
theorem exists_getLast?_positionPhrase (phrases : Phrases) (s : String) (p : Position) :
    ∃ c, (s ++ positionPhrase phrases (some p)).toList.getLast? = some c
      ∧ c.isDigit = true := by
  obtain ⟨ds, c, hdigits⟩ := (List.eq_nil_or_concat (Text.decimal p.column)).resolve_left
    (Text.decimal_ne_nil _)
  refine ⟨c, ?_, Text.isDigit_of_mem_decimal (n := p.column) ?_⟩
  · rw [toList_append_positionPhrase, hdigits, List.concat_eq_append, ← List.cons_append,
      ← List.append_assoc, List.getLast?_concat]
  · rw [hdigits, List.concat_eq_append]
    exact List.mem_append_right _ (List.mem_singleton_self c)

/-- A context with a position is none without one. -/
theorem labelPhrase_ne_append_positionPhrase (phrases : Phrases) (a b : Option String)
    (p : Position) : labelPhrase a ≠ labelPhrase b ++ positionPhrase phrases (some p) := by
  intro h
  obtain ⟨c, hlast, hdigit⟩ := exists_getLast?_positionPhrase phrases (labelPhrase b) p
  rw [← h] at hlast
  rw [eq_blank_of_getLast?_labelPhrase hlast] at hdigit
  cases hdigit

/-- **A context tells its label and its position.** -/
theorem contextPhrase_inj {phrases : Phrases} {a b : Option String} {p q : Option Position}
    (ha : ∀ text ∈ a, text ≠ "") (hb : ∀ text ∈ b, text ≠ "") :
    contextPhrase phrases a p = contextPhrase phrases b q ↔ a = b ∧ p = q := by
  refine ⟨fun h => ?_, fun ⟨hab, hpq⟩ => by rw [hab, hpq]⟩
  rw [contextPhrase, contextPhrase] at h
  cases p with
  | none =>
    rw [show positionPhrase phrases none = "" from rfl, String.append_empty] at h
    cases q with
    | none =>
      rw [show positionPhrase phrases none = "" from rfl, String.append_empty] at h
      exact ⟨labelPhrase_inj ha hb h, rfl⟩
    | some q => exact absurd h (labelPhrase_ne_append_positionPhrase phrases a b q)
  | some p =>
    cases q with
    | none =>
      rw [show positionPhrase phrases none = "" from rfl, String.append_empty] at h
      exact absurd h.symm (labelPhrase_ne_append_positionPhrase phrases b a p)
    | some q =>
      have hchars := congrArg String.toList h
      rw [toList_append_positionPhrase, toList_append_positionPhrase] at hchars
      -- the digits at the end are the column, and those before its word the line
      obtain ⟨hrest, hcolumn⟩ := Text.split_decimal hchars
      rw [List.append_left_inj] at hrest
      obtain ⟨hlabel, hline⟩ := Text.split_decimal hrest
      rw [String.toList_inj, String.append_left_inj] at hlabel
      refine ⟨labelPhrase_inj ha hb hlabel, ?_⟩
      rw [Option.some.injEq, Position.mk.injEq]
      exact ⟨hline, hcolumn⟩

/-! ## Messages -/

/-- **A message tells its context.** -/
theorem message_inj {phrases : Phrases} {description c d : String} :
    message phrases description c = message phrases description d ↔ c = d := by
  refine ⟨fun h => ?_, fun h => by rw [h]⟩
  rw [message, message] at h
  have hdot : ∀ x : String,
      description ++ "." ≠ description ++ " " ++ phrases.near ++ " " ++ x ++ "." := by
    intro x hx
    -- a description goes on with a dot or with a blank
    have hchars := congrArg String.toList hx
    simp [String.toList_append] at hchars
  by_cases hc : c = ""
  · by_cases hd : d = ""
    · rw [hc, hd]
    · rw [if_pos hc, if_neg hd] at h
      exact absurd h (hdot d)
  · by_cases hd : d = ""
    · rw [if_neg hc, if_pos hd] at h
      exact absurd h.symm (hdot c)
    · rw [if_neg hc, if_neg hd, String.append_left_inj, String.append_right_inj] at h
      exact h

/-! ## Errors -/

/-- One position, or none, is what one offset of a query resolves to. -/
theorem Formatter.mapM_position_inj {f : Formatter} {query : String} {a b : Option Nat}
    {p : Option Position} (ha : a.mapM (f.position query) = .ok p)
    (hb : b.mapM (f.position query) = .ok p) : a = b := by
  obtain ⟨rfl, rfl⟩ | ⟨m, q, rfl, rfl, hm⟩ := mapM_position_eq_ok_iff.1 ha
  · obtain ⟨rfl, -⟩ | ⟨n, r, -, hr, -⟩ := mapM_position_eq_ok_iff.1 hb
    · rfl
    · cases hr
  · obtain ⟨-, hr⟩ | ⟨n, r, rfl, hr, hn⟩ := mapM_position_eq_ok_iff.1 hb
    · cases hr
    · cases hr
      rw [position_inj hm hn]

/-- A label that is shown has a text. -/
theorem Formatter.ne_empty_of_labelText? {f : Formatter} {label : Option Label} :
    ∀ text ∈ label.bind f.labelText?, text ≠ "" := by
  intro text h
  obtain ⟨l, -, hl⟩ := Option.bind_eq_some_iff.1 h
  exact of_decide_eq_true (Option.filter_eq_some_iff.1 hl).2

/-- **No two locations share a message.** Two errors of one formatter with one description
have one message exactly if their labels are shown alike and they are at one position. So two
offsets of a query, or an offset and none, are told apart by the message, and by the context
alone. -/
theorem message_eq_iff_location (f : Formatter) (description : String) :
    (∀ (o o' : Occurrence) (cause cause' : Option Cause) (e e' : QueryError),
      f.error o description cause = .ok e → f.error o' description cause' = .ok e' →
      ∃ p p', o.offset.mapM (f.position o.query) = .ok p
        ∧ o'.offset.mapM (f.position o'.query) = .ok p'
        ∧ e.position? = p ∧ e'.position? = p'
        ∧ (e.message = e'.message
            ↔ o.label.bind f.labelText? = o'.label.bind f.labelText? ∧ p = p'))
    ∧ ∀ (query : String) (label : Option Label) (a b : Option Nat) (cause cause' : Option Cause),
      query.length + 1 < wordLimit → (∀ n ∈ a, n ≤ query.length) →
      (∀ n ∈ b, n ≤ query.length) → a ≠ b →
      ∃ e e', f.error ⟨query, a, label⟩ description cause = .ok e
        ∧ f.error ⟨query, b, label⟩ description cause' = .ok e'
        ∧ e.message ≠ e'.message ∧ e.state.contextPhrase ≠ e'.state.contextPhrase := by
  constructor
  · intro o o' cause cause' e e' he he'
    obtain ⟨p, hp, rfl⟩ := Formatter.error_eq_ok_iff.1 he
    obtain ⟨p', hp', rfl⟩ := Formatter.error_eq_ok_iff.1 he'
    refine ⟨p, p', hp, hp', Formatter.position?_compose hp _ _ _,
      Formatter.position?_compose hp' _ _ _, ?_⟩
    show message _ _ (contextPhrase _ _ _) = message _ _ (contextPhrase _ _ _) ↔ _
    rw [message_inj, contextPhrase_inj Formatter.ne_empty_of_labelText?
      Formatter.ne_empty_of_labelText?]
  · intro query label a b cause cause' hlimit ha hb hne
    obtain ⟨e, he⟩ := f.exists_error label description cause ha hlimit
    obtain ⟨e', he'⟩ := f.exists_error label description cause' hb hlimit
    refine ⟨e, e', he, he', ?_⟩
    obtain ⟨p, hp, rfl⟩ := Formatter.error_eq_ok_iff.1 he
    obtain ⟨p', hp', rfl⟩ := Formatter.error_eq_ok_iff.1 he'
    have hpne : p ≠ p' := by
      rintro rfl
      exact hne (Formatter.mapM_position_inj hp hp')
    have hcontext : contextPhrase f.phrases (label.bind f.labelText?) p
        ≠ contextPhrase f.phrases (label.bind f.labelText?) p' := fun h =>
      hpne ((contextPhrase_inj Formatter.ne_empty_of_labelText?
        Formatter.ne_empty_of_labelText?).1 h).2
    exact ⟨fun h => hcontext (message_inj.1 h), hcontext⟩

/-- Words that end in digits and separators do not hide where two errors differ. -/
theorem message_eq_iff_location_awkward :
    let f : Formatter := { phrases := ⟨"", "line 1", "2, "⟩ }
    let query := "a\n\nb\n"
    let label : Option Label := some (.literal "1, 2")
    query.length + 1 < wordLimit ∧ 3 ≤ query.length ∧ 4 ≤ query.length
      ∧ ∃ e e', f.error ⟨query, some 3, label⟩ "x" none = .ok e
        ∧ f.error ⟨query, some 4, label⟩ "x" none = .ok e'
        ∧ e.message ≠ e'.message ∧ e.position? ≠ e'.position? := by
  intro f query label
  have hlimit : query.length + 1 < wordLimit := by decide
  have h₃ : 3 ≤ query.length := by decide
  have h₄ : 4 ≤ query.length := by decide
  obtain ⟨e, e', he, he', hmessage, -⟩ := (message_eq_iff_location f "x").2 query label (some 3)
    (some 4) none none hlimit (by rintro n ⟨⟩; exact h₃) (by rintro n ⟨⟩; exact h₄) (by decide)
  obtain ⟨p, p', -, -, hp, hp', hiff⟩ := (message_eq_iff_location f "x").1 _ _ _ _ e e' he he'
  refine ⟨hlimit, h₃, h₄, e, e', he, he', hmessage, ?_⟩
  rw [hp, hp']
  exact fun heq => hmessage (hiff.2 ⟨rfl, heq⟩)

end Caret
