import NamedSql.Proofs.TemplateSigns

/-!
Filling as a pass over the text of the template. Each letter of the text is copied and each
slot gives way to the rendering of its value, which is not looked at again: braces in it are
no slots and quotes in it quote none. Named values are taken by key, and escaped where the
text has a quote on either side. Positional values are taken by number, so that none is left
out or used twice, and values beyond the last slot are only counted.
-/
namespace NamedSql

namespace Template

variable {slots : Slots} {text : String} {template : Template} {keywords : Record}
  {quoting : Quoting}

/-- The keys that the text of a template asks for, repeats included. -/
def keysAsked (text : String) : List String := (signs text).filterMap Sign.key?

def slotsOpen (text : String) : Nat := (signs text).countP Sign.isSlot

theorem text_of_read (template : Template) (read : Template.read slots text = .ok template) :
    template.text = text := by
  obtain ⟨items, -, rfl⟩ := (read_eq_ok_iff template).mp read
  rfl

theorem keys_asked (read : Template.read .named text = .ok template) :
    template.keys = keysAsked text := by
  obtain ⟨items, spelled, rfl⟩ := (read_eq_ok_iff template).mp read
  rw [keys_ofItems, keysAsked, Item.signs_of_spelled text items spelled,
    Item.keys_signs none items spelled.1]

theorem arity_open (read : Template.read .positional text = .ok template) :
    template.arity = slotsOpen text := by
  obtain ⟨items, spelled, rfl⟩ := (read_eq_ok_iff template).mp read
  rw [arity_ofItems, slotsOpen, Item.signs_of_spelled text items spelled,
    Item.blanks_signs none items spelled.1]

theorem fillNamed_signs (read : Template.read .named text = .ok template)
    (given : ∀ key ∈ keysAsked text, keywords.isSet key = true) :
    template.fillNamed keywords quoting =
      .ok (String.ofList ((signs text).flatMap (Sign.substituted keywords quoting))) := by
  rw [← keys_asked read] at given
  obtain ⟨items, spelled, rfl⟩ := (read_eq_ok_iff template).mp read
  rw [keys_ofItems] at given
  have filled : Item.substitute keywords quoting false items = _ :=
    Item.substitute_signs none items spelled.1 given
  rw [← Item.writeNamed_group] at filled
  simp only [fillNamed, Piece.ofItems, filled, Item.signs_of_spelled text items spelled]

-- Only the values of the keys that occur are ever looked up.
theorem writeNamed_congr (other : Record) (pieces : List Piece)
    (agree : ∀ key ∈ pieces.filterMap Piece.key?, other.get? key = keywords.get? key) :
    writeNamed other quoting pieces = writeNamed keywords quoting pieces := by
  induction pieces with
  | nil => rfl
  | cons piece rest ih =>
      cases piece with
      | text letters => rw [writeNamed, writeNamed, ih agree]
      | blank => rw [writeNamed, writeNamed, ih agree]
      | named key quoted =>
          simp only [List.filterMap_cons, Piece.key?, List.forall_mem_cons] at agree
          obtain ⟨here, later⟩ := agree
          rw [writeNamed, writeNamed, here, ih later]

theorem fillNamed_congr (other : Record)
    (agree : ∀ key ∈ template.keys, other.get? key = keywords.get? key) :
    template.fillNamed other quoting = template.fillNamed keywords quoting := by
  rw [fillNamed, fillNamed, writeNamed_congr other template.pieces agree]

theorem named_substitutes (text : String) (template : Template)
    (read : Template.read .named text = .ok template) (keywords : Record) (quoting : Quoting) :
    ((∃ filled, template.fillNamed keywords quoting = .ok filled) ↔
      ∀ key ∈ keysAsked text, keywords.isSet key = true) ∧
    (∀ fault, template.fillNamed keywords quoting = .error fault ↔
      ∃ key, missing? keywords (keysAsked text) = some key ∧ fault = .missingKeyword key text) ∧
    (∀ fault, template.fillNamed keywords quoting = .error fault → fault.category = .lookup) ∧
    ((∀ key ∈ keysAsked text, keywords.isSet key = true) →
      template.fillNamed keywords quoting =
        .ok (String.ofList ((signs text).flatMap (Sign.substituted keywords quoting)))) ∧
    ∀ other : Record, (∀ key ∈ keysAsked text, other.get? key = keywords.get? key) →
      template.fillNamed other quoting = template.fillNamed keywords quoting := by
  have failing := fillNamed_eq_error_iff template keywords quoting
  have succeeding := fillNamed_isOk_iff template keywords quoting
  rw [keys_asked read] at succeeding
  rw [keys_asked read, text_of_read template read] at failing
  refine ⟨succeeding, failing, ?_, fillNamed_signs read, ?_⟩
  · intro fault failed
    obtain ⟨key, -, rfl⟩ := (failing fault).mp failed
    rfl
  · intro other agree
    rw [← keys_asked read] at agree
    exact fillNamed_congr other agree

theorem named_substitutes_quoted :
    let text := "'\x7ba\x7d' '\x7ba\x7d\x7ba\x7d' \x7b\x7b\x7bb\x7d\x7d\x7d"
    let template : Template := ⟨text, .named, [.text ['\x27'], .named "a" true,
      .text ['\x27', ' ', '\x27'], .named "a" false, .named "a" false,
      .text ['\x27', ' ', '{'], .named "b" false, .text ['}']]⟩
    let keywords := Record.ofPairs [("a", .text "'\x7bb\x7d"), ("b", .integer 7)]
    Template.read .named text = .ok template ∧
    (∀ key ∈ keysAsked text, keywords.isSet key = true) ∧
    template.fillNamed keywords .escaped =
      .ok "'''\x7bb\x7d' ''\x7bb\x7d'\x7bb\x7d' \x7b7\x7d" := by
  intro text template keywords
  have read : Template.read .named text = .ok template :=
    (toOption_eq_some_iff _ _).mp (by decide)
  have given : ∀ key ∈ keysAsked text, keywords.isSet key = true := by decide
  obtain ⟨-, -, -, filled, -⟩ := named_substitutes text template read keywords .escaped
  exact ⟨read, given, (filled given).trans (congrArg Except.ok (by decide))⟩

/-! Values by number. They stand in order, so taking the next one at each slot is taking the
one that has as many before it as the slot. -/
section Numbered

theorem numbered_append (values further : List Value) (number : Nat) (rest : List Sign)
    (enough : number + rest.countP Sign.isSlot ≤ values.length) :
    Sign.numbered (values ++ further) number rest = Sign.numbered values number rest := by
  induction rest generalizing number with
  | nil => rfl
  | cons sign rest ih =>
      cases sign with
      | plain letter => rw [Sign.numbered, Sign.numbered, ih number enough]
      | slot key quoted =>
          rw [List.countP_cons_of_pos rfl] at enough
          rw [Sign.numbered, Sign.numbered, ih (number + 1) (by omega),
            List.getElem?_append_left (by omega)]

theorem fillPositional_signs (read : Template.read .positional text = .ok template)
    (values : List Value) (enough : slotsOpen text ≤ values.length) :
    (template.fillPositional values).result =
      .ok (String.ofList (Sign.numbered values 0 (signs text))) := by
  rw [← arity_open read] at enough
  obtain ⟨items, spelled, rfl⟩ := (read_eq_ok_iff template).mp read
  rw [arity_ofItems] at enough
  have filled := Item.inOrder_signs none items spelled.1 values 0
  rw [List.drop_zero] at filled
  rw [fillPositional_items text items values enough, filled,
    Item.signs_of_spelled text items spelled]

variable (template) in
theorem fillPositional_events (values : List Value) :
    (template.fillPositional values).events =
      if template.arity < values.length then
        [.surplusIgnored (values.length - template.arity) template.text]
      else [] := by
  unfold fillPositional
  by_cases few : values.length < template.arity
  · simp [few, Nat.lt_asymm few, Traced.fail]
  · by_cases many : template.arity < values.length
    · simp only [few, many, ↓reduceIte]
      rfl
    · simp [few, many, Traced.ok]

end Numbered

theorem positional_fills_by_number (text : String) (template : Template)
    (read : Template.read .positional text = .ok template) (values : List Value) :
    ((∃ filled, (template.fillPositional values).result = .ok filled) ↔
      slotsOpen text ≤ values.length) ∧
    (∀ fault, (template.fillPositional values).result = .error fault ↔
      values.length < slotsOpen text ∧
        fault = .tooFewValues text (slotsOpen text) values.length) ∧
    (∀ fault, (template.fillPositional values).result = .error fault →
      fault.category = .format) ∧
    (slotsOpen text ≤ values.length →
      (template.fillPositional values).result =
        .ok (String.ofList (Sign.numbered values 0 (signs text))) ∧
      ∀ further, (template.fillPositional (values ++ further)).result =
        (template.fillPositional values).result) ∧
    (values.length ≤ slotsOpen text → (template.fillPositional values).events = []) ∧
    ∀ surplus, 0 < surplus → values.length = slotsOpen text + surplus →
      (template.fillPositional values).events = [.surplusIgnored surplus text] := by
  have succeeding := template.fillPositional_isOk_iff values
  have failing := template.fillPositional_eq_error_iff values
  have events := template.fillPositional_events values
  rw [arity_open read] at succeeding
  rw [arity_open read, text_of_read template read] at failing events
  refine ⟨succeeding, failing, ?_, ?_, ?_, ?_⟩
  · intro fault failed
    obtain ⟨-, rfl⟩ := (failing fault).mp failed
    rfl
  · intro enough
    refine ⟨fillPositional_signs read values enough, fun further => ?_⟩
    rw [fillPositional_signs read values enough, fillPositional_signs read (values ++ further)
      (by rw [List.length_append]; omega), numbered_append values further 0 (signs text)]
    simpa [slotsOpen] using enough
  · intro few
    rw [events, if_neg (Nat.not_lt.mpr few)]
  · intro surplus some count
    have excess : values.length - slotsOpen text = surplus := by omega
    rw [events, if_pos (by omega), excess]

theorem positional_fills_numbers :
    let text := "\x7b\x7d\x7b\x7b\x7b\x7d\x7d\x7d\x7b\x7d"
    let template : Template := ⟨text, .positional,
      [.blank, .text ['{'], .blank, .text ['}'], .blank]⟩
    let values : List Value := [.integer 1, .text "\x7b\x7d", .null, .boolean true]
    Template.read .positional text = .ok template ∧
    (template.fillPositional values).result = .ok "1\x7b\x7b\x7d\x7dNULL" ∧
    (template.fillPositional values).events = [.surplusIgnored 1 text] ∧
    (template.fillPositional [.null, .null]).result = .error (.tooFewValues text 3 2) := by
  intro text template values
  have read : Template.read .positional text = .ok template :=
    (toOption_eq_some_iff _ _).mp (by decide)
  obtain ⟨-, -, -, filled, -, reports⟩ := positional_fills_by_number text template read values
  obtain ⟨-, fails, -⟩ := positional_fills_by_number text template read [.null, .null]
  refine ⟨read, ?_, reports 1 Nat.one_pos (by decide), (fails _).mpr ⟨by decide, by decide⟩⟩
  exact (filled (by decide)).1.trans (congrArg Except.ok (by decide))

end Template

end NamedSql
