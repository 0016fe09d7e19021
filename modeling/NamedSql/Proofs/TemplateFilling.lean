import NamedSql.Proofs.TemplateGrammar

/-!
What becomes of a template that is filled. Whether filling succeeds is decided before any
text: by the keys that have a value, or by the number of values. The quoting plays no part
in it. Written raw, each item then stands for itself alone, so the text is that of the
items one after another, and blanks take the values in order.
-/
namespace NamedSql

namespace Template

variable {template : Template} {keywords : Record} {quoting : Quoting} {pieces : List Piece}

/-- The first of some keys that has no value. -/
def missing? (keywords : Record) (keys : List String) : Option String :=
  keys.find? fun key => !keywords.isSet key

theorem missing?_eq_none_iff (keys : List String) :
    missing? keywords keys = none ↔ ∀ key ∈ keys, keywords.isSet key = true := by
  simp [missing?]

theorem missing?_cons_set (key : String) (rest : List String) (held : keywords.isSet key = true) :
    missing? keywords (key :: rest) = missing? keywords rest := by
  simp [missing?, held]

theorem missing?_cons_unset (key : String) (rest : List String)
    (unset : keywords.isSet key = false) : missing? keywords (key :: rest) = some key := by
  simp [missing?, unset]

variable (keywords quoting) in
theorem writeNamed_eq_error_iff (pieces : List Piece) (key : String) :
    writeNamed keywords quoting pieces = .error key ↔
      missing? keywords (pieces.filterMap Piece.key?) = some key := by
  have passes (front : List Char) (result : Except String (List Char)) :
      result.map (front ++ ·) = .error key ↔ result = .error key := by
    cases result <;> simp [Except.map]
  induction pieces with
  | nil => simp [writeNamed, missing?]
  | cons piece rest ih =>
      cases piece with
      | text letters => simpa only [writeNamed, passes, List.filterMap_cons, Piece.key?] using ih
      | blank => simpa only [writeNamed, List.filterMap_cons, Piece.key?] using ih
      | named own quoted =>
          simp only [List.filterMap_cons, Piece.key?]
          cases held : keywords.get? own with
          | none =>
              have unset : keywords.isSet own = false := by simp [Record.isSet, held]
              simp [writeNamed, held, missing?_cons_unset own _ unset]
          | some value =>
              have supplied : keywords.isSet own = true := by simp [Record.isSet, held]
              simp only [writeNamed, held, passes, ih, missing?_cons_set own _ supplied]

variable (template keywords quoting) in
theorem fillNamed_eq_error_iff (fault : Fault) :
    template.fillNamed keywords quoting = .error fault ↔
      ∃ key, missing? keywords template.keys = some key ∧
        fault = .missingKeyword key template.text := by
  unfold fillNamed
  cases filled : writeNamed keywords quoting template.pieces with
  | ok letters =>
      constructor
      · intro impossible
        cases impossible
      · rintro ⟨key, first, -⟩
        rw [(writeNamed_eq_error_iff keywords quoting _ key).mpr first] at filled
        cases filled
  | error key =>
      have first := (writeNamed_eq_error_iff keywords quoting _ key).mp filled
      rw [← keys] at first
      simp [first, eq_comm]

variable (template keywords quoting) in
theorem fillNamed_isOk_iff : (∃ text, template.fillNamed keywords quoting = .ok text) ↔
    ∀ key ∈ template.keys, keywords.isSet key = true := by
  have failing := fillNamed_eq_error_iff template keywords quoting
  rw [← missing?_eq_none_iff]
  cases first : missing? keywords template.keys with
  | none =>
      cases filled : template.fillNamed keywords quoting with
      | ok text => simp
      | error fault =>
          obtain ⟨key, missed, -⟩ := (failing fault).mp filled
          rw [first] at missed
          cases missed
  | some key =>
      rw [(failing _).mpr ⟨key, first, rfl⟩]
      simp

theorem fillPositional_result (values : List Value) :
    (template.fillPositional values).result =
      if values.length < template.arity then
        .error (.tooFewValues template.text template.arity values.length)
      else .ok (String.ofList (writePositional template.pieces values)) := by
  unfold fillPositional
  by_cases few : values.length < template.arity
  · simp [few, Traced.fail]
  · by_cases many : template.arity < values.length
    · simp only [few, many, ↓reduceIte]
      rfl
    · simp [few, many, Traced.ok]

variable (template) in
theorem fillPositional_isOk_iff (values : List Value) :
    (∃ text, (template.fillPositional values).result = .ok text) ↔
      template.arity ≤ values.length := by
  rw [fillPositional_result]
  by_cases few : values.length < template.arity
  · simp [few]
  · simp [few, Nat.not_lt.mp few]

variable (template) in
theorem fillPositional_eq_error_iff (values : List Value) (fault : Fault) :
    (template.fillPositional values).result = .error fault ↔
      values.length < template.arity ∧
        fault = .tooFewValues template.text template.arity values.length := by
  rw [fillPositional_result]
  by_cases few : values.length < template.arity
  · simp [few, eq_comm]
  · simp [few]

end Template

namespace Item

variable {keywords : Record}

/-- What an item stands for when its key has the value that is given for it. -/
def said (keywords : Record) : Item → List Char
  | .plain letter => [letter]
  | .named key => ((keywords.get? (String.ofList key)).elim "" Value.render).toList
  | .blank => []

-- Raw values are pasted whatever stands beside their slots.
theorem substitute_raw (afterMark : Bool) (items : List Item)
    (given : ∀ key ∈ items.filterMap key?, keywords.isSet key = true) :
    substitute keywords .raw afterMark items = .ok (items.flatMap (said keywords)) := by
  induction items generalizing afterMark with
  | nil => rfl
  | cons item rest ih =>
      cases item with
      | plain letter =>
          rw [substitute, ih _ given]
          rfl
      | blank =>
          rw [substitute, ih _ given]
          rfl
      | named key =>
          simp only [List.filterMap_cons, key?, List.forall_mem_cons] at given
          obtain ⟨held, later⟩ := given
          obtain ⟨value, found⟩ := Option.isSome_iff_exists.mp held
          simp [substitute, found, ih false later, said, Except.map]

/-- Items with the values of their blanks, in order. -/
def inOrder : List Item → List Value → List Char
  | [], _ => []
  | .plain letter :: rest, values => letter :: inOrder rest values
  | .named _ :: rest, values => inOrder rest values
  | .blank :: rest, [] => inOrder rest []
  | .blank :: rest, value :: values => value.render.toList ++ inOrder rest values

theorem writePositional_prepend (letter : Char) (pieces : List Piece) (values : List Value) :
    Template.writePositional (Piece.prepend letter pieces) values =
      letter :: Template.writePositional pieces values := by
  cases pieces with
  | nil => rfl
  | cons piece rest => cases piece <;> rfl

theorem writePositional_group (afterMark : Bool) (items : List Item) (values : List Value) :
    Template.writePositional (Piece.group afterMark items) values = inOrder items values := by
  induction items generalizing afterMark values with
  | nil => rfl
  | cons item rest ih =>
      cases item with
      | plain letter => rw [Piece.group, writePositional_prepend, ih, inOrder]
      | named key => rw [Piece.group, Template.writePositional, ih, inOrder]
      | blank =>
          cases values with
          | nil => rw [Piece.group, Template.writePositional, ih, inOrder]
          | cons value values => rw [Piece.group, Template.writePositional, ih, inOrder]

theorem inOrder_ofText (letters : List Char) (rest : List Item) (values : List Value) :
    inOrder (ofText letters ++ rest) values = letters ++ inOrder rest values := by
  induction letters with
  | nil => rfl
  | cons letter more ih =>
      simp only [ofText, List.map_cons, List.cons_append, inOrder] at ih ⊢
      rw [ih]

end Item

/-! A template is filled as its items are. The pieces that it was cut into for filling leave
no trace in what is written. -/
section Filled

variable {slots : Slots} {keywords : Record} (text : String) (items : List Item)

theorem Template.fillNamed_items
    (given : ∀ key ∈ items.filterMap Item.key?, keywords.isSet key = true) :
    Template.fillNamed ⟨text, slots, Piece.ofItems items⟩ keywords .raw =
      .ok (String.ofList (items.flatMap (Item.said keywords))) := by
  have written := Item.substitute_raw false items given
  rw [← Item.writeNamed_group, ← Piece.ofItems] at written
  simp only [Template.fillNamed, written]

theorem Template.fillPositional_items (values : List Value)
    (enough : items.countP Item.isBlank ≤ values.length) :
    (Template.fillPositional ⟨text, slots, Piece.ofItems items⟩ values).result =
      .ok (String.ofList (Item.inOrder items values)) := by
  rw [Template.fillPositional_result, Template.arity_ofItems, if_neg (Nat.not_lt.mpr enough),
    Piece.ofItems, Item.writePositional_group]

end Filled

end NamedSql
