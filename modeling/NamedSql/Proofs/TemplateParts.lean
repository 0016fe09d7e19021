import NamedSql.Proofs.TemplateFilling

/-!
Templates that are written for a purpose. An author has texts, which may hold braces of
their own, and slots between them. Escaped and put one after another they are a template
again, whatever stands next to what, and filled raw it gives the texts as they were with
the values in their places. This is why the name of a table may be spliced in escaped.
-/
namespace NamedSql

inductive Part where
  | literal (text : String)
  | named (key : String)
  | blank
  deriving DecidableEq, Repr

namespace Part

variable {slots : Slots} {parts : List Part} {keywords : Record}

def write : Part → String
  | .literal text => Template.escape text
  | .named key => "\x7b" ++ key ++ "\x7d"
  | .blank => "\x7b\x7d"

def spell (parts : List Part) : String := String.join (parts.map write)

/-- A literal is any text. A key has letters, none of them a brace. -/
def Allowed (slots : Slots) : Part → Prop
  | .literal _ => True
  | .named key => slots = .named ∧ key ≠ "" ∧ Item.Unbraced key.toList
  | .blank => slots = .positional

instance : DecidablePred (Allowed slots)
  | .literal _ => inferInstanceAs (Decidable True)
  | .named key => inferInstanceAs (Decidable (slots = .named ∧ key ≠ "" ∧ _))
  | .blank => inferInstanceAs (Decidable (slots = .positional))

def key? : Part → Option String
  | .named key => some key
  | _ => none

def isBlank : Part → Bool
  | .blank => true
  | _ => false

/-- A literal as it is and a key's value as it is rendered. -/
def said (keywords : Record) : Part → String
  | .literal text => text
  | .named key => (keywords.get? key).elim "" Value.render
  | .blank => ""

/-- The literals as they are, with the renderings of the values in place of blanks. -/
def inOrder : List Part → List Value → List String
  | [], _ => []
  | .literal text :: rest, values => text :: inOrder rest values
  | .named _ :: rest, values => inOrder rest values
  | .blank :: rest, [] => inOrder rest []
  | .blank :: rest, value :: values => value.render :: inOrder rest values

/-! The items of parts. The places where a literal ends and the next part begins are not
in the text, but every item of it belongs to one part. -/
section Items

def items : Part → List Item
  | .literal text => Item.ofText text.toList
  | .named key => [.named key.toList]
  | .blank => [.blank]

theorem write_items (part : Part) : part.write.toList = part.items.flatMap Item.write := by
  cases part with
  | literal text => exact Item.toList_escape text
  | named key => simp [write, items, Item.write]
  | blank => rfl

theorem spelled_items (part : Part) (allowed : part.Allowed slots) :
    Item.Spelled slots part.items part.write.toList := by
  refine ⟨?_, (write_items part).symm⟩
  cases part with
  | literal text =>
      intro item member
      obtain ⟨letter, -, rfl⟩ := List.mem_map.mp member
      trivial
  | named key =>
      obtain ⟨named, nonempty, unbraced⟩ := allowed
      intro item member
      obtain rfl := List.mem_singleton.mp member
      exact ⟨named, by simpa using nonempty, unbraced.each⟩
  | blank =>
      intro item member
      obtain rfl := List.mem_singleton.mp member
      exact allowed

theorem spelled_spell (allowed : ∀ part ∈ parts, part.Allowed slots) :
    Item.Spelled slots (parts.flatMap items) (spell parts).toList := by
  constructor
  · intro item member
    obtain ⟨part, inside, own⟩ := List.mem_flatMap.mp member
    exact (spelled_items part (allowed part inside)).1 item own
  · simp only [spell, String.toList_join, List.flatMap_map, List.flatMap_assoc, write_items]

theorem keys_items (parts : List Part) :
    (parts.flatMap items).filterMap Item.key? = parts.filterMap key? := by
  induction parts with
  | nil => rfl
  | cons part rest ih =>
      rw [List.flatMap_cons, List.filterMap_append, ih]
      cases part <;>
        simp [items, Item.ofText, Item.key?, key?, List.filterMap_cons, Function.comp_def]

theorem blanks_items (parts : List Part) :
    (parts.flatMap items).countP Item.isBlank = parts.countP isBlank := by
  induction parts with
  | nil => rfl
  | cons part rest ih =>
      rw [List.flatMap_cons, List.countP_append, ih, List.countP_cons, Nat.add_comm]
      cases part <;> simp [items, Item.ofText, Item.isBlank, isBlank, List.countP_map]

theorem said_items (part : Part) :
    part.items.flatMap (Item.said keywords) = (part.said keywords).toList := by
  cases part with
  | literal text => simp [items, Item.ofText, List.flatMap_map, Item.said, said]
  | named key => simp [items, Item.said, said]
  | blank => rfl

theorem inOrder_items (parts : List Part) (values : List Value) :
    Item.inOrder (parts.flatMap items) values = (String.join (inOrder parts values)).toList := by
  induction parts generalizing values with
  | nil => rfl
  | cons part rest ih =>
      cases part with
      | literal text =>
          simp [items, Item.inOrder_ofText, inOrder, ih, String.toList_join]
      | named key => simp [items, Item.inOrder, inOrder, ih]
      | blank =>
          cases values with
          | nil => simp [items, Item.inOrder, inOrder, ih]
          | cons value values =>
              simp [items, Item.inOrder, inOrder, ih, String.toList_join]

end Items

theorem inOrder_literals (texts : List String) (values : List Value) :
    inOrder (texts.map .literal) values = texts := by
  induction texts with
  | nil => rfl
  | cons text rest ih => simp [inOrder, ih]

theorem said_literals (texts : List String) :
    (texts.map Part.literal).map (said keywords) = texts := by
  simp [said, Function.comp_def]

def template (slots : Slots) (parts : List Part) : Template :=
  ⟨spell parts, slots, Piece.ofItems (parts.flatMap items)⟩

theorem read_spell (allowed : ∀ part ∈ parts, part.Allowed slots) :
    Template.read slots (spell parts) = .ok (template slots parts) :=
  (Template.read_eq_ok_iff _).mpr ⟨_, spelled_spell allowed, rfl⟩

theorem template_keys : (template slots parts).keys = parts.filterMap key? := by
  rw [template, Template.keys_ofItems, keys_items]

theorem template_arity : (template slots parts).arity = parts.countP isBlank := by
  rw [template, Template.arity_ofItems, blanks_items]

variable (slots parts keywords) in
theorem fillNamed_template
    (given : ∀ key ∈ (template slots parts).keys, keywords.isSet key = true) :
    (template slots parts).fillNamed keywords .raw =
      .ok (String.join (parts.map (said keywords))) := by
  rw [template_keys, ← keys_items] at given
  have meant : (parts.flatMap items).flatMap (Item.said keywords) =
      (String.join (parts.map (said keywords))).toList := by
    simp only [List.flatMap_assoc, said_items, String.toList_join, List.flatMap_map]
  rw [template, Template.fillNamed_items _ _ given, meant, String.ofList_toList]

variable (slots parts) in
theorem fillPositional_template (values : List Value)
    (enough : (template slots parts).arity ≤ values.length) :
    ((template slots parts).fillPositional values).result =
      .ok (String.join (inOrder parts values)) := by
  rw [template_arity, ← blanks_items] at enough
  rw [template, Template.fillPositional_items _ _ values enough, inOrder_items,
    String.ofList_toList]

-- Neighbours may be any: a literal that ends in braces beside a slot, two literals that
-- end and begin with half a pair, empty literals between slots.
theorem spelled_parts_fill (slots : Slots) (parts : List Part)
    (allowed : ∀ part ∈ parts, part.Allowed slots) :
    ∃ template, Template.read slots (spell parts) = .ok template ∧
      template.keys = parts.filterMap key? ∧ template.arity = parts.countP isBlank ∧
      (∀ keywords, (∀ key ∈ template.keys, keywords.isSet key = true) →
        template.fillNamed keywords .raw = .ok (String.join (parts.map (said keywords)))) ∧
      (∀ values, template.arity ≤ values.length →
        (template.fillPositional values).result = .ok (String.join (inOrder parts values))) ∧
      ∀ texts, parts = texts.map .literal →
        (∀ keywords, template.fillNamed keywords .raw = .ok (String.join texts)) ∧
        ∀ values, (template.fillPositional values).result = .ok (String.join texts) := by
  refine ⟨template slots parts, read_spell allowed, template_keys, template_arity,
    fillNamed_template slots parts, fillPositional_template slots parts, ?_⟩
  rintro texts rfl
  constructor
  · intro keywords
    have filled := fillNamed_template slots (texts.map .literal) keywords
      (by simp [template_keys, key?])
    rwa [said_literals] at filled
  · intro values
    have filled := fillPositional_template slots (texts.map .literal) values
      (by simp [template_arity, isBlank, List.countP_map, Function.comp_def])
    rwa [inOrder_literals] at filled

theorem spelled_parts_between_braces :
    let parts : List Part := [.literal "a\x7b", .named "k", .literal "\x7d\x7d",
      .literal "\x7d", .named "k"]
    let keywords := Record.ofPairs [("k", .text "\x7b0\x7d")]
    (∀ part ∈ parts, part.Allowed .named) ∧
    spell parts =
      "a\x7b\x7b\x7bk\x7d\x7d\x7d\x7d\x7d\x7d\x7d\x7bk\x7d" ∧
    ∃ template, Template.read .named (spell parts) = .ok template ∧
      template.keys = ["k", "k"] ∧
      template.fillNamed keywords .raw =
        .ok "a\x7b\x7b0\x7d\x7d\x7d\x7d\x7b0\x7d" := by
  intro parts keywords
  have allowed : ∀ part ∈ parts, part.Allowed .named := by decide
  refine ⟨allowed, by decide, ?_⟩
  obtain ⟨template, read, keys, -, filled, -⟩ := spelled_parts_fill .named parts allowed
  have spelled : template.keys = ["k", "k"] := keys.trans (by decide)
  refine ⟨template, read, spelled, ?_⟩
  rw [filled keywords (by rw [spelled]; decide)]
  exact congrArg Except.ok (by decide)

end Part

end NamedSql
