import NamedSql.Proofs.TemplateFilling

/-!
Templates put one after another. A text that is a template leaves the reader where it began,
so what follows it is read as if nothing came before, braces at the seam included: the items
of the whole are those of the first and then those of the second. Keys, blanks and what is
filled in are therefore those of the two in order. This is said of raw filling, because the
quote that begins the second text may close a literal around the last slot of the first.
-/
namespace NamedSql

namespace Item

variable {slots : Slots} {front back : List Item} {left right : List Char}

theorem Spelled.append (first : Spelled slots front left) (second : Spelled slots back right) :
    Spelled slots (front ++ back) (left ++ right) := by
  obtain ⟨before, rfl⟩ := first
  obtain ⟨after, rfl⟩ := second
  refine ⟨?_, List.flatMap_append⟩
  intro item member
  rcases List.mem_append.mp member with here | there
  · exact before item here
  · exact after item there

-- The blanks of the first part use up its values, and those of the second find theirs.
theorem inOrder_append (front back : List Item) (own rest : List Value)
    (exact : own.length = front.countP isBlank) :
    inOrder (front ++ back) (own ++ rest) = inOrder front own ++ inOrder back rest := by
  induction front generalizing own with
  | nil =>
      obtain rfl := List.eq_nil_of_length_eq_zero exact
      rfl
  | cons item more ih =>
      cases item with
      | plain letter =>
          have later := ih own exact
          rw [List.cons_append, inOrder, inOrder, later, List.cons_append]
      | named key =>
          have later := ih own exact
          rw [List.cons_append, inOrder, inOrder, later]
      | blank =>
          rw [List.countP_cons_of_pos rfl] at exact
          cases own with
          | nil => cases exact
          | cons value others =>
              have later := ih others (Nat.succ.inj exact)
              rw [List.cons_append, List.cons_append, inOrder, inOrder, later, List.append_assoc]

end Item

namespace Template

-- Raw slots look at nothing beside them, so the seam is not seen in what is written.
theorem read_concatenated (slots : Slots) (left right : String) (first second : Template)
    (readLeft : read slots left = .ok first) (readRight : read slots right = .ok second) :
    ∃ whole, read slots (left ++ right) = .ok whole ∧
      whole.keys = first.keys ++ second.keys ∧ whole.arity = first.arity + second.arity ∧
      (∀ own rest : List Value, own.length = first.arity → second.arity ≤ rest.length →
        ∃ front back, (first.fillPositional own).result = .ok front ∧
          (second.fillPositional rest).result = .ok back ∧
          (whole.fillPositional (own ++ rest)).result = .ok (front ++ back)) ∧
      ∀ keywords : Record, (∀ key ∈ first.keys ++ second.keys, keywords.isSet key = true) →
        ∃ front back, first.fillNamed keywords .raw = .ok front ∧
          second.fillNamed keywords .raw = .ok back ∧
          whole.fillNamed keywords .raw = .ok (front ++ back) := by
  obtain ⟨before, spelledLeft, rfl⟩ := (read_eq_ok_iff first).mp readLeft
  obtain ⟨after, spelledRight, rfl⟩ := (read_eq_ok_iff second).mp readRight
  have spelled := spelledLeft.append spelledRight
  rw [← String.toList_append] at spelled
  simp only [keys_ofItems, arity_ofItems]
  refine ⟨_, (read_eq_ok_iff _).mpr ⟨_, spelled, rfl⟩, ?_, ?_, ?_, ?_⟩
  · rw [keys_ofItems, List.filterMap_append]
  · rw [arity_ofItems, List.countP_append]
  · intro own rest exact enough
    refine ⟨_, _, fillPositional_items left before own
        (Nat.le_of_eq exact.symm),
      fillPositional_items right after rest enough, ?_⟩
    rw [fillPositional_items, Item.inOrder_append before after own rest exact,
      String.ofList_append]
    rw [List.countP_append, List.length_append]
    omega
  · intro keywords given
    obtain ⟨givenLeft, givenRight⟩ := List.forall_mem_append.mp given
    rw [← List.filterMap_append] at given
    refine ⟨_, _, fillNamed_items left before givenLeft, fillNamed_items right after givenRight, ?_⟩
    rw [fillNamed_items _ _ given, List.flatMap_append, String.ofList_append]

theorem read_concatenated_braces :
    let left := "a\x7b\x7d\x7d\x7d"
    let right := "\x7d\x7d\x7b\x7b\x7b\x7d"
    let first : Template := ⟨left, .positional, [.text ['a'], .blank, .text ['}']]⟩
    let second : Template := ⟨right, .positional, [.text ['}', '{'], .blank]⟩
    read .positional left = .ok first ∧ read .positional right = .ok second ∧
    ∃ whole, read .positional (left ++ right) = .ok whole ∧ whole.arity = 2 ∧
      (whole.fillPositional [.integer 1, .null, .boolean true]).result =
        .ok ("a1\x7d" ++ "\x7d\x7bNULL") := by
  intro left right first second
  have readLeft : read .positional left = .ok first := (toOption_eq_some_iff _ _).mp (by decide)
  have readRight : read .positional right = .ok second := (toOption_eq_some_iff _ _).mp (by decide)
  have filledLeft : (first.fillPositional [.integer 1]).result = .ok "a1\x7d" :=
    (toOption_eq_some_iff _ _).mp (by decide)
  have filledRight : (second.fillPositional [.null, .boolean true]).result =
      .ok "\x7d\x7bNULL" := (toOption_eq_some_iff _ _).mp (by decide)
  obtain ⟨whole, both, -, arity, filled, -⟩ :=
    read_concatenated .positional left right first second readLeft readRight
  obtain ⟨front, back, own, rest, text⟩ :=
    filled [.integer 1] [.null, .boolean true] (by decide) (by decide)
  obtain rfl := Except.ok.inj (own.symm.trans filledLeft)
  obtain rfl := Except.ok.inj (rest.symm.trans filledRight)
  exact ⟨readLeft, readRight, whole, both, arity, text⟩

-- Escaped, a slot at the end of the first text is not the slot that the whole text has.
example :
    let fill (text : String) := (read .named text).toOption.bind fun template =>
      (template.fillNamed (Record.ofPairs [("a", .text "'")]) .escaped).toOption
    fill "'\x7ba\x7d" = some "''" ∧ fill "'" = some "'" ∧
      fill ("'\x7ba\x7d" ++ "'") = some "''''" := by
  decide

end Template

end NamedSql
