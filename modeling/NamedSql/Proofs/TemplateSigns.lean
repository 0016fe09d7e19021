import NamedSql.Proofs.QuoteDoubling
import NamedSql.Proofs.TemplateFilling
import NamedSql.Proofs.TemplateMarks

/-!
Templates as they stand in their text. The text is gone through once from the left, a letter
or a slot at a time. A doubled brace is one letter, a slot reaches to the next closing brace,
and it is quoted by the two letters of the text beside it. Nothing is kept but the letter
before, so what a slot is can be told from the text around it. For a text that is a template
these signs are its items, and filling either is the same.
-/
namespace NamedSql

open Quoting (mark)

inductive Sign where
  | plain (letter : Char)
  | slot (key : String) (quoted : Bool)
  deriving DecidableEq, Repr

namespace Sign

/-- The signs of a text after a letter. Letters are skipped that a sign has taken already. -/
def readFrom : Nat → Option Char → List Char → List Sign
  | _, _, [] => []
  | skip + 1, _, first :: rest => readFrom skip (some first) rest
  | 0, before, first :: rest =>
      if (first = '{' ∨ first = '}') ∧ rest.head? = some first then
        .plain first :: readFrom 1 (some first) rest
      else if first = '{' then
        let key := rest.takeWhile (· ≠ '}')
        let after := (rest.drop (key.length + 1)).head?
        .slot (String.ofList key) (before == some mark && after == some mark) ::
          readFrom (key.length + 1) (some first) rest
      else .plain first :: readFrom 0 (some first) rest

def key? : Sign → Option String
  | .plain _ => none
  | .slot key _ => some key

def isSlot : Sign → Bool
  | .plain _ => false
  | .slot _ _ => true

/-- A sign with the value of its key. Quotes of the value are doubled inside a literal alone. -/
def substituted (keywords : Record) (quoting : Quoting) : Sign → List Char
  | .plain letter => [letter]
  | .slot key quoted =>
      let value := (keywords.get? key).elim "" Value.render
      (if quoted then quoting.between value else value).toList

/-- Signs with values by number. As many values stand before that of a slot as slots stand
before the slot. -/
def numbered (values : List Value) : Nat → List Sign → List Char
  | _, [] => []
  | number, .plain letter :: rest => letter :: numbered values number rest
  | number, .slot _ _ :: rest =>
      (values[number]?.elim "" Value.render).toList ++ numbered values (number + 1) rest

theorem readFrom_skip (before : Option Char) (skipped rest : List Char) :
    readFrom skipped.length before (skipped ++ rest) =
      readFrom 0 (skipped.getLast?.or before) rest := by
  induction skipped generalizing before with
  | nil => rfl
  | cons first more ih =>
      rw [List.length_cons, List.cons_append, readFrom, ih, List.getLast?_cons]
      cases more.getLast? <;> rfl

end Sign

/-- The letters and slots of a text in the order in which they stand there. -/
def signs (text : String) : List Sign := Sign.readFrom 0 none text.toList

namespace Item

variable {keywords : Record} {quoting : Quoting} {slots : Slots}

def sign (before : Option Char) (after : List Char) : Item → Sign
  | .plain letter => .plain letter
  | .named key => .slot (String.ofList key) (before == some mark && after.head? == some mark)
  | .blank => .slot "" (before == some mark && after.head? == some mark)

def last : Item → Char
  | .plain letter => letter
  | .named _ => '}'
  | .blank => '}'

/-- The signs of items after a letter, each between the letters beside it. -/
def signsAfter : Option Char → List Item → List Sign
  | _, [] => []
  | before, item :: rest =>
      item.sign before (rest.flatMap write) :: signsAfter (some item.last) rest

theorem readFrom_slot (before : Option Char) (key rest : List Char)
    (bare : ∀ letter ∈ key, letter ≠ '{' ∧ letter ≠ '}') :
    Sign.readFrom 0 before ('{' :: key ++ '}' :: rest) =
      .slot (String.ofList key) (before == some mark && rest.head? == some mark) ::
        Sign.readFrom 0 (some '}') rest := by
  have single : (key ++ '}' :: rest).head? ≠ some '{' := by
    cases key with
    | nil => simp
    | cons first more => simpa using (bare first List.mem_cons_self).1
  have taken : (key ++ '}' :: rest).takeWhile (· ≠ '}') = key := by
    rw [List.takeWhile_append_of_pos fun letter member => by simpa using (bare letter member).2]
    simp
  have split : key ++ '}' :: rest = (key ++ ['}']) ++ rest := by simp
  have skipped := Sign.readFrom_skip (some '{') (key ++ ['}']) rest
  rw [List.length_append, List.length_singleton, List.getLast?_concat] at skipped
  rw [List.cons_append, Sign.readFrom, if_neg fun doubled => single doubled.2, if_pos rfl]
  simp only [taken]
  rw [split, skipped, List.drop_left' (by simp)]
  rfl

-- An item is one sign, and only its last letter is looked back at.
theorem readFrom_item (item : Item) (allowed : item.Allowed slots) (before : Option Char)
    (rest : List Char) : Sign.readFrom 0 before (item.write ++ rest) =
      item.sign before rest :: Sign.readFrom 0 (some item.last) rest := by
  cases item with
  | plain letter =>
      by_cases brace : letter = '{' ∨ letter = '}'
      · simp [write, brace, Sign.readFrom, sign, last]
      · obtain ⟨opening, closing⟩ := not_or.mp brace
        simp [write, opening, closing, Sign.readFrom, sign, last]
  | named key =>
      obtain ⟨-, -, bare⟩ := allowed
      rw [write, List.append_assoc]
      exact readFrom_slot before key rest bare
  | blank => exact readFrom_slot before [] rest (by simp)

/-! Items and the signs of what they are written as. A template has slots of one kind, so
each sign has its item, and the induction carries the letter that the item before ends in. -/
section Signs

variable (before : Option Char) (items : List Item)

theorem readFrom_items (allowed : ∀ item ∈ items, item.Allowed slots) :
    Sign.readFrom 0 before (items.flatMap write) = signsAfter before items := by
  induction items generalizing before with
  | nil => rfl
  | cons item rest ih =>
      have later := ih (some item.last) fun other member =>
        allowed other (List.mem_cons_of_mem item member)
      rw [List.flatMap_cons, readFrom_item item (allowed item List.mem_cons_self), later,
        signsAfter]

theorem keys_signs (keyed : ∀ item ∈ items, item.Allowed .named) :
    (signsAfter before items).filterMap Sign.key? = items.filterMap key? := by
  induction items generalizing before with
  | nil => rfl
  | cons item rest ih =>
      obtain ⟨here, after⟩ := List.forall_mem_cons.mp keyed
      have later := ih (some item.last) after
      rw [signsAfter, List.filterMap_cons, later, List.filterMap_cons]
      cases item with
      | plain letter => rfl
      | named key => rfl
      | blank => cases here

theorem blanks_signs (keyless : ∀ item ∈ items, item.Allowed .positional) :
    (signsAfter before items).countP Sign.isSlot = items.countP isBlank := by
  induction items generalizing before with
  | nil => rfl
  | cons item rest ih =>
      obtain ⟨here, after⟩ := List.forall_mem_cons.mp keyless
      have later := ih (some item.last) after
      rw [signsAfter, List.countP_cons, later, List.countP_cons]
      cases item with
      | plain letter => rfl
      | named key => cases here.1
      | blank => rfl

theorem substitute_signs (keyed : ∀ item ∈ items, item.Allowed .named)
    (given : ∀ key ∈ items.filterMap key?, keywords.isSet key = true) :
    substitute keywords quoting (before == some mark) items =
      .ok ((signsAfter before items).flatMap (Sign.substituted keywords quoting)) := by
  induction items generalizing before with
  | nil => rfl
  | cons item rest ih =>
      obtain ⟨here, after⟩ := List.forall_mem_cons.mp keyed
      cases item with
      | plain letter =>
          have later : substitute keywords quoting (letter == mark) rest = _ :=
            ih (some letter) after given
          rw [substitute, later]
          rfl
      | named key =>
          simp only [List.filterMap_cons, key?, List.forall_mem_cons] at given
          obtain ⟨held, supplied⟩ := given
          obtain ⟨value, found⟩ := Option.isSome_iff_exists.mp held
          have later : substitute keywords quoting false rest = _ := ih (some '}') after supplied
          have next : Piece.startsWithMark rest = ((rest.flatMap write).head? == some mark) := by
            rw [Bool.eq_iff_iff, Piece.startsWithMark_iff, beq_iff_eq]
          simp only [substitute, found, next, later, signsAfter, List.flatMap_cons, sign,
            Sign.substituted, Option.elim_some, Quoting.apply_eq_between]
          rfl
      | blank => cases here

theorem inOrder_signs (keyless : ∀ item ∈ items, item.Allowed .positional)
    (values : List Value) (number : Nat) : inOrder items (values.drop number) =
      Sign.numbered values number (signsAfter before items) := by
  induction items generalizing before number with
  | nil => rfl
  | cons item rest ih =>
      obtain ⟨here, after⟩ := List.forall_mem_cons.mp keyless
      have later := ih (some item.last) after
      cases item with
      | plain letter => rw [inOrder, later number, signsAfter, sign, Sign.numbered]
      | named key => cases here.1
      | blank =>
          rw [signsAfter, sign, Sign.numbered, ← later (number + 1)]
          by_cases inside : number < values.length
          · rw [List.drop_eq_getElem_cons inside, inOrder, List.getElem?_eq_getElem inside]
            rfl
          · have dry : values.drop number = [] := List.drop_eq_nil_of_le (by omega)
            have drier : values.drop (number + 1) = [] := List.drop_eq_nil_of_le (by omega)
            rw [dry, drier, inOrder, List.getElem?_eq_none (by omega)]
            rfl

end Signs

theorem signs_of_spelled (text : String) (items : List Item)
    (spelled : Spelled slots items text.toList) : signs text = signsAfter none items := by
  rw [signs, ← spelled.2, readFrom_items none items spelled.1]

-- A doubled brace and the end of a slot are no quotes, whatever stands behind them.
example : signs "'\x7b\x7b\x7ba\x7d'\x7ba\x7d'" =
    [.plain '\x27', .plain '{', .slot "a" false, .plain '\x27', .slot "a" true, .plain '\x27'] := by
  decide

end Item

end NamedSql
