import NamedSql.Proofs.TemplateItems

/-!
The texts that are templates. A text is a template when it is items written one after
another: letters, doubled braces, and slots of the template's kind. Reading finds those
items and no others, so a text has one reading and the pieces it is cut into still spell
it. The reader looks one letter ahead; here it is stopped at every letter, and what it
has taken but not yet turned into an item is the letters it waits with.
-/
namespace NamedSql

theorem map_eq_ok_iff {ε α β : Type} (result : Except ε α) (f : α → β) (outcome : β) :
    result.map f = .ok outcome ↔ ∃ value, result = .ok value ∧ f value = outcome := by
  cases result <;> simp [Except.map]

theorem toOption_eq_some_iff {ε α : Type} (result : Except ε α) (value : α) :
    result.toOption = some value ↔ result = .ok value := by
  cases result <;> simp [Except.toOption]

theorem exists_ok {ε α : Type} (result : Except ε α) (succeeds : result.toOption.isSome) :
    ∃ value, result = .ok value := by
  obtain ⟨value, found⟩ := Option.isSome_iff_exists.mp succeeds
  exact ⟨value, (toOption_eq_some_iff result value).mp found⟩

namespace Item

variable {slots : Slots} {items : List Item} {text : List Char}

/-- Items that a template of this kind may have, written one after another. -/
def Spelled (slots : Slots) (items : List Item) (text : List Char) : Prop :=
  (∀ item ∈ items, item.Allowed slots) ∧ items.flatMap write = text

def isBlank : Item → Bool
  | .blank => true
  | _ => false

theorem spelled_nil : Spelled slots [] [] := ⟨by simp, rfl⟩

theorem spelled_cons (item : Item) (allowed : item.Allowed slots)
    (later : Spelled slots items text) : Spelled slots (item :: items) (item.write ++ text) := by
  obtain ⟨each, rfl⟩ := later
  refine ⟨?_, rfl⟩
  intro other member
  rcases List.mem_cons.mp member with rfl | member
  · exact allowed
  · exact each other member

theorem slot_eq_ok (key : List Char) (item : Item) (made : slot slots key = .ok item)
    (bare : ∀ letter ∈ key, letter ≠ '{' ∧ letter ≠ '}') :
    item.Allowed slots ∧ item.write = '{' :: key ++ ['}'] := by
  cases slots with
  | named =>
      cases key with
      | nil => simp [slot] at made
      | cons first rest =>
          obtain rfl := Except.ok.inj made
          exact ⟨⟨rfl, by simp, bare⟩, rfl⟩
  | positional =>
      cases key with
      | nil =>
          obtain rfl := Except.ok.inj made
          exact ⟨rfl, rfl⟩
      | cons first rest => simp [slot] at made

namespace Place

/-- The letters that are read and belong to no item yet. -/
def pending : Place → List Char
  | .text => []
  | .opened => ['{']
  | .inside key => '{' :: key
  | .closing => ['}']

/-- A key under way has no brace in it. -/
def Sound : Place → Prop
  | .inside key => ∀ letter ∈ key, letter ≠ '{' ∧ letter ≠ '}'
  | _ => True

end Place

/-! Reading takes nothing but items. The induction is on the letters to come, and each
letter either joins those that wait or ends an item with them. -/
section Soundness

theorem spelled_of_letter (item : Item) (rest : List Char) (allowed : item.Allowed slots)
    (read : (readFrom slots .text rest).map (item :: ·) = .ok items)
    (later : ∀ items, readFrom slots .text rest = .ok items → Spelled slots items rest) :
    Spelled slots items (item.write ++ rest) := by
  obtain ⟨tail, next, rfl⟩ := (map_eq_ok_iff _ _ _).mp read
  exact spelled_cons item allowed (later tail next)

theorem spelled_of_slot (key rest : List Char)
    (bare : ∀ letter ∈ key, letter ≠ '{' ∧ letter ≠ '}')
    (read : ((slot slots key).bind fun item =>
      (readFrom slots .text rest).map (item :: ·)) = .ok items)
    (later : ∀ items, readFrom slots .text rest = .ok items → Spelled slots items rest) :
    Spelled slots items ('{' :: key ++ '}' :: rest) := by
  cases made : slot slots key with
  | error defect =>
      rw [made] at read
      cases read
  | ok item =>
      rw [made] at read
      obtain ⟨allowed, written⟩ := slot_eq_ok key item made bare
      have spelled := spelled_of_letter item rest allowed read later
      rw [written] at spelled
      simpa using spelled

theorem spelled_of_readFrom (place : Place) (sound : place.Sound) (rest : List Char)
    (read : readFrom slots place rest = .ok items) :
    Spelled slots items (place.pending ++ rest) := by
  induction rest generalizing place items with
  | nil =>
      cases place with
      | text =>
          obtain rfl := Except.ok.inj read
          exact spelled_nil
      | opened => cases read
      | inside key => cases read
      | closing => cases read
  | cons letter rest ih =>
      have fromText : ∀ items, readFrom slots .text rest = .ok items → Spelled slots items rest :=
        fun items next => ih .text trivial next
      cases place with
      | text =>
          by_cases opening : letter = '{'
          · subst opening
            exact ih .opened trivial read
          · by_cases closing : letter = '}'
            · subst closing
              exact ih .closing trivial read
            · simp only [readFrom, opening, closing, ↓reduceIte] at read
              have spelled := spelled_of_letter (.plain letter) rest trivial read fromText
              simpa [write, Place.pending, opening, closing] using spelled
      | opened =>
          by_cases opening : letter = '{'
          · subst opening
            exact spelled_of_letter (.plain '{') rest trivial read fromText
          · by_cases closing : letter = '}'
            · subst closing
              exact spelled_of_slot [] rest (by simp) read fromText
            · simp only [readFrom, opening, closing, ↓reduceIte] at read
              exact ih (.inside [letter]) (by simp [Place.Sound, opening, closing]) read
      | inside key =>
          by_cases opening : letter = '{'
          · simp [readFrom, opening] at read
          · by_cases closing : letter = '}'
            · subst closing
              simp only [readFrom, opening, ↓reduceIte] at read
              exact spelled_of_slot key rest sound read fromText
            · simp only [readFrom, opening, closing, ↓reduceIte] at read
              have longer : Place.Sound (.inside (key ++ [letter])) := by
                intro other member
                rcases List.mem_append.mp member with earlier | here
                · exact sound other earlier
                · obtain rfl := List.mem_singleton.mp here
                  exact ⟨opening, closing⟩
              have spelled := ih (.inside (key ++ [letter])) longer read
              simpa [Place.pending] using spelled
      | closing =>
          by_cases again : letter = '}'
          · subst again
            exact spelled_of_letter (.plain '}') rest trivial read fromText
          · simp [readFrom, again] at read

end Soundness

-- Reading and writing are inverse, so a text is spelled by one list of items at most.
theorem readFrom_eq_ok_iff : readFrom slots .text text = .ok items ↔ Spelled slots items text := by
  constructor
  · exact spelled_of_readFrom .text trivial text
  · rintro ⟨allowed, rfl⟩
    exact readFrom_flatMap_write slots items allowed

end Item

namespace Piece

def write : Piece → List Char
  | .text letters => (Item.ofText letters).flatMap Item.write
  | .named key _ => (Item.named key.toList).write
  | .blank => Item.blank.write

theorem write_prepend (letter : Char) (pieces : List Piece) :
    (prepend letter pieces).flatMap write =
      (Item.plain letter).write ++ pieces.flatMap write := by
  cases pieces with
  | nil => simp [prepend, write, Item.ofText]
  | cons piece rest => cases piece <;> simp [prepend, write, Item.ofText]

theorem write_group (afterMark : Bool) (items : List Item) :
    (group afterMark items).flatMap write = items.flatMap Item.write := by
  induction items generalizing afterMark with
  | nil => rfl
  | cons item rest ih =>
      cases item with
      | plain letter => rw [group, write_prepend, ih, List.flatMap_cons]
      | named key => simp [group, write, ih]
      | blank => simp [group, write, ih]

theorem isBlank_prepend (letter : Char) (pieces : List Piece) :
    (prepend letter pieces).countP isBlank = pieces.countP isBlank := by
  cases pieces with
  | nil => rfl
  | cons piece rest => cases piece <;> simp [prepend, isBlank]

theorem blanks_group (afterMark : Bool) (items : List Item) :
    (group afterMark items).countP isBlank = items.countP Item.isBlank := by
  induction items generalizing afterMark with
  | nil => rfl
  | cons item rest ih =>
      cases item with
      | plain letter => simp [group, isBlank_prepend, ih, Item.isBlank]
      | named key => simp [group, ih, isBlank, Item.isBlank]
      | blank => simp [group, ih, List.countP_cons, isBlank, Item.isBlank]

end Piece

namespace Template

variable {slots : Slots} {text : String}

theorem read_eq_ok_iff (template : Template) : read slots text = .ok template ↔
    ∃ items, Item.Spelled slots items text.toList ∧
      template = ⟨text, slots, Piece.ofItems items⟩ := by
  unfold read Item.read
  cases found : Item.readFrom slots .text text.toList with
  | ok items =>
      have spelled := Item.readFrom_eq_ok_iff.mp found
      constructor
      · intro same
        exact ⟨items, spelled, (Except.ok.inj same).symm⟩
      · rintro ⟨others, again, rfl⟩
        rw [Item.readFrom_eq_ok_iff.mpr again] at found
        obtain rfl := Except.ok.inj found
        rfl
  | error defect =>
      constructor
      · intro impossible
        cases impossible
      · rintro ⟨items, spelled, -⟩
        rw [Item.readFrom_eq_ok_iff.mpr spelled] at found
        cases found

theorem read_eq_error (fault : Fault) (failed : read slots text = .error fault) :
    ∃ defect, fault = .malformedTemplate text defect := by
  unfold read at failed
  cases found : Item.read slots text with
  | ok items =>
      rw [found] at failed
      cases failed
  | error defect =>
      rw [found] at failed
      exact ⟨defect, (Except.error.inj failed).symm⟩

theorem keys_ofItems (items : List Item) :
    keys ⟨text, slots, Piece.ofItems items⟩ = items.filterMap Item.key? :=
  Item.keys_group false items

theorem arity_ofItems (items : List Item) :
    arity ⟨text, slots, Piece.ofItems items⟩ = items.countP Item.isBlank :=
  Piece.blanks_group false items

theorem keys_unbraced (template : Template) (success : read slots text = .ok template) :
    ∀ key ∈ template.keys, Item.Unbraced key.toList := by
  obtain ⟨items, ⟨allowed, -⟩, rfl⟩ := (read_eq_ok_iff template).mp success
  intro key member
  rw [keys_ofItems] at member
  obtain ⟨item, inside, own⟩ := List.mem_filterMap.mp member
  cases item with
  | plain letter => cases own
  | blank => cases own
  | named letters =>
      obtain rfl := Option.some.inj own
      obtain ⟨-, -, bare⟩ := allowed _ inside
      rw [String.toList_ofList]
      exact ⟨fun opening => (bare _ opening).1 rfl, fun closing => (bare _ closing).2 rfl⟩

-- A text is a template or a violation of the convention. The items that spell it are
-- named by the text itself, so its keys and its number of blanks are too.
theorem read_accepts_spelled (slots : Slots) (text : String) :
    ((∃ template, read slots text = .ok template) ↔
      ∃ items, Item.Spelled slots items text.toList) ∧
    (∀ fault, read slots text = .error fault →
      (∃ defect, fault = .malformedTemplate text defect) ∧ fault.category = .convention) ∧
    ∀ template, read slots text = .ok template →
      template.pieces.flatMap Piece.write = text.toList ∧
      ∀ items, Item.Spelled slots items text.toList →
        template.keys = items.filterMap Item.key? ∧
        template.arity = items.countP Item.isBlank := by
  refine ⟨⟨?_, ?_⟩, ?_, ?_⟩
  · rintro ⟨template, success⟩
    obtain ⟨items, spelled, -⟩ := (read_eq_ok_iff template).mp success
    exact ⟨items, spelled⟩
  · rintro ⟨items, spelled⟩
    exact ⟨_, (read_eq_ok_iff _).mpr ⟨items, spelled, rfl⟩⟩
  · intro fault failed
    obtain ⟨defect, rfl⟩ := read_eq_error fault failed
    exact ⟨⟨defect, rfl⟩, rfl⟩
  · intro template success
    obtain ⟨found, ⟨allowed, written⟩, rfl⟩ := (read_eq_ok_iff template).mp success
    refine ⟨?_, ?_⟩
    · rw [← written]
      exact Piece.write_group false found
    · intro items spelled
      have again := (read_eq_ok_iff _).mpr ⟨items, spelled, rfl⟩
      obtain same := Except.ok.inj (success.symm.trans again)
      rw [same]
      exact ⟨keys_ofItems items, arity_ofItems items⟩

-- Runs of braces are cut from the left, two at a time.
example : (read .named "\x7b\x7b\x7ba\x7d\x7d\x7d").toOption.map (·.pieces) =
    some [.text ['{'], .named "a" false, .text ['}']] := by decide

end Template

end NamedSql
