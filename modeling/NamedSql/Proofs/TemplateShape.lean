import NamedSql.Proofs.TemplateFilling
import NamedSql.Proofs.TemplateMarks
import Mathlib.Data.List.Chain

/-!
The shape of templates. A template can be put together in one pass, with the text under way,
the finished pieces and the keys met so far side by side; what each item does to them keeps
them in agreement, and in the end they are the pieces and keys of the template that is read.
So stretches of text are never empty and never touch, slots are of one kind, and a slot is
quoted by its two neighbours. Filling relies on it: once the keys are checked each slot finds
its value, and slots of the other kind are not there to be filled.
-/
namespace NamedSql

open Quoting (mark)

namespace Piece

def isText : Piece → Bool
  | .text _ => true
  | _ => false

/-- Text between slots is one piece, and no piece if there is none. -/
structure Shaped (pieces : List Piece) : Prop where
  full : .text [] ∉ pieces
  apart : pieces.IsChain fun left right => left.isText = false ∨ right.isText = false

/-- Text that comes next would be a piece of its own. -/
def Open (pieces : List Piece) : Prop := ∀ piece ∈ pieces.getLast?, piece.isText = false

theorem Shaped.append {front back : List Piece} (before : Shaped front) (after : Shaped back)
    (meets : Open front ∨ ∀ piece ∈ back.head?, piece.isText = false) :
    Shaped (front ++ back) := by
  refine ⟨?_, before.apart.append after.apart ?_⟩
  · rw [List.mem_append]
    exact fun empty => empty.elim before.full after.full
  · intro left ends right begins
    exact meets.imp (fun opened => opened left ends) fun slot => slot right begins

def ofLetters (letters : List Char) : List Piece := if letters = [] then [] else [.text letters]

theorem shaped_ofLetters (letters : List Char) : Shaped (ofLetters letters) := by
  unfold ofLetters
  split
  · exact ⟨List.not_mem_nil, .nil⟩
  · next some => exact ⟨by simpa using Ne.symm some, .singleton _⟩

theorem shaped_slot (slot : Piece) (textless : slot.isText = false) : Shaped [slot] := by
  refine ⟨?_, .singleton _⟩
  rw [List.mem_singleton]
  rintro rfl
  cases textless

theorem open_slot (front : List Piece) (slot : Piece) (textless : slot.isText = false) :
    Open (front ++ [slot]) := by
  simpa [Open] using textless

theorem foldr_prepend (letters : List Char) (pieces : List Piece)
    (textless : ∀ piece ∈ pieces.head?, piece.isText = false) :
    letters.foldr prepend pieces = ofLetters letters ++ pieces := by
  induction letters with
  | nil => rfl
  | cons letter rest ih =>
      rw [List.foldr_cons, ih]
      cases rest with
      | cons second more => rfl
      | nil =>
          cases pieces with
          | nil => rfl
          | cons piece others =>
              cases piece with
              | text letters => cases textless _ rfl
              | named key quoted => rfl
              | blank => rfl

end Piece

/-- A template under way: finished pieces, the keys met so far, and letters that follow the
pieces and may yet grow. -/
structure Draft where
  pieces : List Piece
  keys : List String
  letters : List Char
  deriving DecidableEq, Repr

namespace Draft

def empty : Draft := ⟨[], [], []⟩

def flush (draft : Draft) : Draft := ⟨draft.pieces ++ Piece.ofLetters draft.letters, draft.keys, []⟩

/-- A slot looks back at the text under way and ahead at the next letter, which is not read
yet. -/
def add (draft : Draft) (ahead : Option Char) : Item → Draft
  | .plain letter => { draft with letters := draft.letters ++ [letter] }
  | .named key =>
      let quoted := draft.letters.getLast? == some mark && ahead == some mark
      let flushed := draft.flush
      ⟨flushed.pieces ++ [.named (String.ofList key) quoted],
        flushed.keys ++ [String.ofList key], []⟩
  | .blank =>
      let flushed := draft.flush
      ⟨flushed.pieces ++ [.blank], flushed.keys, []⟩

def collect : Draft → List Item → Draft
  | draft, [] => draft.flush
  | draft, item :: rest => collect (draft.add (rest.flatMap Item.write).head? item) rest

/-- Pieces and keys agree, and the letters may become a piece at any time. -/
structure Sound (draft : Draft) : Prop where
  keyed : draft.keys = draft.pieces.filterMap Piece.key?
  shaped : Piece.Shaped draft.pieces
  opened : Piece.Open draft.pieces

variable {draft : Draft}

theorem keys_flush : (draft.pieces ++ Piece.ofLetters draft.letters).filterMap Piece.key? =
    draft.pieces.filterMap Piece.key? := by
  unfold Piece.ofLetters
  split <;> simp [Piece.key?]

theorem Sound.flush_shaped (sound : draft.Sound) : Piece.Shaped draft.flush.pieces :=
  sound.shaped.append (Piece.shaped_ofLetters draft.letters) (.inl sound.opened)

theorem Sound.slot (sound : draft.Sound) (slot : Piece) (textless : slot.isText = false) :
    Sound ⟨draft.flush.pieces ++ [slot], draft.keys ++ (slot.key?).toList, []⟩ where
  keyed := by
    rw [sound.keyed, flush, List.filterMap_append, keys_flush]
    cases slot <;> rfl
  shaped := sound.flush_shaped.append (Piece.shaped_slot slot textless)
    (.inr (by simpa using textless))
  opened := Piece.open_slot _ slot textless

theorem Sound.add (sound : draft.Sound) (ahead : Option Char) (item : Item) :
    (draft.add ahead item).Sound := by
  cases item with
  | plain letter => exact ⟨sound.keyed, sound.shaped, sound.opened⟩
  | named key => exact sound.slot (.named (String.ofList key) _) rfl
  | blank =>
      have kept : Sound ⟨draft.flush.pieces ++ [.blank], draft.keys ++ [], []⟩ :=
        sound.slot .blank rfl
      rwa [List.append_nil] at kept

theorem Sound.collect (sound : draft.Sound) (items : List Item) :
    (draft.collect items).keys = (draft.collect items).pieces.filterMap Piece.key? ∧
      Piece.Shaped (draft.collect items).pieces := by
  induction items generalizing draft with
  | nil => exact ⟨sound.keyed.trans keys_flush.symm, sound.flush_shaped⟩
  | cons item rest ih => exact ih (sound.add _ item)

theorem sound_empty : empty.Sound := ⟨rfl, ⟨List.not_mem_nil, .nil⟩, by simp [empty, Piece.Open]⟩

-- What the pass still has to add is what the items group into behind the letters under way.
theorem pieces_collect (draft : Draft) (items : List Item) :
    (draft.collect items).pieces = draft.pieces ++
      draft.letters.foldr Piece.prepend
        (Piece.group (draft.letters.getLast? == some mark) items) := by
  induction items generalizing draft with
  | nil =>
      have last := Piece.foldr_prepend draft.letters [] (by simp)
      rw [collect, flush, Piece.group, last, List.append_nil]
  | cons item rest ih =>
      have behind (slot : Piece) (textless : slot.isText = false) :=
        Piece.foldr_prepend draft.letters (slot :: Piece.group false rest) (by simpa using textless)
      rw [collect, ih]
      cases item with
      | plain letter => simp [add, Piece.group]
      | named key =>
          have ahead : ((rest.flatMap Item.write).head? == some mark) =
              Piece.startsWithMark rest := by
            rw [Bool.eq_iff_iff, Piece.startsWithMark_iff, beq_iff_eq]
          rw [Piece.group, behind _ rfl]
          simp [add, flush, ahead]
      | blank =>
          rw [Piece.group, behind _ rfl]
          simp [add, flush]

theorem pieces_collect_empty (items : List Item) :
    (empty.collect items).pieces = Piece.ofItems items :=
  pieces_collect empty items

theorem keys_collect_empty (items : List Item) :
    (empty.collect items).keys = (Piece.ofItems items).filterMap Piece.key? := by
  rw [(sound_empty.collect items).1, pieces_collect_empty]

end Draft

namespace Piece

/-! A slot meets its neighbours in the text that they spell. No piece spells nothing, and a
brace is no quote, so a quote next to the slot is the end of a piece of text. -/
section Neighbours

theorem head?_write (piece : Piece) (full : piece ≠ .text []) :
    piece.write.head? = some mark ↔ ∃ letters, piece = .text (mark :: letters) := by
  cases piece with
  | text letters =>
      cases letters with
      | nil => exact absurd rfl full
      | cons letter more =>
          rw [write, ← startsWithMark_iff]
          simp [Item.ofText, startsWithMark]
  | named key quoted => simp [write, Item.write, mark]
  | blank => simp [write, Item.write, mark]

theorem getLast?_write (piece : Piece) (full : piece ≠ .text []) :
    piece.write.getLast? = some mark ↔ ∃ letters, piece = .text (letters ++ [mark]) := by
  cases piece with
  | text letters =>
      rcases List.eq_nil_or_concat' letters with rfl | ⟨front, last, rfl⟩
      · exact absurd rfl full
      · have spelled : (text (front ++ [last])).write =
            (Item.ofText front).flatMap Item.write ++ (Item.plain last).write := by
          simp [write, Item.ofText]
        rw [spelled, getLast?_letter]
        simp
  | named key quoted => simp [write, Item.write, mark, List.getLast?_cons]
  | blank => simp [write, Item.write, mark]

theorem write_ne_nil (piece : Piece) (full : piece ≠ .text []) : piece.write ≠ [] := by
  cases piece with
  | text letters =>
      cases letters with
      | nil => exact absurd rfl full
      | cons letter more => simp [write, Item.ofText, Item.write_ne_nil]
  | named key quoted => simp [write, Item.write]
  | blank => simp [write, Item.write]

theorem head?_flatMap_write (pieces : List Piece) (full : .text [] ∉ pieces) :
    (pieces.flatMap write).head? = some mark ↔
      ∃ letters, pieces.head? = some (.text (mark :: letters)) := by
  cases pieces with
  | nil => simp
  | cons piece rest =>
      have own : piece ≠ .text [] := fun same => full (by simp [same])
      rw [List.flatMap_cons, List.head?_append_of_ne_nil _ (write_ne_nil piece own),
        head?_write piece own]
      simp

theorem getLast?_flatMap_write (pieces : List Piece) (full : .text [] ∉ pieces) :
    (pieces.flatMap write).getLast? = some mark ↔
      ∃ letters, pieces.getLast? = some (.text (letters ++ [mark])) := by
  rcases List.eq_nil_or_concat' pieces with rfl | ⟨front, piece, rfl⟩
  · simp
  · have own : piece ≠ .text [] := fun same => full (by simp [same])
    rw [List.flatMap_append, List.flatMap_singleton,
      List.getLast?_append_of_ne_nil _ (write_ne_nil piece own), getLast?_write piece own]
    simp

end Neighbours

/-- What a piece writes, once its value is looked up. There is nothing to write where the
lookup fails. -/
def filled? (keywords : Record) (quoting : Quoting) : Piece → Option (List Char)
  | .text letters => some letters
  | .blank => some []
  | .named key quoted => (keywords.get? key).map fun value =>
      (if quoted then quoting.apply value.render else value.render).toList

/-- What a piece says without any value. -/
def literal : Piece → List Char
  | .text letters => letters
  | _ => []

end Piece

namespace Template

open Piece (filled?)

/-- The text of a template with nothing in its slots. -/
def literalText (template : Template) : String :=
  String.ofList (template.pieces.flatMap Piece.literal)

variable {slots : Slots} {text : String}

theorem writeNamed_filled (keywords : Record) (quoting : Quoting) (pieces : List Piece)
    (given : ∀ key ∈ pieces.filterMap Piece.key?, keywords.isSet key = true) :
    ∃ parts, pieces.mapM (filled? keywords quoting) = some parts ∧
      writeNamed keywords quoting pieces = .ok parts.flatten := by
  induction pieces with
  | nil => exact ⟨[], rfl, rfl⟩
  | cons piece rest ih =>
      cases piece with
      | text letters =>
          obtain ⟨parts, looked, written⟩ := ih given
          refine ⟨letters :: parts, ?_, ?_⟩
          · simp [filled?, looked]
          · simp [writeNamed, written, Except.map]
      | blank =>
          obtain ⟨parts, looked, written⟩ := ih given
          refine ⟨[] :: parts, ?_, ?_⟩
          · simp [filled?, looked]
          · simp [writeNamed, written]
      | named key quoted =>
          simp only [List.filterMap_cons, Piece.key?, List.forall_mem_cons] at given
          obtain ⟨held, later⟩ := given
          obtain ⟨value, found⟩ := Option.isSome_iff_exists.mp held
          obtain ⟨parts, looked, written⟩ := ih later
          refine ⟨(if quoted then quoting.apply value.render else value.render).toList :: parts,
            ?_, ?_⟩
          · simp [filled?, found, looked]
          · simp [writeNamed, found, written, Except.map]

theorem writeNamed_literal (keywords : Record) (quoting : Quoting) (pieces : List Piece)
    (keyless : pieces.filterMap Piece.key? = []) :
    writeNamed keywords quoting pieces = .ok (pieces.flatMap Piece.literal) := by
  induction pieces with
  | nil => rfl
  | cons piece rest ih =>
      cases piece with
      | text letters => rw [writeNamed, ih keyless]; rfl
      | blank => rw [writeNamed, ih keyless]; rfl
      | named key quoted => cases keyless

theorem writePositional_literal (pieces : List Piece) (values : List Value)
    (blankless : pieces.countP Piece.isBlank = 0) :
    writePositional pieces values = pieces.flatMap Piece.literal := by
  induction pieces with
  | nil => rfl
  | cons piece rest ih =>
      cases piece with
      | text letters => rw [writePositional, ih blankless]; rfl
      | named key quoted => rw [writePositional, ih blankless]; rfl
      | blank => simp [Piece.isBlank] at blankless

/-! Slots of one kind. Reading refuses a slot of the other kind, so none is left to be filled. -/
section Kinds

variable {template : Template}

theorem arity_of_named (success : read .named text = .ok template) : template.arity = 0 := by
  obtain ⟨items, ⟨allowed, -⟩, rfl⟩ := (read_eq_ok_iff template).mp success
  rw [arity_ofItems, List.countP_eq_zero]
  rintro item member blank
  cases item with
  | plain letter => cases blank
  | named key => cases blank
  | blank => cases allowed _ member

theorem keys_of_positional (success : read .positional text = .ok template) :
    template.keys = [] := by
  obtain ⟨items, ⟨allowed, -⟩, rfl⟩ := (read_eq_ok_iff template).mp success
  rw [keys_ofItems, List.filterMap_eq_nil_iff]
  intro item member
  cases item with
  | plain letter => rfl
  | named key => cases (allowed _ member).1
  | blank => rfl

theorem fillNamed_of_positional (success : read .positional text = .ok template)
    (keywords : Record) (quoting : Quoting) :
    template.fillNamed keywords quoting = .ok template.literalText := by
  have written := writeNamed_literal keywords quoting template.pieces (keys_of_positional success)
  simp only [fillNamed, written, literalText]

theorem fillPositional_of_named (success : read .named text = .ok template)
    (values : List Value) :
    (template.fillPositional values).result = .ok template.literalText := by
  have none := arity_of_named success
  rw [fillPositional_result, none, if_neg (Nat.not_lt_zero _),
    writePositional_literal template.pieces values none, literalText]

end Kinds

-- The pass adds to keys and pieces at once, so they agree. Text beside a slot is never empty, so
-- the letter next to the slot is found in the piece next to it.
theorem read_shaped (slots : Slots) (text : String) (template : Template)
    (success : read slots text = .ok template) :
    (∃ items, Item.Spelled slots items text.toList ∧
      (Draft.empty.collect items).pieces = template.pieces ∧
      (Draft.empty.collect items).keys = template.keys) ∧
    template.keys = template.pieces.filterMap Piece.key? ∧
    template.slots = slots ∧ (template.slots = .named → .blank ∉ template.pieces) ∧
    (template.slots = .positional → ∀ key quoted, .named key quoted ∉ template.pieces) ∧
    .text [] ∉ template.pieces ∧
    template.pieces.IsChain (fun left right => left.isText = false ∨ right.isText = false) ∧
    (∀ front key quoted back, template.pieces = front ++ .named key quoted :: back →
      (quoted = true ↔ (∃ letters, front.getLast? = some (.text (letters ++ [mark]))) ∧
        ∃ letters, back.head? = some (.text (mark :: letters)))) ∧
    (∀ keywords quoting, (∀ key ∈ template.keys, keywords.isSet key = true) →
      ∃ parts, template.pieces.mapM (filled? keywords quoting) = some parts ∧
        template.fillNamed keywords quoting = .ok (String.ofList parts.flatten)) ∧
    (template.slots = .positional → ∀ keywords quoting,
      template.fillNamed keywords quoting = .ok template.literalText) ∧
    (template.slots = .named → ∀ values,
      (template.fillPositional values).result = .ok template.literalText) := by
  obtain ⟨items, spelled, made⟩ := (read_eq_ok_iff template).mp success
  have kind : template.slots = slots := by rw [made]
  have pieces : (Draft.empty.collect items).pieces = template.pieces := by
    rw [made, Draft.pieces_collect_empty]
  have keys : (Draft.empty.collect items).keys = template.keys := by
    rw [made, Draft.keys_collect_empty]
    rfl
  have ⟨keyed, shaped⟩ := Draft.sound_empty.collect items
  rw [pieces] at keyed shaped
  rw [keys] at keyed
  rw [kind]
  refine ⟨⟨items, spelled, pieces, keys⟩, keyed, rfl, ?_, ?_, shaped.full, shaped.apart, ?_, ?_,
    ?_, ?_⟩
  · rintro rfl member
    exact List.countP_eq_zero.mp (arity_of_named success) _ member rfl
  · rintro rfl key quoted member
    have own : key ∈ template.keys := List.mem_filterMap.mpr ⟨_, member, rfl⟩
    rw [keys_of_positional success] at own
    cases own
  · intro front key quoted back split
    have full : .text [] ∉ front ++ .named key quoted :: back := split ▸ shaped.full
    rw [quoted_iff_between_marks template success front back key quoted split,
      Piece.getLast?_flatMap_write front fun member => full (by simp [member]),
      Piece.head?_flatMap_write back fun member => full (by simp [member])]
  · intro keywords quoting given
    obtain ⟨parts, looked, written⟩ := writeNamed_filled keywords quoting template.pieces given
    refine ⟨parts, looked, ?_⟩
    simp only [fillNamed, written]
  · rintro rfl
    exact fillNamed_of_positional success
  · rintro rfl
    exact fillPositional_of_named success

theorem read_shaped_marks :
    let text := "'\x7ba\x7d'\x7bb\x7d'\x7b\x7b\x7ba\x7d\x7bc\x7d"
    let template : Template := ⟨text, .named, [.text [mark], .named "a" true, .text [mark],
      .named "b" true, .text [mark, '{'], .named "a" false, .named "c" false]⟩
    let keywords := Record.ofPairs [("a", .text "'"), ("b", .null), ("c", .integer 1)]
    read .named text = .ok template ∧ .blank ∉ template.pieces ∧
    (∃ parts, template.pieces.mapM (filled? keywords .escaped) = some parts ∧
      template.fillNamed keywords .escaped = .ok (String.ofList parts.flatten)) ∧
    (template.fillPositional [.null]).result = .ok "'''\x7b" := by
  intro text template keywords
  have success : read .named text = .ok template := (toOption_eq_some_iff _ _).mp (by decide)
  obtain ⟨-, -, -, blankless, -, -, -, -, filled, -, literal⟩ :=
    read_shaped .named text template success
  have given : ∀ key ∈ template.keys, keywords.isSet key = true := by decide
  exact ⟨success, blankless rfl, filled keywords .escaped given, literal rfl [.null]⟩

end Template

end NamedSql
