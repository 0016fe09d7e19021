import NamedSql.Value
import Std.Data.String.ToInt
import Mathlib.Data.List.Basic

/-!
Bare literals and their values. Bytes have two digits each, so pairs of digits are bytes again,
and whole numbers have one spelling, which is read as the number it was written for. The first
letter tells what is written, a null, a truth, bytes or a number. Texts and reals are left
aside: a text may look like any of them, and so does the real 1.
-/
namespace NamedSql

namespace Text

def upperDigits : List Char := "0123456789ABCDEF".toList

def hexValue? (letter : Char) : Option Nat := upperDigits.idxOf? letter

/-- Bytes from pairs of digits, the high half first. -/
def unhex : List Char → Option (List UInt8)
  | [] => some []
  | [_] => none
  | high :: low :: rest =>
      match hexValue? high, hexValue? low with
      | some upper, some lower => (unhex rest).map (UInt8.ofNat (16 * upper + lower) :: ·)
      | _, _ => none

theorem hexValue?_hexDigit (half : Nat) (small : half < 16) :
    hexValue? (hexDigit half) = some half := by
  have each : ∀ digit : Fin 16, hexValue? (hexDigit digit) = some digit.val := by decide
  exact each ⟨half, small⟩

theorem hexDigit_upper (half : Nat) (small : half < 16) : hexDigit half ∈ upperDigits := by
  have each : ∀ digit : Fin 16, hexDigit digit ∈ upperDigits := by decide
  exact each ⟨half, small⟩

theorem unhex_hex (bytes : List UInt8) : unhex (hex bytes) = some bytes := by
  induction bytes with
  | nil => rfl
  | cons byte rest ih =>
      have bound := byte.toNat_lt
      have high := hexValue?_hexDigit (byte.toNat / 16) (by omega)
      have low := hexValue?_hexDigit (byte.toNat % 16) (by omega)
      rw [hex_cons, unhex, high, low]
      simp only [ih, Option.map_some, Nat.div_add_mod, UInt8.ofNat_toNat]

theorem length_hex (bytes : List UInt8) : (hex bytes).length = 2 * bytes.length := by
  induction bytes with
  | nil => rfl
  | cons byte rest ih =>
      rw [hex_cons, List.length_cons, List.length_cons, List.length_cons, ih]
      omega

theorem hex_upper (bytes : List UInt8) : ∀ digit ∈ hex bytes, digit ∈ upperDigits := by
  intro digit member
  obtain ⟨byte, -, own⟩ := List.mem_flatMap.mp member
  have bound := byte.toNat_lt
  simp only [hexByte, List.mem_cons, List.not_mem_nil, or_false] at own
  rcases own with rfl | rfl
  · exact hexDigit_upper _ (by omega)
  · exact hexDigit_upper _ (by omega)

end Text

namespace Decimal

/-- A whole number by its digits, with a minus sign before them if it is below zero. Only zero
itself begins with a zero. -/
structure Signed (number : Int) (letters digits : List Char) : Prop where
  spelled : letters = if number < 0 then '-' :: digits else digits
  filled : digits ≠ []
  decimal : ∀ digit ∈ digits, digit.isDigit = true
  lead : digits.head? = some '0' → digits = ['0'] ∧ number = 0

theorem Signed.first {number : Int} {letters digits : List Char}
    (signed : Signed number letters digits) :
    ∃ letter, letters.head? = some letter ∧ (letter = '-' ∨ letter.isDigit = true) := by
  obtain ⟨digit, more, rfl⟩ := List.exists_cons_of_ne_nil signed.filled
  rw [signed.spelled]
  split
  · exact ⟨'-', rfl, .inl rfl⟩
  · exact ⟨digit, rfl, .inr (signed.decimal digit List.mem_cons_self)⟩

-- Digits come from dividing by ten, and the first is what is left at last, below ten but zero
-- only if nothing was divided.
theorem toDigits_lead (number : Nat) (zero : (Nat.toDigits 10 number).head? = some '0') :
    number = 0 := by
  induction number using Nat.strongRecOn with
  | ind number ih =>
      rw [Nat.toDigits_eq_if (by decide)] at zero
      by_cases small : number < 10
      · rw [if_pos small] at zero
        have each : ∀ digit : Fin 10, [Nat.digitChar digit].head? = some '0' → digit.val = 0 := by
          decide
        exact each ⟨number, small⟩ zero
      · rw [if_neg small, List.head?_append_of_ne_nil _ Nat.toDigits_ne_nil] at zero
        have tenth := ih (number / 10) (by omega) zero
        omega

theorem signed_repr (number : Int) :
    Signed number number.repr.toList (Nat.toDigits 10 number.natAbs) where
  spelled := by
    rw [Int.repr_eq_if]
    by_cases negative : number < 0
    · rw [if_neg (by omega), if_pos negative, show (-number).toNat = number.natAbs by omega]
      simp [Nat.repr_eq_ofList_toDigits]
    · rw [if_pos (by omega), if_neg negative, show number.toNat = number.natAbs by omega]
      simp [Nat.repr_eq_ofList_toDigits]
  filled := Nat.toDigits_ne_nil
  decimal digit member := Nat.isDigit_of_mem_toDigits (by decide) (by decide) member
  lead zero := by
    have none := toDigits_lead number.natAbs zero
    rw [none]
    exact ⟨rfl, by omega⟩

end Decimal

namespace Value

/-- Values of a kind that their text tells. -/
def isBare : Value → Bool
  | .text _ => false
  | .real _ => false
  | _ => true

/-- The value of a bare literal, by its first letter. -/
def ofBare? (text : String) : Option Value :=
  match text.toList.head? with
  | some 'N' => some .null
  | some 'T' => some (.boolean true)
  | some 'F' => some (.boolean false)
  | some 'X' => (Text.unhex (text.toList.drop 2).dropLast).map .blob
  | _ => text.toInt?.map fun number => .integer (Int64.ofInt number)

theorem ofBare?_blob (bytes : List UInt8) :
    ofBare? (Value.blob bytes).render = some (.blob bytes) := by
  have letters : (Value.blob bytes).render.toList = 'X' :: '\'' :: (Text.hex bytes ++ ['\'']) := by
    simp [render]
  rw [ofBare?, letters]
  simp [Text.unhex_hex]

theorem ofBare?_integer (number : Int64) :
    ofBare? (Value.integer number).render = some (.integer number) := by
  obtain ⟨letter, first, sign⟩ := (Decimal.signed_repr number.toInt).first
  have wordless : letter ≠ 'N' ∧ letter ≠ 'T' ∧ letter ≠ 'F' ∧ letter ≠ 'X' := by
    refine ⟨?_, ?_, ?_, ?_⟩ <;> rintro rfl <;> simp at sign
  simp [ofBare?, render, first, wordless, Int.toInt?_repr]

theorem ofBare?_render (value : Value) (bare : value.isBare = true) :
    ofBare? value.render = some value := by
  cases value with
  | null => rfl
  | integer number => exact ofBare?_integer number
  | real number => cases bare
  | boolean truth => cases truth <;> rfl
  | text letters => cases bare
  | blob bytes => exact ofBare?_blob bytes

-- The decoder settles the last part. A null and a truth are words, and no digit begins a word.
theorem bare_literals_read_back :
    (∀ bytes : List UInt8, ∃ digits : List Char,
      (Value.blob bytes).render = "X'" ++ String.ofList digits ++ "'" ∧
      digits.length = 2 * bytes.length ∧ (∀ digit ∈ digits, digit ∈ Text.upperDigits) ∧
      Text.unhex digits = some bytes) ∧
    (∀ number : Int64,
      (∃ digits, Decimal.Signed number.toInt (Value.integer number).render.toList digits) ∧
      (Value.integer number).render.toInt? = some number.toInt ∧
      Int64.ofInt number.toInt = number) ∧
    ∀ left right : Value, left.isBare = true → right.isBare = true →
      left.render = right.render → left = right := by
  refine ⟨?_, ?_, ?_⟩
  · intro bytes
    exact ⟨Text.hex bytes, rfl, Text.length_hex bytes, Text.hex_upper bytes, Text.unhex_hex bytes⟩
  · intro number
    exact ⟨⟨_, Decimal.signed_repr number.toInt⟩, Int.toInt?_repr number.toInt, number.ofInt_toInt⟩
  · intro left right bareLeft bareRight same
    have read := ofBare?_render left bareLeft
    rw [same, ofBare?_render right bareRight] at read
    exact (Option.some.inj read).symm

theorem bare_literals_read_back_least :
    let least : Value := .integer (-9223372036854775808)
    let found : Value := .integer Int64.minValue
    least.render = "-9223372036854775808" ∧ least.isBare = true ∧ found.isBare = true ∧
    least.render = found.render ∧ least = found := by
  intro least found
  obtain ⟨-, -, distinct⟩ := bare_literals_read_back
  have same : least.render = found.render := by decide
  exact ⟨by decide, rfl, rfl, same, distinct least found rfl rfl same⟩

end Value

end NamedSql
