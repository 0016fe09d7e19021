/-!
Bytes as pairs of upper-case hexadecimal digits, the high half first. Each byte
has two digits, a leading zero included, so the pairs can be told apart.
-/
namespace NamedSql.Text

def hexDigit (half : Nat) : Char :=
  if half < 10 then Char.ofNat ('0'.toNat + half) else Char.ofNat ('A'.toNat + (half - 10))

def hexByte (byte : UInt8) : List Char := [hexDigit (byte.toNat / 16), hexDigit (byte.toNat % 16)]

def hex (bytes : List UInt8) : List Char := bytes.flatMap hexByte

@[simp] theorem hex_nil : hex [] = [] := rfl

@[simp] theorem hex_cons (byte : UInt8) (rest : List UInt8) :
    hex (byte :: rest) = hexDigit (byte.toNat / 16) :: hexDigit (byte.toNat % 16) :: hex rest := rfl

end NamedSql.Text
