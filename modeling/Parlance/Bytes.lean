import Parlance.Number.Hexadecimal
import Parlance.Text.Utf8

/-! Strings of bytes: their hexadecimal form, and the whole numbers that they spell with the
most or the least significant byte first. -/

namespace Parlance

abbrev Bytes := List UInt8

open Number (hexDigit hexValue?)

namespace Bytes

def ofText (s : String) : Bytes := Text.Utf8.encode s

/-- The text, with a replacement character wherever the bytes are not well formed. -/
def lossyText (b : Bytes) : String := String.ofList (Text.Utf8.decodeLossy b)

def text (b : Bytes) : Except String String :=
  match Text.Utf8.decode b with
  | .ok cs => .ok (String.ofList cs)
  | .error (fault, offset) => .error (fault.message offset)

def hexPair (b : UInt8) : List Char := [hexDigit (b.toNat / 16), hexDigit (b.toNat % 16)]

def hex (b : Bytes) : String := String.ofList (b.flatMap hexPair)

/-- The hexadecimal form under which a result shows bytes. -/
def shown (b : Bytes) : String := "\\x" ++ b.hex

def ofHexDigits? : List Char → Option Bytes
  | [] => some []
  | a :: b :: cs => do
    let hi ← hexValue? a
    let lo ← hexValue? b
    let rest ← ofHexDigits? cs
    some (UInt8.ofNat (16 * hi + lo) :: rest)
  | [_] => none

def ofHex? (s : String) : Option Bytes := ofHexDigits? s.toList

def rest (start : Nat) (b : Bytes) : Bytes := b.drop start

def part (start count : Nat) (b : Bytes) : Bytes := (b.drop start).take count

/-- The number with the most significant byte first. -/
def big (b : Bytes) : Nat := b.foldl (fun n c => 256 * n + c.toNat) 0

/-- The number with the least significant byte first. -/
def little (b : Bytes) : Nat := big b.reverse

/-- The number of two's complement that a word of so many bytes stands for. -/
def signed (width : Nat) (word : Nat) : Int := Int.bmod word (Nat.pow 256 width)

def bigSigned (b : Bytes) : Int := signed b.length b.big
def littleSigned (b : Bytes) : Int := signed b.length b.little

/-- The last `width` bytes of a number, the least significant first. -/
def ofNatLittle : Nat → Nat → Bytes
  | 0, _ => []
  | width + 1, n => UInt8.ofNat n :: ofNatLittle width (n / 256)

def ofNatBig (width n : Nat) : Bytes := (ofNatLittle width n).reverse

/-- The word of two's complement for a number. -/
def word (width : Nat) (n : Int) : Nat := (n % (Nat.pow 256 width : Nat)).toNat

end Bytes

end Parlance
