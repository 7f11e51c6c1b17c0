import Parlance.Text.Basic

/-! Bytes as UTF-8. A sequence is well formed if its first byte announces as many bytes as
follow it, in the shortest form and for a character that exists. Reading stops at the first
fault, or puts a replacement character in its place. -/

namespace Parlance.Text.Utf8

/-- A fault: so many bytes that cannot begin a character, or the text ends within one. -/
inductive Fault
  | invalid (length : Nat)
  | incomplete
  deriving DecidableEq, Repr

def isTail (b : UInt8) : Bool := 0x80 ≤ b && b ≤ 0xbf

/-- The bytes that may come second after a first byte of three or four. -/
def secondFits (a b : UInt8) : Bool :=
  if a = 0xe0 then 0xa0 ≤ b && b ≤ 0xbf
  else if a = 0xed then 0x80 ≤ b && b ≤ 0x9f
  else if a = 0xf0 then 0x90 ≤ b && b ≤ 0xbf
  else if a = 0xf4 then 0x80 ≤ b && b ≤ 0x8f
  else isTail b

/-- The number of bytes that a first byte announces; none if it cannot be first. -/
def announced (a : UInt8) : Option Nat :=
  if a < 0x80 then some 1
  else if 0xc2 ≤ a && a ≤ 0xdf then some 2
  else if 0xe0 ≤ a && a ≤ 0xef then some 3
  else if 0xf0 ≤ a && a ≤ 0xf4 then some 4
  else none

def low6 (b : UInt8) : Nat := b.toNat % 64

def char2 (a b : UInt8) : Char := Char.ofNat (a.toNat % 32 * 64 + low6 b)
def char3 (a b c : UInt8) : Char := Char.ofNat ((a.toNat % 16 * 64 + low6 b) * 64 + low6 c)
def char4 (a b c d : UInt8) : Char :=
  Char.ofNat (((a.toNat % 8 * 64 + low6 b) * 64 + low6 c) * 64 + low6 d)

def first (a : UInt8) (bs : List UInt8) : Except Fault (Char × Nat) :=
  match announced a, bs with
  | none, _ => .error (.invalid 1)
  | some 1, _ => .ok (Char.ofNat a.toNat, 1)
  | some 2, b :: _ => if isTail b then .ok (char2 a b, 2) else .error (.invalid 1)
  | some 3, [b] => .error (if secondFits a b then .incomplete else .invalid 1)
  | some 3, b :: c :: _ =>
    if !secondFits a b then .error (.invalid 1)
    else if !isTail c then .error (.invalid 2)
    else .ok (char3 a b c, 3)
  | some _, [b] => .error (if secondFits a b then .incomplete else .invalid 1)
  | some _, [b, c] =>
    if !secondFits a b then .error (.invalid 1)
    else .error (if isTail c then .incomplete else .invalid 2)
  | some _, b :: c :: d :: _ =>
    if !secondFits a b then .error (.invalid 1)
    else if !isTail c then .error (.invalid 2)
    else if !isTail d then .error (.invalid 3)
    else .ok (char4 a b c d, 4)
  | some _, [] => .error .incomplete

/-- Characters up to the first fault, which is given with the offset of its first byte. The
second argument counts the bytes of the current character that are still to be passed. -/
def decodeFrom (offset : Nat) : Nat → List UInt8 → Except (Fault × Nat) (List Char)
  | _, [] => .ok []
  | skip + 1, _ :: bs => decodeFrom (offset + 1) skip bs
  | 0, a :: bs =>
    match first a bs with
    | .ok (c, n) => (decodeFrom (offset + 1) (n - 1) bs).map (c :: ·)
    | .error f => .error (f, offset)

def decode (bs : List UInt8) : Except (Fault × Nat) (List Char) := decodeFrom 0 0 bs

def replacement : Char := Char.ofNat 0xfffd

def lossyFrom : Nat → List UInt8 → List Char
  | _, [] => []
  | skip + 1, _ :: bs => lossyFrom skip bs
  | 0, a :: bs =>
    match first a bs with
    | .ok (c, n) => c :: lossyFrom (n - 1) bs
    | .error (.invalid n) => replacement :: lossyFrom (n - 1) bs
    | .error .incomplete => [replacement]

/-- One replacement character for every fault. -/
def decodeLossy (bs : List UInt8) : List Char := lossyFrom 0 bs

def encode (s : String) : List UInt8 := s.toUTF8.toList

def Fault.message (offset : Nat) : Fault → String
  | invalid n => "invalid utf-8 sequence of " ++ toString n ++ " bytes from index " ++ toString offset
  | incomplete => "incomplete utf-8 byte sequence from index " ++ toString offset

end Parlance.Text.Utf8
