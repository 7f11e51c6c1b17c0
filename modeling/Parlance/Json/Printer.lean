import Parlance.Json
import Parlance.Number.Decimal
import Parlance.Number.Hexadecimal
import Parlance.Number.Shortest

/-! Writing JSON on one line. Control characters, quotes and backslashes are escaped and all
else is written as it is; a double is written with the fewest digits that read back, and one
that is not finite as null. -/

namespace Parlance.Json

open Number (hexDigit)

def escape (c : Char) : List Char :=
  if c = '"' then ['\\', '"']
  else if c = '\\' then ['\\', '\\']
  else if c = '\n' then ['\\', 'n']
  else if c = '\r' then ['\\', 'r']
  else if c = '\t' then ['\\', 't']
  else if c = '\x08' then ['\\', 'b']
  else if c = '\x0c' then ['\\', 'f']
  else if c.toNat < 32 then ['\\', 'u', '0', '0', hexDigit (c.toNat / 16), hexDigit (c.toNat % 16)]
  else [c]

def quote (s : String) : String := String.ofList ('"' :: s.toList.flatMap escape ++ ['"'])

mutual

def write : Json → String
  | null | unfit => "null"
  | bool true => "true"
  | bool false => "false"
  | int n => toString n
  | float x => if Number.finite x then Number.shortestText x else "null"
  | text s => quote s
  | list [] => "[]"
  | list (j :: js) => "[" ++ j.write ++ writeItems js ++ "]"
  | object [] => "\x7b\x7d"
  | object ((k, j) :: fs) => "\x7b" ++ quote k ++ ":" ++ j.write ++ writeFields fs ++ "\x7d"

def writeItems : List Json → String
  | [] => ""
  | j :: js => "," ++ j.write ++ writeItems js

def writeFields : List (String × Json) → String
  | [] => ""
  | (k, j) :: fs => "," ++ quote k ++ ":" ++ j.write ++ writeFields fs

end

end Parlance.Json
