import Parlance.Text.Basic

/-! The address of a server, of which only the beginning matters here: it names a scheme. -/

namespace Parlance.Server

def isMargin (c : Char) : Bool := c.toNat ≤ 32
def isBreak (c : Char) : Bool := c = '\t' || c = '\n' || c = '\r'
def isSchemeChar (c : Char) : Bool := c.isAlphanum || c = '+' || c = '-' || c = '.'

/-- The address without what is around it and without line breaks. -/
def addressChars (url : String) : List Char :=
  (url.toList.dropWhile isMargin).filter fun c => !isBreak c

def hasScheme (url : String) : Bool :=
  let cs := addressChars url
  (cs.headD ' ').isAlpha && (cs.dropWhile isSchemeChar).head? = some ':'

def urlFault? (url : String) : Option String :=
  if hasScheme url then none else some "error with configuration: relative URL without a base"

end Parlance.Server
