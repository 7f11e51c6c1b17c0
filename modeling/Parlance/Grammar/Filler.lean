import Parlance.Text.Basic

/-! Filler words carry no meaning of their own: they never name a table or a column. -/

namespace Parlance.Grammar

def fillerWords : List String :=
  ["a", "all", "an", "and", "any", "are", "as", "by", "each", "every", "for", "from", "in", "into",
   "is", "me", "my", "new", "of", "on", "or", "our", "record", "records", "row", "rows", "some",
   "the", "their", "there", "to", "entries", "entry", "data", "details", "list", "info", "top",
   "first", "last", "latest", "newest", "most", "recent"]

/-- Membership up to the case of ASCII letters. -/
def isOneOf (ws : List String) (w : List Char) : Bool := ws.any fun v => Text.sameWord v.toList w

def isFiller (w : List Char) : Bool := isOneOf fillerWords w

end Parlance.Grammar
