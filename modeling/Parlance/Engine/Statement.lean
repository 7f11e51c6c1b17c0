import Parlance.Pattern

/-! Whether a statement gives back rows, judged from its text. -/

namespace Parlance.Statement

def isSelect (sql : List Char) : Bool := "SELECT".toList.isPrefixOf (Text.upper (Text.trim sql))

def returning : Pattern := .seq [.edge, .word "returning", .edge]

/-- SELECTs, and writes that say what they return. -/
def returnsRows (sql : List Char) : Bool := isSelect sql || returning.holds sql

end Parlance.Statement
