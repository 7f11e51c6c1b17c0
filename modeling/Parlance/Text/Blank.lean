import Parlance.Text.Range

/-! Blank characters are the code points with the White_Space property; there are
twenty-five of them, six of which are ASCII. -/

namespace Parlance.Text

def blankRanges : Ranges := [
  (0x9, 0xd), (0x20, 0x20), (0x85, 0x85), (0xa0, 0xa0), (0x1680, 0x1680), (0x2000, 0x200a),
  (0x2028, 0x2029), (0x202f, 0x202f), (0x205f, 0x205f), (0x3000, 0x3000)]

def isBlank (c : Char) : Bool := blankRanges.holds c.toNat

theorem isBlank_space : isBlank ' ' = true := by decide

end Parlance.Text
