import MiddlewareStack.Text.Ranges

/-!
# Blanks between tokens of source text

The Unicode property White_Space, and the two direction marks that source text may use as blanks.
-/

namespace MiddlewareStack.Text

def blankRanges : CodeRanges := [
  (0x85, 0x85), (0xA0, 0xA0), (0x1680, 0x1680), (0x2000, 0x200A), (0x2028, 0x2029),
  (0x202F, 0x202F), (0x205F, 0x205F), (0x3000, 0x3000)]

def isBlank (c : Char) : Bool :=
  if c.toNat < 0x80 then c == ' ' || (decide (0x09 ≤ c.toNat) && decide (c.toNat ≤ 0x0D))
  else blankRanges.contains c || c == '\u200e' || c == '\u200f'

end MiddlewareStack.Text
