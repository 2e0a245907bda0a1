/-!
# Blank text

White space is the Unicode property of that name.
-/

namespace BrokerProbe

namespace Text

/-- The ranges of code points with the property White_Space. -/
def blankRanges : List (Nat × Nat) :=
  [(0x0009, 0x000D), (0x0020, 0x0020), (0x0085, 0x0085), (0x00A0, 0x00A0),
    (0x1680, 0x1680), (0x2000, 0x200A), (0x2028, 0x2029), (0x202F, 0x202F),
    (0x205F, 0x205F), (0x3000, 0x3000)]

def isBlankChar (c : Char) : Bool :=
  blankRanges.any fun range => range.1 <= c.toNat && c.toNat <= range.2

def isBlank (text : String) : Bool :=
  text.toList.all isBlankChar

end Text

end BrokerProbe
