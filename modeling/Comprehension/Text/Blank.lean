import Comprehension.Text.Ranges

/-!
White space. Outer text is trimmed by the Unicode property White_Space; inside a grammar only the
four characters of a plain line count.
-/
namespace Comprehension.Text

def blankRanges : List (Nat × Nat) := [
  (0x9, 0xD), (0x20, 0x20), (0x85, 0x85), (0xA0, 0xA0), (0x1680, 0x1680), (0x2000, 0x200A),
  (0x2028, 0x2029), (0x202F, 0x202F), (0x205F, 0x205F), (0x3000, 0x3000)]

/-- The Unicode property White_Space. -/
def isBlank (c : Char) : Bool := inRanges blankRanges c.toNat

/-- Space, tab, carriage return and line feed. -/
def isPlainBlank (c : Char) : Bool :=
  c == ' ' || c == '\t' || c == '\r' || c == '\n'

def trimStart (cs : List Char) : List Char := cs.dropWhile isBlank

/-- Removes white space from both ends. -/
def trim (cs : List Char) : List Char := (trimStart (trimStart cs).reverse).reverse

end Comprehension.Text
