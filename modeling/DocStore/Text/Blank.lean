import DocStore.Text.Basic

/-!
Blanks. Two sets are in use: the White_Space property, which numbers written
as text may be surrounded by, and the larger set that also holds the four
information separators below the space, by which names and words are trimmed.
-/

namespace DocStore

namespace CodePoint

/-- The code points of the White_Space property. -/
def whiteSpaceRanges : List (Nat × Nat) :=
  [(0x9, 0xd), (0x20, 0x20), (0x85, 0x85), (0xa0, 0xa0), (0x1680, 0x1680),
   (0x2000, 0x200a), (0x2028, 0x2029), (0x202f, 0x202f), (0x205f, 0x205f), (0x3000, 0x3000)]

/-- A code point of the White_Space property. -/
def isWhiteSpace (c : CodePoint) : Bool := inRanges whiteSpaceRanges c

/-- A blank: white space or one of the information separators `0x1c` to `0x1f`. -/
def isBlank (c : CodePoint) : Bool :=
  c.isWhiteSpace || (0x1c ≤ c.val && c.val ≤ 0x1f)

theorem isBlank_of_isWhiteSpace {c : CodePoint} (h : c.isWhiteSpace = true) :
    c.isBlank = true := by
  simp [isBlank, h]

end CodePoint

namespace Text

/-- A text without the blanks around it. -/
def strip (t : Text) : Text := trim CodePoint.isBlank t

/-- A text without the blanks at its end. -/
def stripEnd (t : Text) : Text := trimEnd CodePoint.isBlank t

end Text

end DocStore
