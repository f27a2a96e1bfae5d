import Base128.Text.Interval

/-! # Blanks -/

namespace Base128.Text

/-- The 25 code points with the property `White_Space` of Unicode. -/
def blanks : List Interval :=
  [⟨0x0009, 0x000D⟩, ⟨0x0020, 0x0020⟩, ⟨0x0085, 0x0085⟩, ⟨0x00A0, 0x00A0⟩, ⟨0x1680, 0x1680⟩,
   ⟨0x2000, 0x200A⟩, ⟨0x2028, 0x2029⟩, ⟨0x202F, 0x202F⟩, ⟨0x205F, 0x205F⟩, ⟨0x3000, 0x3000⟩]

def isBlank (c : Char) : Bool := Interval.holds blanks c

def trimmedEnd (text : List Char) : List Char := (text.reverse.dropWhile isBlank).reverse

/-- The text without the blanks at its two ends. -/
def trimmed (text : List Char) : List Char := trimmedEnd (text.dropWhile isBlank)

end Base128.Text
