/-! # Lines of text -/

namespace Base128.Text

/-- The texts in order, each with its line end. -/
def lines (texts : List String) : String := String.join (texts.map (· ++ "\n"))

@[simp] theorem lines_nil : lines [] = "" := rfl

theorem lines_cons (text : String) (texts : List String) :
    lines (text :: texts) = text ++ "\n" ++ lines texts := by
  simp [lines]

theorem lines_append (front back : List String) :
    lines (front ++ back) = lines front ++ lines back := by
  simp [lines]

end Base128.Text
