/-!
# ASCII letters, digits and words

Names of columns, members, tables and functions are compared by folding ASCII letters only: every
other character stands for itself. Placeholder names are words of ASCII letters, digits and `_`.
-/

namespace SqlMapping

/-- The text with every ASCII capital made small. -/
def foldCase (s : String) : String := String.ofList (s.toList.map Char.toLower)

def sameName (a b : String) : Bool := foldCase a == foldCase b

def isWordChar (c : Char) : Bool := c.isAlphanum || c == '_'

theorem toList_foldCase (s : String) : (foldCase s).toList = s.toList.map Char.toLower := by
  simp [foldCase]

theorem sameName_refl (a : String) : sameName a a = true := by simp [sameName]

theorem sameName_iff (a b : String) : sameName a b = true ↔ foldCase a = foldCase b := by
  simp [sameName]

theorem sameName_symm (a b : String) : sameName a b = sameName b a := by
  exact BEq.comm

end SqlMapping
