/-!
# Replacing characters and pairs

Replacement runs from left to right and never looks into what it has put in.
-/

namespace SqlMapping

def replaceChar (a : Char) (r : List Char) (cs : List Char) : List Char :=
  cs.flatMap fun c => if c = a then r else [c]

/-- Each occurrence of `a` followed by `b` becomes `r`; occurrences do not overlap. -/
def replacePair (a b : Char) (r : List Char) : List Char → List Char
  | x :: y :: rest =>
    if x = a ∧ y = b then r ++ replacePair a b r rest else x :: replacePair a b r (y :: rest)
  | [x] => [x]
  | [] => []

end SqlMapping
