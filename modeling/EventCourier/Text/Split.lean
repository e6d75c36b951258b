/-!
# Splitting

A text is cut at separators, which are lost: there is one part more than there are separators.
-/

namespace EventCourier

/-- The parts of a text between separators, at least one. -/
def splitAtAll (isSeparator : Char → Bool) : List Char → List (List Char)
  | [] => [[]]
  | c :: cs =>
    if isSeparator c then [] :: splitAtAll isSeparator cs
    else match splitAtAll isSeparator cs with
      | part :: parts => (c :: part) :: parts
      | [] => [[c]]

end EventCourier
