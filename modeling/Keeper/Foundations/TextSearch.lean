import Mathlib.Data.List.Basic
import Mathlib.Data.List.TakeWhile

/-!
# Searching and splitting texts

The first place where a pattern stands in a text, up to a comparison of characters, and a text split at its
commas.
-/

namespace Keeper

namespace Text

/-! ## Patterns -/

section Patterns

variable (same : Char → Char → Bool)

def dropPattern : List Char → List Char → Option (List Char)
  | [], cs => some cs
  | _ :: _, [] => none
  | p :: ps, c :: cs => if same p c then dropPattern ps cs else none

/-- The text after the first place where a pattern stands. -/
def searchAfter (pattern : List Char) : List Char → Option (List Char)
  | [] => dropPattern same pattern []
  | c :: cs => (dropPattern same pattern (c :: cs)).or (searchAfter pattern cs)

end Patterns

/-! ## Commas -/

def splitCommas : List Char → List (List Char)
  | [] => [[]]
  | c :: cs =>
    if c = ',' then [] :: splitCommas cs
    else match splitCommas cs with
      | [] => [[c]]
      | part :: parts => (c :: part) :: parts

end Text

end Keeper
