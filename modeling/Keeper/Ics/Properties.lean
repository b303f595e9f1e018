import Keeper.Foundations.JsDate
import Keeper.Foundations.Text

/-!
# The properties of a calendar text

The lines of an ICS text, unfolded, and the visit of its properties with the components that they stand in
(`visitIcsProperties` of `ics/utils/apply-patches.ts`). Component names are compared by their ASCII upper
case. A visitor that throws ends the visit.
-/

namespace Keeper

/-! ## Lines -/

def stripIcsByteOrderMark : List Char → List Char
  | '\uFEFF' :: ics => ics
  | ics => ics

def consLine (c : Char) : List (List Char) → List (List Char)
  | [] => [[c]]
  | line :: lines => (c :: line) :: lines

/-- The parts of a text that `LINE_BREAK_PATTERN` splits. -/
def splitLines : List Char → List (List Char)
  | [] => [[]]
  | '\r' :: '\n' :: ics => [] :: splitLines ics
  | '\n' :: ics => [] :: splitLines ics
  | c :: ics => consLine c (splitLines ics)

/-- `CONTINUATION_PATTERN`. -/
def isContinuation (line : List Char) : Bool := line.head?.any fun c => c = ' ' || c = '\t'

/-- A line that continues the last of some unfolded lines, these from the last. -/
def appendLine (unfolded : List (List Char)) (line : List Char) : List (List Char) :=
  match unfolded with
  | [] => [line]
  | last :: earlier => if isContinuation line then (last ++ line.tail) :: earlier else line :: last :: earlier

/-- The groups of `groupContinuations`, each as `unfoldGroup` joins it. -/
def unfoldLines (lines : List (List Char)) : List (List Char) := (lines.foldl appendLine []).reverse

/-! ## Properties -/

structure ParsedPropertyLine where
  property : String
  params : String
  value : String
  deriving DecidableEq

def isNameChar (c : Char) : Bool := c.isAlphanum || c = '-'

/-- A character that `.` does not match. -/
def isLineTerminator (c : Char) : Bool := c = '\n' || c = '\r' || c = '\u2028' || c = '\u2029'

/-- `parsePropertyLine`: a name, parameters up to the first colon, and the rest. -/
def parsePropertyLine (line : List Char) : Option ParsedPropertyLine :=
  let name := line.takeWhile isNameChar
  let params := (line.dropWhile isNameChar).takeWhile (· ≠ ':')
  match (line.dropWhile isNameChar).dropWhile (· ≠ ':') with
  | [] => none
  | _ :: value =>
    if name.head?.any Char.isAlpha && params.head?.all (· = ';') && !value.any isLineTerminator then
      some
        { property := String.ofList (name.map Char.toUpper)
          params := String.ofList params
          value := String.ofList value }
    else none

/-- `IcsPropertyContext`, with the paths from the outermost component. -/
structure IcsPropertyContext extends ParsedPropertyLine where
  componentPath : List String
  componentInstancePath : List ℕ
  deriving DecidableEq

/-- The open components of a visit and the number of those that were opened. -/
structure ComponentPath where
  componentPath : List String := []
  componentInstancePath : List ℕ := []
  componentCount : ℕ := 0

def upperName (name : String) : String := name.map Char.toUpper

section Visit

variable {σ : Type*} (visitor : σ → IcsPropertyContext → Except RangeError σ)

/-- One line of `visitIcsProperties`. -/
def visitLine (state : ComponentPath × σ) (line : List Char) : Except RangeError (ComponentPath × σ) :=
  match parsePropertyLine line with
  | none => .ok state
  | some parsed =>
    let components := state.1
    if parsed.property = "BEGIN" then
      .ok (⟨components.componentPath ++ [upperName parsed.value],
        components.componentInstancePath ++ [components.componentCount + 1],
        components.componentCount + 1⟩, state.2)
    else if parsed.property = "END" then
      if components.componentPath.getLast? = some (upperName parsed.value) then
        .ok ({ components with
          componentPath := components.componentPath.dropLast
          componentInstancePath := components.componentInstancePath.dropLast }, state.2)
      else .error ("Malformed ICS component boundary: expected END:" ++
        components.componentPath.getLast?.getD "<none>" ++ ", received END:" ++ upperName parsed.value)
    else do
      let next ← visitor state.2
        { parsed with
          componentPath := components.componentPath
          componentInstancePath := components.componentInstancePath }
      return (components, next)

def visitIcsProperties (ics : String) (start : σ) : Except RangeError σ := do
  let lines := unfoldLines (splitLines (stripIcsByteOrderMark ics.toList))
  let (components, state) ← lines.foldlM (visitLine visitor) (({} : ComponentPath), start)
  if components.componentPath.isEmpty then return state
  else .error ("Malformed ICS component boundary: missing END:" ++
    components.componentPath.getLast?.getD "<unknown>")

end Visit

def assertNoUnsupportedRecurrenceDates (ical : String) : Except RangeError Unit :=
  visitIcsProperties (fun _ context =>
    if context.componentPath.getLast? = some "VEVENT" ∧ context.property = "RDATE" then
      .error "ICS RDATE recurrence is not supported"
    else .ok ()) ical ()

example : (splitLines "A:1\r\n 2\nB;C=3:4".toList |> unfoldLines).map parsePropertyLine =
    [some ⟨"A", "", "12"⟩, some ⟨"B", ";C=3", "4"⟩] := by decide +kernel

end Keeper
