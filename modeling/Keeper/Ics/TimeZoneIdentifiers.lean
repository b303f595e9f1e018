import Keeper.Foundations.JsArray
import Keeper.Foundations.JsMap
import Keeper.Ics.Properties
import Keeper.Recurrence.TimeZones

/-!
# Names of time zones

`ics/utils/resolve-timezone-identifier.ts`: a zone name of a calendar is a Windows name, a name that the host
knows, a prefixed one, or one that the calendar's VTIMEZONEs declare with one fixed offset. Only the last
depends on the declared offsets, and only through those of the name itself.
-/

namespace Keeper

open JsArray

/-! ## The host -/

/-- What the host and the generated `WINDOWS_TO_IANA` know of time zones: `readTimeZoneOffsetMinutes` and the
wall clock of a zone at an instant. -/
structure IntlHost where
  windowsToIana : String → Option String
  canFormatTimeZone : String → Bool
  listSupportedTimeZones : List String
  readTimeZoneOffsetMinutes : String → ℤ → Option ℤ
  instantToWallTime : ℤ → String → ℤ

/-! ## Declared offsets -/

def twoDigits (tens ones : Char) : Option ℤ :=
  if tens.isDigit && ones.isDigit then
    some ((tens.toNat : ℤ) * 10 + ones.toNat - 11 * '0'.toNat)
  else none

def offsetSign : Char → Option ℤ
  | '+' => some 1
  | '-' => some (-1)
  | _ => none

/-- `parseUtcOffsetMinutes`, in seconds. -/
def parseUtcOffset (offset : String) : Option ℤ :=
  match (Text.trim offset).toList with
  | [sign, h, h', m, m'] => do
    let sign ← offsetSign sign
    let hours ← twoDigits h h'
    let minutes ← twoDigits m m'
    return sign * (hours * 3600 + minutes * 60)
  | [sign, h, h', m, m', s, s'] => do
    let sign ← offsetSign sign
    let hours ← twoDigits h h'
    let minutes ← twoDigits m m'
    let seconds ← twoDigits s s'
    return sign * (hours * 3600 + minutes * 60 + seconds)
  | _ => none

/-- `DeclaredTimeZoneOffsets`, in seconds: a fraction of a minute is exact. -/
abbrev DeclaredTimeZoneOffsets := JsMap String (List ℤ)

/-- The state of `readDeclaredTimeZoneOffsets`. -/
structure DeclaredOffsetsReader where
  declared : DeclaredTimeZoneOffsets := JsMap.empty
  currentTimeZoneId : String := ""

/-- The visitor of `readDeclaredTimeZoneOffsets`. -/
def readDeclaredOffset (reader : DeclaredOffsetsReader) (context : IcsPropertyContext) :
    DeclaredOffsetsReader :=
  if !context.componentPath.contains "VTIMEZONE" then reader
  else if context.property = "TZID" ∧ context.componentPath.getLast? = some "VTIMEZONE" then
    { declared := reader.declared.set context.value ((reader.declared.get? context.value).getD [])
      currentTimeZoneId := context.value }
  else if context.property ≠ "TZOFFSETTO" ∨ reader.currentTimeZoneId = "" then reader
  else
    match parseUtcOffset context.value with
    | none => reader
    | some offset => { reader with declared := reader.declared.push reader.currentTimeZoneId offset }

def readDeclaredTimeZoneOffsets (ical : String) : Except RangeError DeclaredTimeZoneOffsets := do
  let reader ← visitIcsProperties (fun reader context => .ok (readDeclaredOffset reader context)) ical
    ({} : DeclaredOffsetsReader)
  return reader.declared

/-! ## Fixed offsets -/

def maxFixedOffsetMinutes : ℤ := 14 * 60

/-- `readSingleDeclaredOffset`: the one offset, in whole minutes. -/
def readSingleDeclaredOffset (offsets : List ℤ) : Option ℤ :=
  match offsets.eraseDups with
  | [offset] =>
    if offset % 60 ≠ 0 ∨ maxFixedOffsetMinutes < |offset / 60| then none else some (offset / 60)
  | _ => none

def formatWholeHourTimeZone (offsetMinutes : ℤ) : String :=
  let hours := offsetMinutes / 60
  if hours = 0 then "Etc/UTC"
  else if hours < 0 then "Etc/GMT+" ++ toString |hours|
  else "Etc/GMT-" ++ toString hours

def prefilterInstants : List ℤ := [Date.utcDate 2026 0 1, Date.utcDate 2026 6 1].filterMap id

/-- `buildConstantOffsetSamples`: from `FIRST_CONSTANT_OFFSET_YEAR` to `LAST_CONSTANT_OFFSET_YEAR`. -/
def buildConstantOffsetSamples : List ℤ :=
  (List.range (2100 - 1990 + 1)).flatMap fun index =>
    [Date.utcDate (1990 + index) 0 1, Date.utcDate (1990 + index) 6 1].filterMap id

section Resolve

variable (host : IntlHost)

def holdsOffsetAt (timeZone : String) (offsetMinutes : ℤ) (instants : List ℤ) : Bool :=
  instants.all fun instant => host.readTimeZoneOffsetMinutes timeZone instant = some offsetMinutes

/-- `searchConstantOffsetZone`, which `findConstantOffsetIanaZone` keeps. -/
def searchConstantOffsetZone (offsetMinutes : ℤ) : Option String :=
  let samples := buildConstantOffsetSamples
  (toSorted Text.compareUnits
    ((host.listSupportedTimeZones.filter fun timeZone =>
      holdsOffsetAt host timeZone offsetMinutes prefilterInstants).filter fun timeZone =>
        holdsOffsetAt host timeZone offsetMinutes samples)).head?

def timeZoneForFixedOffset (offsetMinutes : ℤ) : Option String :=
  if offsetMinutes % 60 = 0 then some (formatWholeHourTimeZone offsetMinutes)
  else searchConstantOffsetZone host offsetMinutes

/-! ## Identifiers -/

inductive ResolvedTimeZone
  | iana (timeZone : String)
  | fixedOffset (timeZone : String) (offsetMinutes : ℤ)
  deriving DecidableEq

def ResolvedTimeZone.timeZone : ResolvedTimeZone → String
  | iana timeZone => timeZone
  | fixedOffset timeZone _ => timeZone

def resolveWindowsName (identifier : String) : Option ResolvedTimeZone :=
  (truthy (host.windowsToIana identifier)).map .iana

def resolveIntlName (identifier : String) : Option ResolvedTimeZone :=
  if host.canFormatTimeZone identifier then some (.iana identifier) else none

def maxIanaZoneSegments : ℕ := 3

/-- `resolvePrefixedName`: the longest end that the host knows. -/
def resolvePrefixedName (identifier : String) : Option ResolvedTimeZone :=
  match identifier.toList with
  | '/' :: _ =>
    let segments := (identifier.toList.splitOn '/').filter fun segment => !segment.isEmpty
    let candidates := (List.range (min maxIanaZoneSegments segments.length)).map fun index =>
      "/".intercalate ((segments.drop (segments.length - (index + 1))).map String.ofList)
    (candidates.reverse.find? host.canFormatTimeZone).map .iana
  | _ => none

/-- `resolveDeclaredFixedOffset`, of the offsets that are declared for the identifier. -/
def resolveFixedOffset (offsets : List ℤ) : Option ResolvedTimeZone := do
  let offsetMinutes ← readSingleDeclaredOffset offsets
  let timeZone ← truthy (timeZoneForFixedOffset host offsetMinutes)
  return .fixedOffset timeZone offsetMinutes

def resolveDeclaredFixedOffset (identifier : String) (declaredOffsets : DeclaredTimeZoneOffsets) :
    Option ResolvedTimeZone :=
  (declaredOffsets.get? identifier).bind (resolveFixedOffset host)

def resolveTimeZoneIdentifier (identifier : Option String) (declaredOffsets : DeclaredTimeZoneOffsets) :
    Option ResolvedTimeZone :=
  (truthy identifier).bind fun identifier =>
    (((resolveWindowsName host identifier).or (resolveIntlName host identifier)).or
      (resolvePrefixedName host identifier)).or
        (resolveDeclaredFixedOffset host identifier declaredOffsets)

def resolveDeclaredTimeZone (identifier : Option String) (declaredOffsets : DeclaredTimeZoneOffsets) :
    Option String :=
  (resolveTimeZoneIdentifier host identifier declaredOffsets).map (·.timeZone)

/-- The zones of the host, with the names that `normalizeTimezone` gives. -/
def IntlHost.zones : Zones where
  identify timezone := (resolveDeclaredTimeZone host (some timezone) JsMap.empty).getD timezone
  supports := host.canFormatTimeZone
  instantToWallTime := host.instantToWallTime

end Resolve

end Keeper
