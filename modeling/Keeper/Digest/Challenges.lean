import Keeper.Foundations.Text
import Keeper.Foundations.TextSearch

/-!
# Digest challenges

The readers of `packages/digest-fetch/src/index.ts`: a `WWW-Authenticate` header is split at the commas outside
quotes, a segment that is no parameter begins a challenge, and the fields of a challenge are searched in its
joined parameters. Texts are lists of characters.

* `splitChallengeSegments`, `parseChallengeList`, `selectChallenge`: the challenges of a header.
* `parseField`, `parseQualityOfProtection`, `parseChallenge`: the fields of a challenge.
-/

namespace Keeper

namespace Digest

open Text

/-! ## Segments -/

def isTokenChar (c : Char) : Bool :=
  c.isAlphanum || "!#$%&'*+-.^_`|~".toList.contains c

/-- The matches of `CHALLENGE_SEGMENT_PATTERN` and what lies between them, with the segment and the open quote
so far. A quote that is not closed ends a segment, and commas split what follows it. -/
def segmentsFrom (segment : List Char) (quoted : Option (List Char)) : List Char → List (List Char)
  | [] =>
    match quoted with
    | none => [segment]
    | some text => segment :: splitCommas text
  | c :: cs =>
    match quoted with
    | none =>
      if c = ',' then segment :: segmentsFrom [] none cs
      else if c = '"' then segmentsFrom segment (some []) cs
      else segmentsFrom (segment ++ [c]) none cs
    | some text =>
      if c = '"' then segmentsFrom (segment ++ '"' :: (text ++ ['"'])) none cs
      else segmentsFrom segment (some (text ++ [c])) cs

/-- `String.prototype.trim`. -/
def trimText (cs : List Char) : List Char :=
  ((cs.dropWhile isWhitespace).reverse.dropWhile isWhitespace).reverse

def splitChallengeSegments (header : List Char) : List (List Char) :=
  ((segmentsFrom [] none header).map trimText).filter (· ≠ [])

/-- `AUTH_PARAM_PATTERN`: a token and an equals sign. -/
def isAuthParam (segment : List Char) : Bool :=
  segment.takeWhile isTokenChar ≠ [] &&
    ((segment.dropWhile isTokenChar).dropWhile isWhitespace).head? = some '='

/-- `AUTH_SCHEME_PATTERN`: a token that begins with a letter, and what follows it after white space. -/
def matchAuthScheme (segment : List Char) : Option (List Char × List Char) :=
  let scheme := segment.takeWhile isTokenChar
  let rest := segment.dropWhile isTokenChar
  if scheme.head?.any Char.isAlpha && (rest = [] || rest.head?.any isWhitespace) then
    some (scheme, rest.dropWhile isWhitespace)
  else none

structure AuthChallenge where
  scheme : List Char
  params : List Char
  deriving DecidableEq

/-- Texts joined by commas and spaces. -/
def joinParams : List (List Char) → List Char
  | [] => []
  | [text] => text
  | text :: texts => text ++ ',' :: ' ' :: joinParams texts

/-- The challenges of segments: one for each that is no parameter and names a scheme, with the parameters up
to the next one. -/
def challengesOf : List (List Char) → List AuthChallenge
  | [] => []
  | segment :: segments =>
    if isAuthParam segment then challengesOf segments
    else
      match matchAuthScheme segment with
      | none => challengesOf segments
      | some (scheme, first) =>
        ⟨scheme, joinParams ((first :: segments.takeWhile isAuthParam).filter (· ≠ []))⟩ ::
          challengesOf segments

def parseChallengeList (header : List Char) : List AuthChallenge :=
  challengesOf (splitChallengeSegments header)

def selectChallenge (header : Option (List Char)) (scheme : List Char) : Option AuthChallenge :=
  match header with
  | none => none
  | some header => (parseChallengeList header).find? fun challenge =>
      challenge.scheme.map Char.toLower = scheme.map Char.toLower

def selectDigestChallenge (header : Option (List Char)) : Option AuthChallenge :=
  selectChallenge header "Digest".toList

/-! ## Fields -/

/-- Characters that a pattern does not tell apart without case. -/
def sameLetter (p c : Char) : Bool := p.toLower = c.toLower

/-- The match of `("[^"]*"|[^,]*)` at the head of a text. -/
def captureValue (cs : List Char) : List Char :=
  match cs with
  | '"' :: rest =>
    if '"' ∈ rest then '"' :: (rest.takeWhile (· ≠ '"') ++ ['"']) else cs.takeWhile (· ≠ ',')
  | _ => cs.takeWhile (· ≠ ',')

/-- What `parseField` leaves out of a trimmed value. -/
def isKeptChar (c : Char) : Bool := !isWhitespace c && c ≠ '"'

def parseField (header field : List Char) (trim : Bool) : Option (List Char) :=
  match searchAfter sameLetter (field ++ ['=']) header with
  | none => none
  | some rest =>
    let value := captureValue rest
    if value = [] then none else some (if trim then value.filter isKeptChar else value)

def parseRealm (header : List Char) : List Char :=
  ((parseField header "realm".toList false).getD []).filter (· ≠ '"')

/-- The `qop` that is taken of the offered options. -/
def selectQualityOfProtection (options : List (List Char)) : Option (List Char) :=
  if options.contains "auth".toList then some "auth".toList
  else if options.contains "auth-int".toList then some "auth-int".toList
  else none

def parseQualityOfProtection (header : List Char) : Option (List Char) :=
  match parseField header "qop".toList true with
  | none => none
  | some value => if value = [] then none else selectQualityOfProtection (splitCommas value)

structure DigestChallenge where
  scheme : List Char
  realm : List Char
  nonce : List Char
  clientNonce : List Char
  qualityOfProtection : Option (List Char)
  opaqueValue : Option (List Char)
  deriving DecidableEq

/-- `parseChallenge`, with the client nonce that is generated. -/
def parseChallenge (challenge : AuthChallenge) (clientNonce : List Char) : DigestChallenge where
  scheme := challenge.scheme
  realm := parseRealm challenge.params
  qualityOfProtection := parseQualityOfProtection challenge.params
  opaqueValue := parseField challenge.params "opaque".toList true
  nonce := (parseField challenge.params "nonce".toList true).getD []
  clientNonce := clientNonce

end Digest

end Keeper
