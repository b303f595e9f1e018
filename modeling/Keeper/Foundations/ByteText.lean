import Keeper.Foundations.NumberText
import Mathlib.Algebra.Order.Ring.Nat
import Mathlib.Data.List.Basic

/-!
# Texts as bytes

UTF-8, over bytes as numbers below 256. The reader is that of the host language: a byte that no character has is
replaced.
-/

namespace Keeper

namespace Bytes

/-! ## UTF-8 -/

def charBytes (c : Char) : List ℕ :=
  if c.toNat < 0x80 then [c.toNat]
  else if c.toNat < 0x800 then [0xC0 + c.toNat / 64, 0x80 + c.toNat % 64]
  else if c.toNat < 0x10000 then
    [0xE0 + c.toNat / 4096, 0x80 + c.toNat / 64 % 64, 0x80 + c.toNat % 64]
  else [0xF0 + c.toNat / 262144, 0x80 + c.toNat / 4096 % 64, 0x80 + c.toNat / 64 % 64,
    0x80 + c.toNat % 64]

def ofText (cs : List Char) : List ℕ := cs.flatMap charBytes

/-- The state of the UTF-8 decoder: the code point so far, how many bytes it still needs, and the
range of the next one. -/
structure Utf8State where
  codePoint : ℕ := 0
  needed : ℕ := 0
  lower : ℕ := 0x80
  upper : ℕ := 0xBF

/-- What stands for bytes that are no character. -/
def replacement : Char := Char.ofNat 0xFFFD

def readFirst (b : ℕ) : Utf8State × List Char :=
  if b < 0x80 then ({}, [Char.ofNat b])
  else if 0xC2 ≤ b ∧ b ≤ 0xDF then ({ codePoint := b - 0xC0, needed := 1 }, [])
  else if 0xE0 ≤ b ∧ b ≤ 0xEF then
    -- neither an overlong form nor a surrogate
    ({ codePoint := b - 0xE0, needed := 2, lower := if b = 0xE0 then 0xA0 else 0x80,
       upper := if b = 0xED then 0x9F else 0xBF }, [])
  else if 0xF0 ≤ b ∧ b ≤ 0xF4 then
    ({ codePoint := b - 0xF0, needed := 3, lower := if b = 0xF0 then 0x90 else 0x80,
       upper := if b = 0xF4 then 0x8F else 0xBF }, [])
  else ({}, [replacement])

def readByte (state : Utf8State) (b : ℕ) : Utf8State × List Char :=
  if state.needed = 0 then readFirst b
  else if b < state.lower ∨ state.upper < b then
    ((readFirst b).1, replacement :: (readFirst b).2)
  else if state.needed = 1 then ({}, [Char.ofNat (state.codePoint * 64 + (b - 0x80))])
  else ({ codePoint := state.codePoint * 64 + (b - 0x80), needed := state.needed - 1 }, [])

def toTextFrom (state : Utf8State) : List ℕ → List Char
  | [] => if state.needed = 0 then [] else [replacement]
  | b :: bs => (readByte state b).2 ++ toTextFrom (readByte state b).1 bs

/-- The text of UTF-8 bytes. -/
def toText (bs : List ℕ) : List Char := toTextFrom {} bs

/-! ## Percent escapes -/

def hexValue (c : Char) : Option ℕ := if digitValue c < 16 then some (digitValue c) else none

/-- The bytes of a text, an escape standing for one byte. -/
def ofEscaped : List Char → Option (List ℕ)
  | [] => some []
  | '%' :: high :: low :: cs => do
    let high ← hexValue high
    let low ← hexValue low
    let bs ← ofEscaped cs
    return (high * 16 + low) :: bs
  | '%' :: _ => none
  | c :: cs => do
    let bs ← ofEscaped cs
    return charBytes c ++ bs

/-- `decodeURIComponent`, none where it throws: the bytes of escapes are UTF-8. -/
def decodeURIComponent (text : String) : Option String := do
  let bs ← ofEscaped text.toList
  if ofText (toText bs) = bs then return String.ofList (toText bs) else none

end Bytes

end Keeper
