import Mathlib.Algebra.GroupWithZero.Nat
import Mathlib.Data.Int.Notation
import Mathlib.Data.List.Lex
import Mathlib.Data.Nat.Notation

/-!
# Strings and JSON values of the host language

* `trim`, `utf16Length`, `compareUnits`: `String.prototype.trim`, `String.prototype.length` and the
  order of strings. A string is a list of Unicode scalar values; its length and its order are those
  of its UTF-16 code units, which determine it (`utf16Units_injective`).
* `Json`: the values JSON can carry. `Json.stringify` is `JSON.stringify` without white space.
-/

namespace Keeper

/-! ## Strings -/

namespace Text

/-- `WhiteSpace` and `LineTerminator` of ECMAScript. -/
def isWhitespace (c : Char) : Bool :=
  [0x09, 0x0A, 0x0B, 0x0C, 0x0D, 0x20, 0xA0, 0x1680, 0x2028, 0x2029, 0x202F, 0x205F, 0x3000,
    0xFEFF].contains c.toNat || (0x2000 ≤ c.toNat && c.toNat ≤ 0x200A)

def trim (s : String) : String :=
  String.ofList (((s.toList.dropWhile isWhitespace).reverse.dropWhile isWhitespace).reverse)

/-- `String.prototype.length`: the number of UTF-16 code units. -/
def utf16Length (s : String) : ℕ :=
  (s.toList.map fun c => if 0xFFFF < c.toNat then 2 else 1).sum

def utf16Units (s : String) : List ℕ :=
  s.toList.flatMap fun c =>
    if 0xFFFF < c.toNat then
      [0xD800 + (c.toNat - 0x10000) / 0x400, 0xDC00 + (c.toNat - 0x10000) % 0x400]
    else [c.toNat]

/-- The order of strings under `<`, as a comparator: that of their UTF-16 code units. -/
def compareUnits (first second : String) : ℤ :=
  if utf16Units first < utf16Units second then -1
  else if utf16Units second < utf16Units first then 1
  else 0

theorem compareUnits_nonpos_iff {first second : String} :
    compareUnits first second ≤ 0 ↔ utf16Units first ≤ utf16Units second := by
  refine Iff.trans ?_ not_lt
  by_cases hlt : utf16Units first < utf16Units second
  · rw [compareUnits, if_pos hlt]
    exact ⟨fun _ => hlt.not_gt, fun _ => by decide⟩
  · by_cases hgt : utf16Units second < utf16Units first
    · rw [compareUnits, if_neg hlt, if_pos hgt]
      exact ⟨fun h => absurd h (by decide), fun h => absurd hgt h⟩
    · rw [compareUnits, if_neg hlt, if_neg hgt]
      exact ⟨fun _ => hgt, fun _ => Int.le_refl _⟩

def charUnits (c : Char) : List ℕ :=
  if 0xFFFF < c.toNat then
    [0xD800 + (c.toNat - 0x10000) / 0x400, 0xDC00 + (c.toNat - 0x10000) % 0x400]
  else [c.toNat]

/-- The code units of a character are the first that a list of them has: the first unit of a pair is
no character. -/
theorem charUnits_append_inj {c c' : Char} {l l' : List ℕ}
    (h : charUnits c ++ l = charUnits c' ++ l') : c = c' ∧ l = l' := by
  have hvalid : ∀ d : Char, d.toNat < 0xD800 ∨ 0xDFFF < d.toNat ∧ d.toNat < 0x110000 :=
    fun d => d.valid
  have hc := hvalid c
  have hc' := hvalid c'
  unfold charUnits at h
  split_ifs at h with hpair hpair' hpair'
  · simp only [List.cons_append, List.nil_append, List.cons.injEq] at h
    exact ⟨Char.toNat_inj.1 (by omega), h.2.2⟩
  · simp only [List.cons_append, List.nil_append, List.cons.injEq] at h
    omega
  · simp only [List.cons_append, List.nil_append, List.cons.injEq] at h
    omega
  · simp only [List.cons_append, List.nil_append, List.cons.injEq] at h
    exact ⟨Char.toNat_inj.1 h.1, h.2⟩

theorem flatMap_charUnits_injective {l l' : List Char}
    (h : l.flatMap charUnits = l'.flatMap charUnits) : l = l' := by
  induction l generalizing l' with
  | nil =>
    cases l' with
    | nil => rfl
    | cons c' l' =>
      have hne : charUnits c' ≠ [] := by
        unfold charUnits
        split_ifs <;> exact List.cons_ne_nil _ _
      exact absurd (List.append_eq_nil_iff.1 h.symm).1 hne
  | cons c l ih =>
    cases l' with
    | nil =>
      have hne : charUnits c ≠ [] := by
        unfold charUnits
        split_ifs <;> exact List.cons_ne_nil _ _
      exact absurd (List.append_eq_nil_iff.1 h).1 hne
    | cons c' l' =>
      rw [List.flatMap_cons, List.flatMap_cons] at h
      obtain ⟨rfl, hrest⟩ := charUnits_append_inj h
      rw [ih hrest]

/-- **UTF-16 determines a string.** -/
theorem utf16Units_injective : Function.Injective utf16Units := fun _ _ h =>
  String.ext (flatMap_charUnits_injective h)
theorem append_separator_inj {α : Type*} {c : α} {l l' a a' : List α} (ha : c ∉ a) (ha' : c ∉ a')
    (h : l ++ c :: a = l' ++ c :: a') : l = l' ∧ a = a' := by
  rcases List.append_eq_append_iff.1 h with ⟨m, rfl, hm⟩ | ⟨m, rfl, hm⟩
  · cases m with
    | nil => exact ⟨(List.append_nil l).symm, (List.cons.inj hm).2⟩
    | cons d m => exact absurd (by rw [(List.cons.inj hm).2]; simp) ha
  · cases m with
    | nil => exact ⟨List.append_nil l', (List.cons.inj hm).2.symm⟩
    | cons d m => exact absurd (by rw [(List.cons.inj hm).2]; simp) ha'

end Text

/-- A present and non-empty string: what an optional string is tested for by `if (value)`. -/
def truthy (s : Option String) : Option String := s.filter (· ≠ "")

@[simp] theorem truthy_none : truthy none = none := rfl

theorem truthy_eq_some_iff {s : Option String} {v : String} :
    truthy s = some v ↔ s = some v ∧ v ≠ "" := by
  cases s <;> simp [truthy, Option.filter_eq_some_iff]

/-! ## JSON -/

/-- A JSON value. Objects keep the order of their keys. -/
inductive Json
  | null
  | bool (b : Bool)
  | num (n : ℤ)
  | str (s : String)
  | arr (items : List Json)
  | obj (fields : List (String × Json))

namespace Json

def hexDigit (n : ℕ) : Char := if n < 10 then Char.ofNat (48 + n) else Char.ofNat (87 + n)

def escapeChar (c : Char) : List Char :=
  if c = '"' then ['\\', '"']
  else if c = '\\' then ['\\', '\\']
  else if c.toNat = 8 then ['\\', 'b']
  else if c.toNat = 9 then ['\\', 't']
  else if c.toNat = 10 then ['\\', 'n']
  else if c.toNat = 12 then ['\\', 'f']
  else if c.toNat = 13 then ['\\', 'r']
  else if c.toNat < 32 then ['\\', 'u', '0', '0', hexDigit (c.toNat / 16), hexDigit (c.toNat % 16)]
  else [c]

def quote (s : String) : String := "\"" ++ String.ofList (s.toList.flatMap escapeChar) ++ "\""

mutual

def stringify : Json → String
  | null => "null"
  | bool b => if b then "true" else "false"
  | num n => toString n
  | str s => quote s
  | arr items => "[" ++ ",".intercalate (stringifyItems items) ++ "]"
  | obj fields => "\x7b" ++ ",".intercalate (stringifyFields fields) ++ "\x7d"

def stringifyItems : List Json → List String
  | [] => []
  | v :: vs => stringify v :: stringifyItems vs

def stringifyFields : List (String × Json) → List String
  | [] => []
  | (k, v) :: fields => (quote k ++ ":" ++ stringify v) :: stringifyFields fields

end

/-- An object from fields of which some are absent: `JSON.stringify` leaves out `undefined`. -/
def ofFields (fields : List (String × Option Json)) : Json :=
  obj (fields.filterMap fun e => e.2.map (e.1, ·))

def strings (l : List String) : Json := arr (l.map str)

end Json

/-! ## The host -/

/-- The functions the program takes from its run time and from packages: SHA-256 in hexadecimal,
the key-sorting JSON printer `fast-json-stable-stringify`, and the collation of
`String.prototype.localeCompare`. -/
structure Host where
  sha256 : String → String
  stableStringify : Json → String
  localeCompare : String → String → ℤ

end Keeper
