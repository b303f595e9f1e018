import Keeper.Foundations.JsMap
import Keeper.Foundations.Text
import Mathlib.Tactic.IntervalCases

/-!
# Reading JSON texts

`JSON.parse`, as the inverse of `Json.stringify`. A string literal is read as UTF-16 code units,
which is where its escapes live, and then decoded; a number is an integer, as in `Json`.

* `Json.parse`: the value of a text, none where the text is malformed.
* `Json.parse_stringify`: a value whose objects have no repeated key is read back from its text.
-/

namespace Keeper

/-! ## UTF-16 -/

namespace Text

def unitsOfChar (c : Char) : List ℕ :=
  if 0xFFFF < c.toNat then
    [0xD800 + (c.toNat - 0x10000) / 0x400, 0xDC00 + (c.toNat - 0x10000) % 0x400]
  else [c.toNat]

/-- Code units as characters; a surrogate without its partner is no character. -/
def charsOfUnits : List ℕ → Option (List Char)
  | [] => some []
  | [u] => if 0xD800 ≤ u ∧ u ≤ 0xDFFF then none else some [Char.ofNat u]
  | u :: v :: units =>
    if 0xD800 ≤ u ∧ u ≤ 0xDBFF ∧ 0xDC00 ≤ v ∧ v ≤ 0xDFFF then
      (charsOfUnits units).map (Char.ofNat (0x10000 + (u - 0xD800) * 0x400 + (v - 0xDC00)) :: ·)
    else if 0xD800 ≤ u ∧ u ≤ 0xDFFF then none
    else (charsOfUnits (v :: units)).map (Char.ofNat u :: ·)

theorem not_surrogate (c : Char) : ¬ (0xD800 ≤ c.toNat ∧ c.toNat ≤ 0xDFFF) ∧ c.toNat < 0x110000 := by
  have h := c.valid
  simp only [UInt32.isValidChar, Nat.isValidChar] at h
  simp only [Char.toNat]
  omega

theorem charsOfUnits_unitsOfChar (c : Char) (units : List ℕ) :
    charsOfUnits (unitsOfChar c ++ units) = (charsOfUnits units).map (c :: ·) := by
  have hc := not_surrogate c
  unfold unitsOfChar
  split_ifs with h
  · rw [List.cons_append, List.singleton_append, charsOfUnits, if_pos (by omega)]
    have hsum : 0x10000 + (0xD800 + (c.toNat - 0x10000) / 0x400 - 0xD800) * 0x400 +
        (0xDC00 + (c.toNat - 0x10000) % 0x400 - 0xDC00) = c.toNat := by omega
    rw [hsum, Char.ofNat_toNat]
  · cases units with
    | nil =>
      show (if 0xD800 ≤ c.toNat ∧ c.toNat ≤ 0xDFFF then none else some [Char.ofNat c.toNat]) = _
      rw [if_neg hc.1, Char.ofNat_toNat]
      rfl
    | cons v units =>
      rw [List.singleton_append, charsOfUnits, if_neg (by omega), if_neg hc.1, Char.ofNat_toNat]

/-- **Code units determine the characters.** -/
theorem charsOfUnits_flatMap (cs : List Char) :
    charsOfUnits (cs.flatMap unitsOfChar) = some cs := by
  induction cs with
  | nil => rfl
  | cons c cs ih => rw [List.flatMap_cons, charsOfUnits_unitsOfChar, ih]; rfl

end Text

namespace Json

/-! ## String literals -/

def hexValue (c : Char) : Option ℕ :=
  if c.isDigit then some (c.toNat - 48)
  else if 97 ≤ c.toNat ∧ c.toNat ≤ 102 then some (c.toNat - 87)
  else if 65 ≤ c.toNat ∧ c.toNat ≤ 70 then some (c.toNat - 55)
  else none

/-- The code unit of four hexadecimal digits. -/
def hexUnit (w x y z : Char) : Option ℕ := do
  return (((← hexValue w) * 16 + (← hexValue x)) * 16 + (← hexValue y)) * 16 + (← hexValue z)

def escapedUnit (c : Char) : Option ℕ :=
  match c with
  | '"' => some 34
  | '\\' => some 92
  | '/' => some 47
  | 'b' => some 8
  | 'f' => some 12
  | 'n' => some 10
  | 'r' => some 13
  | 't' => some 9
  | _ => none

/-- The code units of a string literal, read from behind its opening quote, and the text after
it. -/
def readUnits : List Char → Option (List ℕ × List Char)
  | [] => none
  | '"' :: cs => some ([], cs)
  | '\\' :: 'u' :: w :: x :: y :: z :: cs =>
    match hexUnit w x y z, readUnits cs with
    | some unit, some (units, rest) => some (unit :: units, rest)
    | _, _ => none
  | '\\' :: e :: cs =>
    match escapedUnit e, readUnits cs with
    | some unit, some (units, rest) => some (unit :: units, rest)
    | _, _ => none
  | c :: cs =>
    if c.toNat < 32 ∨ c = '\\' then none
    else (readUnits cs).map fun (units, rest) => (Text.unitsOfChar c ++ units, rest)

def readString (cs : List Char) : Option (String × List Char) :=
  match readUnits cs with
  | some (units, rest) => (Text.charsOfUnits units).map fun s => (String.ofList s, rest)
  | none => none

theorem hexUnit_control {n : ℕ} (hn : n < 32) :
    hexUnit '0' '0' (hexDigit (n / 16)) (hexDigit (n % 16)) = some n := by
  interval_cases n <;> rfl

theorem readUnits_cons {c : Char} (h₁ : c ≠ '"') (h₂ : c ≠ '\\') (h₃ : 32 ≤ c.toNat)
    (cs : List Char) :
    readUnits (c :: cs) =
      (readUnits cs).map fun (units, rest) => (Text.unitsOfChar c ++ units, rest) := by
  rw [readUnits]
  · rw [if_neg (by simp only [not_or]; exact ⟨by omega, h₂⟩)]
  · exact fun h => h₁ h
  · intro _ _ _ _ _ h; exact absurd h h₂
  · intro _ _ h; exact absurd h h₂

theorem readUnits_escape {e : Char} {u : ℕ} (he : escapedUnit e = some u) (cs : List Char) :
    readUnits ('\\' :: e :: cs) = (readUnits cs).map fun (units, rest) => (u :: units, rest) := by
  rw [readUnits]
  · rw [he]
    cases readUnits cs <;> rfl
  · rintro w x y z cs rfl _
    cases he

theorem readUnits_escapeChar (c : Char) (cs : List Char) :
    readUnits (escapeChar c ++ cs) =
      (readUnits cs).map fun (units, rest) => (Text.unitsOfChar c ++ units, rest) := by
  have hunits : ∀ n, c.toNat = n → n ≤ 0xFFFF → Text.unitsOfChar c = [n] := by
    intro n hn hle
    rw [Text.unitsOfChar, hn, if_neg (by omega)]
  unfold escapeChar
  split_ifs with h₁ h₂ h₃ h₄ h₅ h₆ h₇ h₈
  · subst h₁; exact readUnits_escape rfl cs
  · subst h₂; exact readUnits_escape rfl cs
  · rw [hunits _ h₃ (by omega)]; exact readUnits_escape rfl cs
  · rw [hunits _ h₄ (by omega)]; exact readUnits_escape rfl cs
  · rw [hunits _ h₅ (by omega)]; exact readUnits_escape rfl cs
  · rw [hunits _ h₆ (by omega)]; exact readUnits_escape rfl cs
  · rw [hunits _ h₇ (by omega)]; exact readUnits_escape rfl cs
  · -- a control character, by its code unit
    rw [hunits _ rfl (by omega)]
    simp only [List.cons_append, List.nil_append, readUnits, hexUnit_control h₈]
    cases readUnits cs <;> rfl
  · exact readUnits_cons h₁ h₂ (by omega) cs

theorem readUnits_flatMap (s rest : List Char) :
    readUnits (s.flatMap escapeChar ++ '"' :: rest) =
      some (s.flatMap Text.unitsOfChar, rest) := by
  induction s with
  | nil => rfl
  | cons c s ih =>
    rw [List.flatMap_cons, List.append_assoc, readUnits_escapeChar, ih]
    rfl

/-- **A string literal** is read back. -/
theorem readString_flatMap (s : String) (rest : List Char) :
    readString (s.toList.flatMap escapeChar ++ '"' :: rest) = some (s, rest) := by
  rw [readString, readUnits_flatMap]
  simp [Text.charsOfUnits_flatMap]

theorem toList_quote (s : String) :
    (quote s).toList = '"' :: (s.toList.flatMap escapeChar ++ ['"']) := by
  simp [quote]

/-! ## Numbers -/

def continuesNumber (c : Char) : Bool := c.isDigit || c = '.' || c = 'e' || c = 'E'

/-- The digits of a number without a leading zero. A fraction or an exponent is no integer. -/
def readDigits (cs : List Char) : Option (ℕ × List Char) :=
  let digits := cs.takeWhile Char.isDigit
  let rest := cs.dropWhile Char.isDigit
  if digits = [] ∨ (digits.head? = some '0' ∧ digits ≠ ['0']) ∨ rest.head?.any continuesNumber then
    none
  else some (Nat.ofDigitChars 10 digits 0, rest)

def readNumber : List Char → Option (ℤ × List Char)
  | '-' :: cs => (readDigits cs).map fun (n, rest) => (-n, rest)
  | cs => (readDigits cs).map fun (n, rest) => (n, rest)

theorem head_toDigits {n : ℕ} (h : (Nat.toDigits 10 n).head? = some '0') : n = 0 := by
  induction n using Nat.strong_induction_on with
  | _ n ih =>
    rcases Nat.lt_or_ge n 10 with hn | hn
    · rw [Nat.toDigits_of_lt_base hn] at h
      interval_cases n <;> simp_all [Nat.digitChar]
    · rw [Nat.toDigits_of_base_le (by decide) hn, List.head?_append_of_ne_nil _ Nat.toDigits_ne_nil]
        at h
      have := ih (n / 10) (by omega) h
      omega

variable {rest cs : List Char} {fuel : ℕ} {fields : List (String × Json)} {v : Json}

theorem readDigits_toDigits (n : ℕ) (h : rest.head?.any continuesNumber = false) :
    readDigits (Nat.toDigits 10 n ++ rest) = some (n, rest) := by
  have hdigits : ∀ c ∈ Nat.toDigits 10 n, c.isDigit := fun c hc =>
    Nat.isDigit_of_mem_toDigits (by decide) (by decide) hc
  have hrest : rest.takeWhile Char.isDigit = [] ∧ rest.dropWhile Char.isDigit = rest := by
    cases rest with
    | nil => exact ⟨rfl, rfl⟩
    | cons c cs =>
      have hc : c.isDigit = false := by
        simp only [List.head?_cons, Option.any_some, continuesNumber, Bool.or_eq_false_iff] at h
        exact h.1.1.1
      simp [hc]
  have htake : (Nat.toDigits 10 n ++ rest).takeWhile Char.isDigit = Nat.toDigits 10 n := by
    rw [List.takeWhile_append_of_pos hdigits, hrest.1, List.append_nil]
  have hdrop : (Nat.toDigits 10 n ++ rest).dropWhile Char.isDigit = rest := by
    rw [List.dropWhile_append_of_pos hdigits, hrest.2]
  have hzero : ¬ ((Nat.toDigits 10 n).head? = some '0' ∧ Nat.toDigits 10 n ≠ ['0']) := by
    rintro ⟨hhead, hne⟩
    rw [head_toDigits hhead, Nat.toDigits_zero] at hne
    exact hne rfl
  simp only [readDigits, htake, hdrop]
  rw [if_neg (by simp only [not_or]; exact ⟨Nat.toDigits_ne_nil, hzero, by simp [h]⟩),
    Nat.ofDigitChars_ten_toDigits]

/-- **A number** is read back. -/
theorem readNumber_toString (n : ℤ) (h : rest.head?.any continuesNumber = false) :
    readNumber ((toString n).toList ++ rest) = some (n, rest) := by
  cases n with
  | ofNat n =>
    have hnat : (toString (Int.ofNat n)).toList = Nat.toDigits 10 n := by
      show (n.repr).toList = _
      exact Nat.toList_repr
    rw [hnat, readNumber.eq_2]
    · rw [readDigits_toDigits n h]
      rfl
    · intro cs hcs
      obtain ⟨d, ds, hd⟩ := List.exists_cons_of_ne_nil (Nat.toDigits_ne_nil (n := n) (b := 10))
      have hmem : d ∈ Nat.toDigits 10 n := by rw [hd]; exact List.mem_cons_self
      have := Nat.isDigit_of_mem_toDigits (by decide) (by decide) hmem
      rw [hd, List.cons_append, List.cons.injEq] at hcs
      rw [hcs.1] at this
      exact absurd this (by decide)
  | negSucc n =>
    have hneg : (toString (Int.negSucc n)).toList = '-' :: Nat.toDigits 10 (n + 1) := by
      show ("-" ++ (n + 1).repr).toList = _
      rw [String.toList_append, Nat.toList_repr]
      rfl
    rw [hneg, List.cons_append, readNumber, readDigits_toDigits (n + 1) h]
    rfl

/-! ## Values -/

def isSpace (c : Char) : Bool := c = ' ' || c = '\t' || c = '\n' || c = '\r'

def skipSpaces (cs : List Char) : List Char := cs.dropWhile isSpace

def readName (name : String) (value : Json) (cs : List Char) : Option (Json × List Char) :=
  if name.toList.isPrefixOf cs then some (value, cs.drop name.toList.length) else none

/-- What follows an item: a comma, or the bracket that closes the list. -/
def readSeparator (close : Char) (cs : List Char) : Option (Bool × List Char) :=
  match skipSpaces cs with
  | [] => none
  | c :: rest => if c = ',' then some (true, rest) else if c = close then some (false, rest) else none

def readKey (cs : List Char) : Option (String × List Char) :=
  match skipSpaces cs with
  | '"' :: rest =>
    match readString rest with
    | some (key, rest) =>
      match skipSpaces rest with
      | ':' :: rest => some (key, rest)
      | _ => none
    | none => none
  | _ => none

mutual

/-- One value, with the text after it; the fuel bounds the nesting and the number of items. -/
def readValue : ℕ → List Char → Option (Json × List Char)
  | 0, _ => none
  | fuel + 1, cs =>
    match skipSpaces cs with
    | [] => none
    | c :: rest =>
      if c = '"' then (readString rest).map fun (s, rest) => (str s, rest)
      else if c = '[' then
        if (skipSpaces rest).head? = some ']' then some (arr [], (skipSpaces rest).tail)
        else (readItems fuel rest).map fun (items, rest) => (arr items, rest)
      else if c = '\x7b' then
        if (skipSpaces rest).head? = some '\x7d' then some (obj [], (skipSpaces rest).tail)
        else (readFields fuel rest).map fun (fields, rest) =>
          (obj (JsMap.ofList fields).entries, rest)
      else if c = 'n' then readName "ull" null rest
      else if c = 't' then readName "rue" (bool true) rest
      else if c = 'f' then readName "alse" (bool false) rest
      else (readNumber (c :: rest)).map fun (n, rest) => (num n, rest)

/-- The items of an array up to its closing bracket. -/
def readItems : ℕ → List Char → Option (List Json × List Char)
  | 0, _ => none
  | fuel + 1, cs => do
    let (item, rest) ← readValue fuel cs
    let (more, rest) ← readSeparator ']' rest
    if more then
      let (items, rest) ← readItems fuel rest
      return (item :: items, rest)
    else return ([item], rest)

/-- The fields of an object up to its closing brace. -/
def readFields : ℕ → List Char → Option (List (String × Json) × List Char)
  | 0, _ => none
  | fuel + 1, cs => do
    let (key, rest) ← readKey cs
    let (value, rest) ← readValue fuel rest
    let (more, rest) ← readSeparator '\x7d' rest
    if more then
      let (fields, rest) ← readFields fuel rest
      return ((key, value) :: fields, rest)
    else return ([(key, value)], rest)

end

def parse (text : String) : Option Json :=
  match readValue text.toList.length text.toList with
  | some (value, rest) => if skipSpaces rest = [] then some value else none
  | none => none

mutual

/-- No object of the value has a repeated key. -/
def WellKeyed : Json → Prop
  | arr items => WellKeyedItems items
  | obj fields => (fields.map Prod.fst).Nodup ∧ WellKeyedFields fields
  | _ => True

def WellKeyedItems : List Json → Prop
  | [] => True
  | v :: vs => WellKeyed v ∧ WellKeyedItems vs

def WellKeyedFields : List (String × Json) → Prop
  | [] => True
  | (_, v) :: fields => WellKeyed v ∧ WellKeyedFields fields

end

/-! ## Reading back a printed value -/

theorem skipSpaces_cons {c : Char} (h : isSpace c = false) (cs : List Char) :
    skipSpaces (c :: cs) = c :: cs := by
  simp [skipSpaces, h]

theorem head_toString (n : ℤ) : ∃ c cs, (toString n).toList = c :: cs ∧ (c.isDigit ∨ c = '-') := by
  cases n with
  | ofNat n =>
    obtain ⟨d, ds, hd⟩ := List.exists_cons_of_ne_nil (Nat.toDigits_ne_nil (n := n) (b := 10))
    have hmem : d ∈ Nat.toDigits 10 n := by rw [hd]; exact List.mem_cons_self
    refine ⟨d, ds, ?_, Or.inl (Nat.isDigit_of_mem_toDigits (by decide) (by decide) hmem)⟩
    rw [← hd]
    exact Nat.toList_repr
  | negSucc n => exact ⟨'-', ((n + 1).repr).toList, by show ("-" ++ (n + 1).repr).toList = _; simp, Or.inr rfl⟩

theorem readValue_num (n : ℤ) (h : rest.head?.any continuesNumber = false) :
    readValue (fuel + 1) ((toString n).toList ++ rest) = some (num n, rest) := by
  obtain ⟨c, cs, hcs, hc⟩ := head_toString n
  have hne : ∀ d : Char, d.isDigit = false → d ≠ '-' → c ≠ d := by
    rintro d hd hd' rfl
    rcases hc with hc | hc
    · rw [hd] at hc; cases hc
    · exact hd' hc
  have hspace : isSpace c = false := by
    simp [isSpace, hne ' ' (by decide) (by decide), hne '\t' (by decide) (by decide),
      hne '\n' (by decide) (by decide), hne '\r' (by decide) (by decide)]
  have hread := readNumber_toString n h
  rw [hcs, List.cons_append] at hread ⊢
  simp only [readValue, skipSpaces_cons hspace]
  rw [if_neg (hne _ (by decide) (by decide)), if_neg (hne _ (by decide) (by decide)),
    if_neg (hne _ (by decide) (by decide)), if_neg (hne _ (by decide) (by decide)),
    if_neg (hne _ (by decide) (by decide)), if_neg (hne _ (by decide) (by decide)), hread]
  rfl

theorem toList_intercalate_cons {text next : String} {texts : List String} :
    (",".intercalate (text :: next :: texts)).toList =
      text.toList ++ ',' :: (",".intercalate (next :: texts)).toList := by
  rw [String.intercalate_cons_cons]
  simp

theorem readKey_quote (key : String) (rest : List Char) :
    readKey ((quote key).toList ++ ':' :: rest) = some (key, rest) := by
  have hquote : (quote key).toList ++ ':' :: rest =
      '"' :: (key.toList.flatMap escapeChar ++ '"' :: ':' :: rest) := by
    rw [toList_quote]
    simp
  rw [hquote, readKey, skipSpaces_cons (by decide)]
  simp only [readString_flatMap]
  rw [skipSpaces_cons (by decide)]
  rfl

theorem readSeparator_comma (close : Char) (rest : List Char) :
    readSeparator close (',' :: rest) = some (true, rest) := by
  rw [readSeparator, skipSpaces_cons (by decide)]
  rfl

theorem readSeparator_close (close : Char) (h : close ≠ ',') (hs : isSpace close = false)
    (rest : List Char) : readSeparator close (close :: rest) = some (false, rest) := by
  rw [readSeparator, skipSpaces_cons hs]
  simp [h]

/-- The first character of a printed value opens it, and closes no list. -/
theorem head_stringify (v : Json) :
    ∃ c cs, (stringify v).toList = c :: cs ∧ isSpace c = false ∧ c ≠ ']' := by
  cases v with
  | null => exact ⟨'n', _, rfl, by decide, by decide⟩
  | bool b => cases b <;> exact ⟨_, _, rfl, by decide, by decide⟩
  | num n =>
    obtain ⟨c, cs, hcs, hc⟩ := head_toString n
    refine ⟨c, cs, hcs, ?_, ?_⟩
    · rcases hc with hc | rfl
      · simp only [isSpace, Bool.or_eq_false_iff, decide_eq_false_iff_not]
        refine ⟨⟨⟨?_, ?_⟩, ?_⟩, ?_⟩ <;> rintro rfl <;> exact absurd hc (by decide)
      · decide
    · rcases hc with hc | rfl
      · rintro rfl
        exact absurd hc (by decide)
      · decide
  | str s => exact ⟨'"', _, by rw [stringify, toList_quote], by decide, by decide⟩
  | arr items =>
    refine ⟨'[', ((",".intercalate (stringifyItems items)) ++ "]").toList, ?_, by decide, by decide⟩
    simp [stringify]
  | obj fields =>
    refine ⟨'\x7b', ((",".intercalate (stringifyFields fields)) ++ "\x7d").toList, ?_, by decide,
      by decide⟩
    simp [stringify]

theorem head_items (v : Json) (vs : List Json) :
    ∃ c cs, (",".intercalate (stringifyItems (v :: vs))).toList = c :: cs ∧ isSpace c = false ∧
      c ≠ ']' := by
  obtain ⟨c, cs, hcs, hc⟩ := head_stringify v
  cases vs with
  | nil => exact ⟨c, cs, by simp [stringifyItems, hcs], hc⟩
  | cons w vs =>
    refine ⟨c, cs ++ ',' :: (",".intercalate (stringifyItems (w :: vs))).toList, ?_, hc⟩
    rw [stringifyItems, stringifyItems, toList_intercalate_cons, hcs]
    rfl

theorem head_fields (e : String × Json) (fields : List (String × Json)) :
    ∃ cs, (",".intercalate (stringifyFields (e :: fields))).toList = '"' :: cs := by
  obtain ⟨k, v⟩ := e
  cases fields with
  | nil => simp [stringifyFields, toList_quote]
  | cons e fields =>
    obtain ⟨k', v'⟩ := e
    rw [stringifyFields, stringifyFields, toList_intercalate_cons]
    simp [toList_quote]

theorem readValue_brackets {body : List Char} {items : List Json} {c : Char} (hbody : body = c :: cs)
    (hs : isSpace c = false) (hc : c ≠ ']') (hread : readItems fuel (body ++ ']' :: rest) = some (items, rest)) :
    readValue (fuel + 1) ('[' :: (body ++ ']' :: rest)) = some (arr items, rest) := by
  have hhead : (skipSpaces (body ++ ']' :: rest)).head? ≠ some ']' := by
    rw [hbody, List.cons_append, skipSpaces_cons hs]
    simpa using hc
  simp only [readValue]
  rw [skipSpaces_cons (by decide)]
  simp only [Char.reduceEq, if_false, if_true, hhead, hread, Option.map_some]

theorem readValue_braces {body : List Char} (hbody : body = '"' :: cs) (hkeys : (fields.map Prod.fst).Nodup)
    (hread : readFields fuel (body ++ '\x7d' :: rest) = some (fields, rest)) :
    readValue (fuel + 1) ('\x7b' :: (body ++ '\x7d' :: rest)) = some (obj fields, rest) := by
  have hhead : (skipSpaces (body ++ '\x7d' :: rest)).head? ≠ some '\x7d' := by
    rw [hbody, List.cons_append, skipSpaces_cons (by decide)]
    simp
  simp only [readValue]
  rw [skipSpaces_cons (by decide)]
  simp only [Char.reduceEq, if_false, if_true, hhead, hread, Option.map_some,
    JsMap.entries_ofList_of_nodup hkeys]

/-! One item, one field. -/

theorem readItems_last (hv : readValue fuel cs = some (v, ']' :: rest)) :
    readItems (fuel + 1) cs = some ([v], rest) := by
  have hclose := readSeparator_close ']' (by decide) (by decide) rest
  rw [readItems, hv]
  simp [hclose]

theorem readItems_more {next : List Char} {vs : List Json} (hv : readValue fuel cs = some (v, ',' :: next))
    (hvs : readItems fuel next = some (vs, rest)) : readItems (fuel + 1) cs = some (v :: vs, rest) := by
  rw [readItems, hv]
  simp [readSeparator_comma, hvs]

theorem readFields_last {value : List Char} {k : String} (hk : readKey cs = some (k, value))
    (hv : readValue fuel value = some (v, '\x7d' :: rest)) : readFields (fuel + 1) cs = some ([(k, v)], rest) := by
  have hclose := readSeparator_close '\x7d' (by decide) (by decide) rest
  rw [readFields, hk]
  simp [hv, hclose]

theorem readFields_more {value next : List Char} {k : String} (hk : readKey cs = some (k, value))
    (hv : readValue fuel value = some (v, ',' :: next)) (hfields : readFields fuel next = some (fields, rest)) :
    readFields (fuel + 1) cs = some ((k, v) :: fields, rest) := by
  rw [readFields, hk]
  simp [hv, readSeparator_comma, hfields]

/-- A value is read back from its text, whatever text follows it. -/
def ReadsBack (v : Json) : Prop :=
  ∀ (fuel : ℕ) (rest : List Char), (stringify v).toList.length ≤ fuel →
    rest.head?.any continuesNumber = false →
    readValue fuel ((stringify v).toList ++ rest) = some (v, rest)

theorem readItems_stringify {vs : List Json} (hvs : ∀ v ∈ vs, ReadsBack v) (fuel : ℕ)
    (rest : List Char) (hne : vs ≠ [])
    (hfuel : (",".intercalate (stringifyItems vs)).toList.length < fuel) :
    readItems fuel ((",".intercalate (stringifyItems vs)).toList ++ ']' :: rest) =
      some (vs, rest) := by
  obtain ⟨fuel, rfl⟩ : ∃ n, fuel = n + 1 := Nat.exists_eq_add_one.2 (by omega)
  induction vs generalizing fuel with
  | nil => exact absurd rfl hne
  | cons v vs ih =>
    have hv := hvs v List.mem_cons_self
    cases vs with
    | nil =>
      rw [stringifyItems, stringifyItems, String.intercalate_singleton] at hfuel ⊢
      exact readItems_last (hv _ _ (by omega) rfl)
    | cons w vs =>
      rw [stringifyItems, stringifyItems, toList_intercalate_cons] at hfuel ⊢
      rw [List.append_assoc, List.cons_append]
      obtain ⟨c, cs, hcs, -⟩ := head_stringify v
      have hpos : 0 < (stringify v).toList.length := by rw [hcs]; simp
      simp only [List.length_append, List.length_cons] at hfuel
      obtain ⟨fuel, rfl⟩ : ∃ n, fuel = n + 1 := Nat.exists_eq_add_one.2 (by omega)
      refine readItems_more (hv _ _ (by omega) rfl) ?_
      exact ih (fun u hu => hvs u (List.mem_cons_of_mem _ hu)) (by simp) fuel
        (by rw [stringifyItems]; omega)

theorem readFields_stringify (hfields : ∀ e ∈ fields, ReadsBack e.2) (fuel : ℕ) (rest : List Char) (hne : fields ≠ [])
    (hfuel : (",".intercalate (stringifyFields fields)).toList.length < fuel) :
    readFields fuel ((",".intercalate (stringifyFields fields)).toList ++ '\x7d' :: rest) =
      some (fields, rest) := by
  obtain ⟨fuel, rfl⟩ : ∃ n, fuel = n + 1 := Nat.exists_eq_add_one.2 (by omega)
  induction fields generalizing fuel with
  | nil => exact absurd rfl hne
  | cons e fields ih =>
    obtain ⟨k, v⟩ := e
    have hv : ReadsBack v := hfields (k, v) List.mem_cons_self
    have htext : ∀ cs, (quote k ++ ":" ++ stringify v).toList ++ cs =
        (quote k).toList ++ ':' :: ((stringify v).toList ++ cs) := by
      intro cs
      simp
    have hlen : (quote k ++ ":" ++ stringify v).toList.length =
        (quote k).toList.length + (1 + (stringify v).toList.length) := by
      simp [Nat.add_comm]
    cases fields with
    | nil =>
      rw [stringifyFields, stringifyFields, String.intercalate_singleton] at hfuel ⊢
      rw [htext]
      exact readFields_last (readKey_quote k _) (hv _ _ (by omega) rfl)
    | cons e fields =>
      obtain ⟨k', v'⟩ := e
      rw [stringifyFields, stringifyFields, toList_intercalate_cons] at hfuel ⊢
      rw [List.append_assoc, List.cons_append, htext]
      simp only [List.length_append, List.length_cons] at hfuel hlen
      obtain ⟨fuel, rfl⟩ : ∃ n, fuel = n + 1 := Nat.exists_eq_add_one.2 (by omega)
      refine readFields_more (readKey_quote k _) (hv _ _ (by omega) rfl) ?_
      exact ih (fun u hu => hfields u (List.mem_cons_of_mem _ hu)) (by simp) fuel
        (by rw [stringifyFields]; omega)

theorem WellKeyedItems.of_mem {vs : List Json} (h : WellKeyedItems vs) (hv : v ∈ vs) : v.WellKeyed := by
  induction vs with
  | nil => cases hv
  | cons w vs ih =>
    rcases List.mem_cons.1 hv with rfl | hv
    · exact h.1
    · exact ih h.2 hv

theorem WellKeyedFields.of_mem {e : String × Json} (h : WellKeyedFields fields) (he : e ∈ fields) :
    e.2.WellKeyed := by
  induction fields with
  | nil => cases he
  | cons f fields ih =>
    rcases List.mem_cons.1 he with rfl | he
    · exact h.1
    · exact ih h.2 he

theorem ReadsBack.str (s : String) : ReadsBack (str s) := by
  intro fuel rest hfuel hrest
  have htext : (stringify (.str s)).toList ++ rest =
      '"' :: (s.toList.flatMap escapeChar ++ '"' :: rest) := by
    rw [stringify, toList_quote]
    simp
  have hpos : 0 < (stringify (.str s)).toList.length := by rw [stringify, toList_quote]; simp
  obtain ⟨fuel, rfl⟩ : ∃ n, fuel = n + 1 := Nat.exists_eq_add_one.2 (by omega)
  rw [htext, readValue, skipSpaces_cons (by decide)]
  simp only [if_true, readString_flatMap, Option.map_some]

theorem ReadsBack.arr {items : List Json} (h : ∀ v ∈ items, ReadsBack v) :
    ReadsBack (arr items) := by
  intro fuel rest hfuel hrest
  have htext : (stringify (.arr items)).toList =
      '[' :: ((",".intercalate (stringifyItems items)).toList ++ [']']) := by
    simp [stringify]
  rw [htext] at hfuel ⊢
  simp only [List.length_cons, List.length_append, List.length_nil] at hfuel
  obtain ⟨fuel, rfl⟩ : ∃ n, fuel = n + 1 := Nat.exists_eq_add_one.2 (by omega)
  cases items with
  | nil => rfl
  | cons v vs =>
    obtain ⟨c, cs, hbody, hs, hc⟩ := head_items v vs
    have hread := readItems_stringify h fuel rest (by simp) (by omega)
    rw [List.cons_append, List.append_assoc]
    exact readValue_brackets hbody hs hc hread

theorem ReadsBack.obj (hkeys : (fields.map Prod.fst).Nodup) (h : ∀ e ∈ fields, ReadsBack e.2) :
    ReadsBack (obj fields) := by
  intro fuel rest hfuel hrest
  have htext : (stringify (.obj fields)).toList =
      '\x7b' :: ((",".intercalate (stringifyFields fields)).toList ++ ['\x7d']) := by
    simp [stringify]
  rw [htext] at hfuel ⊢
  simp only [List.length_cons, List.length_append, List.length_nil] at hfuel
  obtain ⟨fuel, rfl⟩ : ∃ n, fuel = n + 1 := Nat.exists_eq_add_one.2 (by omega)
  cases fields with
  | nil => rfl
  | cons e fields =>
    obtain ⟨cs, hbody⟩ := head_fields e fields
    have hread := readFields_stringify h fuel rest (by simp) (by omega)
    rw [List.cons_append, List.append_assoc]
    exact readValue_braces hbody hkeys hread

theorem WellKeyed.readsBack : ∀ {v : Json}, v.WellKeyed → ReadsBack v
  | .null, _ => by
    intro fuel rest hfuel _
    obtain ⟨fuel, rfl⟩ : ∃ n, fuel = n + 1 :=
      Nat.exists_eq_add_one.2 (Nat.lt_of_lt_of_le (by decide) hfuel)
    rfl
  | .bool b, _ => by
    intro fuel rest hfuel _
    cases b <;> obtain ⟨fuel, rfl⟩ : ∃ n, fuel = n + 1 :=
      Nat.exists_eq_add_one.2 (Nat.lt_of_lt_of_le (by decide) hfuel)
    all_goals rfl
  | .num n, _ => by
    intro fuel rest hfuel hrest
    obtain ⟨c, cs, hcs, -⟩ := head_toString n
    obtain ⟨fuel, rfl⟩ : ∃ n, fuel = n + 1 := by
      refine Nat.exists_eq_add_one.2 (Nat.lt_of_lt_of_le ?_ hfuel)
      rw [stringify, hcs]
      simp
    exact readValue_num n hrest
  | .str s, _ => ReadsBack.str s
  | .arr _, hv => ReadsBack.arr fun _ hw => (WellKeyedItems.of_mem hv hw).readsBack
  | .obj _, hv => ReadsBack.obj hv.1 fun _ he => (WellKeyedFields.of_mem hv.2 he).readsBack
termination_by v => sizeOf v
decreasing_by
  · have := List.sizeOf_lt_of_mem hw
    simp only [Json.arr.sizeOf_spec]
    omega
  · have := List.sizeOf_lt_of_mem he
    have hvalue : ∀ e : String × Json, sizeOf e.2 < sizeOf e := by
      rintro ⟨k, v⟩
      simp only [Prod.mk.sizeOf_spec]
      omega
    simp only [Json.obj.sizeOf_spec]
    exact lt_trans (hvalue _) (by omega)

/-- **A printed value is read back.** -/
theorem parse_stringify (hv : v.WellKeyed) : parse (stringify v) = some v := by
  have hread := hv.readsBack _ [] (le_refl _) rfl
  rw [List.append_nil] at hread
  rw [parse, hread]
  rfl

end Json

end Keeper
