import Keeper.Ics.Properties
import Mathlib.Data.List.TakeWhile
import Mathlib.Tactic.Push

/-!
# Content lines

How a content line is split where its parameters end: `parsePropertyLine` of `ics/utils/apply-patches.ts`, and
`parseIcsProperty` and `readTimeZoneParameter` of `ics/utils/ics-property.ts`, against the lines that are printed
from a name, parameters and a value.

* `parsePropertyLine_print_iff`, `parseIcsProperty_print_iff`: the parts are recovered if and only if no parameter
  has a colon (and the value no Unicode line separator).
* `readsZone_iff`: the zone is read if and only if no quoted value before it spells a zone parameter.
-/

namespace Keeper

/-! ## Reading a line -/

structure IcsProperty where
  parameters : List (List Char)
  property : List Char
  propertyName : List Char
  value : List Char

/-- `split(";")`. -/
def splitSemicolons : List Char → List (List Char)
  | [] => [[]]
  | ';' :: text => [] :: splitSemicolons text
  | c :: text => consLine c (splitSemicolons text)

/-- `parseIcsProperty`; letters are raised as in ASCII. -/
def parseIcsProperty (line : List Char) : Option IcsProperty :=
  match line.dropWhile (· ≠ ':') with
  | [] => none
  | _ :: value =>
    let property := line.takeWhile (· ≠ ':')
    match splitSemicolons (property.map Char.toUpper) with
    | [] => none
    | propertyName :: parameters =>
      if propertyName = [] then none else some ⟨parameters, property, propertyName, value⟩

/-- The text starts with `;TZID=`, in any case. -/
def startsWithZone (text : List Char) : Bool := (text.take 6).map Char.toUpper = [';', 'T', 'Z', 'I', 'D', '=']

/-- What the groups of `TZID_PARAMETER_PATTERN` match after `;TZID=`. -/
def readZoneValue (text : List Char) : List Char :=
  match text with
  | '"' :: rest =>
    if '"' ∈ rest then rest.takeWhile (· ≠ '"') else text.takeWhile fun c => c ≠ ';' ∧ c ≠ ':'
  | _ => text.takeWhile fun c => c ≠ ';' ∧ c ≠ ':'

def readTimeZoneParameter : List Char → Option (List Char)
  | [] => none
  | c :: text =>
    if startsWithZone (c :: text) then some (readZoneValue ((c :: text).drop 6)) else readTimeZoneParameter text

/-! ## Printing a line -/

def isLineBreak (c : Char) : Bool := c = '\n' || c = '\r'

/-- The value of a parameter: a token, or a string in double quotes. -/
inductive ParamValue where
  | token (text : List Char)
  | quoted (text : List Char)

namespace ParamValue

def text : ParamValue → List Char
  | token text => text
  | quoted text => text

def print : ParamValue → List Char
  | token text => text
  | quoted text => '"' :: (text ++ ['"'])

/-- A token has no character that ends it; a quoted string has any but the quote. -/
def WellFormed : ParamValue → Prop
  | token text => ∀ c ∈ text, (c ≠ '"' ∧ c ≠ ';' ∧ c ≠ ':' ∧ c ≠ ',') ∧ isLineBreak c = false
  | quoted text => ∀ c ∈ text, c ≠ '"' ∧ isLineBreak c = false

def SpellsZone : ParamValue → Prop
  | token _ => False
  | quoted text => ∃ k, startsWithZone (text.drop k) = true

end ParamValue

def isZoneName (name : List Char) : Bool := name.map Char.toUpper = ['T', 'Z', 'I', 'D']

/-- A parameter: its name and values. That of a zone has one. -/
structure Param where
  name : List Char
  first : ParamValue
  more : List ParamValue
  nameChars : ∀ c ∈ name, isNameChar c = true
  wellFormed : ∀ v ∈ first :: more, v.WellFormed
  single : isZoneName name = true → more = []

namespace Param

def printValues (param : Param) : List Char := param.first.print ++ param.more.flatMap fun v => ',' :: v.print

def print (param : Param) : List Char := ';' :: (param.name ++ '=' :: param.printValues)

def isZone (param : Param) : Bool := isZoneName param.name

end Param

structure ContentLine where
  name : List Char
  params : List Param
  value : List Char
  nameHead : name.head?.any Char.isAlpha = true
  nameChars : ∀ c ∈ name, isNameChar c = true
  noBreak : ∀ c ∈ value, isLineBreak c = false

namespace ContentLine

def paramsText (line : ContentLine) : List Char := line.params.flatMap Param.print

def print (line : ContentLine) : List Char := line.name ++ (line.paramsText ++ ':' :: line.value)

def NoColon (line : ContentLine) : Prop := ∀ param ∈ line.params, ∀ v ∈ param.first :: param.more, ':' ∉ v.text

def NoSeparator (line : ContentLine) : Prop := ∀ c ∈ line.value, c ≠ '\u2028' ∧ c ≠ '\u2029'

/-- No quoted value spells a zone parameter before the zone's. -/
def ZoneFirst (line : ContentLine) : Prop :=
  ∀ param ∈ line.params.takeWhile (!·.isZone), ∀ v ∈ param.first :: param.more, ¬v.SpellsZone

/-- Whatever the zone is, it is read; where there is none, none is. -/
def ReadsZone (line : ContentLine) : Prop :=
  let before := line.params.takeWhile (!·.isZone)
  match line.params.dropWhile (!·.isZone) with
  | [] => readTimeZoneParameter (line.name ++ line.paramsText) = none
  | zone :: after => ∀ v : ParamValue, v.WellFormed → ':' ∉ v.text →
    readTimeZoneParameter (line.name ++ (before.flatMap Param.print ++
      (';' :: (zone.name ++ '=' :: v.print) ++ after.flatMap Param.print))) = some v.text

end ContentLine

/-! ## Characters -/

variable {c : Char} {v : ParamValue} {param : Param} {text rest text' : List Char}

theorem not_isNameChar_iff (h : isNameChar c = true) : c ≠ ';' ∧ c ≠ ':' ∧ c ≠ '=' ∧ c ≠ '"' := by
  refine ⟨?_, ?_, ?_, ?_⟩ <;>
  · rintro rfl
    revert h
    decide

theorem mem_print_value (c : Char) (hc : c ≠ '"') : c ∈ v.print ↔ c ∈ v.text := by
  cases v with
  | token text => exact Iff.rfl
  | quoted text => simp [ParamValue.print, ParamValue.text, hc]

theorem colon_mem_print : ':' ∈ param.print ↔ ∃ v ∈ param.first :: param.more, ':' ∈ v.text := by
  have hname : ':' ∉ param.name := fun h => (not_isNameChar_iff (param.nameChars _ h)).2.1 rfl
  simp [Param.print, Param.printValues, hname, mem_print_value]

theorem ContentLine.noColon_iff {line : ContentLine} : line.NoColon ↔ ':' ∉ line.paramsText := by
  unfold ContentLine.NoColon ContentLine.paramsText
  simp only [List.mem_flatMap, colon_mem_print]
  push Not
  rfl

theorem eq_of_toUpper_eq {d : Char} (hd : ¬(65 ≤ d.toNat ∧ d.toNat ≤ 90)) (h : c.toUpper = d) : c = d := by
  unfold Char.toUpper at h
  split_ifs at h with hlower
  · refine absurd ?_ hd
    have hval : d.toNat = (c.val + ('A'.val - 'a'.val)).toNat := by
      rw [← h]
      rfl
    have hshift : ('A'.val - 'a'.val).toNat = 2 ^ 32 - 32 := rfl
    have hlo : 97 ≤ c.val.toNat := UInt32.le_iff_toNat_le.1 hlower.1
    have hhi : c.val.toNat ≤ 122 := UInt32.le_iff_toNat_le.1 hlower.2
    rw [hval, UInt32.toNat_add, hshift]
    omega
  · exact h

/-! ## Splitting -/

variable {line : ContentLine}

theorem ContentLine.head?_rest : (line.paramsText ++ ':' :: line.value).head? = some ';' ∨
    (line.paramsText ++ ':' :: line.value).head? = some ':' := by
  unfold ContentLine.paramsText
  cases line.params with
  | nil => exact Or.inr rfl
  | cons param params => exact Or.inl rfl

theorem ContentLine.takeWhile_name : line.print.takeWhile isNameChar = line.name ∧
    line.print.dropWhile isNameChar = line.paramsText ++ ':' :: line.value := by
  have hrest : (line.paramsText ++ ':' :: line.value).takeWhile isNameChar = [] := by
    cases h : line.paramsText ++ ':' :: line.value with
    | nil => rfl
    | cons c rest =>
      have hhead := line.head?_rest
      rw [h, List.head?_cons, Option.some.injEq, Option.some.injEq] at hhead
      exact List.takeWhile_cons_of_neg (by rcases hhead with rfl | rfl <;> decide)
  have hdrop := List.takeWhile_append_dropWhile (p := isNameChar) (l := line.paramsText ++ ':' :: line.value)
  rw [hrest, List.nil_append] at hdrop
  unfold ContentLine.print
  rw [List.takeWhile_append_of_pos line.nameChars, List.dropWhile_append_of_pos line.nameChars, hrest, hdrop,
    List.append_nil]
  exact ⟨rfl, rfl⟩

/-- The text up to the first colon is the parameters' where it has none. -/
theorem takeWhile_colon_iff {value : List Char} : (text ++ ':' :: value).takeWhile (· ≠ ':') = text ↔ ':' ∉ text := by
  constructor
  · intro h hmem
    rw [← h] at hmem
    simpa using List.mem_takeWhile_imp hmem
  · intro h
    rw [List.takeWhile_append_of_pos fun c hc => by simpa using fun heq : c = ':' => h (heq ▸ hc)]
    simp

theorem dropWhile_colon (h : ':' ∉ text) (value : List Char) :
    (text ++ ':' :: value).dropWhile (· ≠ ':') = ':' :: value := by
  rw [List.dropWhile_append_of_pos fun c hc => by simpa using fun heq : c = ':' => h (heq ▸ hc)]
  simp

theorem any_isLineTerminator_iff : line.value.any isLineTerminator = false ↔ line.NoSeparator := by
  simp only [List.any_eq_false, ContentLine.NoSeparator, isLineTerminator, Bool.or_eq_true, decide_eq_true_eq]
  refine forall₂_congr fun c hc => ?_
  have hbreak := line.noBreak c hc
  simp only [isLineBreak, Bool.or_eq_false_iff, decide_eq_false_iff_not] at hbreak
  tauto

/-- **A line is split where its parameters end** if and only if no parameter has a colon and the value has no
separator that a pattern's dot does not match. -/
theorem parsePropertyLine_print_iff :
    parsePropertyLine line.print = some
        { property := String.ofList (line.name.map Char.toUpper)
          params := String.ofList line.paramsText
          value := String.ofList line.value } ↔ line.NoColon ∧ line.NoSeparator := by
  obtain ⟨hname, hrest⟩ := line.takeWhile_name
  rw [parsePropertyLine, hname, hrest, ContentLine.noColon_iff, ← any_isLineTerminator_iff]
  constructor
  · intro h
    split at h
    · cases h
    · rename_i hdrop
      split_ifs at h with hchecks
      simp only [Option.some.injEq, ParsedPropertyLine.mk.injEq, String.ofList_inj, true_and] at h
      have hcolon := takeWhile_colon_iff.1 h.1
      rw [h.2] at hchecks
      simp only [Bool.and_eq_true, Bool.not_eq_true'] at hchecks
      exact ⟨hcolon, hchecks.2⟩
  · rintro ⟨hcolon, hvalue⟩
    have hhead : line.paramsText.head?.all (· = ';') = true := by
      unfold ContentLine.paramsText
      cases line.params <;> rfl
    rw [dropWhile_colon hcolon, takeWhile_colon_iff.2 hcolon]
    dsimp only
    rw [if_pos (by rw [line.nameHead, hhead, hvalue]; rfl)]

/-- The first part of a split is what stands before the first semicolon. -/
theorem splitSemicolons_append (h : ';' ∉ text) (hrest : rest.head?.all (· = ';') = true) :
    ∃ parameters, splitSemicolons (text ++ rest) = text :: parameters := by
  induction text with
  | nil =>
    cases rest with
    | nil => exact ⟨[], rfl⟩
    | cons c rest =>
      obtain rfl : c = ';' := by simpa using hrest
      exact ⟨_, rfl⟩
  | cons c text ih =>
    obtain ⟨parameters, happend⟩ := ih fun hmem => h (List.mem_cons_of_mem c hmem)
    have hc : c ≠ ';' := fun heq => h (heq ▸ List.mem_cons_self)
    refine ⟨parameters, ?_⟩
    rw [List.cons_append, splitSemicolons.eq_3 _ _ hc, happend]
    rfl

theorem toUpper_ne_semicolon (h : isNameChar c = true) : c.toUpper ≠ ';' :=
  fun hupper => (not_isNameChar_iff h).1 (eq_of_toUpper_eq (by decide) hupper)

/-- **`parseIcsProperty` splits a line where its parameters end** if and only if no parameter has a colon. -/
theorem parseIcsProperty_print_iff :
    (∃ parameters, parseIcsProperty line.print =
      some ⟨parameters, line.name ++ line.paramsText, line.name.map Char.toUpper, line.value⟩) ↔ line.NoColon := by
  have hname : ':' ∉ line.name := fun h => (not_isNameChar_iff (line.nameChars _ h)).2.1 rfl
  have hprint : line.print = (line.name ++ line.paramsText) ++ ':' :: line.value := by
    rw [List.append_assoc]
    rfl
  rw [ContentLine.noColon_iff]
  constructor
  · rintro ⟨parameters, h⟩
    rw [parseIcsProperty, hprint] at h
    split at h
    · cases h
    · dsimp only at h
      split at h
      · cases h
      · split_ifs at h
        simp only [Option.some.injEq, IcsProperty.mk.injEq] at h
        exact fun hmem => takeWhile_colon_iff.1 h.2.1 (List.mem_append_right _ hmem)
  · intro hcolon
    have hboth : ':' ∉ line.name ++ line.paramsText := by simp [hname, hcolon]
    have hupper : ';' ∉ line.name.map Char.toUpper := by
      simp only [List.mem_map, not_exists, not_and]
      exact fun c hc => toUpper_ne_semicolon (line.nameChars c hc)
    have hsplit : ∃ parameters, splitSemicolons ((line.name ++ line.paramsText).map Char.toUpper) =
        line.name.map Char.toUpper :: parameters := by
      rw [List.map_append]
      refine splitSemicolons_append hupper ?_
      unfold ContentLine.paramsText
      cases line.params <;> rfl
    obtain ⟨parameters, hparameters⟩ := hsplit
    refine ⟨parameters, ?_⟩
    have hne : line.name.map Char.toUpper ≠ [] := by
      have hhead := line.nameHead
      intro hnil
      rw [List.map_eq_nil_iff] at hnil
      rw [hnil] at hhead
      cases hhead
    rw [parseIcsProperty, hprint, dropWhile_colon hboth, takeWhile_colon_iff.2 hboth]
    dsimp only
    rw [hparameters]
    exact if_neg hne

/-! ## The zone -/

theorem readTimeZoneParameter_cons (h : startsWithZone (c :: text) = false) :
    readTimeZoneParameter (c :: text) = readTimeZoneParameter text := by
  rw [readTimeZoneParameter, h]
  rfl

theorem startsWithZone_cons (hc : c.toUpper ≠ ';') (text : List Char) : startsWithZone (c :: text) = false := by
  simp [startsWithZone, hc]

theorem readTimeZoneParameter_append (h : ∀ c ∈ text, c.toUpper ≠ ';') (rest : List Char) :
    readTimeZoneParameter (text ++ rest) = readTimeZoneParameter rest := by
  induction text with
  | nil => rfl
  | cons c text ih =>
    rw [List.cons_append, readTimeZoneParameter_cons (startsWithZone_cons (h c List.mem_cons_self) _)]
    exact ih fun c' hc' => h c' (List.mem_cons_of_mem c hc')

theorem startsWithZone_append_quote (text rest : List Char) :
    startsWithZone (text ++ '"' :: rest) = startsWithZone text := by
  unfold startsWithZone
  by_cases hlength : 6 ≤ text.length
  · rw [List.take_append_of_le_length hlength]
  · have hshort : ¬(text.take 6).map Char.toUpper = [';', 'T', 'Z', 'I', 'D', '='] := by
      intro h
      have hlen := congrArg List.length h
      simp only [List.length_map, List.length_take, List.length_cons, List.length_nil] at hlen
      omega
    have hquote : ¬((text ++ '"' :: rest).take 6).map Char.toUpper = [';', 'T', 'Z', 'I', 'D', '='] := by
      intro h
      have hmem : '"' ∈ ((text ++ '"' :: rest).take 6).map Char.toUpper := by
        refine List.mem_map.2 ⟨'"', ?_, by decide⟩
        rw [List.take_append, List.mem_append]
        obtain ⟨k, hk⟩ : ∃ k, 6 - text.length = k + 1 := ⟨5 - text.length, by omega⟩
        rw [hk, List.take_succ_cons]
        exact Or.inr List.mem_cons_self
      rw [h] at hmem
      revert hmem
      decide
    rw [decide_eq_false hshort, decide_eq_false hquote]

theorem startsWithZone_name {name : List Char} (h : ∀ c ∈ name, isNameChar c = true) (rest : List Char) :
    startsWithZone (';' :: (name ++ '=' :: rest)) = isZoneName name := by
  have hequal : ∀ d, ¬(65 ≤ d.toNat ∧ d.toNat ≤ 90) → ∀ c ∈ name, d = '=' → c.toUpper ≠ d := by
    rintro d hd c hc rfl hupper
    exact (not_isNameChar_iff (h c hc)).2.2.1 (eq_of_toUpper_eq hd hupper)
  unfold startsWithZone isZoneName
  have hsign : Char.toUpper '=' = '=' := by decide
  have hsemi : Char.toUpper ';' = ';' := by decide
  rcases name with _ | ⟨a, _ | ⟨b, _ | ⟨c, _ | ⟨d, _ | ⟨e, name⟩⟩⟩⟩⟩
  · simp [hsign, hsemi]
  · simp [hsign, hsemi]
  · simp [hsign, hsemi]
  · simp [hsign, hsemi]
  · simp [hsign, hsemi]
  · have he := hequal '=' (by decide) e (by simp) rfl
    simp [hsemi, he]

def Passes (text : List Char) : Prop :=
  ∀ rest, readTimeZoneParameter (text ++ rest) = readTimeZoneParameter rest

theorem Passes.append (h : Passes text) (h' : Passes text') : Passes (text ++ text') := by
  intro rest
  rw [List.append_assoc, h, h']

theorem passes_nil : Passes [] := fun _ => rfl

theorem passes_of_ne (h : ∀ c ∈ text, c ≠ ';') : Passes text :=
  readTimeZoneParameter_append fun c hc hupper => h c hc (eq_of_toUpper_eq (by decide) hupper)

theorem passes_quoted (h : ∀ k, startsWithZone (text.drop k) = false) : Passes (text ++ ['"']) := by
  intro rest
  rw [List.append_assoc, List.singleton_append]
  induction text with
  | nil => exact (passes_of_ne (by simp) : Passes ['"']) rest
  | cons c text ih =>
    have hstart := startsWithZone_append_quote (c :: text) rest
    have hhead := h 0
    rw [List.drop_zero] at hhead
    rw [hhead, List.cons_append] at hstart
    rw [List.cons_append, readTimeZoneParameter_cons hstart]
    exact ih fun k => h (k + 1)

theorem passes_value (hv : v.WellFormed) (h : ¬v.SpellsZone) : Passes v.print := by
  cases v with
  | token text => exact passes_of_ne fun c hc => (hv c hc).1.2.1
  | quoted text =>
    refine (passes_of_ne (by simp) : Passes ['"']).append (passes_quoted fun k => ?_)
    rw [← Bool.not_eq_true]
    exact fun hk => h ⟨k, hk⟩

theorem passes_values {values : List ParamValue} (hv : ∀ v ∈ values, v.WellFormed) (h : ∀ v ∈ values, ¬v.SpellsZone) :
    Passes (values.flatMap fun v => ',' :: v.print) := by
  induction values with
  | nil => exact passes_nil
  | cons v values ih =>
    rw [List.flatMap_cons]
    refine Passes.append ((passes_of_ne (by simp) : Passes [',']).append
      (passes_value (hv v List.mem_cons_self) (h v List.mem_cons_self))) ?_
    exact ih (fun v hmem => hv v (List.mem_cons_of_mem _ hmem)) fun v hmem => h v (List.mem_cons_of_mem _ hmem)

theorem passes_name (h : param.isZone = false) : Passes (';' :: (param.name ++ ['='])) := by
  intro rest
  have hstart := startsWithZone_name param.nameChars rest
  have hsplit : ';' :: (param.name ++ ['=']) ++ rest = ';' :: (param.name ++ '=' :: rest) := by simp
  rw [hsplit, readTimeZoneParameter_cons (hstart.trans h)]
  have hname : Passes (param.name ++ ['=']) := by
    refine passes_of_ne fun c hc => ?_
    rcases List.mem_append.1 hc with hc | hc
    · exact (not_isNameChar_iff (param.nameChars c hc)).1
    · rw [List.mem_singleton.1 hc]
      decide
  have := hname rest
  rwa [List.append_assoc, List.singleton_append] at this

theorem Param.print_eq (param : Param) : param.print =
    ';' :: (param.name ++ ['=']) ++ (param.first.print ++ param.more.flatMap fun v => ',' :: v.print) := by
  unfold Param.print Param.printValues
  simp

theorem passes_param (hzone : param.isZone = false) (h : ∀ v ∈ param.first :: param.more, ¬v.SpellsZone) :
    Passes param.print := by
  rw [param.print_eq]
  refine (passes_name hzone).append ((passes_value (param.wellFormed _ List.mem_cons_self)
    (h _ List.mem_cons_self)).append ?_)
  exact passes_values (fun v hv => param.wellFormed v (List.mem_cons_of_mem _ hv))
    fun v hv => h v (List.mem_cons_of_mem _ hv)

theorem passes_params {params : List Param} (hzone : ∀ param ∈ params, param.isZone = false)
    (h : ∀ param ∈ params, ∀ v ∈ param.first :: param.more, ¬v.SpellsZone) : Passes (params.flatMap Param.print) := by
  induction params with
  | nil => exact passes_nil
  | cons param params ih =>
    rw [List.flatMap_cons]
    refine (passes_param (hzone param List.mem_cons_self) (h param List.mem_cons_self)).append ?_
    exact ih (fun p hp => hzone p (List.mem_cons_of_mem _ hp)) fun p hp => h p (List.mem_cons_of_mem _ hp)

theorem head?_params (params : List Param) : (params.flatMap Param.print).head?.all (· = ';') = true := by
  cases params <;> rfl

/-- What is read up to a semicolon does not depend on what follows it. -/
theorem takeWhile_append_semicolon (text : List Char) (h : rest.head?.all (· = ';') = true) :
    (text ++ rest).takeWhile (fun c => c ≠ ';' ∧ c ≠ ':') = text.takeWhile fun c => c ≠ ';' ∧ c ≠ ':' := by
  induction text with
  | nil =>
    cases rest with
    | nil => rfl
    | cons c rest =>
      obtain rfl : c = ';' := by simpa using h
      rfl
  | cons c text ih => rw [List.cons_append, List.takeWhile_cons, List.takeWhile_cons, ih]

theorem readZoneValue_of_head (h : text.head? ≠ some '"') :
    readZoneValue text = text.takeWhile fun c => c ≠ ';' ∧ c ≠ ':' := by
  unfold readZoneValue
  split
  · exact absurd rfl h
  · rfl

theorem readZoneValue_print (hv : v.WellFormed) (hcolon : ':' ∉ v.text) (hrest : rest.head?.all (· = ';') = true) :
    readZoneValue (v.print ++ rest) = v.text := by
  cases v with
  | token text =>
    have hhead : (text ++ rest).head? ≠ some '"' := by
      intro hquote
      cases text with
      | nil =>
        rw [List.nil_append] at hquote
        rw [hquote] at hrest
        revert hrest
        decide
      | cons c text => exact (hv c List.mem_cons_self).1.1 (Option.some.inj hquote)
    refine (readZoneValue_of_head hhead).trans ((takeWhile_append_semicolon text hrest).trans ?_)
    refine List.takeWhile_eq_self_iff.2 fun c hc => ?_
    have hne : c ≠ ':' := fun heq => hcolon (heq ▸ hc)
    simp [(hv c hc).1.2.1, hne]
  | quoted text =>
    have hprint : ParamValue.print (.quoted text) ++ rest = '"' :: (text ++ '"' :: rest) := by
      simp [ParamValue.print]
    rw [hprint, readZoneValue, if_pos (by simp),
      List.takeWhile_append_of_pos fun c hc => by simpa using (hv c hc).1]
    simp [ParamValue.text]

/-- **The zone is read** where it is the first that the line spells. -/
theorem readsZone_of_zoneFirst (h : line.ZoneFirst) : line.ReadsZone := by
  have hname : Passes line.name := passes_of_ne fun c hc => (not_isNameChar_iff (line.nameChars c hc)).1
  have hbefore : Passes ((line.params.takeWhile (!·.isZone)).flatMap Param.print) :=
    passes_params (fun param hparam => by simpa using List.mem_takeWhile_imp hparam) h
  have hsplit := List.takeWhile_append_dropWhile (p := fun param : Param => !param.isZone) (l := line.params)
  unfold ContentLine.ReadsZone
  dsimp only
  split
  · rename_i hnone
    rw [hnone, List.append_nil] at hsplit
    rw [hsplit] at hbefore
    have := hname.append hbefore []
    rwa [List.append_nil] at this
  · rename_i zone after hzone
    intro v hv hv'
    have hstart : isZoneName zone.name = true := by
      have := List.head?_dropWhile_not (fun param : Param => !param.isZone) line.params
      rw [hzone] at this
      simpa [Param.isZone] using this
    rw [hname, hbefore]
    have htext : ';' :: (zone.name ++ '=' :: v.print) ++ after.flatMap Param.print =
        ';' :: (zone.name ++ '=' :: (v.print ++ after.flatMap Param.print)) := by simp
    have hread := startsWithZone_name zone.nameChars (v.print ++ after.flatMap Param.print)
    rw [htext, readTimeZoneParameter, hread, if_pos hstart]
    have hlength : zone.name.length = 4 := by
      have := congrArg List.length (of_decide_eq_true hstart)
      simpa using this
    have hdrop : (';' :: (zone.name ++ '=' :: (v.print ++ after.flatMap Param.print))).drop 6 =
        v.print ++ after.flatMap Param.print := by
      rw [List.drop_succ_cons, List.drop_append, hlength]
      simp [hlength]
    rw [hdrop, readZoneValue_print hv hv' (head?_params after)]

/-- A text in which a quoted string spells a zone parameter: what it spells is read, up to its end or beyond. -/
def Spoils (text : List Char) : Prop :=
  ∃ post rest', '"' ∉ post ∧ rest'.head?.all (fun c => c = ',' || c = ';') = true ∧
    ∀ rest, readTimeZoneParameter (text ++ rest) = some (readZoneValue (post ++ '"' :: (rest' ++ rest)))

theorem Spoils.prepend (h : Spoils text') (hpasses : Passes text) : Spoils (text ++ text') := by
  obtain ⟨post, rest', hpost, hrest', hread⟩ := h
  refine ⟨post, rest', hpost, hrest', fun rest => ?_⟩
  rw [List.append_assoc, hpasses, hread]

theorem Spoils.append (h : Spoils text) (htext' : text'.head?.all (fun c => c = ',' || c = ';') = true) :
    Spoils (text ++ text') := by
  obtain ⟨post, rest', hpost, hrest', hread⟩ := h
  refine ⟨post, rest' ++ text', hpost, ?_, fun rest => ?_⟩
  · cases rest' with
    | nil => exact htext'
    | cons c rest' => exact hrest'
  · rw [List.append_assoc, List.append_assoc, hread]

theorem spoils_quoted (hquote : '"' ∉ text) (h : ∃ k, startsWithZone (text.drop k) = true) :
    Spoils (text ++ ['"']) := by
  induction text with
  | nil =>
    obtain ⟨k, hk⟩ := h
    simp [startsWithZone] at hk
  | cons c text ih =>
    by_cases hstart : startsWithZone (c :: text) = true
    · refine ⟨(c :: text).drop 6, [], fun hmem => hquote (List.mem_of_mem_drop hmem), rfl, fun rest => ?_⟩
      have hlength : 6 ≤ (c :: text).length := by
        have := congrArg List.length (of_decide_eq_true hstart)
        simp only [List.length_map, List.length_take, List.length_cons, List.length_nil] at this ⊢
        omega
      have happend : c :: text ++ ['"'] ++ rest = c :: (text ++ '"' :: rest) := by simp
      have hquoted := startsWithZone_append_quote (c :: text) rest
      rw [hstart, List.cons_append] at hquoted
      rw [happend, readTimeZoneParameter, if_pos hquoted, ← List.cons_append, List.drop_append_of_le_length hlength]
      rfl
    · rw [Bool.not_eq_true] at hstart
      obtain ⟨k, hk⟩ := h
      cases k with
      | zero =>
        rw [List.drop_zero, hstart] at hk
        cases hk
      | succ k =>
        obtain ⟨post, rest', hpost, hrest', hread⟩ := ih (fun hmem => hquote (List.mem_cons_of_mem c hmem)) ⟨k, hk⟩
        refine ⟨post, rest', hpost, hrest', fun rest => ?_⟩
        have happend : c :: text ++ ['"'] ++ rest = c :: (text ++ '"' :: rest) := by simp
        have hquoted := startsWithZone_append_quote (c :: text) rest
        rw [hstart, List.cons_append] at hquoted
        rw [happend, readTimeZoneParameter_cons hquoted, ← hread]
        simp

theorem spoils_value (hv : v.WellFormed) (h : v.SpellsZone) : Spoils v.print := by
  cases v with
  | token text => exact h.elim
  | quoted text =>
    exact (spoils_quoted (fun hmem => (hv _ hmem).1 rfl) h).prepend (passes_of_ne (by simp) : Passes ['"'])

theorem head?_values (values : List ParamValue) :
    (values.flatMap fun v => ',' :: v.print).head?.all (fun c => c = ',' || c = ';') = true := by
  cases values <;> rfl

theorem spoils_values {values : List ParamValue} (hv : ∀ v ∈ values, v.WellFormed) (h : ∃ v ∈ values, v.SpellsZone) :
    Spoils (values.flatMap fun v => ',' :: v.print) := by
  induction values with
  | nil =>
    obtain ⟨v, hmem, -⟩ := h
    cases hmem
  | cons v values ih =>
    have hcomma : Passes [','] := passes_of_ne (by simp)
    rw [List.flatMap_cons]
    by_cases hspells : v.SpellsZone
    · exact ((spoils_value (hv v List.mem_cons_self) hspells).prepend hcomma).append (head?_values values)
    · obtain ⟨v', hmem, hspells'⟩ := h
      rcases List.mem_cons.1 hmem with rfl | hmem
      · exact absurd hspells' hspells
      · exact (ih (fun v hv' => hv v (List.mem_cons_of_mem _ hv')) ⟨v', hmem, hspells'⟩).prepend
          (hcomma.append (passes_value (hv v List.mem_cons_self) hspells))

theorem spoils_param (hzone : param.isZone = false) (h : ∃ v ∈ param.first :: param.more, v.SpellsZone) :
    Spoils param.print := by
  rw [param.print_eq]
  refine Spoils.prepend ?_ (passes_name hzone)
  have hfirst := param.wellFormed _ List.mem_cons_self
  by_cases hspells : param.first.SpellsZone
  · exact (spoils_value hfirst hspells).append (head?_values param.more)
  · obtain ⟨v, hmem, hspells'⟩ := h
    rcases List.mem_cons.1 hmem with rfl | hmem
    · exact absurd hspells' hspells
    · exact (spoils_values (fun v hv => param.wellFormed v (List.mem_cons_of_mem _ hv)) ⟨v, hmem, hspells'⟩).prepend
        (passes_value hfirst hspells)

theorem spoils_params {params : List Param} (hzone : ∀ param ∈ params, param.isZone = false)
    (h : ∃ param ∈ params, ∃ v ∈ param.first :: param.more, v.SpellsZone) : Spoils (params.flatMap Param.print) := by
  induction params with
  | nil =>
    obtain ⟨param, hmem, -⟩ := h
    cases hmem
  | cons param params ih =>
    have hparam := hzone param List.mem_cons_self
    rw [List.flatMap_cons]
    by_cases hspells : ∃ v ∈ param.first :: param.more, v.SpellsZone
    · refine (spoils_param hparam hspells).append ?_
      cases params <;> rfl
    · obtain ⟨param', hmem, hspells'⟩ := h
      rcases List.mem_cons.1 hmem with rfl | hmem
      · exact absurd hspells' hspells
      · exact (ih (fun p hp => hzone p (List.mem_cons_of_mem _ hp)) ⟨param', hmem, hspells'⟩).prepend
          (passes_param hparam fun v hv hv' => hspells ⟨v, hv, hv'⟩)

/-- What is read after a spelled zone is not empty, or does not depend on what follows it. -/
theorem readZoneValue_spoiled {post rest' : List Char} (hpost : '"' ∉ post)
    (hrest' : rest'.head?.all (fun c => c = ',' || c = ';') = true) {zone zone' : List Char}
    (hzone : zone.head? = some ';') (hzone' : zone'.head? = some ';')
    (h : readZoneValue (post ++ '"' :: (rest' ++ zone)) = []) :
    readZoneValue (post ++ '"' :: (rest' ++ zone')) = [] := by
  cases post with
  | nil =>
    -- the quote that ends the string is read as one that starts the zone
    exfalso
    rw [List.nil_append, readZoneValue] at h
    have hhead : ∃ c rest, rest' ++ zone = c :: rest ∧ c ≠ '"' := by
      cases rest' with
      | nil =>
        obtain ⟨rest, hrest⟩ := List.head?_eq_some_iff.1 hzone
        exact ⟨';', rest, hrest, by decide⟩
      | cons c rest' =>
        refine ⟨c, rest' ++ zone, rfl, ?_⟩
        rintro rfl
        revert hrest'
        simp
    obtain ⟨c, rest, hrest, hc⟩ := hhead
    rw [hrest] at h
    split_ifs at h
    · rw [List.takeWhile_cons_of_pos (by simpa using hc)] at h
      cases h
    · rw [List.takeWhile_cons_of_pos (by decide)] at h
      cases h
  | cons c post =>
    have hc : c ≠ '"' := fun heq => hpost (heq ▸ List.mem_cons_self)
    have hhead : ∀ rest, (c :: post ++ '"' :: (rest' ++ rest)).head? ≠ some '"' :=
      fun rest heq => hc (Option.some.inj heq)
    have hsplit : ∀ rest, c :: post ++ '"' :: (rest' ++ rest) = (c :: post ++ '"' :: rest') ++ rest := by simp
    rw [readZoneValue_of_head (hhead zone), hsplit, takeWhile_append_semicolon _ (by rw [hzone]; rfl)] at h
    rw [readZoneValue_of_head (hhead zone'), hsplit, takeWhile_append_semicolon _ (by rw [hzone']; rfl), h]

/-- **The zone is read** if and only if no quoted value before it spells a zone parameter. -/
theorem readsZone_iff : line.ReadsZone ↔ line.ZoneFirst := by
  refine ⟨fun hreads => ?_, readsZone_of_zoneFirst⟩
  by_contra hfirst
  have hspoils : Spoils (line.name ++ (line.params.takeWhile (!·.isZone)).flatMap Param.print) := by
    refine Spoils.prepend (spoils_params (fun param hparam => by simpa using List.mem_takeWhile_imp hparam) ?_)
      (passes_of_ne fun c hc => (not_isNameChar_iff (line.nameChars c hc)).1)
    unfold ContentLine.ZoneFirst at hfirst
    push Not at hfirst
    exact hfirst
  obtain ⟨post, rest', hpost, hrest', hread⟩ := hspoils
  unfold ContentLine.ReadsZone at hreads
  dsimp only at hreads
  split at hreads
  · rename_i hnone
    have hsplit := List.takeWhile_append_dropWhile (p := fun param : Param => !param.isZone) (l := line.params)
    rw [hnone, List.append_nil] at hsplit
    have := hread []
    rw [hsplit, List.append_nil] at this
    cases hreads.symm.trans this
  · rename_i zone after hzone
    have hempty := hreads (.token []) (fun c hc => absurd hc List.not_mem_nil) (by simp [ParamValue.text])
    have hletter := hreads (.token ['A']) (by
      intro c hc
      rw [List.mem_singleton.1 hc]
      decide) (by simp [ParamValue.text])
    rw [← List.append_assoc, hread, Option.some.injEq] at hempty hletter
    have hnil : readZoneValue (post ++ '"' :: (rest' ++ (';' :: (zone.name ++ '=' :: ParamValue.print (.token ['A'])) ++
        after.flatMap Param.print))) = [] := by
      refine readZoneValue_spoiled hpost hrest' ?_ ?_ hempty
      · rfl
      · rfl
    rw [hletter] at hnil
    cases hnil

end Keeper
