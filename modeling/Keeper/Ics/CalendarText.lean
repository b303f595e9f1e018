import Keeper.Foundations.Fallible
import Keeper.Ics.ContentLines
import Mathlib.Data.List.Forall2

/-!
# Calendar texts

A well-nested calendar, printed in content lines that are folded in any way, and what is read of its text:
`visitIcsProperties` and `applyIcsPatches` of `ics/utils/apply-patches.ts`, and the lines of
`normalizeFloatingEventDates` (`ics/utils/fetch-adapter.ts`).

* `groupContinuations_flatten`, `splitLines_removeFolds`: both ways of unfolding give the lines that were printed.
* `visitIcsProperties_ok`: each property is visited once, with the path of its own component.
* `readsCalendar_iff`: the calendar is read if and only if no parameter has a colon, no value a Unicode separator,
  and no quoted value spells a zone before the zone's.
* `not_readsCalendar`: a zone whose name has a colon.
-/

namespace Keeper

/-! ## Patches -/

/-- A raw line after the groups of those before, these from the last. -/
def appendRaw (groups : List (List (List Char))) (line : List Char) : List (List (List Char)) :=
  match groups with
  | [] => [[line]]
  | last :: earlier => if isContinuation line then (last ++ [line]) :: earlier else [line] :: last :: earlier

def groupContinuations (rawLines : List (List Char)) : List (List (List Char)) :=
  (rawLines.foldl appendRaw []).reverse

def unfoldGroup : List (List Char) → List Char
  | [] => []
  | first :: rest => first ++ rest.flatMap List.tail

structure IcsPatchCoercion where
  params : String
  value : String
  deriving DecidableEq

structure IcsPatch where
  properties : List String
  coerce : String → String → Option IcsPatchCoercion

def coercePropertyLine (parsed : ParsedPropertyLine) (patches : List IcsPatch) : IcsPatchCoercion :=
  patches.foldl (fun current patch =>
    if patch.properties.contains parsed.property then (patch.coerce current.params current.value).getD current
    else current) ⟨parsed.params, parsed.value⟩

/-- What a line that was parsed is printed as: its raw lines, or what it was coerced to. -/
def patchParsed (patches : List IcsPatch) (parsed : ParsedPropertyLine) (group : List (List Char)) :
    List (List Char) :=
  let coerced := coercePropertyLine parsed patches
  if coerced = ⟨parsed.params, parsed.value⟩ then group
  else [(parsed.property ++ coerced.params ++ ":" ++ coerced.value).toList]

/-- One group of `applyIcsPatches`. -/
def patchGroup (patches : List IcsPatch) (group : List (List Char)) : List (List Char) :=
  match parsePropertyLine (unfoldGroup group) with
  | none => group
  | some parsed => patchParsed patches parsed group

/-- `join("\r\n")`. -/
def joinLines (lines : List (List Char)) : String := "\r\n".intercalate (lines.map String.ofList)

def applyIcsPatches (ics : String) (patches : List IcsPatch) : String :=
  joinLines ((groupContinuations (splitLines (stripIcsByteOrderMark ics.toList))).flatMap (patchGroup patches))

/-- `replaceAll(/\r?\n[\t ]/g, "")`, of `normalizeFloatingEventDates`. -/
def removeFolds : List Char → List Char
  | [] => []
  | '\r' :: '\n' :: c :: text =>
    if c = ' ' ∨ c = '\t' then removeFolds text else '\r' :: removeFolds ('\n' :: c :: text)
  | '\n' :: c :: text => if c = ' ' ∨ c = '\t' then removeFolds text else '\n' :: removeFolds (c :: text)
  | c :: text => c :: removeFolds text

/-! ## Calendars -/

/-- The characters of a text are looked at one by one, not all characters for those of the text. -/
instance (priority := high) decidableForallMem (p : Char → Prop) [DecidablePred p] (text : List Char) :
    Decidable (∀ c ∈ text, p c) :=
  List.decidableBAll p text

def boundaryLine (boundary : List Char) (hhead : boundary.head?.any Char.isAlpha = true)
    (hchars : ∀ c ∈ boundary, isNameChar c = true) (name : List Char)
    (noBreak : ∀ c ∈ name, isLineBreak c = false) : ContentLine where
  name := boundary
  params := []
  value := name
  nameHead := hhead
  nameChars := hchars
  noBreak := noBreak

def beginLine (name : List Char) (noBreak : ∀ c ∈ name, isLineBreak c = false) : ContentLine :=
  boundaryLine "BEGIN".toList (by decide) (by decide) name noBreak

def endLine (name : List Char) (noBreak : ∀ c ∈ name, isLineBreak c = false) : ContentLine :=
  boundaryLine "END".toList (by decide) (by decide) name noBreak

/-- What `parsePropertyLine` is to give of a line. -/
def ContentLine.parsed (line : ContentLine) : ParsedPropertyLine where
  property := String.ofList (line.name.map Char.toUpper)
  params := String.ofList line.paramsText
  value := String.ofList line.value

/-- A well-nested calendar: properties and components, one after the other. -/
inductive NestedCalendar where
  | nil
  | property (line : ContentLine) (isProperty : line.parsed.property ≠ "BEGIN" ∧ line.parsed.property ≠ "END")
    (rest : NestedCalendar)
  | component (name : List Char) (noBreak : ∀ c ∈ name, isLineBreak c = false) (items rest : NestedCalendar)

namespace NestedCalendar

def lines : NestedCalendar → List ContentLine
  | nil => []
  | property line _ rest => line :: rest.lines
  | component name noBreak items rest => beginLine name noBreak :: (items.lines ++ endLine name noBreak :: rest.lines)

def components : NestedCalendar → ℕ
  | nil => 0
  | property _ _ rest => rest.components
  | component _ _ items rest => 1 + items.components + rest.components

/-- The properties in their components, where `count` components were opened before. -/
def visits (path : List String) (instances : List ℕ) (count : ℕ) : NestedCalendar → List IcsPropertyContext
  | nil => []
  | property line _ rest =>
    { line.parsed with componentPath := path, componentInstancePath := instances } ::
      rest.visits path instances count
  | component name _ items rest =>
    items.visits (path ++ [upperName (String.ofList name)]) (instances ++ [count + 1]) (count + 1) ++
      rest.visits path instances (count + 1 + items.components)

end NestedCalendar

def IsFolding (raws : List (List Char)) (line : List Char) : Prop :=
  ∃ first rest, raws = first :: rest ∧ (∀ raw ∈ rest, isContinuation raw = true) ∧
    line = first ++ rest.flatMap List.tail

/-- Raw lines with a line break after each. -/
inductive WithBreaks : List (List Char) → List Char → Prop
  | nil : WithBreaks [] []
  | lf {raw raws text} (h : WithBreaks raws text) : WithBreaks (raw :: raws) (raw ++ '\n' :: text)
  | crlf {raw raws text} (h : WithBreaks raws text) : WithBreaks (raw :: raws) (raw ++ '\r' :: '\n' :: text)

/-- The text of a calendar whose lines are folded into these groups of raw lines. -/
def IsText (calendar : NestedCalendar) (groups : List (List (List Char))) (text : List Char) : Prop :=
  List.Forall₂ IsFolding groups (calendar.lines.map ContentLine.print) ∧ WithBreaks groups.flatten text

/-! ## Folded lines -/

theorem isLineBreak_of_nameChar {c : Char} (h : isNameChar c = true) : isLineBreak c = false := by
  rw [← Bool.not_eq_true]
  intro hbreak
  simp only [isLineBreak, Bool.or_eq_true, decide_eq_true_eq] at hbreak
  rcases hbreak with rfl | rfl <;> exact absurd h (by decide)

theorem noBreak_value {v : ParamValue} (hv : v.WellFormed) : ∀ c ∈ v.print, isLineBreak c = false := by
  cases v with
  | token text => exact fun c hc => (hv c hc).2
  | quoted text =>
    intro c hc
    simp only [ParamValue.print, List.mem_cons, List.mem_append, List.not_mem_nil, or_false] at hc
    rcases hc with rfl | hc | rfl
    · decide
    · exact (hv c hc).2
    · decide

theorem ContentLine.noBreak_print (line : ContentLine) : ∀ c ∈ line.print, isLineBreak c = false := by
  intro c hc
  simp only [ContentLine.print, ContentLine.paramsText, List.mem_append, List.mem_cons, List.mem_flatMap] at hc
  rcases hc with hc | ⟨param, -, hc⟩ | rfl | hc
  · exact isLineBreak_of_nameChar (line.nameChars c hc)
  · simp only [Param.print, Param.printValues, List.mem_append, List.mem_cons, List.mem_flatMap] at hc
    rcases hc with rfl | hc | rfl | hc | ⟨v, hv, rfl | hc⟩
    · decide
    · exact isLineBreak_of_nameChar (param.nameChars c hc)
    · decide
    · exact noBreak_value (param.wellFormed _ List.mem_cons_self) c hc
    · decide
    · exact noBreak_value (param.wellFormed v (List.mem_cons_of_mem _ hv)) c hc
  · decide
  · exact line.noBreak c hc

theorem isContinuation_iff {raw : List Char} :
    isContinuation raw = true ↔ ∃ c text, raw = c :: text ∧ (c = ' ' ∨ c = '\t') := by
  cases raw with
  | nil => simp [isContinuation]
  | cons c text => simp [isContinuation]

section Folding
variable {raws : List (List Char)} {line : ContentLine} (h : IsFolding raws line.print)
include h

theorem IsFolding.exists_first : ∃ first rest, raws = first :: rest ∧ isContinuation first = false ∧
    (∀ raw ∈ rest, isContinuation raw = true) ∧ unfoldGroup raws = line.print := by
  obtain ⟨first, rest, rfl, hrest, hline⟩ := h
  refine ⟨first, rest, rfl, ?_, hrest, hline.symm⟩
  rw [← Bool.not_eq_true, isContinuation_iff]
  rintro ⟨c, text, rfl, hc⟩
  have hhead := line.nameHead
  cases hname : line.name with
  | nil =>
    rw [hname] at hhead
    cases hhead
  | cons d name =>
    rw [ContentLine.print, hname] at hline
    obtain rfl : d = c := (List.cons.inj hline).1
    rw [hname, List.head?_cons, Option.any_some] at hhead
    rcases hc with rfl | rfl <;> exact absurd hhead (by decide)

theorem IsFolding.noBreak : ∀ raw ∈ raws, ∀ c ∈ raw, isLineBreak c = false := by
  obtain ⟨first, rest, rfl, hrest, hline⟩ := h
  have hprint := line.noBreak_print
  rw [hline] at hprint
  intro raw hraw c hc
  rcases List.mem_cons.1 hraw with rfl | hraw
  · exact hprint c (List.mem_append_left _ hc)
  · obtain ⟨d, text, rfl, hd⟩ := isContinuation_iff.1 (hrest raw hraw)
    rcases List.mem_cons.1 hc with rfl | hc
    · rcases hd with rfl | rfl <;> decide
    · exact hprint c (List.mem_append_right _ (List.mem_flatMap.2 ⟨_, hraw, hc⟩))

end Folding

theorem foldl_appendRaw_rest {rest : List (List Char)} (h : ∀ raw ∈ rest, isContinuation raw = true)
    (group : List (List Char)) (groups : List (List (List Char))) :
    rest.foldl appendRaw (group :: groups) = (group ++ rest) :: groups := by
  induction rest generalizing group with
  | nil => rw [List.foldl_nil, List.append_nil]
  | cons raw rest ih =>
    have hstep : appendRaw (group :: groups) raw = (group ++ [raw]) :: groups := if_pos (h raw List.mem_cons_self)
    rw [List.foldl_cons, hstep, ih fun r hr => h r (List.mem_cons_of_mem _ hr), List.append_assoc]
    rfl

theorem appendRaw_first {first : List Char} (h : isContinuation first = false) (groups : List (List (List Char))) :
    appendRaw groups first = [first] :: groups := by
  cases groups with
  | nil => rfl
  | cons group groups => exact if_neg (by rw [h]; decide)

variable {lines : List ContentLine} {groups : List (List (List Char))}

theorem foldl_appendRaw_groups (h : List.Forall₂ IsFolding groups (lines.map ContentLine.print))
    (earlier : List (List (List Char))) :
    groups.flatten.foldl appendRaw earlier = groups.reverse ++ earlier := by
  induction lines generalizing groups earlier with
  | nil =>
    obtain rfl := List.forall₂_nil_right_iff.1 h
    rfl
  | cons line lines ih =>
    obtain ⟨raws, groups, hraws, hgroups, rfl⟩ := List.forall₂_cons_right_iff.1 h
    obtain ⟨first, rest, rfl, hfirst, hrest, -⟩ := hraws.exists_first
    rw [List.flatten_cons, List.foldl_append, List.foldl_cons, appendRaw_first hfirst, foldl_appendRaw_rest hrest,
      ih hgroups]
    simp

/-- **The groups of raw lines** are found again, with the empty line that follows the last. -/
theorem groupContinuations_flatten (h : List.Forall₂ IsFolding groups (lines.map ContentLine.print)) :
    groupContinuations (groups.flatten ++ [[]]) = groups ++ [[[]]] := by
  rw [groupContinuations, List.foldl_append, foldl_appendRaw_groups h, List.foldl_cons, appendRaw_first rfl]
  simp

theorem foldl_appendLine {rawLines : List (List Char)} {earlier : List (List (List Char))}
    (h : ∀ group ∈ earlier, group ≠ []) :
    rawLines.foldl appendLine (earlier.map unfoldGroup) = (rawLines.foldl appendRaw earlier).map unfoldGroup := by
  induction rawLines generalizing earlier with
  | nil => rfl
  | cons raw rawLines ih =>
    have hstep : appendLine (earlier.map unfoldGroup) raw = (appendRaw earlier raw).map unfoldGroup ∧
        ∀ group ∈ appendRaw earlier raw, group ≠ [] := by
      cases earlier with
      | nil => exact ⟨by simp [appendLine, appendRaw, unfoldGroup], by simp [appendRaw]⟩
      | cons last earlier =>
        have hlast := h last List.mem_cons_self
        have hrest : ∀ group ∈ earlier, group ≠ [] := fun group hgroup => h group (List.mem_cons_of_mem _ hgroup)
        obtain ⟨first, rest, rfl⟩ := List.exists_cons_of_ne_nil hlast
        unfold appendLine appendRaw
        rw [List.map_cons]
        dsimp only
        split_ifs
        · refine ⟨by simp [unfoldGroup], fun group hgroup => ?_⟩
          rcases List.mem_cons.1 hgroup with rfl | hgroup
          · simp
          · exact hrest group hgroup
        · refine ⟨by simp [unfoldGroup], fun group hgroup => ?_⟩
          rcases List.mem_cons.1 hgroup with rfl | hgroup
          · simp
          · exact h group hgroup
    rw [List.foldl_cons, List.foldl_cons, hstep.1, ih hstep.2]

theorem unfoldLines_eq (rawLines : List (List Char)) :
    unfoldLines rawLines = (groupContinuations rawLines).map unfoldGroup := by
  rw [unfoldLines, groupContinuations, List.map_reverse]
  exact congrArg List.reverse (foldl_appendLine fun group hgroup => absurd hgroup List.not_mem_nil)

/-! ## Line breaks -/

variable {text : List Char}

theorem splitLines_append {raw : List Char} (h : ∀ c ∈ raw, isLineBreak c = false) {line : List Char}
    {lines : List (List Char)} (htext : splitLines text = line :: lines) :
    splitLines (raw ++ text) = (raw ++ line) :: lines := by
  induction raw with
  | nil => exact htext
  | cons c raw ih =>
    have hc := h c List.mem_cons_self
    simp only [isLineBreak, Bool.or_eq_false_iff, decide_eq_false_iff_not] at hc
    rw [List.cons_append, splitLines.eq_4 _ _ (fun _ heq _ => hc.2 heq) hc.1,
      ih fun c' hc' => h c' (List.mem_cons_of_mem c hc')]
    rfl

/-- **Lines with breaks after them** are split at these. -/
theorem splitLines_withBreaks {raws : List (List Char)} (h : WithBreaks raws text)
    (hraws : ∀ raw ∈ raws, ∀ c ∈ raw, isLineBreak c = false) : splitLines text = raws ++ [[]] := by
  induction h with
  | nil => rfl
  | @lf raw raws text _ ih =>
    have hrest := ih fun r hr => hraws r (List.mem_cons_of_mem _ hr)
    have hbreak : splitLines ('\n' :: text) = [] :: (raws ++ [[]]) := by rw [splitLines.eq_3, hrest]
    rw [splitLines_append (hraws raw List.mem_cons_self) hbreak, List.append_nil]
    rfl
  | @crlf raw raws text _ ih =>
    have hrest := ih fun r hr => hraws r (List.mem_cons_of_mem _ hr)
    have hbreak : splitLines ('\r' :: '\n' :: text) = [] :: (raws ++ [[]]) := by rw [splitLines.eq_2, hrest]
    rw [splitLines_append (hraws raw List.mem_cons_self) hbreak, List.append_nil]
    rfl

theorem withBreaks_append {raws raws' : List (List Char)} (h : WithBreaks (raws ++ raws') text) :
    ∃ first rest, text = first ++ rest ∧ WithBreaks raws first ∧ WithBreaks raws' rest := by
  induction raws generalizing text with
  | nil => exact ⟨[], text, rfl, .nil, h⟩
  | cons raw raws ih =>
    cases h with
    | lf h =>
      obtain ⟨first, rest, rfl, hfirst, hrest⟩ := ih h
      exact ⟨raw ++ '\n' :: first, rest, by simp, hfirst.lf, hrest⟩
    | crlf h =>
      obtain ⟨first, rest, rfl, hfirst, hrest⟩ := ih h
      exact ⟨raw ++ '\r' :: '\n' :: first, rest, by simp, hfirst.crlf, hrest⟩

theorem removeFolds_append {raw : List Char} (h : ∀ c ∈ raw, isLineBreak c = false) (text : List Char) :
    removeFolds (raw ++ text) = raw ++ removeFolds text := by
  induction raw with
  | nil => rfl
  | cons c raw ih =>
    have hc := h c List.mem_cons_self
    simp only [isLineBreak, Bool.or_eq_false_iff, decide_eq_false_iff_not] at hc
    rw [List.cons_append, removeFolds.eq_4 _ _ (fun _ _ heq _ => hc.2 heq) (fun _ _ heq _ => hc.1 heq),
      ih fun c' hc' => h c' (List.mem_cons_of_mem c hc')]
    rfl

def StartsLine (text : List Char) : Prop := ∀ c ∈ text.head?, c ≠ ' ' ∧ c ≠ '\t'

theorem removeFolds_lf (h : StartsLine text) : removeFolds ('\n' :: text) = '\n' :: removeFolds text := by
  cases text with
  | nil => rfl
  | cons c text =>
    have hc := h c rfl
    rw [removeFolds.eq_3, if_neg (by tauto)]

theorem removeFolds_crlf (h : StartsLine text) :
    removeFolds ('\r' :: '\n' :: text) = '\r' :: '\n' :: removeFolds text := by
  cases text with
  | nil => rfl
  | cons c text =>
    have hc := h c rfl
    rw [removeFolds.eq_2, if_neg (by tauto), removeFolds_lf h]

/-- **The folds of a line are removed**, and one line break is left after it. -/
theorem removeFolds_group {first : List Char} {rest : List (List Char)} {text' : List Char}
    (hbreaks : WithBreaks (first :: rest) text) (hrest : ∀ raw ∈ rest, isContinuation raw = true)
    (hraws : ∀ raw ∈ first :: rest, ∀ c ∈ raw, isLineBreak c = false) (htext' : StartsLine text') :
    removeFolds (text ++ text') = unfoldGroup (first :: rest) ++ '\n' :: removeFolds text' ∨
      removeFolds (text ++ text') = unfoldGroup (first :: rest) ++ '\r' :: '\n' :: removeFolds text' := by
  have hfirst := hraws first List.mem_cons_self
  induction rest generalizing first text with
  | nil =>
    cases hbreaks with
    | lf hbreaks =>
      cases hbreaks
      refine Or.inl ?_
      rw [List.append_assoc, List.cons_append, List.nil_append, removeFolds_append hfirst, removeFolds_lf htext']
      simp [unfoldGroup]
    | crlf hbreaks =>
      cases hbreaks
      refine Or.inr ?_
      rw [List.append_assoc, List.cons_append, List.cons_append, List.nil_append, removeFolds_append hfirst,
        removeFolds_crlf htext']
      simp [unfoldGroup]
  | cons raw rest ih =>
    obtain ⟨c, raw, rfl, hc⟩ := isContinuation_iff.1 (hrest _ List.mem_cons_self)
    have hraw : ∀ r ∈ raw :: rest, ∀ c ∈ r, isLineBreak c = false := by
      intro r hr d hd
      rcases List.mem_cons.1 hr with rfl | hr
      · exact hraws (c :: r) (by simp) d (List.mem_cons_of_mem _ hd)
      · exact hraws r (by simp [hr]) d hd
    have hunfold : unfoldGroup (first :: (c :: raw) :: rest) = first ++ unfoldGroup (raw :: rest) := by
      simp [unfoldGroup]
    -- the text goes on after the character that folds the line
    have hgoes : ∀ {textRest : List Char}, WithBreaks ((c :: raw) :: rest) textRest →
        ∃ textRest', textRest = c :: textRest' ∧ WithBreaks (raw :: rest) textRest' := by
      intro textRest h
      cases h with
      | lf h => exact ⟨_, rfl, h.lf⟩
      | crlf h => exact ⟨_, rfl, h.crlf⟩
    have hfold : ∀ textRest, removeFolds ('\n' :: c :: textRest) = removeFolds textRest ∧
        removeFolds ('\r' :: '\n' :: c :: textRest) = removeFolds textRest := by
      intro textRest
      rw [removeFolds.eq_2, removeFolds.eq_3, if_pos hc, if_pos hc]
      exact ⟨rfl, rfl⟩
    have hnext : ∀ {textRest : List Char}, WithBreaks (raw :: rest) textRest →
        removeFolds (textRest ++ text') = unfoldGroup (raw :: rest) ++ '\n' :: removeFolds text' ∨
          removeFolds (textRest ++ text') = unfoldGroup (raw :: rest) ++ '\r' :: '\n' :: removeFolds text' :=
      fun h => ih h (fun r hr => hrest r (List.mem_cons_of_mem _ hr)) hraw (hraw raw List.mem_cons_self)
    rw [hunfold]
    cases hbreaks with
    | lf hbreaks =>
      obtain ⟨textRest, rfl, hrestBreaks⟩ := hgoes hbreaks
      rw [List.append_assoc, List.cons_append, List.cons_append, removeFolds_append hfirst, (hfold _).1,
        List.append_assoc, List.append_assoc]
      exact (hnext hrestBreaks).imp (congrArg _) (congrArg _)
    | crlf hbreaks =>
      obtain ⟨textRest, rfl, hrestBreaks⟩ := hgoes hbreaks
      rw [List.append_assoc, List.cons_append, List.cons_append, List.cons_append, removeFolds_append hfirst,
        (hfold _).2, List.append_assoc, List.append_assoc]
      exact (hnext hrestBreaks).imp (congrArg _) (congrArg _)

theorem head?_text (h : List.Forall₂ IsFolding groups (lines.map ContentLine.print))
    (hbreaks : WithBreaks groups.flatten text) : ∀ c ∈ text.head?, c.isAlpha = true ∨ isLineBreak c = true := by
  cases lines with
  | nil =>
    obtain rfl := List.forall₂_nil_right_iff.1 h
    cases hbreaks
    exact fun c hc => by cases hc
  | cons line lines =>
    obtain ⟨raws, groups, hraws, hgroups, rfl⟩ := List.forall₂_cons_right_iff.1 h
    obtain ⟨first, rest, rfl, -, hline⟩ := hraws
    intro c hc
    have hhead : ∀ d text', first ++ d :: text' = text → isLineBreak d = true →
        c.isAlpha = true ∨ isLineBreak c = true := by
      rintro d text' rfl hd
      cases first with
      | nil =>
        obtain rfl : d = c := Option.some.inj hc
        exact Or.inr hd
      | cons d' first =>
        obtain rfl : d' = c := Option.some.inj hc
        have hname := line.nameHead
        cases hcons : line.name with
        | nil =>
          rw [hcons] at hname
          cases hname
        | cons e name =>
          rw [ContentLine.print, hcons] at hline
          obtain rfl : e = d' := (List.cons.inj hline).1
          rw [hcons, List.head?_cons, Option.any_some] at hname
          exact Or.inl hname
    cases hbreaks with
    | lf hbreaks => exact hhead '\n' _ rfl (by decide)
    | crlf hbreaks => exact hhead '\r' _ rfl (by decide)

theorem startsLine_groups (h : List.Forall₂ IsFolding groups (lines.map ContentLine.print))
    (hbreaks : WithBreaks groups.flatten text) : StartsLine text := by
  intro c hc
  constructor <;>
  · rintro rfl
    exact absurd (head?_text h hbreaks _ hc) (by decide)

theorem stripIcsByteOrderMark_text (h : List.Forall₂ IsFolding groups (lines.map ContentLine.print))
    (hbreaks : WithBreaks groups.flatten text) : stripIcsByteOrderMark text = text := by
  refine stripIcsByteOrderMark.eq_2 text fun ics heq => ?_
  have hhead := head?_text h hbreaks '\uFEFF' (by rw [heq]; rfl)
  exact absurd hhead (by decide)

theorem withBreaks_removeFolds (h : List.Forall₂ IsFolding groups (lines.map ContentLine.print))
    (hbreaks : WithBreaks groups.flatten text) : WithBreaks (lines.map ContentLine.print) (removeFolds text) := by
  induction lines generalizing groups text with
  | nil =>
    obtain rfl := List.forall₂_nil_right_iff.1 h
    cases hbreaks
    exact .nil
  | cons line lines ih =>
    obtain ⟨raws, groups, hraws, hgroups, rfl⟩ := List.forall₂_cons_right_iff.1 h
    rw [List.flatten_cons] at hbreaks
    obtain ⟨textFirst, textRest, rfl, hfirst, hrest⟩ := withBreaks_append hbreaks
    have hnoBreak := hraws.noBreak
    obtain ⟨first, rest, rfl, -, hcont, hunfold⟩ := hraws.exists_first
    rw [List.map_cons]
    rcases removeFolds_group hfirst hcont hnoBreak (startsLine_groups hgroups hrest) with heq | heq
    · rw [heq, hunfold]
      exact (ih hgroups hrest).lf
    · rw [heq, hunfold]
      exact (ih hgroups hrest).crlf

/-- **Both ways of unfolding** give the lines that were printed. -/
theorem splitLines_removeFolds (h : List.Forall₂ IsFolding groups (lines.map ContentLine.print))
    (hbreaks : WithBreaks groups.flatten text) :
    splitLines (removeFolds text) = lines.map ContentLine.print ++ [[]] := by
  refine splitLines_withBreaks (withBreaks_removeFolds h hbreaks) fun raw hraw => ?_
  obtain ⟨line, -, rfl⟩ := List.mem_map.1 hraw
  exact line.noBreak_print

theorem noBreak_flatten (h : List.Forall₂ IsFolding groups (lines.map ContentLine.print)) :
    ∀ raw ∈ groups.flatten, ∀ c ∈ raw, isLineBreak c = false := by
  induction lines generalizing groups with
  | nil =>
    obtain rfl := List.forall₂_nil_right_iff.1 h
    exact fun raw hraw => by cases hraw
  | cons line lines ih =>
    obtain ⟨raws, groups, hraws, hgroups, rfl⟩ := List.forall₂_cons_right_iff.1 h
    intro raw hraw
    rcases List.mem_append.1 hraw with hraw | hraw
    · exact hraws.noBreak raw hraw
    · exact ih hgroups raw hraw

theorem map_unfoldGroup (h : List.Forall₂ IsFolding groups (lines.map ContentLine.print)) :
    groups.map unfoldGroup = lines.map ContentLine.print := by
  induction lines generalizing groups with
  | nil =>
    obtain rfl := List.forall₂_nil_right_iff.1 h
    rfl
  | cons line lines ih =>
    obtain ⟨raws, groups, hraws, hgroups, rfl⟩ := List.forall₂_cons_right_iff.1 h
    obtain ⟨-, -, -, -, -, hunfold⟩ := hraws.exists_first
    rw [List.map_cons, List.map_cons, hunfold, ih hgroups]

/-! ## What is read -/

/-- The line is split where its parameters end, by each of those that read it, and its zone is read. -/
structure ContentLine.Recovers (line : ContentLine) : Prop where
  parsed : parsePropertyLine line.print = some line.parsed
  property : ∃ parameters, parseIcsProperty line.print =
    some ⟨parameters, line.name ++ line.paramsText, line.name.map Char.toUpper, line.value⟩
  zone : line.ReadsZone

theorem ContentLine.recovers_iff {line : ContentLine} :
    line.Recovers ↔ line.NoColon ∧ line.NoSeparator ∧ line.ZoneFirst := by
  constructor
  · rintro ⟨hparsed, -, hzone⟩
    obtain ⟨hcolon, hvalue⟩ := parsePropertyLine_print_iff.1 hparsed
    exact ⟨hcolon, hvalue, readsZone_iff.1 hzone⟩
  · rintro ⟨hcolon, hvalue, hzone⟩
    exact ⟨parsePropertyLine_print_iff.2 ⟨hcolon, hvalue⟩, parseIcsProperty_print_iff.2 hcolon, readsZone_iff.2 hzone⟩

section Visits
variable {σ : Type*} (visitor : σ → IcsPropertyContext → Except RangeError σ)

theorem visitLine_property {line : ContentLine} (hparsed : parsePropertyLine line.print = some line.parsed)
    (hproperty : line.parsed.property ≠ "BEGIN" ∧ line.parsed.property ≠ "END") (components : ComponentPath) (s : σ) :
    visitLine visitor (components, s) line.print = do
      let next ← visitor s
        { line.parsed with
          componentPath := components.componentPath
          componentInstancePath := components.componentInstancePath }
      return (components, next) := by
  rw [visitLine, hparsed]
  dsimp only
  rw [if_neg hproperty.1, if_neg hproperty.2]

theorem visitLine_begin {name : List Char} {noBreak : ∀ c ∈ name, isLineBreak c = false}
    (hparsed : parsePropertyLine (beginLine name noBreak).print = some (beginLine name noBreak).parsed)
    (path : List String) (instances : List ℕ) (count : ℕ) (s : σ) :
    visitLine visitor (⟨path, instances, count⟩, s) (beginLine name noBreak).print =
      pure (⟨path ++ [upperName (String.ofList name)], instances ++ [count + 1], count + 1⟩, s) := by
  have hproperty : String.ofList ("BEGIN".toList.map Char.toUpper) = "BEGIN" := by decide
  rw [visitLine, hparsed]
  exact if_pos hproperty

theorem visitLine_end {name : List Char} {noBreak : ∀ c ∈ name, isLineBreak c = false}
    (hparsed : parsePropertyLine (endLine name noBreak).print = some (endLine name noBreak).parsed)
    (path : List String) (instances : List ℕ) (opened count : ℕ) (s : σ) :
    visitLine visitor (⟨path ++ [upperName (String.ofList name)], instances ++ [opened], count⟩, s)
      (endLine name noBreak).print = pure (⟨path, instances, count⟩, s) := by
  have hproperty : (endLine name noBreak).parsed.property = "END" := by
    have hupper : String.ofList ("END".toList.map Char.toUpper) = "END" := by decide
    exact hupper
  have hlast : (path ++ [upperName (String.ofList name)]).getLast? =
      some (upperName (endLine name noBreak).parsed.value) := List.getLast?_concat
  rw [visitLine, hparsed]
  dsimp only
  rw [hproperty, if_neg (by decide), if_pos rfl, if_pos hlast, List.dropLast_concat, List.dropLast_concat]
  rfl

/-- **A calendar's lines** visit its properties, and leave the components as they were. -/
theorem foldlM_visitLine (calendar : NestedCalendar)
    (hlines : ∀ line ∈ calendar.lines, parsePropertyLine line.print = some line.parsed)
    (path : List String) (instances : List ℕ) (count : ℕ) (s : σ) :
    (calendar.lines.map ContentLine.print).foldlM (visitLine visitor) (⟨path, instances, count⟩, s) = do
      let next ← (calendar.visits path instances count).foldlM visitor s
      return (⟨path, instances, count + calendar.components⟩, next) := by
  induction calendar generalizing path instances count s with
  | nil => rfl
  | property line isProperty rest ih =>
    have hrest := ih fun l hl => hlines l (List.mem_cons_of_mem _ hl)
    rw [NestedCalendar.lines, List.map_cons, List.foldlM_cons,
      visitLine_property visitor (hlines line List.mem_cons_self) isProperty, NestedCalendar.visits, List.foldlM_cons,
      bind_assoc, bind_assoc]
    refine bind_congr fun next => ?_
    rw [pure_bind, hrest]
    rfl
  | component name noBreak items rest ihItems ihRest =>
    have hmem : ∀ line, line = beginLine name noBreak ∨ line ∈ items.lines ∨ line = endLine name noBreak ∨
        line ∈ rest.lines → parsePropertyLine line.print = some line.parsed := by
      intro line hline
      refine hlines line ?_
      rw [NestedCalendar.lines]
      simpa using hline
    have hitems := ihItems fun l hl => hmem l (Or.inr (Or.inl hl))
    have hrest := ihRest fun l hl => hmem l (Or.inr (Or.inr (Or.inr hl)))
    rw [NestedCalendar.lines, List.map_cons, List.foldlM_cons, visitLine_begin visitor (hmem _ (Or.inl rfl)),
      pure_bind, List.map_append, List.foldlM_append, hitems, NestedCalendar.visits, List.foldlM_append, bind_assoc,
      bind_assoc]
    refine bind_congr fun next => ?_
    have hend := visitLine_end visitor (hmem _ (Or.inr (Or.inr (Or.inl rfl)))) path instances (count + 1)
      (count + 1 + items.components) next
    have hcount : count + 1 + items.components + rest.components =
        count + (NestedCalendar.component name noBreak items rest).components := by
      rw [NestedCalendar.components]
      omega
    rw [pure_bind, List.map_cons, List.foldlM_cons, hend, pure_bind, hrest, hcount]

end Visits

theorem flatMap_patchGroup (h : List.Forall₂ IsFolding groups (lines.map ContentLine.print))
    (hlines : ∀ line ∈ lines, parsePropertyLine line.print = some line.parsed) (patches : List IcsPatch) :
    groups.flatMap (patchGroup patches) =
      (groups.zip lines).flatMap fun (group, line) => patchParsed patches line.parsed group := by
  induction lines generalizing groups with
  | nil =>
    obtain rfl := List.forall₂_nil_right_iff.1 h
    rfl
  | cons line lines ih =>
    obtain ⟨raws, groups, hraws, hgroups, rfl⟩ := List.forall₂_cons_right_iff.1 h
    obtain ⟨-, -, -, -, -, hunfold⟩ := hraws.exists_first
    have hgroup : patchGroup patches raws = patchParsed patches line.parsed raws := by
      rw [patchGroup, hunfold, hlines line List.mem_cons_self]
    rw [List.flatMap_cons, List.zip_cons_cons, List.flatMap_cons, hgroup,
      ih hgroups fun l hl => hlines l (List.mem_cons_of_mem _ hl)]

section Read
variable {calendar : NestedCalendar} {text : List Char} (h : IsText calendar groups text)
include h

theorem IsText.splitLines_eq : splitLines (stripIcsByteOrderMark text) = groups.flatten ++ [[]] := by
  rw [stripIcsByteOrderMark_text h.1 h.2]
  exact splitLines_withBreaks h.2 (noBreak_flatten h.1)

theorem IsText.unfoldLines_eq :
    unfoldLines (splitLines (stripIcsByteOrderMark text)) = calendar.lines.map ContentLine.print ++ [[]] := by
  rw [h.splitLines_eq, Keeper.unfoldLines_eq, groupContinuations_flatten h.1, List.map_append, map_unfoldGroup h.1]
  rfl

/-- **The properties of a calendar** are visited, each with the path of its component. -/
theorem visitIcsProperties_ok (hlines : ∀ line ∈ calendar.lines, parsePropertyLine line.print = some line.parsed)
    {σ : Type*} (visitor : σ → IcsPropertyContext → Except RangeError σ) (start : σ) :
    visitIcsProperties visitor (String.ofList text) start = (calendar.visits [] [] 0).foldlM visitor start := by
  have hblank : ∀ state : ComponentPath × σ, visitLine visitor state [] = pure state := fun _ => rfl
  rw [visitIcsProperties, String.toList_ofList, h.unfoldLines_eq]
  dsimp only
  rw [List.foldlM_append, foldlM_visitLine visitor calendar hlines, bind_assoc, bind_assoc]
  refine (bind_congr fun next => ?_).trans (bind_pure _)
  rw [pure_bind, List.foldlM_cons, hblank, pure_bind, List.foldlM_nil, pure_bind]
  rfl

/-- **The lines of a calendar** are printed as they were folded, but those that a patch coerces. -/
theorem applyIcsPatches_text (hlines : ∀ line ∈ calendar.lines, parsePropertyLine line.print = some line.parsed)
    (patches : List IcsPatch) :
    applyIcsPatches (String.ofList text) patches =
      joinLines ((groups.zip calendar.lines).flatMap (fun (group, line) => patchParsed patches line.parsed group) ++
        [[]]) := by
  rw [applyIcsPatches, String.toList_ofList, h.splitLines_eq, groupContinuations_flatten h.1, List.flatMap_append,
    flatMap_patchGroup h.1 hlines]
  rfl

end Read

/-- **The calendar is read**: both ways of unfolding give its lines; each line is split where its parameters end,
and its zone is read; each property is visited once, with the path of its component; and patches print again what they
do not coerce. -/
structure ReadsCalendar (calendar : NestedCalendar) (groups : List (List (List Char))) (text : List Char) : Prop where
  unfolded : unfoldLines (splitLines (stripIcsByteOrderMark text)) = calendar.lines.map ContentLine.print ++ [[]]
  refolded : splitLines (removeFolds text) = calendar.lines.map ContentLine.print ++ [[]]
  recovers : ∀ line ∈ calendar.lines, line.Recovers
  visited : ∀ {σ : Type} (visitor : σ → IcsPropertyContext → Except RangeError σ) (start : σ),
    visitIcsProperties visitor (String.ofList text) start = (calendar.visits [] [] 0).foldlM visitor start
  patched : ∀ patches : List IcsPatch, applyIcsPatches (String.ofList text) patches =
    joinLines ((groups.zip calendar.lines).flatMap (fun (group, line) => patchParsed patches line.parsed group) ++
      [[]])

/-- **A calendar is read** if and only if no parameter has a colon, no value a Unicode separator, and no quoted value
spells a zone before the zone's. -/
theorem readsCalendar_iff {calendar : NestedCalendar} {groups : List (List (List Char))} {text : List Char}
    (h : IsText calendar groups text) :
    ReadsCalendar calendar groups text ↔
      ∀ line ∈ calendar.lines, line.NoColon ∧ line.NoSeparator ∧ line.ZoneFirst := by
  constructor
  · exact fun hreads line hline => ContentLine.recovers_iff.1 (hreads.recovers line hline)
  · intro hconditions
    have hrecovers : ∀ line ∈ calendar.lines, line.Recovers :=
      fun line hline => ContentLine.recovers_iff.2 (hconditions line hline)
    have hparsed : ∀ line ∈ calendar.lines, parsePropertyLine line.print = some line.parsed :=
      fun line hline => (hrecovers line hline).parsed
    exact
      { unfolded := h.unfoldLines_eq
        refolded := splitLines_removeFolds h.1 h.2
        recovers := hrecovers
        visited := visitIcsProperties_ok h hparsed
        patched := applyIcsPatches_text h hparsed }

namespace Example

def zonedStart (zone : List Char) (hzone : (ParamValue.quoted zone).WellFormed) : ContentLine where
  name := "DTSTART".toList
  params :=
    [{ name := "TZID".toList
       first := .quoted zone
       more := []
       nameChars := by decide
       wellFormed := by simpa using hzone
       single := fun _ => rfl }]
  value := "20260101T090000".toList
  nameHead := by decide
  nameChars := by decide
  noBreak := by decide

theorem zonedStart_isProperty (zone : List Char) (hzone : (ParamValue.quoted zone).WellFormed) :
    (zonedStart zone hzone).parsed.property ≠ "BEGIN" ∧ (zonedStart zone hzone).parsed.property ≠ "END" := by
  have hproperty : (zonedStart zone hzone).parsed.property = "DTSTART" := by
    have hupper : String.ofList ("DTSTART".toList.map Char.toUpper) = "DTSTART" := by decide
    exact hupper
  rw [hproperty]
  decide

def zonedCalendar (zone : List Char) (hzone : (ParamValue.quoted zone).WellFormed) : NestedCalendar :=
  .component "VEVENT".toList (by decide) (.property (zonedStart zone hzone) (zonedStart_isProperty zone hzone) .nil)
    .nil

/-- Its lines, where the start is folded before the end of its zone. -/
def zonedGroups (zone : List Char) : List (List (List Char)) :=
  [["BEGIN:VEVENT".toList], ["DTSTART;TZID=\"".toList ++ zone, " \":20260101T090000".toList], ["END:VEVENT".toList]]

def zonedText (zone : List Char) : List Char :=
  "BEGIN:VEVENT\r\n".toList ++ (("DTSTART;TZID=\"".toList ++ zone) ++
    "\r\n \":20260101T090000\r\nEND:VEVENT\r\n".toList)

theorem isText_zoned (zone : List Char) (hzone : (ParamValue.quoted zone).WellFormed) :
    IsText (zonedCalendar zone hzone) (zonedGroups zone) (zonedText zone) := by
  have hsingle : ∀ line : List Char, IsFolding [line] line :=
    fun line => ⟨line, [], rfl, by simp, by simp⟩
  refine ⟨.cons (hsingle _) (.cons ⟨_, _, rfl, by decide, ?_⟩ (.cons (hsingle _) .nil)), ?_⟩
  · simp [zonedStart, ContentLine.print, ContentLine.paramsText, Param.print, Param.printValues, ParamValue.print]
  · exact WithBreaks.crlf (WithBreaks.crlf (WithBreaks.crlf (WithBreaks.crlf .nil)))

theorem noParams {line : ContentLine} (h : line.params = []) : line.NoColon ∧ line.ZoneFirst := by
  unfold ContentLine.NoColon ContentLine.ZoneFirst
  rw [h]
  exact ⟨fun param hparam => absurd hparam List.not_mem_nil, fun param hparam => absurd hparam List.not_mem_nil⟩

end Example

/-- The start in New York is read. -/
theorem readsCalendar_iff_example :
    ReadsCalendar (Example.zonedCalendar "America/New_York".toList (by unfold ParamValue.WellFormed; decide))
        (Example.zonedGroups "America/New_York".toList) (Example.zonedText "America/New_York".toList) := by
  refine (readsCalendar_iff (Example.isText_zoned _ _)).2 fun line hline => ?_
  simp only [Example.zonedCalendar, NestedCalendar.lines, List.mem_cons, List.nil_append, List.cons_append,
    List.not_mem_nil, or_false] at hline
  rcases hline with rfl | rfl | rfl
  · refine ⟨(Example.noParams rfl).1, ?_, (Example.noParams rfl).2⟩
    unfold ContentLine.NoSeparator
    decide
  · refine ⟨fun param hparam v hv => ?_, ?_, fun param hparam => absurd hparam List.not_mem_nil⟩
    · obtain rfl := List.mem_singleton.1 hparam
      obtain rfl := List.mem_singleton.1 hv
      decide
    · unfold ContentLine.NoSeparator
      decide
  · refine ⟨(Example.noParams rfl).1, ?_, (Example.noParams rfl).2⟩
    unfold ContentLine.NoSeparator
    decide

/-- **A zone whose name has a colon** is not read. -/
theorem not_readsCalendar :
    ¬∀ (calendar : NestedCalendar) (groups : List (List (List Char))) (text : List Char),
      IsText calendar groups text → ReadsCalendar calendar groups text := by
  intro hall
  have hzone : (ParamValue.quoted "(UTC-05:00) Eastern Time".toList).WellFormed := by
    unfold ParamValue.WellFormed
    decide
  have hreads := hall _ _ _ (Example.isText_zoned _ hzone)
  have hcolon := (ContentLine.recovers_iff.1 (hreads.recovers (Example.zonedStart _ hzone) (by
    simp [Example.zonedCalendar, NestedCalendar.lines]))).1
  have hmem : ':' ∈ "(UTC-05:00) Eastern Time".toList := by decide
  exact hcolon _ List.mem_cons_self _ List.mem_cons_self hmem

end Keeper
