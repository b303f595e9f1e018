import Keeper.Ics.Event
import Keeper.Reads.EventReadModel
import Std.Data.String.ToInt

/-!
# Event ids

The ids under which `queries/event-read-model.ts` publishes events: the UUID of a row, or the UUID of
a master's row beside the start of an occurrence.

* `parseEventReference_occurrence`: the id of an occurrence is read back.
* `createOccurrenceEventId_inj`: two occurrences have one id only where row and start are the same.
-/

namespace Keeper

/-! ## Reading ids -/

structure EventReference where
  occurrenceStart : Option ℤ
  resourceId : String
  deriving DecidableEq

/-- A digit of base sixteen, of either case. -/
def isHexDigit (c : Char) : Bool :=
  c.isDigit || ('a' ≤ c && c ≤ 'f') || ('A' ≤ c && c ≤ 'F')

/-- `UUID_PATTERN`: five groups of hexadecimal digits. -/
def isUuid (text : String) : Bool :=
  let groups := text.toList.splitOn '-'
  groups.map (·.length) = [8, 4, 4, 4, 12] && groups.all (·.all isHexDigit)

/-- The pattern `-?\d+` of a whole text. -/
def isDecimalInteger (text : String) : Bool :=
  let digits := if text.toList.head? = some '-' then text.toList.tail else text.toList
  !digits.isEmpty && digits.all (·.isDigit)

/-- `Number.isSafeInteger`, of an integer. -/
def isSafeInteger (n : ℤ) : Bool := -9007199254740991 ≤ n && n ≤ 9007199254740991

/-- `parseEventReference`. A decimal integer that is not safe does not become a safe one when it is
rounded. -/
def parseEventReference (eventId : String) : Option EventReference :=
  if isUuid eventId then some ⟨none, eventId⟩
  else
    match (eventId.toList.splitOn ':').map String.ofList with
    | [kind, resourceId, rawOccurrenceStart] =>
      if kind = "occurrence" ∧ isUuid resourceId = true ∧ isDecimalInteger rawOccurrenceStart = true
      then do
        let occurrenceTimestamp ← rawOccurrenceStart.toInt?
        if isSafeInteger occurrenceTimestamp then
          let occurrenceStart ← timeClip occurrenceTimestamp
          pure ⟨some occurrenceStart, resourceId⟩
        else none
      else none
    | _ => none

/-! ## Ids of occurrences -/

/-- An element of a list that is split is a separator or in one of the parts. -/
theorem mem_splitOn {α : Type*} [BEq α] [LawfulBEq α] {a c : α} {l : List α} (h : c ∈ l) :
    c = a ∨ ∃ part ∈ l.splitOn a, c ∈ part := by
  induction l with
  | nil => cases h
  | cons x l ih =>
    rw [List.splitOn_cons_eq_if_modifyHead]
    obtain ⟨first, rest, hparts⟩ := List.exists_cons_of_ne_nil (List.splitOn_ne_nil a l)
    rw [hparts] at ih ⊢
    split_ifs with hx
    · rcases List.mem_cons.1 h with rfl | h
      · exact Or.inl (eq_of_beq hx)
      · refine (ih h).imp_right ?_
        rintro ⟨part, hpart, hc⟩
        exact ⟨part, List.mem_cons_of_mem _ hpart, hc⟩
    · rw [List.modifyHead_cons]
      rcases List.mem_cons.1 h with rfl | h
      · exact Or.inr ⟨_, List.mem_cons_self, List.mem_cons_self⟩
      · refine (ih h).imp_right ?_
        rintro ⟨part, hpart, hc⟩
        rcases List.mem_cons.1 hpart with rfl | hpart
        · exact ⟨_, List.mem_cons_self, List.mem_cons_of_mem _ hc⟩
        · exact ⟨part, List.mem_cons_of_mem _ hpart, hc⟩

section Ids

variable {id id' : String} {start start' : ℤ}

theorem isHexDigit_of_mem_uuid (h : isUuid id = true) {c : Char} (hc : c ∈ id.toList) :
    c = '-' ∨ isHexDigit c = true := by
  rw [isUuid, Bool.and_eq_true, List.all_eq_true] at h
  refine (mem_splitOn hc).imp_right ?_
  rintro ⟨group, hgroup, hmem⟩
  exact List.all_eq_true.1 (h.2 group hgroup) c hmem

theorem colon_notMem_uuid (h : isUuid id = true) : ':' ∉ id.toList := fun hmem => by
  rcases isHexDigit_of_mem_uuid h hmem with hno | hno <;> exact absurd hno (by decide)

theorem toList_toString_int (n : ℤ) :
    (toString n).toList = Nat.toDigits 10 n.natAbs ∨
      (toString n).toList = '-' :: Nat.toDigits 10 n.natAbs := by
  have hrepr : toString n = Int.repr n := rfl
  rw [hrepr, Int.repr_eq_if]
  split_ifs with hsign
  · left
    rw [Nat.toList_repr]
    have habs : n.toNat = n.natAbs := by omega
    rw [habs]
  · right
    rw [String.toList_append, Nat.toList_repr]
    have habs : (-n).toNat = n.natAbs := by omega
    rw [habs]
    rfl

theorem isDigit_of_mem_toDigits {n : ℕ} {c : Char} (h : c ∈ Nat.toDigits 10 n) :
    c.isDigit = true := Nat.isDigit_of_mem_toDigits (by decide) (by decide) h

theorem colon_notMem_toString (n : ℤ) : ':' ∉ (toString n).toList := by
  have hdigits : ':' ∉ Nat.toDigits 10 n.natAbs := fun hmem =>
    absurd (isDigit_of_mem_toDigits hmem) (by decide)
  rcases toList_toString_int n with h | h <;> rw [h]
  · exact hdigits
  · exact List.not_mem_cons_of_ne_of_not_mem (by decide) hdigits

theorem isDecimalInteger_toString (n : ℤ) : isDecimalInteger (toString n) = true := by
  have hne : (Nat.toDigits 10 n.natAbs) ≠ [] := Nat.toDigits_ne_nil
  have hall : (Nat.toDigits 10 n.natAbs).all (·.isDigit) = true :=
    List.all_eq_true.2 fun c hc => isDigit_of_mem_toDigits hc
  have hhead : (Nat.toDigits 10 n.natAbs).head? ≠ some '-' := by
    intro hhead
    exact absurd (isDigit_of_mem_toDigits (List.mem_of_head? hhead)) (by decide)
  rw [isDecimalInteger]
  rcases toList_toString_int n with h | h <;> rw [h]
  · simp [if_neg hhead, hne, hall]
  · simp [hne, hall]

theorem splitOn_createOccurrenceEventId (h : isUuid id = true) :
    (createOccurrenceEventId id start).toList.splitOn ':' =
      ["occurrence".toList, id.toList, (toString start).toList] := by
  have hjoin : (createOccurrenceEventId id start).toList =
      [':'].intercalate ["occurrence".toList, id.toList, (toString start).toList] := by
    simp [createOccurrenceEventId, List.intercalate]
  rw [hjoin, List.splitOn_intercalate ':' _ (by simp)]
  intro part hpart
  simp only [List.mem_cons, List.not_mem_nil, or_false] at hpart
  rcases hpart with rfl | rfl | rfl
  · decide
  · exact colon_notMem_uuid h
  · exact colon_notMem_toString start

/-- **Two occurrences have one id** only where row and start are the same. -/
theorem createOccurrenceEventId_inj (h : isUuid id = true) (h' : isUuid id' = true)
    (heq : createOccurrenceEventId id start = createOccurrenceEventId id' start') :
    id = id' ∧ start = start' := by
  have hparts := @splitOn_createOccurrenceEventId _ start h
  rw [heq, splitOn_createOccurrenceEventId h'] at hparts
  simp only [List.cons.injEq, and_true, true_and] at hparts
  exact ⟨(String.toList_injective hparts.1).symm,
    (Int.repr_injective (String.toList_injective hparts.2)).symm⟩

theorem isUuid_createOccurrenceEventId (id : String) (start : ℤ) :
    isUuid (createOccurrenceEventId id start) = false := by
  refine Bool.eq_false_iff.2 fun hyes => colon_notMem_uuid hyes ?_
  simp [createOccurrenceEventId]

theorem parseEventReference_uuid (h : isUuid id = true) :
    parseEventReference id = some ⟨none, id⟩ := if_pos h

/-- **The id of an occurrence** that starts at a valid date is read back. -/
theorem parseEventReference_occurrence (h : isUuid id = true) (hstart : (timeClip start).isSome) :
    parseEventReference (createOccurrenceEventId id start) = some ⟨some start, id⟩ := by
  have hclip : timeClip start = some start := by
    unfold timeClip at hstart ⊢
    split_ifs at hstart ⊢
    · rfl
    · cases hstart
  have hsafe : isSafeInteger start = true := by
    unfold timeClip at hstart
    split_ifs at hstart with hvalid
    · simp only [isSafeInteger, Bool.and_eq_true, decide_eq_true_eq]
      omega
    · cases hstart
  have hparts : ((createOccurrenceEventId id start).toList.splitOn ':').map String.ofList =
      ["occurrence", id, toString start] := by
    rw [splitOn_createOccurrenceEventId h]
    simp
  have hnumber : (toString start).toInt? = some start := Int.toInt?_repr start
  rw [parseEventReference, if_neg (by simp [isUuid_createOccurrenceEventId]), hparts]
  dsimp only
  rw [if_pos ⟨rfl, h, isDecimalInteger_toString start⟩, hnumber]
  simp [hsafe, hclip]

end Ids

end Keeper
