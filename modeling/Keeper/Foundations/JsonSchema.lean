import Keeper.Foundations.JsonText

/-!
# Reading records from JSON values

A schema reads a record from a JSON value field by field: a required field must be there, an
optional one may be missing, and each is read by a reader of its own. Keys that the schema does
not declare are not read.

* `optional_ofFields`, `required_ofFields`: a field written by `Json.ofFields` is read back.
* `wellKeyed_ofFields`: a record whose field names are distinct prints to a text that `Json.parse`
  reads.
-/

namespace Keeper.Json

variable {α β : Type*}

/-! ## Readers -/

def fields? : Json → Option (List (String × Json))
  | obj fields => some fields
  | _ => none

def string? : Json → Option String
  | str s => some s
  | _ => none

def number? : Json → Option ℤ
  | num n => some n
  | _ => none

def boolean? : Json → Option Bool
  | bool b => some b
  | _ => none

def array? (read : Json → Option α) : Json → Option (List α)
  | arr items => items.mapM read
  | _ => none

def required (fields : List (String × Json)) (key : String) (read : Json → Option α) : Option α :=
  (JsMap.findEntry key fields).bind read

def optional (fields : List (String × Json)) (key : String) (read : Json → Option α) :
    Option (Option α) :=
  match JsMap.findEntry key fields with
  | none => some none
  | some value => (read value).map some

/-! ## Reading back -/

@[simp] theorem fields?_ofFields (fields : List (String × Option Json)) :
    (ofFields fields).fields? = some (fields.filterMap fun e => e.2.map (e.1, ·)) := rfl

variable {fields : List (String × Option Json)} {print : α → Json}

theorem findEntry_present (hkeys : (fields.map Prod.fst).Nodup) {key : String} {value : Option Json}
    (h : (key, value) ∈ fields) : JsMap.findEntry key (fields.filterMap fun e => e.2.map (e.1, ·)) = value := by
  induction fields with
  | nil => cases h
  | cons e fields ih =>
    obtain ⟨k, v⟩ := e
    rw [List.map_cons, List.nodup_cons] at hkeys
    have hother : ∀ w, (key, w) ∈ fields → k ≠ key := by
      rintro w hw rfl
      exact hkeys.1 (List.mem_map.2 ⟨_, hw, rfl⟩)
    have hnone : ∀ key', key' ∉ fields.map Prod.fst →
        JsMap.findEntry key' (fields.filterMap fun e => e.2.map (e.1, ·)) = none := by
      intro key' hkey'
      rw [JsMap.findEntry_eq_none_iff]
      intro hmem
      obtain ⟨e, he, rfl⟩ := List.mem_map.1 hmem
      obtain ⟨f, hf, hfe⟩ := List.mem_filterMap.1 he
      obtain ⟨w, -, rfl⟩ := Option.map_eq_some_iff.1 hfe
      exact hkey' (List.mem_map.2 ⟨f, hf, rfl⟩)
    cases v with
    | none =>
      rw [List.filterMap_cons_none (by rfl)]
      rcases List.mem_cons.1 h with h | h
      · obtain ⟨rfl, rfl⟩ := Prod.mk.inj h
        exact hnone _ hkeys.1
      · exact ih hkeys.2 h
    | some w =>
      rw [List.filterMap_cons_some (by rfl), JsMap.findEntry]
      rcases List.mem_cons.1 h with h | h
      · obtain ⟨rfl, rfl⟩ := Prod.mk.inj h
        rw [if_pos rfl]
      · rw [if_neg (hother _ h)]
        exact ih hkeys.2 h

/-- **An optional field** is read back. -/
theorem optional_ofFields (hkeys : (fields.map Prod.fst).Nodup) (key : String) (value : Option α) {p : α → Json}
    {r : Json → Option α} (hread : ∀ a ∈ value, r (p a) = some a) (h : (key, value.map p) ∈ fields) :
    optional (fields.filterMap fun e => e.2.map (e.1, ·)) key r = some value := by
  rw [optional, findEntry_present hkeys h]
  cases value with
  | none => rfl
  | some a => simp [hread a rfl]

/-- **A required field** is read back. -/
theorem required_ofFields (hkeys : (fields.map Prod.fst).Nodup) (key : String) (a : α) {p : α → Json}
    {r : Json → Option α} (hread : r (p a) = some a) (h : (key, some (p a)) ∈ fields) :
    required (fields.filterMap fun e => e.2.map (e.1, ·)) key r = some a := by
  rw [required, findEntry_present hkeys h]
  exact hread

theorem mapM_map_eq_some {read : Json → Option α} {l : List α} (h : ∀ a ∈ l, read (print a) = some a) :
    (l.map print).mapM read = some l := by
  induction l with
  | nil => rfl
  | cons a l ih =>
    have hl := ih fun b hb => h b (List.mem_cons_of_mem _ hb)
    rw [List.map_cons, List.mapM_cons, h a List.mem_cons_self, hl]
    rfl

/-- **An array** is read back. -/
theorem array?_arr {read : Json → Option α} {l : List α} (h : ∀ a ∈ l, read (print a) = some a) :
    array? read (arr (l.map print)) = some l :=
  mapM_map_eq_some h

/-! ## Distinct keys -/

@[simp] theorem wellKeyed_str (s : String) : (str s).WellKeyed := trivial

@[simp] theorem wellKeyed_num (n : ℤ) : (num n).WellKeyed := trivial

@[simp] theorem wellKeyed_bool (b : Bool) : (bool b).WellKeyed := trivial

theorem wellKeyedItems_iff {vs : List Json} : WellKeyedItems vs ↔ ∀ v ∈ vs, v.WellKeyed := by
  constructor
  · exact fun h v hv => h.of_mem hv
  · intro h
    induction vs with
    | nil => trivial
    | cons v vs ih =>
      exact ⟨h v List.mem_cons_self, ih fun w hw => h w (List.mem_cons_of_mem _ hw)⟩

theorem wellKeyedFields_iff {fields : List (String × Json)} :
    WellKeyedFields fields ↔ ∀ e ∈ fields, e.2.WellKeyed := by
  constructor
  · exact fun h e he => h.of_mem he
  · intro h
    induction fields with
    | nil => trivial
    | cons e fields ih =>
      exact ⟨h e List.mem_cons_self, ih fun f hf => h f (List.mem_cons_of_mem _ hf)⟩

theorem wellKeyed_arr {l : List α} (h : ∀ a ∈ l, (print a).WellKeyed) : (arr (l.map print)).WellKeyed := by
  refine wellKeyedItems_iff.2 fun v hv => ?_
  obtain ⟨a, ha, rfl⟩ := List.mem_map.1 hv
  exact h a ha

/-- **A record with distinct field names** has no repeated key. -/
theorem wellKeyed_ofFields (hkeys : (fields.map Prod.fst).Nodup) (hvalues : ∀ e ∈ fields, ∀ v ∈ e.2, v.WellKeyed) :
    (ofFields fields).WellKeyed := by
  constructor
  · have hsub : ((fields.filterMap fun e => e.2.map (e.1, ·)).map Prod.fst).Sublist
        (fields.map Prod.fst) := by
      induction fields with
      | nil => exact List.Sublist.slnil
      | cons e fields ih =>
        obtain ⟨k, v⟩ := e
        rw [List.map_cons, List.nodup_cons] at hkeys
        have hrest := ih hkeys.2 fun e he => hvalues e (List.mem_cons_of_mem _ he)
        cases v with
        | none =>
          rw [List.filterMap_cons_none (by rfl)]
          exact hrest.cons _
        | some w =>
          rw [List.filterMap_cons_some (by rfl)]
          exact hrest.cons_cons _
    exact hkeys.sublist hsub
  · refine wellKeyedFields_iff.2 fun e he => ?_
    obtain ⟨f, hf, hfe⟩ := List.mem_filterMap.1 he
    obtain ⟨v, hv, rfl⟩ := Option.map_eq_some_iff.1 hfe
    exact hvalues f hf v hv

end Keeper.Json
