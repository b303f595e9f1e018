import Mathlib.Data.Int.Notation
import Mathlib.Data.List.Basic

/-!
# Keys of Redis

A key of Redis holds a value, and a time at which it expires, if it does; from that time on it is
gone. A list that becomes empty is gone as well. The commands of a script all read one clock.

* `elements_lrem`, `elements_lpush`: the elements of a list under the commands.
* `mem_of_elapse`, `get_of_elapse`: what is there later was there before.
-/

namespace Keeper

namespace Redis

/-- A value, and the time in milliseconds at which it expires. -/
structure Entry (α : Type*) where
  value : α
  expiresAt : Option ℤ := none

abbrev Key (α : Type*) := Option (Entry α)

namespace Key

variable {α : Type*}

def get (key : Key α) : Option α := key.map (·.value)

/-- `SET key value EX seconds`. -/
def setEx (now seconds : ℤ) (value : α) : Key α := some ⟨value, some (now + seconds * 1000)⟩

/-- `EXPIRE key seconds`. -/
def expire (now seconds : ℤ) (key : Key α) : Key α :=
  key.map fun entry => { entry with expiresAt := some (now + seconds * 1000) }

/-- A key at a later time. -/
def elapse (now : ℤ) (key : Key α) : Key α :=
  key.filter fun entry => entry.expiresAt.all (now < ·)

/-! ## Lists -/

/-- The elements of a list: `LRANGE key 0 -1`. -/
def elements (key : Key (List α)) : List α := key.get.getD []

/-- `LINDEX key 0`. -/
def first (key : Key (List α)) : Option α := key.elements.head?

def lpush (a : α) : Key (List α) → Key (List α)
  | none => some ⟨[a], none⟩
  | some entry => some { entry with value := a :: entry.value }

/-- `LREM key 0 element`: all occurrences of an element. -/
def lrem [DecidableEq α] (a : α) (key : Key (List α)) : Key (List α) :=
  key.bind fun entry =>
    match entry.value.filter (· ≠ a) with
    | [] => none
    | rest => some { entry with value := rest }

@[simp] theorem get_none : get (none : Key α) = none := rfl

@[simp] theorem get_setEx (now seconds : ℤ) (a : α) : (setEx now seconds a).get = some a := rfl

@[simp] theorem get_expire (now seconds : ℤ) (key : Key α) :
    (key.expire now seconds).get = key.get := by
  cases key <;> rfl

@[simp] theorem elements_none : elements (none : Key (List α)) = [] := rfl

@[simp] theorem elements_expire (now seconds : ℤ) (key : Key (List α)) :
    (key.expire now seconds).elements = key.elements := by
  cases key <;> rfl

@[simp] theorem elements_lpush (a : α) (key : Key (List α)) :
    (key.lpush a).elements = a :: key.elements := by
  cases key <;> rfl

@[simp] theorem elements_lrem [DecidableEq α] (a : α) (key : Key (List α)) :
    (key.lrem a).elements = key.elements.filter (· ≠ a) := by
  cases key with
  | none => rfl
  | some entry =>
    show elements (match entry.value.filter (· ≠ a) with
      | [] => none
      | rest => some { entry with value := rest }) = entry.value.filter (· ≠ a)
    cases entry.value.filter (· ≠ a) <;> rfl

theorem expire_of_elements {key : Key (List α)} {a : α} {l : List α} (h : key.elements = a :: l)
    (now seconds : ℤ) : key.expire now seconds = some ⟨a :: l, some (now + seconds * 1000)⟩ := by
  cases key with
  | none => cases h
  | some entry =>
    have hvalue : entry.value = a :: l := h
    rw [← hvalue]
    rfl

theorem elapse_of_isSome {now : ℤ} {key : Key α} (h : (key.elapse now).isSome) :
    key.elapse now = key := by
  cases key with
  | none => rfl
  | some entry =>
    rw [elapse, Option.filter_some] at h ⊢
    split_ifs at h ⊢
    · rfl
    · cases h

theorem get_of_elapse {now : ℤ} {key : Key α} {a : α} (h : (key.elapse now).get = some a) :
    key.get = some a := by
  cases key with
  | none => cases h
  | some entry =>
    rw [elapse, Option.filter_some] at h
    split_ifs at h
    · exact h
    · cases h

theorem mem_of_elapse {now : ℤ} {key : Key (List α)} {a : α}
    (h : a ∈ (key.elapse now).elements) : a ∈ key.elements := by
  cases hlater : (key.elapse now).get with
  | none =>
    rw [elements, hlater] at h
    cases h
  | some l =>
    rw [elements, hlater] at h
    rw [elements, get_of_elapse hlater]
    exact h

end Key

end Redis

end Keeper
