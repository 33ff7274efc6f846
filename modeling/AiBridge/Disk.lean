import Mathlib.Logic.Function.Basic
import Mathlib.Tactic.Common

variable {Place Byte Error : Type*}

/-- The files of a machine, and the places that were opened for writing, the last one last. -/
structure Disk (Place Byte : Type*) where
  files : Place → Option (List Byte)
  opened : List Place

namespace Disk

/-- What goes wrong where bytes are put into a file: the file is not opened at all, or it does not
take the bytes to their end. -/
inductive Fault (Error : Type*)
  | refused (error : Error)
  | cut (error : Error) (taken : Nat)
  deriving DecidableEq, Repr

/-- The places that an attempt opens. -/
def Fault.places : Option (Fault Error) → Place → List Place
  | some (.refused _), _ => []
  | some (.cut _ _), place => [place]
  | none, place => [place]

theorem Fault.eq_of_mem_places {fault : Option (Fault Error)} {place other : Place}
    (h : other ∈ Fault.places fault place) : other = place := by
  cases fault with
  | none => exact List.mem_singleton.mp h
  | some fault =>
    cases fault with
    | refused error => exact absurd h List.not_mem_nil
    | cut error taken => exact List.mem_singleton.mp h

section Put

variable [DecidableEq Place]

def store (disk : Disk Place Byte) (place : Place) (bytes : List Byte) : Disk Place Byte :=
  ⟨Function.update disk.files place (some bytes), disk.opened ++ [place]⟩

/-- Bytes are put behind those that the file keeps when it is opened. -/
def put (disk : Disk Place Byte) (fault : Option (Fault Error)) (place : Place)
    (kept bytes : List Byte) : Disk Place Byte × Except Error Unit :=
  match fault with
  | none => (disk.store place (kept ++ bytes), .ok ())
  | some (.refused error) => (disk, .error error)
  | some (.cut error taken) =>
    (disk.store place (kept ++ bytes.dropLast.take taken), .error error)

def write (disk : Disk Place Byte) (fault : Option (Fault Error)) (place : Place)
    (bytes : List Byte) : Disk Place Byte × Except Error Unit :=
  disk.put fault place [] bytes

def append (disk : Disk Place Byte) (fault : Option (Fault Error)) (place : Place)
    (bytes : List Byte) : Disk Place Byte × Except Error Unit :=
  disk.put fault place ((disk.files place).getD []) bytes

end Put

/-- What was done from one disk to another opened these places and left the other files alone. -/
structure Touches (disk disk' : Disk Place Byte) (places : List Place) : Prop where
  opened : disk'.opened = disk.opened ++ places
  files : ∀ place ∉ places, disk'.files place = disk.files place

variable {disk disk' disk'' : Disk Place Byte} {places more : List Place}

theorem Touches.refl (disk : Disk Place Byte) : Touches disk disk [] :=
  ⟨(List.append_nil disk.opened).symm, fun _ _ => rfl⟩

theorem Touches.trans (h : Touches disk disk' places) (h' : Touches disk' disk'' more) :
    Touches disk disk'' (places ++ more) := by
  refine ⟨?_, ?_⟩
  · rw [h'.opened, h.opened, List.append_assoc]
  · intro place hplace
    rw [List.mem_append, not_or] at hplace
    rw [h'.files place hplace.2, h.files place hplace.1]

/-- A disk on which nothing was opened is the same. -/
theorem Touches.eq_iff (h : Touches disk disk' places) : disk' = disk ↔ places = [] := by
  constructor
  · intro hsame
    have hopened := h.opened
    rw [hsame] at hopened
    exact List.self_eq_append_right.mp hopened
  · intro hnone
    have hopened : disk'.opened = disk.opened := by rw [h.opened, hnone, List.append_nil]
    have hfiles : disk'.files = disk.files := by
      funext place
      exact h.files place (by simp [hnone])
    cases disk
    cases disk'
    simp_all only

theorem Touches.unique (h : Touches disk disk' places) (h' : Touches disk disk' more) :
    places = more :=
  List.append_cancel_left (h.opened.symm.trans h'.opened)

section Put

variable [DecidableEq Place] {fault : Option (Fault Error)} {place : Place} {kept bytes : List Byte}

@[simp]
theorem files_store_self : (disk.store place bytes).files place = some bytes := by
  simp [store]

theorem touches_store : Touches disk (disk.store place bytes) [place] := by
  refine ⟨rfl, ?_⟩
  intro other hother
  exact Function.update_of_ne (by simpa using hother) _ _

theorem touches_put : Touches disk (disk.put fault place kept bytes).1 (Fault.places fault place) := by
  cases fault with
  | none => exact touches_store
  | some fault =>
    cases fault with
    | refused error => exact Touches.refl disk
    | cut error taken => exact touches_store

theorem put_none :
    disk.put (none : Option (Fault Error)) place kept bytes =
      (disk.store place (kept ++ bytes), .ok ()) := rfl

theorem put_snd_eq_ok_iff : (disk.put fault place kept bytes).2 = .ok () ↔ fault = none := by
  cases fault with
  | none => simp [put]
  | some fault => cases fault <;> simp [put]

end Put

end Disk
