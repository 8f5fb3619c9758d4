import Parcel.Memory.Segment

/-!
# Shared memory

A `SharedMemory` is a file in memory together with the mappings made of it.
All mappings alias the one file from its start on, so that a write through one
of them is seen through every other as far as it reaches. The size of the file
is settled when it is created; a mapping may be shorter than the file but never
longer, and it is the file that a new mapping is measured against, not the
mapping that it was made from. What the system refuses on its own account, it
refuses because of its limits (`SystemLimits`).
-/

namespace Parcel

/-- What the system puts up with, each time as the largest value that it accepts. Room for
mappings differs from process to process; by default it is all that a process can address. -/
structure SystemLimits where
  nameLength : Nat := 249
  /-- Sizes of files are signed 64-bit words. -/
  fileSize : Nat := 0x7fffffffffffffff
  /-- The last page of the address space is left out. -/
  mappingSize : Nat := 0x7ffffffff000
  deriving DecidableEq, Repr

structure Mapping where
  /-- The name that the file was created with; mappings made later have none. -/
  name : Option String
  size : Nat
  deriving DecidableEq, Repr

structure SharedMemory where
  file : List UInt8
  mappings : List Mapping
  limits : SystemLimits := {}
  deriving Repr

namespace SharedMemory

/-- The bytes of a new file, which are all zero. The file is of no use if it cannot be mapped. -/
def newFile (name : String) (size : UInt64) (limits : SystemLimits := {}) :
    Except Fault (List UInt8) :=
  if size = 0 then .error (.allocation .zeroSize)
  else match name.toUTF8.data.toList.findIdx? (· == 0) with
    | some position => .error (.allocation (.nameHoldsNul position))
    | none =>
      if limits.nameLength < name.utf8ByteSize then .error (.system .invalidArgument)
      else if limits.fileSize < size.toNat then .error (.system .invalidArgument)
      else if limits.mappingSize < size.toNat then .error (.system .outOfMemory)
      else .ok (List.replicate size.toNat 0)

/-- Either a file is made that is as long as was asked for, all zero and not too long to be
mapped, or the size is zero, the name is refused, or the system is to blame. -/
theorem newFile_cases (name : String) (size : UInt64) (limits : SystemLimits) :
    newFile name size limits = .ok (List.replicate size.toNat 0) ∧
        size.toNat ≤ limits.mappingSize ∨
      newFile name size limits = .error (.allocation .zeroSize) ∨
      (∃ position, newFile name size limits = .error (.allocation (.nameHoldsNul position))) ∨
      ∃ cause, newFile name size limits = .error (.system cause) := by
  rw [newFile]
  split
  · exact .inr (.inl rfl)
  · split
    · exact .inr (.inr (.inl ⟨_, rfl⟩))
    · split
      · exact .inr (.inr (.inr ⟨_, rfl⟩))
      · split
        · exact .inr (.inr (.inr ⟨_, rfl⟩))
        · split
          · exact .inr (.inr (.inr ⟨_, rfl⟩))
          · next hmapping => exact .inl ⟨rfl, Nat.le_of_not_lt hmapping⟩

theorem eq_of_newFile {name : String} {size : UInt64} {limits : SystemLimits}
    {file : List UInt8} (h : newFile name size limits = .ok file) :
    file = List.replicate size.toNat 0 ∧ size.toNat ≤ limits.mappingSize := by
  rcases newFile_cases name size limits with ⟨hfile, hmapping⟩ | hfile | ⟨_, hfile⟩ | ⟨_, hfile⟩ <;>
    rw [hfile] at h <;> cases h
  exact ⟨rfl, hmapping⟩

/-- A new file with one mapping of all of it. -/
def create (name : String) (size : UInt64) (limits : SystemLimits := {}) :
    Except Fault SharedMemory := do
  let file ← newFile name size limits
  return { file, mappings := [{ name := some name, size := file.length }], limits }

/-- Maps the file once more, which takes a mapping to get at the file. -/
def map (m : SharedMemory) (handle : Nat) (size : UInt64) : Except Fault SharedMemory :=
  if size = 0 then .error (.segment .zeroSize)
  else if m.mappings.length ≤ handle then .error (.system .badDescriptor)
  else if m.file.length < size.toNat then
    .error (.segment (.shortFile m.file.length size.toNat))
  else if m.limits.mappingSize < size.toNat then .error (.system .outOfMemory)
  else .ok { m with mappings := m.mappings ++ [{ name := none, size := size.toNat }] }

/-- Writes through a mapping; only runs inside the mapping can be written. -/
def write? (m : SharedMemory) (handle offset : Nat) (payload : List UInt8) :
    Option SharedMemory := do
  let mapping ← m.mappings[handle]?
  guard (offset + payload.length ≤ mapping.size)
  return { m with file := splice m.file offset payload }

/-- Reads through a mapping. -/
def read? (m : SharedMemory) (handle offset length : Nat) : Option (List UInt8) := do
  let mapping ← m.mappings[handle]?
  guard (offset + length ≤ mapping.size)
  return slice m.file offset length

end SharedMemory

/-- Shared memory of its own file, mapped once. -/
def Segment.shared (name : String) (size : UInt64) (limits : SystemLimits := {}) :
    Except Fault Segment := do
  let bytes ← SharedMemory.newFile name size limits
  return { bytes, memory := .shared }

/-- The same bytes, mapped once more. Plain memory cannot be mapped. -/
def Segment.remap? (s : Segment) : Option Segment :=
  if s.memory.crossesProcesses then some { bytes := s.bytes, memory := s.memory } else none

end Parcel
