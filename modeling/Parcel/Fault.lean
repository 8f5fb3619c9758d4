import Parcel.Memory.Address

/-!
# Faults

Everything that a call can refuse, by cause. The wording of a cause is its
`message`; `Fault.message` puts the family of the fault in front of it. Each
family also has a cause `other`, for allocators and callers that refuse for
reasons of their own.
-/

namespace Parcel

/-- Why no segment was obtained. -/
inductive AllocationFault
  | zeroSize
  | nameHoldsNul (position : Nat)
  | pastLastPage (size : Nat)
  | budgetExhausted (size remaining budget : Nat)
  | payloadTooLong (length : Nat)
  | indexTooLarge
  | undersized (cls : SegmentClass) (obtained size : Nat)
  | readOnly (cls : SegmentClass)
  | other (text : String)
  deriving DecidableEq, Repr

/-- Why an address does not resolve. -/
inductive AddressFault
  | indexPast (cls : SegmentClass) (count : Nat)
  | spanExceeds (size : Nat)
  | offsetInLarge
  | lengthExceeds (size : Nat)
  | partialElement (width : Nat)
  | other (text : String)
  deriving DecidableEq, Repr

/-- Why an image description is inconsistent, or does not describe its payload. -/
inductive DescriptorFault
  | emptyImage (width height : Nat)
  | shortStride (stride rowBytes : Nat)
  | shortPayload (width height : Nat) (format : String) (needed length : Nat)
  | other (text : String)
  deriving DecidableEq, Repr

inductive ConfigFault
  | zeroChunkSize
  | chunkSizeTooLarge (size : Nat)
  | other (text : String)
  deriving DecidableEq, Repr

/-- Why segments cannot be mapped, written or paired with records. -/
inductive SegmentFault
  | zeroSize
  | shortFile (held requested : Nat)
  | readOnly (cls : SegmentClass)
  | tooManySegments (count : Nat)
  | countMismatch (sentSmall sentLarge receivedSmall receivedLarge : Nat)
  | other (text : String)
  deriving DecidableEq, Repr

/-- Why bytes are not an archive of records, or records make none. What is wrong with a
malformed body is settled by its bytes. -/
inductive ArchiveFault
  | tooLong (length : Nat)
  | malformed (body : List UInt8)
  | other (text : String)
  deriving DecidableEq, Repr

/-- Refusals of the operating system, by error number. Four of them go by a name here. -/
inductive SystemFault
  | noEntry
  | badDescriptor
  | outOfMemory
  | invalidArgument
  | other (errno : Nat) (text : String)
  deriving DecidableEq, Repr

inductive Fault
  | allocation (cause : AllocationFault)
  | address (address : Address) (cause : AddressFault)
  | descriptor (cause : DescriptorFault)
  | config (cause : ConfigFault)
  | segment (cause : SegmentFault)
  | archive (cause : ArchiveFault)
  | system (cause : SystemFault)
  deriving DecidableEq, Repr

def AllocationFault.message : AllocationFault → String
  | zeroSize => "size must be greater than 0"
  | nameHoldsNul position => s!"nul byte found in provided data at position: {position}"
  | pastLastPage size => s!"{size} bytes cannot be page aligned"
  | budgetExhausted size remaining budget =>
    s!"budget exhausted: {size} bytes requested, {remaining} of {budget} remaining"
  | payloadTooLong length => s!"payload of {length} bytes exceeds the addressable range"
  | indexTooLarge => "segment index exceeds the addressable range"
  | undersized cls obtained size =>
    s!"allocator returned {obtained} bytes for a {size} byte {cls.name} segment"
  | readOnly cls => s!"allocator returned a read-only {cls.name} segment"
  | other text => text

def AddressFault.message : AddressFault → String
  | indexPast cls count => s!"segment index past {count} {cls.name} segments"
  | spanExceeds size => s!"span exceeds the {size} byte segment"
  | offsetInLarge => "large payloads start at offset 0"
  | lengthExceeds size => s!"length exceeds the {size} byte segment"
  | partialElement width => s!"length is not a multiple of the {width} byte element size"
  | other text => text

def DescriptorFault.message : DescriptorFault → String
  | emptyImage width height => s!"image dimensions must be non-zero, got {width}x{height}"
  | shortStride stride rowBytes => s!"stride {stride} is shorter than a {rowBytes} byte row"
  | shortPayload width height format needed length =>
    s!"{width}x{height} {format} image needs {needed} bytes, payload has {length}"
  | other text => text

def ConfigFault.message : ConfigFault → String
  | zeroChunkSize => "chunk size must be greater than 0"
  | chunkSizeTooLarge size => s!"chunk size {size} exceeds the addressable range"
  | other text => text

def SegmentFault.message : SegmentFault → String
  | zeroSize => "size must be greater than 0"
  | shortFile held requested => s!"fd holds {held} bytes, {requested} requested"
  | readOnly cls => s!"{cls.name} segment is read-only"
  | tooManySegments count => s!"{count} segments cannot be described"
  | countMismatch sentSmall sentLarge receivedSmall receivedLarge =>
    s!"batch expects {sentSmall}+{sentLarge} segments, received {receivedSmall}+{receivedLarge}"
  | other text => text

def ArchiveFault.message : ArchiveFault → String
  | tooLong length => s!"{length} byte archive exceeds frame limit"
  | malformed _ => "malformed archive"
  | other text => text

def SystemFault.errno : SystemFault → Nat
  | noEntry => 2
  | badDescriptor => 9
  | outOfMemory => 12
  | invalidArgument => 22
  | other errno _ => errno

def SystemFault.ofErrno? : Nat → Option SystemFault
  | 2 => some noEntry
  | 9 => some badDescriptor
  | 12 => some outOfMemory
  | 22 => some invalidArgument
  | _ => none

def SystemFault.message (f : SystemFault) : String :=
  let text := match f with
    | noEntry => "No such file or directory"
    | badDescriptor => "Bad file descriptor"
    | outOfMemory => "Cannot allocate memory"
    | invalidArgument => "Invalid argument"
    | other _ text => text
  s!"{text} (os error {f.errno})"

def Fault.message : Fault → String
  | allocation cause => s!"segment allocation failed: {cause.message}"
  | address a cause => s!"address out of range ({a.render}): {cause.message}"
  | descriptor cause => s!"invalid descriptor: {cause.message}"
  | config cause => s!"invalid configuration: {cause.message}"
  | segment cause => s!"invalid memory segment: {cause.message}"
  | archive cause => s!"record validation failed: {cause.message}"
  | system cause => s!"system error: {cause.message}"

theorem SystemFault.errno_of_ofErrno? {n : Nat} {f : SystemFault} (h : ofErrno? n = some f) :
    f.errno = n := by
  unfold ofErrno? at h
  split at h <;> cases h <;> rfl

end Parcel
