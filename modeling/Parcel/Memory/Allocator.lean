import Parcel.Memory.Page
import Parcel.Memory.Shared

/-!
# Allocators

An allocator answers requests for segments and may change with each request,
so that a limit, a script or a log fits into its state. A well-behaved one
returns at least the size asked for; those who use an allocator check that for
themselves. A segment is the only handle on its memory in the process, so that an
allocator never sees what becomes of the segments it gave away: its answers are
settled by the requests that it has met.

`Heap` and `PagedShared` keep no state. `Scripted` answers the `n`-th request
in whatever way it was told to.
-/

namespace Parcel

class Allocator (α : Type) where
  allocate : α → UInt64 → Except Fault Segment × α

/-- Zeroed memory of exactly the size asked for. -/
structure Heap where
  deriving DecidableEq, Repr

instance : Allocator Heap where
  allocate a size := (Segment.zeroed size, a)

/-- Zeroed shared memory, each segment a file of whole pages. -/
structure PagedShared where
  name : String := "ferry"
  page : UInt64 := pageSize
  limits : SystemLimits := {}
  deriving DecidableEq, Repr

/-- A request for nothing still gets a page. -/
def PagedShared.newSegment (a : PagedShared) (size : UInt64) : Except Fault Segment :=
  match roundUp? (max size 1) a.page with
  | none => .error (.allocation (.pastLastPage size.toNat))
  | some rounded => Segment.shared a.name rounded a.limits

instance : Allocator PagedShared where
  allocate a size := (a.newSegment size, a)

/-- An allocator given by its answer to each call, the first call being number 0. -/
structure Scripted where
  answer : Nat → UInt64 → Except Fault Segment
  calls : Nat := 0

instance : Allocator Scripted where
  allocate a size := (a.answer a.calls size, { a with calls := a.calls + 1 })

/-- An allocator of a kind that is chosen when the program runs. -/
inductive Source
  | heap (a : Heap)
  | paged (a : PagedShared)
  | scripted (a : Scripted)

instance : Allocator Source where
  allocate
    | .heap a, size =>
      let (answer, a) := Allocator.allocate a size
      (answer, .heap a)
    | .paged a, size =>
      let (answer, a) := Allocator.allocate a size
      (answer, .paged a)
    | .scripted a, size =>
      let (answer, a) := Allocator.allocate a size
      (answer, .scripted a)

end Parcel
