import FieldBuffers.Arena.Tracker
import FieldBuffers.Text.Inspected

/-!
Arenas hand out blocks under a ceiling for each one, and keep account of them. A block is owned by
whoever asked for it until it is given back.
-/

namespace FieldBuffers

structure ArenaConfig where
  /-- The size of a block for which no size is asked. -/
  initial : Nat := 1024
  /-- The most bytes that one block may have. -/
  ceiling : Nat := 64 * 1024 * 1024
  deriving DecidableEq, Repr

structure Arena where
  config : ArenaConfig := {}
  tracker : Tracker := {}
  nextHandle : Nat := 1
  deriving DecidableEq, Repr

structure Block where
  handle : Nat
  kind : BlockKind
  subtype : String
  data : Bytes
  deriving DecidableEq, Repr

namespace ArenaConfig

def check (c : ArenaConfig) (size : Nat) : Except Error Unit :=
  if size ≤ c.ceiling then .ok () else .error (.arenaCapacity size c.ceiling)

end ArenaConfig

namespace Arena

/-- A fresh handle for a block of some size. -/
def reserve (a : Arena) (kind : BlockKind) (size : Nat) : Except Error (Nat × Arena) := do
  a.config.check size
  let tracker := a.tracker.allocate a.nextHandle kind size
  return (a.nextHandle, { a with tracker, nextHandle := a.nextHandle + 1 })

/-- Grants a block of `old` bytes a size of `new`, if that is more. -/
def extend (a : Arena) (handle old new : Nat) : Except Error Arena :=
  if new ≤ old then .ok a
  else do
    a.config.check new
    return { a with tracker := a.tracker.resize handle new }

/-- Takes back what a block of `old` bytes has above `new`. -/
def reduce (a : Arena) (handle old new : Nat) : Arena :=
  if old ≤ new then a else { a with tracker := a.tracker.resize handle new }

def release (a : Arena) (handle : Nat) : Arena := { a with tracker := a.tracker.release handle }

def allocate (a : Arena) (kind : BlockKind) (subtype : String) (size : Nat) :
    Except Error (Block × Arena) := do
  let (handle, a) ← a.reserve kind size
  return (⟨handle, kind, subtype, Bytes.zeros size⟩, a)

/-- What a block gains is zero. -/
def grow (a : Arena) (b : Block) (size : Nat) : Except Error (Block × Arena) := do
  let a ← a.extend b.handle b.data.length size
  return ({ b with data := b.data ++ Bytes.zeros (size - b.data.length) }, a)

def shrink (a : Arena) (b : Block) (size : Nat) : Block × Arena :=
  ({ b with data := b.data.take size }, a.reduce b.handle b.data.length size)

/-- The form for inspection. -/
def inspect (a : Arena) : String :=
  s!"HeapArena \x7b config: ArenaConfig \x7b initial_capacity: {a.config.initial}, max_capacity: " ++
  s!"{a.config.ceiling} \x7d, live_blocks: {a.tracker.liveCount}, live_bytes: " ++
  s!"{a.tracker.liveBytes} \x7d"

end Arena

namespace Block

def capacity (b : Block) : Nat := b.data.length

def label (b : Block) : String := s!"block_{b.handle}"

/-- Writes some bytes over those from `start` on; bytes past the end are dropped. -/
def write (b : Block) (start : Nat) (bs : Bytes) : Block :=
  { b with data := (b.data.take start ++ bs ++ b.data.drop (start + bs.length)).take b.capacity }

/-- The form for inspection. -/
def inspect (b : Block) : String :=
  s!"ArenaBlock \x7b handle: ArenaHandle({b.handle}), kind: {b.kind.inspect}, subtype: " ++
  s!"{Text.inspected b.subtype}, capacity: {b.capacity} \x7d"

end Block

end FieldBuffers
