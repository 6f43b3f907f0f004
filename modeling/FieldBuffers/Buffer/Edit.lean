import FieldBuffers.Value.Codec

/-!
Edits: what changes a buffer in place, in the arena its block is from. An edit that fails leaves
the place as it says; the edits of this library leave the buffer as it was.
-/

namespace FieldBuffers

/-- A buffer and the arena of its block, or, for a null one, the arena of the block it would get. -/
structure Place (w : Width) where
  arena : Arena
  buffer : Buffer w

abbrev Edit (w : Width) := EStateM Error (Place w)

variable {w : Width} {α : Type}

namespace Edit

def ofExcept (r : Except Error α) : Edit w α := fun p =>
  match r with
  | .ok a => .ok a p
  | .error e => .error e p

/-- The storage that an operation needs. -/
def storage (operation : String) : Edit w (Storage w) := fun p =>
  ofExcept (p.buffer.require operation) p

def put (s : Storage w) : Edit w Unit := fun p => .ok () { p with buffer := .allocated s }

/-- Gives the block back. -/
def free : Edit w Unit := fun p =>
  match p.buffer with
  | .null => .ok () p
  | .allocated s => .ok () ⟨p.arena.release s.handle, .null⟩

/-- Asks the arena for a block of the given size. -/
def extend (s : Storage w) (size : Nat) : Edit w Unit := fun p =>
  match p.arena.extend s.handle s.capacity size with
  | .error e => .error e p
  | .ok arena => .ok () ⟨arena, .allocated (s.resized size)⟩

def reduce (s : Storage w) (size : Nat) : Edit w Unit := fun p =>
  .ok () ⟨p.arena.reduce s.handle s.capacity size, .allocated (s.resized size)⟩

end Edit

namespace Buffer

/-- The bytes that some entries take with values of some bytes in all. -/
def bytesNeeded (w : Width) (entries valueBytes : Nat) : Nat :=
  Header.size + entries * w.overhead + valueBytes

/-- A buffer of some bytes, no less than its header. -/
def allocate (w : Width) (size : Nat) (a : Arena) : Except Error (Buffer w × Arena) := do
  let size := max size Header.size
  Region.checkRoom a.config size
  let (handle, a) ← a.reserve w.blockKind size
  return (.allocated (Storage.fresh w handle size), a)

/-- A copy in a block of its own, in the order and with the index of the first. -/
def snapshot (b : Buffer w) (a : Arena) : Except Error (Buffer w × Arena) :=
  match b with
  | .null => .ok (.null, a)
  | .allocated s => do
    let (handle, a) ← a.reserve w.blockKind s.capacity
    let body := s.live ++ Bytes.zeros (s.body.length - s.live.length)
    return (.allocated { s with handle, body }, a)

/-- A copy in a block of its own, sorted and indexed. -/
def copy (b : Buffer w) (a : Arena) : Except Error (Buffer w × Arena) := do
  let (b, a) ← b.snapshot a
  match b with
  | .null => return (.null, a)
  | .allocated s => return (.allocated (s.indexed s.interval), a)

/-- The buffer that a region is. -/
def ofRegion (w : Width) (region : Bytes) (a : Arena) : Except Error (Buffer w × Arena) := do
  let h ← Region.check a.config w region
  Region.checkRoom a.config region.length
  let (handle, a) ← a.reserve w.blockKind region.length
  return (.allocated (Region.storage handle h region), a)

end Buffer

namespace Edit

/-- A block for a null buffer. -/
def allocate (size : Nat) : Edit w Unit := fun p =>
  match Buffer.allocate w size p.arena with
  | .error e => .error e p
  | .ok (b, a) => .ok () ⟨a, b⟩

/-- A block of another size; what is in use has to fit. -/
def reallocate (size : Nat) : Edit w Unit := fun p =>
  match p.buffer with
  | .null => allocate size p
  | .allocated s =>
    let size := max size Header.size
    if size < s.used then .error (.spaceExhausted s.used size) p
    else if s.capacity < size then extend s size p
    else reduce s size p

/-- Every entry removed, and the block kept. -/
def clear : Edit w Unit := do
  let s ← storage "init"
  let s := s.withLive []
  put { s with
    header := s.header.setIndexed true
    index := some (Index.build s.interval s.entries) }

def buildIndex (interval : Nat) : Edit w Unit := do
  let s ← storage "build_index"
  put (s.indexed interval)

def dropIndex : Edit w Unit := fun p =>
  match p.buffer with
  | .null => .ok () p
  | .allocated s => put s.unindexed p

/-- Room for `needed` more bytes: twice the block, or what is needed if that is more. -/
def grow (needed : Nat) : Edit w Unit := do
  let s ← storage "grow"
  extend s (max (2 * s.capacity) (s.used + needed))

/-- Runs a write; where room is lacking the block grows and the write is run once more. -/
def growing (write : Storage w → Except Error (Storage w)) : Edit w Unit := do
  let s ← storage "write"
  match write s with
  | .ok s => put s
  | .error (.spaceExhausted needed _) =>
    grow needed
    let s ← storage "write"
    put (← ofExcept (write s))
  | .error e => throw e

/-- Runs a write on a null buffer too, in a new block, which is given back if the write fails. -/
def allocating (write : Storage w → Except Error (Storage w)) : Edit w Unit := fun p =>
  match p.buffer with
  | .allocated _ => growing write p
  | .null =>
    match allocate p.arena.config.initial p with
    | .error e p => .error e p
    | .ok () p =>
      match growing write p with
      | .ok () p => .ok () p
      | .error e p =>
        match free p with
        | .ok () p => .error e p
        | .error _ p => .error e p

end Edit

end FieldBuffers
