import FieldBuffers.Index
import FieldBuffers.Arena.Basic

/-!
Field buffers: null, or a block that holds a header, entries and free room. An allocated buffer is
indexed while its entries are sorted by identifier and an index of them is at hand.
-/

namespace FieldBuffers

/-- What an allocated buffer holds. -/
structure Storage (w : Width) where
  /-- The arena's handle for the block. -/
  handle : Nat
  header : Header
  /-- The block after its header: the bytes in use, then the free ones. -/
  body : Bytes
  index : Option (Index w)
  /-- The interval of the next index. -/
  interval : Nat
  deriving DecidableEq

inductive Buffer (w : Width) where
  | null
  | allocated (s : Storage w)
  deriving DecidableEq

namespace Storage

variable {w : Width}

/-- The size of the block. -/
def capacity (s : Storage w) : Nat := Header.size + s.body.length

/-- The bytes in use, those of the header included. -/
def used (s : Storage w) : Nat := s.header.used.toNat

/-- The bytes of the entries. -/
def live (s : Storage w) : Bytes := s.body.take (s.used - Header.size)

/-- The block as the arena has it. -/
def block (s : Storage w) : Bytes := s.header.encode ++ s.body

def region (s : Storage w) : Bytes := s.header.encode ++ s.live

/-- The region as a buffer of its own, without free room. -/
def standalone (s : Storage w) : Bytes :=
  { s.header with capacity := s.header.used }.encode ++ s.live

def entries (s : Storage w) : List (Entry w) := Entry.scan w Header.size s.live

/-- The entries from an offset of the region on. -/
def entriesFrom (s : Storage w) (offset : Nat) : List (Entry w) :=
  Entry.scan w offset (s.live.drop (offset - Header.size))

/-- The occurrences of a field, in order. -/
def occurrences (s : Storage w) (f : FieldId w) : List (Entry w) :=
  match s.index with
  | some ix =>
    ((s.entriesFrom (ix.seek f)).dropWhile (·.id.raw < f.raw)).takeWhile (·.id = f)
  | none => s.entries.filter (·.id = f)

/-- Where a new last occurrence of a field goes. -/
def insertPoint (s : Storage w) (f : FieldId w) : Nat :=
  match s.index with
  | some ix =>
    match (s.entriesFrom (ix.seek f)).find? (f.raw < ·.id.raw) with
    | some e => e.offset
    | none => s.used
  | none => s.used

/-- The bytes of the entries replaced: what falls free is zero. -/
def withLive (s : Storage w) (live : Bytes) : Storage w :=
  let old := s.used - Header.size
  { s with
    header := { s.header with used := UInt32.ofNat (Header.size + live.length) }
    body := live ++ Bytes.zeros (old - live.length) ++ s.body.drop (max old live.length) }

/-- Room added at the end, or cut off there. -/
def resized (s : Storage w) (capacity : Nat) : Storage w :=
  { s with
    header := { s.header with capacity := UInt32.ofNat capacity }
    body := s.body.take (capacity - Header.size) ++ Bytes.zeros (capacity - s.capacity) }

/-- The index set aside. -/
def unindexed (s : Storage w) : Storage w :=
  { s with header := s.header.setIndexed false, index := none }

/-- The index taken afresh, if there is one. -/
def reindexed (s : Storage w) : Storage w :=
  match s.index with
  | none => s
  | some _ => { s with index := some (Index.build s.interval s.entries) }

/-- Entries in the order of their identifiers, those of one field in the order they had. -/
def sortEntries (es : List (Entry w)) : List (Entry w) :=
  es.mergeSort fun a b => a.id.raw ≤ b.id.raw

/-- Sorted and indexed by every `interval`-th entry. -/
def indexed (s : Storage w) (interval : Nat) : Storage w :=
  let interval := max interval 1
  let s := s.withLive ((sortEntries s.entries).flatMap Entry.encode)
  { s with
    header := s.header.setIndexed true
    interval
    index := some (Index.build interval s.entries) }

/-- The storage of a new block of some size. -/
def fresh (w : Width) (handle size : Nat) : Storage w where
  handle
  header := Header.empty w size
  body := Bytes.zeros (size - Header.size)
  index := some (Index.build Index.defaultInterval [])
  interval := Index.defaultInterval

end Storage

namespace Buffer

variable {w : Width}

def storage? : Buffer w → Option (Storage w)
  | null => none
  | allocated s => some s

def isNull (b : Buffer w) : Bool := b.storage?.isNone

/-- The storage that an operation needs. -/
def require (b : Buffer w) (operation : String) : Except Error (Storage w) :=
  match b with
  | null => .error (.bufferNull operation)
  | allocated s => .ok s

/-- The storage and the index that an operation needs. -/
def requireIndex (b : Buffer w) (operation : String) : Except Error (Storage w) :=
  match b with
  | null => .error (.bufferNull operation)
  | allocated s => if s.index.isSome then .ok s else .error (.notIndexed operation)

def capacity : Buffer w → Nat
  | null => 0
  | allocated s => s.capacity

def used : Buffer w → Nat
  | null => 0
  | allocated s => s.used

def unused (b : Buffer w) : Nat := b.capacity - b.used

def region : Buffer w → Bytes
  | null => []
  | allocated s => s.region

def standalone : Buffer w → Bytes
  | null => []
  | allocated s => s.standalone

def entries : Buffer w → List (Entry w)
  | null => []
  | allocated s => s.entries

def occurrences (b : Buffer w) (f : FieldId w) : List (Entry w) :=
  match b with
  | null => []
  | allocated s => s.occurrences f

def length (b : Buffer w) : Nat := b.entries.length

def isEmpty (b : Buffer w) : Bool := b.used ≤ Header.size

def index? : Buffer w → Option (Index w)
  | null => none
  | allocated s => s.index

def isIndexed (b : Buffer w) : Bool := b.index?.isSome

/-- The form for inspection. -/
def inspect (b : Buffer w) : String :=
  match b with
  | null => s!"FieldBuffer<{w.name}>(null)"
  | allocated s =>
    s!"FieldBuffer \x7b width: \"{w.name}\", capacity: {s.capacity}, used: {s.used}, " ++
    s!"entries: {s.entries.length}, indexed: {s.index.isSome} \x7d"

end Buffer

end FieldBuffers
