import FieldBuffers.Buffer.Edit
import FieldBuffers.Value.Conversion

/-!
Edits of single fields: adding, appending, setting and erasing occurrences. Entries are removed
without a second block: those that stay move down inside theirs.
-/

namespace FieldBuffers

variable {w : Width}

/-- A block amid the removal of entries: its bytes after the header, the place in the region where
the next entry that stays goes, and how many did not stay. -/
structure Compaction where
  body : Bytes
  write : Nat
  removed : Nat

namespace Compaction

/-- Some of the bytes moved to another place, over those that stand there. -/
def moved (start n place : Nat) (bs : Bytes) : Bytes :=
  bs.take place ++ (bs.drop start).take n ++ bs.drop (place + n)

def step (keep : FieldId w → Bool) (c : Compaction) (e : Entry w) : Compaction :=
  if keep e.id then
    { c with
      body := moved (e.offset - Header.size) e.size (c.write - Header.size) c.body
      write := c.write + e.size }
  else { c with removed := c.removed + 1 }

end Compaction

namespace Storage

/-- The bytes from `start` to `stop` of the region replaced, where the block has room for it. -/
def splice (start stop : Nat) (bytes : Bytes) (s : Storage w) : Except Error (Storage w) :=
  let used := s.used - (stop - start) + bytes.length
  if s.capacity < used then
    .error (.spaceExhausted (bytes.length - (stop - start)) (s.capacity - s.used))
  else
    .ok (s.withLive
      (s.live.take (start - Header.size) ++ bytes ++ s.live.drop (stop - Header.size)))

/-- An entry put after the last occurrence of its field. -/
def insert (f : FieldId w) (entry : Bytes) (s : Storage w) : Except Error (Storage w) :=
  let place := s.insertPoint f
  (s.splice place place entry).map reindexed

/-- An entry put after all others, which leaves them unsorted. -/
def push (entry : Bytes) (s : Storage w) : Except Error (Storage w) :=
  (s.splice s.used s.used entry).map unindexed

/-- An entry in place of an occurrence; a missing one is added after as many fillers as it takes. -/
def replace (f : FieldId w) (occurrence : Nat) (filler entry : Bytes) (s : Storage w) :
    Except Error (Storage w) :=
  let found := s.occurrences f
  let spliced :=
    match found[occurrence]? with
    | some e => s.splice e.offset e.stop entry
    | none =>
      let place := s.insertPoint f
      let fillers := (List.replicate (occurrence - found.length) filler).flatten
      s.splice place place (fillers ++ entry)
  spliced.map reindexed

/-- The block while some of its entries are looked at, from the first on. -/
def compaction (keep : FieldId w → Bool) (s : Storage w) (es : List (Entry w)) : Compaction :=
  es.foldl (Compaction.step keep) ⟨s.body, Header.size, 0⟩

/-- The entries that `keep` holds of, in their order, moved down inside the block. What falls free
is zero. -/
def retain (keep : FieldId w → Bool) (s : Storage w) : Storage w :=
  let c := s.compaction keep s.entries
  reindexed { s with
    header := { s.header with used := UInt32.ofNat c.write }
    body := c.body.take (c.write - Header.size) ++ Bytes.zeros (s.used - c.write)
      ++ c.body.drop (s.used - Header.size) }

end Storage

namespace Edit

/-- A new last occurrence. Numbers are converted to the field's kind. -/
def add (f : FieldId w) (v : Value) : Edit w Unit := do
  let v ← ofExcept (v.coerce f.type (.ident w f))
  let entry ← ofExcept (v.encodeEntry f)
  allocating (Storage.insert f entry)

/-- A new last occurrence at the end of all entries, without conversion and without the index. -/
def append (f : FieldId w) (v : Value) : Edit w Unit := do
  if v.type ≠ f.type then throw (.mismatch f f.type.keyword v.type.keyword)
  let entry ← ofExcept (v.encodeEntry f)
  allocating (Storage.push entry)

/-- An occurrence overwritten. One past the last is added, after defaults in between. -/
def set (f : FieldId w) (occurrence : Nat) (v : Value) : Edit w Unit := do
  let v ← ofExcept (v.coerce f.type (.ident w f))
  let entry ← ofExcept (v.encodeEntry f)
  let b := (← get).buffer
  if 0 < occurrence && !b.isNull && !b.isIndexed then throw (.notIndexed "set")
  let filler ←
    if (b.occurrences f).length < occurrence then
      ofExcept ((Value.default f.type).encodeEntry f)
    else pure []
  allocating (Storage.replace f occurrence filler entry)

/-- An occurrence removed; later ones move down. -/
def erase (f : FieldId w) (occurrence : Nat) : Edit w Unit := do
  let s ← ofExcept ((← get).buffer.requireIndex "erase")
  match (s.occurrences f)[occurrence]? with
  | none => throw (.notPresent (.ident w f) occurrence)
  | some e =>
    let s ← ofExcept (s.splice e.offset e.stop [])
    put s.reindexed

/-- Keeps the entries whose field `keep` holds of, and counts the others. -/
def retain (operation : String) (keep : FieldId w → Bool) : Edit w Nat := do
  let s ← storage operation
  put (s.retain keep)
  return (s.compaction keep s.entries).removed

def eraseAll (f : FieldId w) : Edit w Nat := retain "erase_all" (· != f)

def eraseMany (fs : List (FieldId w)) : Edit w Nat := retain "erase_many" (!fs.contains ·)

def project (fs : List (FieldId w)) : Edit w Nat := retain "project" fs.contains

end Edit

end FieldBuffers
