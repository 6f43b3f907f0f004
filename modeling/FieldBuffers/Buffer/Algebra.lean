import FieldBuffers.Buffer.Edit

/-!
Operations on whole buffers. Each says, for one field at a time, which occurrences come out of
those in the first buffer and those in the second; the first buffer then holds the outcome, sorted
and indexed.
-/

namespace FieldBuffers

variable {w : Width}

/-- What becomes of a field's occurrences in two buffers. -/
inductive Merge where
  | concat | join | outerJoin | update
  deriving DecidableEq, Repr

namespace Merge

def name : Merge → String
  | concat => "concat"
  | join => "join"
  | outerJoin => "outer_join"
  | update => "update"

/-- Occurrences by position, the second list's where it has one. -/
def overlay {α : Type} : List α → List α → List α
  | as, [] => as
  | [], bs => bs
  | _ :: as, b :: bs => b :: overlay as bs

def merge {α : Type} : Merge → List α → List α → List α
  | concat, ours, theirs => ours ++ theirs
  | join, ours, theirs => if ours.isEmpty then [] else theirs
  | outerJoin, ours, theirs => if ours.isEmpty then [] else if theirs.isEmpty then ours else theirs
  | update, ours, theirs => overlay ours theirs

/-- The fields of some entries, ascending, each once. -/
def fields (es : List (Entry w)) : List (FieldId w) :=
  ((es.map (·.id)).eraseDups).mergeSort fun f g => f.raw ≤ g.raw

/-- The occurrences of each field, field by field. -/
def entries (m : Merge) (ours theirs : List (Entry w)) : List (Entry w) :=
  (fields (ours ++ theirs)).flatMap fun f =>
    m.merge (ours.filter (·.id = f)) (theirs.filter (·.id = f))

end Merge

namespace Edit

/-- Other entries in place of all there are, sorted and indexed. -/
def install (body : Bytes) : Edit w Unit := do
  let s ← storage "write"
  let needed := Header.size + body.length
  if s.capacity < needed then grow (needed - s.used)
  let s ← storage "write"
  put ((s.withLive body).indexed s.interval)

def merge (m : Merge) (other : Buffer w) : Edit w Unit := do
  let s ← storage m.name
  let t ← ofExcept (other.require m.name)
  install ((m.entries s.entries t.entries).flatMap Entry.encode)

end Edit

end FieldBuffers
