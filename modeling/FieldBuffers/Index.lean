import FieldBuffers.Entry

/-!
A sparse index of sorted entries: every `interval`-th one with the place where it starts.
-/

namespace FieldBuffers

structure Index (w : Width) where
  interval : Nat
  samples : List (FieldId w × Nat)
  deriving DecidableEq

namespace Index

variable {w : Width}

def defaultInterval : Nat := 16

/-- The entries whose place in the list is a multiple of `interval`, the first of them after `skip`
others. -/
def sampleAfter (interval : Nat) : Nat → List (Entry w) → List (FieldId w × Nat)
  | _, [] => []
  | 0, e :: es => (e.id, e.offset) :: sampleAfter interval (interval - 1) es
  | skip + 1, _ :: es => sampleAfter interval skip es

/-- An interval of zero counts as one. -/
def build (interval : Nat) (entries : List (Entry w)) : Index w :=
  let interval := max interval 1
  ⟨interval, sampleAfter interval 0 entries⟩

/-- A place from which a scan reaches the first entry of a field: the last sample below it. -/
def seek (ix : Index w) (f : FieldId w) : Nat :=
  match (ix.samples.takeWhile fun s => decide (s.1.raw < f.raw)).getLast? with
  | none => Header.size
  | some s => s.2

end Index

end FieldBuffers
