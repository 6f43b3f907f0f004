import FieldBuffers.Arena.BlockKind

/-!
Accounts of the blocks that are out: which, of what size, and the most bytes ever out at once.
-/

namespace FieldBuffers

/-- One block that is out. -/
structure Allocation where
  handle : Nat
  kind : BlockKind
  size : Nat
  resizes : Nat := 0
  deriving DecidableEq, Repr

structure Tracker where
  live : List Allocation := []
  liveBytes : Nat := 0
  peakBytes : Nat := 0
  /-- How many allocations there ever were. -/
  total : Nat := 0
  deriving DecidableEq, Repr

namespace Tracker

def get? (t : Tracker) (handle : Nat) : Option Allocation := t.live.find? (·.handle == handle)

def isLive (t : Tracker) (handle : Nat) : Bool := (t.get? handle).isSome

def liveCount (t : Tracker) : Nat := t.live.length

def without (t : Tracker) (handle : Nat) : List Allocation := t.live.filter (·.handle != handle)

def addBytes (t : Tracker) (n : Nat) : Tracker :=
  { t with liveBytes := t.liveBytes + n, peakBytes := max t.peakBytes (t.liveBytes + n) }

/-- A handle that was out before is replaced. -/
def allocate (t : Tracker) (handle : Nat) (kind : BlockKind) (size : Nat) : Tracker :=
  { t with live := { handle, kind, size } :: t.without handle, total := t.total + 1 }.addBytes size

/-- A handle that is not out is left alone. -/
def resize (t : Tracker) (handle size : Nat) : Tracker :=
  match t.get? handle with
  | none => t
  | some a =>
    { t with
      live := { a with size, resizes := a.resizes + 1 } :: t.without handle
      liveBytes := t.liveBytes - a.size }.addBytes size

def release (t : Tracker) (handle : Nat) : Tracker :=
  match t.get? handle with
  | none => t
  | some a => { t with live := t.without handle, liveBytes := t.liveBytes - a.size }

end Tracker

end FieldBuffers
