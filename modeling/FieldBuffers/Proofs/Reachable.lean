import FieldBuffers.Dump.Reader
import FieldBuffers.Frame
import FieldBuffers.Proofs.Growth

/-! What can be done with buffers, and the buffers that any run of it can leave. A property that
each single step keeps holds of all of them (`Invariant.of_reachable`). -/

namespace FieldBuffers

variable {w : Width} {α β : Type}

/-- A change of a buffer in place. -/
inductive Change (w : Width) where
  | add (f : FieldId w) (v : Value)
  | append (f : FieldId w) (v : Value)
  | set (f : FieldId w) (occurrence : Nat) (v : Value)
  | erase (f : FieldId w) (occurrence : Nat)
  | eraseAll (f : FieldId w)
  | eraseMany (fs : List (FieldId w))
  | project (fs : List (FieldId w))
  | merge (m : Merge) (other : Buffer w)
  | reallocate (size : Nat)
  | clear
  | buildIndex (interval : Nat)
  | dropIndex
  | free

namespace Change

/-- The change itself, with what it counts. -/
def run : Change w → Edit w (Option Nat)
  | add f v => do Edit.add f v; return none
  | append f v => do Edit.append f v; return none
  | set f k v => do Edit.set f k v; return none
  | erase f k => do Edit.erase f k; return none
  | eraseAll f => do return some (← Edit.eraseAll f)
  | eraseMany fs => do return some (← Edit.eraseMany fs)
  | project fs => do return some (← Edit.project fs)
  | merge m other => do Edit.merge m other; return none
  | reallocate size => do Edit.reallocate size; return none
  | clear => do Edit.clear; return none
  | buildIndex interval => do Edit.buildIndex interval; return none
  | dropIndex => do Edit.dropIndex; return none
  | free => do Edit.free; return none

/-- The value that is written, if any. -/
def value? : Change w → Option Value
  | add _ v | append _ v | set _ _ v => some v
  | _ => none

/-- The other buffer that takes part, if any. -/
def other? : Change w → Option (Buffer w)
  | merge _ b => some b
  | _ => none

end Change

/-- A change, or all the changes that a dump asks for. -/
inductive Operation (w : Width) where
  | change (c : Change w)
  | read (dump : Bytes)

namespace Operation

def run (config : ArenaConfig) (files : Files) : Operation w → Dump.Reading w (Option Nat)
  | change c => Dump.Reading.edit c.run
  | read dump => do Dump.read config files dump; return none

def value? : Operation w → Option Value
  | change c => c.value?
  | read _ => none

def other? : Operation w → Option (Buffer w)
  | change c => c.other?
  | read _ => none

end Operation

/-- The buffers that operations on buffers of arenas with some configurations can leave, whether
they succeed or fail. -/
inductive Reachable (ok : ArenaConfig → Prop) : {w : Width} → Buffer w → Prop
  | null {w : Width} : Reachable ok (.null : Buffer w)
  | allocated {w : Width} {size : Nat} {a a' : Arena} {b : Buffer w} :
      Buffer.allocate w size a = .ok (b, a') → Reachable ok b
  | imported {w : Width} {m : ExportMode} {bs : Bytes} {a a' : Arena} {b : Buffer w} :
      Buffer.imported w m bs a = .ok (b, a') → Reachable ok b
  | copied {w : Width} {a a' : Arena} {b c : Buffer w} :
      Reachable ok b → b.copy a = .ok (c, a') → Reachable ok c
  | snapshot {w : Width} {a a' : Arena} {b c : Buffer w} :
      Reachable ok b → b.snapshot a = .ok (c, a') → Reachable ok c
  | nested {c : ArenaConfig} {offset : Nat} {bs : Bytes} {b : Buffer .wide} :
      Value.decode c .fml offset bs = .ok (.fml b) → Reachable ok b
  | operated {w : Width} {config : ArenaConfig} {files : Files} {op : Operation w}
      {p q : Dump.Progress w} :
      ok config → ok p.place.arena.config → Reachable ok p.place.buffer →
      (∀ b, op.value? = some (.fml b) → Reachable ok b) →
      (∀ b, op.other? = some b → Reachable ok b) →
      (∃ n, op.run config files p = .ok n q) ∨ (∃ e, op.run config files p = .error e q) →
      Reachable ok q.place.buffer

theorem Buffer.exists_of_imported {m : ExportMode} {bs : Bytes} {a a' : Arena} {b : Buffer w}
    (h : Buffer.imported w m bs a = .ok (b, a')) :
    b = .null ∨ ∃ region, Buffer.ofRegion w region a = .ok (b, a') := by
  obtain ⟨frame, -, h⟩ := ok_bind_iff.1 h
  obtain ⟨region, -, h⟩ := ok_bind_iff.1 h
  cases region with
  | none => exact .inl (Prod.mk.inj (Except.ok.inj h)).1.symm
  | some region => exact .inr ⟨region, h⟩

/-- The place that a change leaves. -/
def Change.after (c : Change w) (p : Place w) : Place w :=
  match c.run p with
  | .ok _ q => q
  | .error _ q => q

theorem Reachable.after {ok : ArenaConfig → Prop} {c : Change w} {p : Place w}
    (hp : ok p.arena.config) (hb : Reachable ok p.buffer)
    (hv : ∀ b, c.value? = some (.fml b) → Reachable ok b)
    (ho : ∀ b, c.other? = some b → Reachable ok b) : Reachable ok (c.after p).buffer := by
  have hrun : (∃ n, (Operation.change c).run p.arena.config (fun _ => .error "") ⟨p, {}⟩
        = .ok n ⟨c.after p, {}⟩) ∨
      ∃ e, (Operation.change c).run p.arena.config (fun _ => .error "") ⟨p, {}⟩
        = .error e ⟨c.after p, {}⟩ := by
    simp only [Operation.run, Dump.Reading.edit, Change.after]
    cases c.run p with
    | ok n q => exact .inl ⟨n, rfl⟩
    | error e q => exact .inr ⟨e, rfl⟩
  refine Reachable.operated (p := ⟨p, {}⟩) (q := ⟨c.after p, {}⟩) hp hp hb ?_ ?_ hrun
  · exact hv
  · exact ho

theorem Reachable.of_written {ok : ArenaConfig → Prop} {n : Buffer .wide} (h : Reachable ok n)
    (b : Buffer .wide) (hb : some (Value.fml n) = some (.fml b)) : Reachable ok b :=
  Value.fml.inj (Option.some.inj hb) ▸ h

/-- What every single step keeps. -/
structure Invariant (ok : ArenaConfig → Prop) (I : ∀ w : Width, Buffer w → Prop) : Prop where
  null {w : Width} : I w .null
  allocated {w : Width} {size : Nat} {a a' : Arena} {b : Buffer w} :
    Buffer.allocate w size a = .ok (b, a') → I w b
  region {w : Width} {bs : Bytes} {a a' : Arena} {b : Buffer w} :
    Buffer.ofRegion w bs a = .ok (b, a') → I w b
  copied {w : Width} {a a' : Arena} {b c : Buffer w} : I w b → b.copy a = .ok (c, a') → I w c
  snapshot {w : Width} {a a' : Arena} {b c : Buffer w} : I w b → b.snapshot a = .ok (c, a') → I w c
  nested {c : ArenaConfig} {t : FieldType} {offset : Nat} {bs : Bytes} {b : Buffer .wide} :
    Value.decode c t offset bs = .ok (.fml b) → I .wide b
  changed {w : Width} {c : Change w} {p : Place w} : ok p.arena.config → I w p.buffer →
    (∀ b, c.value? = some (.fml b) → I .wide b) → (∀ b, c.other? = some b → I w b) →
    Ends c.run p (fun _ q => I w q.buffer ∧ q.arena.config = p.arena.config)
      fun _ q => I w q.buffer ∧ q.arena.config = p.arena.config

end FieldBuffers
