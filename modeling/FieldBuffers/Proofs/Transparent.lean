import FieldBuffers.Proofs.Lockstep

/-! Growth shows in nothing but the capacity. Runs of the same operations from empty buffers of any
two capacities give the same results and the same bytes step by step, as long as no arena refuses a
block (`agrees_of_allocated`). -/

namespace FieldBuffers

variable {α β : Type} {w : Width}

namespace Dump

/-- The buffers match, and the catalogs are the same. -/
structure Progress.Matches (p q : Progress w) : Prop where
  place : p.place.Matches q.place
  catalogs : p.catalogs = q.catalogs

theorem edit_lockstep {e : Edit w α} (he : Lockstep Place.Matches e) :
    Lockstep Progress.Matches (Reading.edit e) := by
  rintro ⟨p, cs⟩ ⟨q, _⟩ ⟨h, rfl⟩
  have hends := he p q h
  simp only [Reading.edit]
  generalize e p = x at hends
  generalize e q = y at hends
  cases hends with
  | ok h => exact .ok ⟨h, rfl⟩
  | error h => exact .error ⟨h, rfl⟩
  | left he => exact .left he
  | right he => exact .right he

theorem resolve_lockstep (r : Resolving w α) : Lockstep Progress.Matches (Reading.resolve r) := by
  rintro ⟨p, cs⟩ ⟨q, _⟩ ⟨h, rfl⟩
  simp only [Reading.resolve]
  cases r (cs.get w) with
  | ok a c => exact .ok ⟨h, rfl⟩
  | error e c => exact .error ⟨h, rfl⟩

theorem attempt_lockstep (r : Resolving w α) : Lockstep Progress.Matches (Reading.attempt r) := by
  rintro ⟨p, cs⟩ ⟨q, _⟩ ⟨h, rfl⟩
  simp only [Reading.attempt]
  cases r (cs.get w) with
  | ok a c => exact .ok ⟨h, rfl⟩
  | error e c => exact .ok ⟨h, rfl⟩

/-- A nested buffer is read into a place of its own, which is the same in both runs. -/
theorem nested_lockstep (config : ArenaConfig) (r : Reading .wide α) :
    Lockstep Progress.Matches (Reading.nested config r : Reading w (α × Buffer .wide)) := by
  rintro ⟨p, cs⟩ ⟨q, _⟩ ⟨h, rfl⟩
  simp only [Reading.nested]
  cases r ⟨⟨{ config }, .null⟩, cs⟩ with
  | ok a c => exact .ok ⟨h, rfl⟩
  | error e c => exact .error ⟨h, rfl⟩

theorem field_lockstep (files : Files) (line : Nat) (name : List Char) :
    Lockstep Progress.Matches (field files line name : Reading w (FieldId w)) := by
  rw [field]
  split
  · exact edit_lockstep (Edit.ofExcept_lockstep _)
  · exact resolve_lockstep _

theorem copied_lockstep (config : ArenaConfig) (files : Files) (cs : List Char) :
    Lockstep Progress.Matches (copied config files cs : Reading w (Option Value)) := by
  refine (attempt_lockstep _).bind fun source => ?_
  cases source with
  | none => exact .pure _
  | some f =>
    intro p q h
    change InStep _ ((Reading.edit (Edit.ofExcept (p.place.buffer.value? config f 0)) >>= _) p)
      ((Reading.edit (Edit.ofExcept (q.place.buffer.value? config f 0)) >>= _) q)
    rw [h.place.value?]
    refine ((edit_lockstep (Edit.ofExcept_lockstep _)).bind fun v => ?_) p q h
    cases v with
    | none => exact .throw _
    | some v => exact .pure _

theorem store_lockstep (flag : Flag) (f : FieldId w) (v : Value) :
    Lockstep Progress.Matches (store flag f v) := by
  cases flag with
  | set => exact edit_lockstep (Edit.set_lockstep f 0 v)
  | add => exact edit_lockstep (Edit.add_lockstep f v)
  | erase => exact edit_lockstep (Edit.add_lockstep f v)

theorem readLevel_lockstep (config : ArenaConfig) (files : Files) (depth n : Nat) :
    ∀ lines : List Line, lines.length ≤ n →
      Lockstep Progress.Matches (readLevel config files w depth lines) := by
  induction n with
  | zero =>
    intro lines hn
    obtain rfl := List.length_eq_zero_iff.1 (Nat.le_zero.1 hn)
    rw [readLevel]
    exact .pure _
  | succ n ih =>
    intro lines hn
    cases lines with
    | nil =>
      rw [readLevel]
      exact .pure _
    | cons line rest =>
      have hrest : rest.length ≤ n := Nat.le_of_succ_le_succ hn
      rw [readLevel]
      split
      · exact .pure _
      split
      · exact .throw _
      have htail : ∀ left : { r : List Line // r.length ≤ rest.length },
          Lockstep Progress.Matches (do
            let last ← readLevel config files w depth left.1
            return ⟨last.1, Nat.le_succ_of_le (Nat.le_trans last.2 left.2)⟩ :
            Reading w { r : List Line // r.length ≤ (line :: rest).length }) :=
        fun left => (ih left.1 (Nat.le_trans left.2 hrest)).bind fun _ => .pure _
      dsimp only
      -- a remark, a field to erase, a nested buffer, then any other value
      split
      · exact htail ⟨rest, Nat.le_refl _⟩
      refine (field_lockstep _ _ _).bind fun f => ?_
      split
      · intro p q h
        change InStep _ ((if _ then _ else _ : Reading w _) p) ((if _ then _ else _ : Reading w _) q)
        rw [h.place.isNull]
        split
        · exact ((edit_lockstep (Edit.retain_lockstep _ _)).bind
            fun _ => htail ⟨rest, Nat.le_refl _⟩) p q h
        · exact htail ⟨rest, Nat.le_refl _⟩ p q h
      split
      · have hnested := (nested_lockstep (w := w) config
          (readLevel config files .wide (depth + 1) rest)).bind fun b =>
            (store_lockstep (splitFlag (line.text.drop depth)).1 f (.fml b.2)).bind
              fun _ => htail b.1
        split
        · exact (Lockstep.throw _).bind fun _ => hnested
        · exact hnested
      have hread : Lockstep Progress.Matches (do
          let v ← Reading.edit (Edit.ofExcept (value line.number f.type
            (splitLine (splitFlag (line.text.drop depth)).2).2))
          store (splitFlag (line.text.drop depth)).1 f v
          let last ← readLevel config files w depth rest
          return ⟨last.1, Nat.le_succ_of_le last.2⟩ :
          Reading w { r : List Line // r.length ≤ (line :: rest).length }) :=
        (edit_lockstep (Edit.ofExcept_lockstep _)).bind fun v =>
          (store_lockstep _ f v).bind fun _ => htail ⟨rest, Nat.le_refl _⟩
      split
      · refine (copied_lockstep _ _ _).bind fun copy => ?_
        cases copy with
        | none => exact hread
        | some v => exact (store_lockstep _ f v).bind fun _ => htail ⟨rest, Nat.le_refl _⟩
      · exact hread

/-- The copies match like the buffers they are of, and a failure puts the buffers back. -/
theorem read_lockstep (config : ArenaConfig) (files : Files) (dump : Bytes) :
    Lockstep Progress.Matches (read config files dump : Reading w Unit) := by
  rintro ⟨p, cs⟩ ⟨q, _⟩ ⟨h, rfl⟩
  simp only [read]
  cases linesFrom 1 (Text.linesBy 0x0A 0x0D dump) with
  | error e => exact .error ⟨h, rfl⟩
  | ok lines =>
    dsimp only
    cases hp : p.buffer.snapshot p.arena with
    | error e => exact .left (Buffer.isRefusal_of_snapshot hp)
    | ok r =>
      cases hq : q.buffer.snapshot q.arena with
      | error e => exact .right (Buffer.isRefusal_of_snapshot hq)
      | ok r' =>
        have hcopies : r.1.Matches r'.1 :=
          (h.left.matches_snapshot hp).symm.trans (h.trans (h.right.matches_snapshot hq))
        have hlevel := readLevel_lockstep config files 0 lines.length lines
          (Nat.le_refl _) ⟨⟨r.2, r.1⟩, cs⟩ ⟨⟨r'.2, r'.1⟩, cs⟩ ⟨hcopies, rfl⟩
        dsimp only
        generalize readLevel config files w 0 lines ⟨⟨r.2, r.1⟩, cs⟩ = x at hlevel
        generalize readLevel config files w 0 lines ⟨⟨r'.2, r'.1⟩, cs⟩ = y at hlevel
        cases hlevel with
        | ok hlast => exact .ok ⟨hlast.place, hlast.catalogs⟩
        | error hlast => exact .error ⟨h, hlast.catalogs⟩
        | left he => exact .left he
        | right he => exact .right he

end Dump

instance : DecidablePred Error.IsRefusal := fun e =>
  decidable_of_iff (e.code = "E060") (by cases e <;> simp [Error.IsRefusal, Error.code])

namespace Operation

theorem lockstep (op : Operation w) (config : ArenaConfig) (files : Files) :
    Lockstep Dump.Progress.Matches (op.run config files) := by
  cases op with
  | change c => exact Dump.edit_lockstep c.lockstep
  | read dump => exact (Dump.read_lockstep config files dump).bind fun _ => .pure _

/-- The results of operations one after the other, each with the buffer that it leaves. One that
fails does not end the run. -/
def trace (config : ArenaConfig) (files : Files) :
    List (Operation w) → Dump.Progress w → List (Except Error (Option Nat) × Buffer w)
  | [], _ => []
  | op :: ops, p =>
    match op.run config files p with
    | .ok n q => (.ok n, q.place.buffer) :: trace config files ops q
    | .error e q => (.error e, q.place.buffer) :: trace config files ops q

/-- A block was refused. -/
def Refused (r : Except Error (Option Nat)) : Prop := ∃ e, r = .error e ∧ e.IsRefusal

instance : DecidablePred Refused
  | .ok _ => isFalse fun ⟨_, h, _⟩ => by cases h
  | .error e => decidable_of_iff e.IsRefusal
    ⟨fun h => ⟨e, rfl, h⟩, fun ⟨_, h, he⟩ => Except.error.inj h ▸ he⟩

end Operation

namespace Buffer

/-- The buffers differ at most in their capacity and in the bytes that are not in use. -/
structure Agrees (b c : Buffer w) : Prop where
  isNull : b.isNull = c.isNull
  used : b.used = c.used
  bytes : b.region.drop Header.size = c.region.drop Header.size
  length : b.length = c.length
  index : b.index? = c.index?
  checksum : b.checksum = c.checksum
  standalone : b.standalone = c.standalone

theorem Matches.agrees {b c : Buffer w} (h : b.Matches c) : b.Agrees c := by
  cases h with
  | null => exact ⟨rfl, rfl, rfl, rfl, rfl, rfl, rfl⟩
  | @allocated s t h =>
    have hbytes : s.region.drop Header.size = t.region.drop Header.size := by
      rw [s.drop_region, t.drop_region, h.live]
    have hsum : Checksum.crc32 s.live = Checksum.crc32 t.live := by rw [h.live]
    exact ⟨rfl, h.used, hbytes, congrArg List.length h.entries, h.index, congrArg Except.ok hsum,
      h.standalone⟩

end Buffer

namespace Operation

theorem agrees_of_matches (config : ArenaConfig) (files : Files) (ops : List (Operation w)) :
    ∀ p q : Dump.Progress w, p.Matches q →
      (∀ l ∈ trace config files ops p, ¬ Refused l.1) →
      (∀ r ∈ trace config files ops q, ¬ Refused r.1) →
      List.Forall₂ (fun l r => l.1 = r.1 ∧ l.2.Agrees r.2) (trace config files ops p)
        (trace config files ops q) := by
  induction ops with
  | nil => exact fun _ _ _ _ _ => .nil
  | cons op ops ih =>
    intro p q h hp hq
    have hstep := op.lockstep config files p q h
    rw [trace] at hp ⊢
    rw [trace] at hq ⊢
    generalize op.run config files p = x at hstep hp ⊢
    generalize op.run config files q = y at hstep hq ⊢
    cases hstep with
    | ok h =>
      obtain ⟨-, hp⟩ := List.forall_mem_cons.1 hp
      obtain ⟨-, hq⟩ := List.forall_mem_cons.1 hq
      exact .cons ⟨rfl, h.place.agrees⟩ (ih _ _ h hp hq)
    | error h =>
      obtain ⟨-, hp⟩ := List.forall_mem_cons.1 hp
      obtain ⟨-, hq⟩ := List.forall_mem_cons.1 hq
      exact .cons ⟨rfl, h.place.agrees⟩ (ih _ _ h hp hq)
    | left he => exact absurd ⟨_, rfl, he⟩ (List.forall_mem_cons.1 hp).1
    | right he => exact absurd ⟨_, rfl, he⟩ (List.forall_mem_cons.1 hq).1

end Operation

/-- From empty buffers of any two sizes, operations give the same results and leave the same entry
bytes, length, index and checksum step by step, as long as no arena refuses a block. -/
theorem agrees_of_allocated {m n : Nat} {a b a' b' : Arena} {x y : Buffer w}
    (hx : Buffer.allocate w m a = .ok (x, a')) (hy : Buffer.allocate w n b = .ok (y, b'))
    (config : ArenaConfig) (files : Files) (catalogs : Catalogs) (ops : List (Operation w))
    (hp : ∀ l ∈ Operation.trace config files ops ⟨⟨a', x⟩, catalogs⟩, ¬ Operation.Refused l.1)
    (hq : ∀ r ∈ Operation.trace config files ops ⟨⟨b', y⟩, catalogs⟩, ¬ Operation.Refused r.1) :
    List.Forall₂ (fun l r => l.1 = r.1 ∧ l.2.Agrees r.2)
      (Operation.trace config files ops ⟨⟨a', x⟩, catalogs⟩)
      (Operation.trace config files ops ⟨⟨b', y⟩, catalogs⟩) := by
  obtain ⟨rfl, -⟩ := Buffer.allocate_eq_ok hx
  obtain ⟨rfl, -⟩ := Buffer.allocate_eq_ok hy
  have hfresh := Storage.matches_fresh w a.nextHandle b.nextHandle (max m Header.size)
    (max n Header.size)
  exact Operation.agrees_of_matches config files ops _ _ ⟨.allocated hfresh, rfl⟩ hp hq

theorem agrees_after_growth :
    let f : FieldId .wide := ⟨.carray, 1, by decide, by decide, by decide⟩
    let g : FieldId .wide := ⟨.char, 2, by decide, by decide, by decide⟩
    let ops : List (Operation .wide) :=
      [.change (.add f (.carray (List.replicate 40 1))), .change (.set f 3 (.carray [2, 3])),
        .change (.add g (.char 7)), .change (.erase f 9), .change (.reallocate 20),
        .change (.eraseAll f), .change (.append f (.carray (List.replicate 110 4)))]
    let run := Operation.trace {} (fun _ => .error "") ops
    ∃ x y a b, Buffer.allocate .wide 16 {} = .ok (x, a) ∧
      Buffer.allocate .wide 256 {} = .ok (y, b) ∧
      (run ⟨⟨a, x⟩, {}⟩).map (·.2.capacity) = [64, 128, 128, 128, 128, 128, 256] ∧
      (run ⟨⟨b, y⟩, {}⟩).map (·.2.capacity) = [256, 256, 256, 256, 256, 256, 256] ∧
      List.Forall₂ (fun l r => l.1 = r.1 ∧ l.2.Agrees r.2) (run ⟨⟨a, x⟩, {}⟩)
        (run ⟨⟨b, y⟩, {}⟩) := by
  intro f g ops run
  refine ⟨_, _, _, _, rfl, rfl, by decide +kernel, by decide +kernel, ?_⟩
  exact agrees_of_allocated (m := 16) (n := 256) (a := {}) (b := {}) rfl rfl {} (fun _ => .error "")
    {} ops (by decide +kernel) (by decide +kernel)

end FieldBuffers
