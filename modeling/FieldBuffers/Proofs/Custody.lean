import FieldBuffers.Proofs.Settling

/-! Who has the blocks of an arena. Blocks by themselves and buffers come and go, and after each
step the accounts agree with those that are held (`accounted_of_run`). -/

namespace FieldBuffers

open Books

variable {w : Width} {α : Type}

namespace Dump

theorem edit_settling {e : Edit w α} (he : Settling id e) :
    Settling Progress.place (Reading.edit e) :=
  fun p hp => Reading.ends_edit.2 (he p.place hp)

theorem resolve_settling (r : Resolving w α) :
    Settling Progress.place (Reading.resolve r) := by
  intro p hp
  simp only [Ends, Reading.resolve]
  cases r (p.catalogs.get w) with
  | ok a c => exact Place.Settles.refl hp
  | error e c => exact Place.Settles.refl hp

theorem attempt_settling (r : Resolving w α) :
    Settling Progress.place (Reading.attempt r) := by
  intro p hp
  simp only [Ends, Reading.attempt]
  cases r (p.catalogs.get w) with
  | ok a c => exact Place.Settles.refl hp
  | error e c => exact Place.Settles.refl hp

/-- A nested buffer is read into a place of its own. -/
theorem nested_settling (config : ArenaConfig) (r : Reading .wide α) :
    Settling Progress.place (Reading.nested config r : Reading w (α × Buffer .wide)) := by
  intro p hp
  simp only [Ends, Reading.nested]
  cases r ⟨⟨{ config }, .null⟩, p.catalogs⟩ with
  | ok b q => exact Place.Settles.refl hp
  | error e q => exact Place.Settles.refl hp

theorem field_settling (files : Files) (line : Nat) (name : List Char) :
    Settling Progress.place (field files line name : Reading w (FieldId w)) := by
  rw [field]
  split
  · exact edit_settling (Edit.ofExcept_settling _)
  · exact resolve_settling _

theorem copied_settling (config : ArenaConfig) (files : Files) (cs : List Char) :
    Settling Progress.place (copied config files cs : Reading w (Option Value)) := by
  refine (attempt_settling _).bind fun source => ?_
  cases source with
  | none => exact .pure _
  | some f =>
    refine .get fun p => (edit_settling (Edit.ofExcept_settling _)).bind fun v => ?_
    cases v with
    | none => exact .throw _
    | some v => exact .pure _

theorem store_settling (flag : Flag) (f : FieldId w) (v : Value) :
    Settling Progress.place (store flag f v) := by
  cases flag with
  | set => exact edit_settling (Edit.set_settling f 0 v)
  | add => exact edit_settling (Edit.add_settling f v)
  | erase => exact edit_settling (Edit.add_settling f v)

theorem readLevel_settling (config : ArenaConfig) (files : Files) (depth n : Nat) :
    ∀ lines : List Line, lines.length ≤ n →
      Settling Progress.place (readLevel config files w depth lines) := by
  induction n with
  | zero =>
    intro lines hn
    obtain rfl := List.length_eq_zero_iff.1 (Nat.le_zero.1 hn)
    rw [readLevel]
    exact .pure _
  | succ n ih =>
    intro lines hn
    cases lines with
    | nil =>
      rw [readLevel]
      exact .pure _
    | cons line rest =>
      have hrest : rest.length ≤ n := Nat.le_of_succ_le_succ hn
      rw [readLevel]
      split
      · exact .pure _
      split
      · exact .throw _
      have htail : ∀ left : { r : List Line // r.length ≤ rest.length },
          Settling Progress.place (do
            let last ← readLevel config files w depth left.1
            return ⟨last.1, Nat.le_succ_of_le (Nat.le_trans last.2 left.2)⟩ :
            Reading w { r : List Line // r.length ≤ (line :: rest).length }) :=
        fun left => (ih left.1 (Nat.le_trans left.2 hrest)).bind fun _ => .pure _
      dsimp only
      -- a remark, a field to erase, a nested buffer, then any other value
      split
      · exact htail ⟨rest, Nat.le_refl _⟩
      refine (field_settling _ _ _).bind fun f => ?_
      split
      · refine .get fun p => ?_
        split
        · exact (edit_settling (Edit.retain_settling _ _)).bind
            fun _ => htail ⟨rest, Nat.le_refl _⟩
        · exact htail ⟨rest, Nat.le_refl _⟩
      split
      · have hnested := (nested_settling (w := w) config
          (readLevel config files .wide (depth + 1) rest)).bind fun b =>
            (store_settling (splitFlag (line.text.drop depth)).1 f (.fml b.2)).bind
              fun _ => htail b.1
        split
        · exact (Settling.throw _).bind fun _ => hnested
        · exact hnested
      have hread : Settling Progress.place (do
          let v ← Reading.edit (Edit.ofExcept (value line.number f.type
            (splitLine (splitFlag (line.text.drop depth)).2).2))
          store (splitFlag (line.text.drop depth)).1 f v
          let last ← readLevel config files w depth rest
          return ⟨last.1, Nat.le_succ_of_le last.2⟩ :
          Reading w { r : List Line // r.length ≤ (line :: rest).length }) :=
        (edit_settling (Edit.ofExcept_settling _)).bind fun v =>
          (store_settling _ f v).bind fun _ => htail ⟨rest, Nat.le_refl _⟩
      split
      · refine (copied_settling _ _ _).bind fun copy => ?_
        cases copy with
        | none => exact hread
        | some v => exact (store_settling _ f v).bind fun _ => htail ⟨rest, Nat.le_refl _⟩
      · exact hread

/-- Of the buffer and the copy that the lines are applied to, the block of one is given back. -/
theorem read_settling (config : ArenaConfig) (files : Files) (dump : Bytes) :
    Settling Progress.place (read config files dump : Reading w Unit) := by
  intro p hp
  simp only [Ends, read]
  cases linesFrom 1 (Text.linesBy 0x0A 0x0D dump) with
  | error e => exact Place.Settles.refl hp
  | ok lines =>
    dsimp only
    cases hs : p.place.buffer.snapshot p.place.arena with
    | error e => exact Place.Settles.refl hp
    | ok r =>
      obtain ⟨copy, arena⟩ := r
      have hgranted := Buffer.granted_snapshot hp.fitted hs
      have hconfig := snapshot_config hs
      have hgood : Place.Good ⟨arena, copy⟩ := ⟨hgranted.fitted, hconfig.symm ▸ hp.stated⟩
      have hlevel := readLevel_settling config files 0 lines.length lines (Nat.le_refl _)
        ⟨⟨arena, copy⟩, p.catalogs⟩ hgood
      rw [Ends] at hlevel
      dsimp only
      cases hq : readLevel config files w 0 lines ⟨⟨arena, copy⟩, p.catalogs⟩ with
      | error e q =>
        rw [hq] at hlevel
        have hback := Buffer.config_released q.place.arena q.place.buffer
        refine ⟨hp.fitted, hback.trans (hlevel.config.trans hconfig), fun out => ?_⟩
        exact ((hgranted.updates _).trans (hlevel.updates _)).trans
          (Buffer.updates_released q.place.arena q.place.buffer (p.place.buffer.out + out))
      | ok a q =>
        rw [hq] at hlevel
        have hback := Buffer.config_released q.place.arena p.place.buffer
        refine ⟨hlevel.fitted, hback.trans (hlevel.config.trans hconfig), fun out => ?_⟩
        have hboth := (hgranted.updates (p.place.buffer.out + out)).trans (hlevel.updates _)
        rw [add_left_comm] at hboth
        exact hboth.trans (Buffer.updates_released q.place.arena p.place.buffer _)

end Dump

theorem Operation.settling (op : Operation w) (config : ArenaConfig) (files : Files) :
    Settling Dump.Progress.place (op.run config files) := by
  cases op with
  | change c => exact Dump.edit_settling c.settling
  | read dump => exact (Dump.read_settling config files dump).bind fun _ => .pure _

/-- What someone has of an arena: a block, or a buffer with its block, if it is not null. -/
inductive Holding where
  | block (b : Block)
  | buffer {w : Width} (b : Buffer w)

namespace Holding

def out : Holding → Multiset (Nat × Nat)
  | block b => {(b.handle, b.capacity)}
  | buffer b => b.out

def Fitted : Holding → Prop
  | block _ => True
  | buffer b => b.Fitted

end Holding

/-- An arena, and all that is held of it. -/
structure Custody where
  arena : Arena
  held : Multiset Holding

namespace Custody

def opened (c : ArenaConfig) : Custody := ⟨{ config := c }, 0⟩

/-- The blocks that are out, one for each block that is held and for each buffer that is not
null. -/
def out (s : Custody) : Multiset (Nat × Nat) := s.held.bind Holding.out

def books (s : Custody) : Books := ⟨s.arena, s.out⟩

/-- The ways to a new buffer: a null one, one of some size, one from outside, a copy of one that is
held, and one that was a value in another. -/
inductive Gets (s : Custody) : {w : Width} → Buffer w → Arena → Prop
  | null {w : Width} : Gets s (.null : Buffer w) s.arena
  | allocated {w : Width} {size : Nat} {b : Buffer w} {a : Arena} :
      Buffer.allocate w size s.arena = .ok (b, a) → Gets s b a
  | imported {w : Width} {m : ExportMode} {bs : Bytes} {b : Buffer w} {a : Arena} :
      Buffer.imported w m bs s.arena = .ok (b, a) → Gets s b a
  | region {w : Width} {bs : Bytes} {b : Buffer w} {a : Arena} :
      Buffer.ofRegion w bs s.arena = .ok (b, a) → Gets s b a
  | snapshot {w : Width} {b c : Buffer w} {a : Arena} :
      .buffer c ∈ s.held → c.snapshot s.arena = .ok (b, a) → Gets s b a
  | copied {w : Width} {b c : Buffer w} {a : Arena} :
      .buffer c ∈ s.held → c.copy s.arena = .ok (b, a) → Gets s b a
  | nested {config : ArenaConfig} {offset : Nat} {bs : Bytes} {b c : Buffer .wide} {a : Arena} :
      Value.decode config .fml offset bs = .ok (.fml c) → c.snapshot s.arena = .ok (b, a) →
      Gets s b a

/-- What may happen next. The headers of buffers can state the sizes of blocks below four gigabytes,
and buffers of larger ones are not written. -/
inductive Step : Custody → Custody → Prop
  | allocate {a a' : Arena} {held : Multiset Holding} {kind : BlockKind} {subtype : String}
      {size : Nat} {b : Block} :
      a.allocate kind subtype size = .ok (b, a') → Step ⟨a, held⟩ ⟨a', .block b ::ₘ held⟩
  | grow {a a' : Arena} {held : Multiset Holding} {b b' : Block} {size : Nat} :
      a.grow b size = .ok (b', a') → Step ⟨a, .block b ::ₘ held⟩ ⟨a', .block b' ::ₘ held⟩
  | shrink {a : Arena} {held : Multiset Holding} {b : Block} {size : Nat} :
      Step ⟨a, .block b ::ₘ held⟩ ⟨(a.shrink b size).2, .block (a.shrink b size).1 ::ₘ held⟩
  | write {a : Arena} {held : Multiset Holding} {b : Block} {start : Nat} {bs : Bytes} :
      Step ⟨a, .block b ::ₘ held⟩ ⟨a, .block (b.write start bs) ::ₘ held⟩
  | release {a : Arena} {held : Multiset Holding} {b : Block} :
      Step ⟨a, .block b ::ₘ held⟩ ⟨a.release b.handle, held⟩
  | get {s : Custody} {w : Width} {b : Buffer w} {a : Arena} :
      s.Gets b a → Step s ⟨a, .buffer b ::ₘ s.held⟩
  | replace {a a' : Arena} {held : Multiset Holding} {w : Width} {b c : Buffer w} :
      Gets ⟨a, .buffer b ::ₘ held⟩ c a' →
      Step ⟨a, .buffer b ::ₘ held⟩ ⟨b.released a', .buffer c ::ₘ held⟩
  | take {a : Arena} {held : Multiset Holding} {w : Width} {b : Buffer w} :
      Step ⟨a, .buffer b ::ₘ held⟩
        ⟨a, .buffer b ::ₘ .buffer (.null : Buffer w) ::ₘ held⟩
  | drop {a : Arena} {held : Multiset Holding} {w : Width} {b : Buffer w} :
      Step ⟨a, .buffer b ::ₘ held⟩ ⟨b.released a, held⟩
  | operate {a : Arena} {held : Multiset Holding} {w : Width} {b : Buffer w} {op : Operation w}
      {config : ArenaConfig} {files : Files} {catalogs : Catalogs} {q : Dump.Progress w} :
      a.config.Stated →
      (∃ n, op.run config files ⟨⟨a, b⟩, catalogs⟩ = .ok n q) ∨
        (∃ e, op.run config files ⟨⟨a, b⟩, catalogs⟩ = .error e q) →
      Step ⟨a, .buffer b ::ₘ held⟩ ⟨q.place.arena, .buffer q.place.buffer ::ₘ held⟩

/-- What happened from the opening of an arena on, with the latest first. -/
inductive Run (c : ArenaConfig) : Custody → List Custody → Prop
  | opened : Run c (opened c) []
  | step {s t : Custody} {past : List Custody} : Run c s past → Step s t → Run c t (s :: past)

variable {s t : Custody} {b : Buffer w} {a a' : Arena} {held : Multiset Holding} {x y : Holding}

theorem Gets.granted (h : s.Gets b a) (hs : ∀ x ∈ s.held, x.Fitted) :
    Buffer.Granted s.arena b a := by
  cases h with
  | null => exact Buffer.granted_null _
  | allocated h => exact Buffer.granted_allocate h
  | imported h => exact Buffer.granted_imported h
  | region h => exact Buffer.granted_ofRegion h
  | snapshot hc h => exact Buffer.granted_snapshot (hs _ hc) h
  | copied hc h => exact Buffer.granted_copy (hs _ hc) h
  | @nested _ _ _ _ c _ hc h =>
    have hsound : c.Sound := Value.built_decode hc _ rfl
    exact Buffer.granted_snapshot hsound.fitted h

@[simp] theorem books_cons (a : Arena) (x : Holding) (held : Multiset Holding) :
    books ⟨a, x ::ₘ held⟩ = ⟨a, x.out + held.bind Holding.out⟩ := by
  rw [books, out, Multiset.cons_bind]

/-- Nothing changes for what others hold. -/
theorem keeps_of_updates (hy : y.Fitted)
    (h : ∀ out, Updates ⟨a, x.out + out⟩ ⟨a', y.out + out⟩)
    (hs : ∀ z ∈ x ::ₘ held, z.Fitted) :
    (∀ z ∈ y ::ₘ held, z.Fitted) ∧ Updates (books ⟨a, x ::ₘ held⟩) (books ⟨a', y ::ₘ held⟩) := by
  rw [books_cons, books_cons]
  rw [Multiset.forall_mem_cons] at hs ⊢
  exact ⟨⟨hy, hs.2⟩, h _⟩

/-- A step keeps buffers in their blocks, and the accounts follow it. -/
theorem Step.keeps (h : Step s t) (hs : ∀ x ∈ s.held, x.Fitted) :
    (∀ x ∈ t.held, x.Fitted) ∧ Updates s.books t.books := by
  cases h with
  | allocate hb =>
    rw [books_cons, Multiset.forall_mem_cons]
    exact ⟨⟨trivial, hs⟩, updates_allocate hb _⟩
  | grow hb => exact keeps_of_updates trivial (updates_grow hb) hs
  | shrink => exact keeps_of_updates trivial (updates_shrink _ _ _) hs
  | write =>
    refine keeps_of_updates trivial (fun out => ?_) hs
    rw [Holding.out, Holding.out, capacity_write]
    exact .refl
  | release =>
    rw [books_cons]
    exact ⟨(Multiset.forall_mem_cons.1 hs).2, .single .release⟩
  | get hb =>
    have hgranted := hb.granted hs
    rw [books_cons, Multiset.forall_mem_cons]
    exact ⟨⟨hgranted.fitted, hs⟩, hgranted.updates _⟩
  | @replace a a' held w b c hc =>
    have hgranted := hc.granted hs
    refine keeps_of_updates hgranted.fitted (fun out => ?_) hs
    have hboth := hgranted.updates (b.out + out)
    rw [add_left_comm] at hboth
    exact hboth.trans (Buffer.updates_released a' b _)
  | take =>
    rw [Multiset.forall_mem_cons] at hs
    simp only [Multiset.forall_mem_cons, books_cons, Multiset.cons_bind]
    refine ⟨⟨hs.1, Buffer.fitted_null, hs.2⟩, ?_⟩
    rw [show Holding.out (.buffer .null) = 0 from rfl, zero_add]
  | @drop a held w b =>
    rw [books_cons]
    exact ⟨(Multiset.forall_mem_cons.1 hs).2, Buffer.updates_released a b _⟩
  | @operate a held w b op config files catalogs q hc hrun =>
    have hgood : Place.Good ⟨a, b⟩ := ⟨hs _ (Multiset.mem_cons_self ..), hc⟩
    have hends := op.settling config files ⟨⟨a, b⟩, catalogs⟩ hgood
    have hsettles : Place.Settles ⟨a, b⟩ q.place := by
      rcases hrun with ⟨n, hrun⟩ | ⟨e, hrun⟩
      · exact (ends_of_ok hrun).1 hends
      · exact (ends_of_error hrun).1 hends
    exact keeps_of_updates hsettles.fitted hsettles.updates hs

/-- What a run keeps. -/
theorem Run.keeps {c : ArenaConfig} {past : List Custody} (h : Run c s past) :
    (∀ x ∈ s.held, x.Fitted) ∧
      (∃ books, History c s.books books ∧ ∀ t ∈ past, t.books ∈ s.books :: books) ∧
      ∀ t ∈ past, t.arena.tracker.total ≤ s.arena.tracker.total := by
  induction h with
  | opened => exact ⟨nofun, ⟨[], .opened, nofun⟩, nofun⟩
  | @step s t past _ hstep ih =>
    obtain ⟨hfitted, ⟨books, hhistory, hmem⟩, htotal⟩ := ih
    obtain ⟨hkeeps, hupdates⟩ := hstep.keeps hfitted
    obtain ⟨later, hlater, hsub⟩ := hhistory.extend hupdates
    have hle : s.arena.tracker.total ≤ t.arena.tracker.total := hupdates.total_le
    refine ⟨hkeeps, ⟨later, hlater, ?_⟩, ?_⟩
    · rw [List.forall_mem_cons]
      exact ⟨hsub List.mem_cons_self, fun u hu => hsub (hmem u hu)⟩
    · rw [List.forall_mem_cons]
      exact ⟨hle, fun u hu => (htotal u hu).trans hle⟩

end Custody

end FieldBuffers
