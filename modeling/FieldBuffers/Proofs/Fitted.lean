import Mathlib.Data.List.Perm.Subperm
import FieldBuffers.Proofs.Atomic

/-! Writes stay inside the block. Whatever a write puts into a storage that lies in its block, the
block keeps its handle and its size (`Storage.Refits`). -/

namespace FieldBuffers

open Item

variable {w : Width} {s t u : Storage w} {f : FieldId w} {es : List (Entry w)} {e : Entry w}

namespace Storage

theorem capacity_withLive {live : Bytes} (h : s.Within)
    (hfit : Header.size + live.length ≤ s.capacity) : (s.withLive live).capacity = s.capacity := by
  simp only [Within, capacity, withLive, List.length_append, List.length_drop,
    Bytes.length_zeros] at h hfit ⊢
  omega

theorem capacity_resized (s : Storage w) {size : Nat} (h : Header.size ≤ size) :
    (s.resized size).capacity = size := by
  simp only [capacity, resized, List.length_append, List.length_take, Bytes.length_zeros]
  omega

/-- The header and the bytes in use lie in a block whose size a header can state, and the index
points behind the header. -/
structure Fitted (s : Storage w) : Prop where
  header_le : Header.size ≤ s.used
  used_le : s.used ≤ s.capacity
  capacity_lt : s.capacity < 2 ^ 32
  index : ∀ ix, s.index = some ix → ∀ p ∈ ix.samples, Header.size ≤ p.2

/-- Something else in the same block. -/
structure Refits (s t : Storage w) : Prop where
  fitted : t.Fitted
  handle : t.handle = s.handle
  capacity : t.capacity = s.capacity

theorem Refits.refl (h : s.Fitted) : s.Refits s := ⟨h, rfl, rfl⟩

theorem Refits.trans (h : s.Refits t) (h' : t.Refits u) : s.Refits u :=
  ⟨h'.fitted, h'.handle.trans h.handle, h'.capacity.trans h.capacity⟩

namespace Fitted

theorem length_live (h : s.Fitted) : Header.size + s.live.length = s.used := by
  have hlive := Within.length_live h.used_le
  have hle := h.header_le
  omega

theorem withLive (h : s.Fitted) {live : Bytes} (hfit : Header.size + live.length ≤ s.capacity) :
    s.Refits (s.withLive live) := by
  have hused : (s.withLive live).used = Header.size + live.length :=
    UInt32.toNat_ofNat'.trans (Nat.mod_eq_of_lt (Nat.lt_of_le_of_lt hfit h.capacity_lt))
  have hcap := capacity_withLive h.used_le hfit
  refine ⟨⟨?_, ?_, hcap ▸ h.capacity_lt, h.index⟩, rfl, hcap⟩
  · exact hused ▸ Nat.le_add_right ..
  · rw [hused, hcap]
    exact hfit

/-- An entry that a scan finds lies between the header and the end of the bytes in use. -/
theorem bounds_of_mem (h : s.Fitted) {offset : Nat} (ho : Header.size ≤ offset)
    (he : e ∈ s.entriesFrom offset) : Header.size ≤ e.offset ∧ e.stop ≤ s.used := by
  obtain ⟨xs, rest, hbytes, -, hscan⟩ :=
    Entry.exists_scan (w := w) offset (s.live.drop (offset - Header.size))
  rw [entriesFrom, hscan] at he
  obtain ⟨as, x, bs, rfl, rfl⟩ := layout_split he
  have hlen := congrArg List.length hbytes
  simp only [List.length_drop, List.length_append, encodeAll_append, encodeAll_cons,
    length_encode] at hlen
  have hpos := x.size_pos
  have hlive := h.length_live
  have hstop : (x.entry (offset + (encodeAll as).length)).stop
      = offset + (encodeAll as).length + x.size := rfl
  constructor
  · exact Nat.le_trans ho (Nat.le_add_right ..)
  · rw [hstop]
    omega

theorem entriesFrom_header (s : Storage w) : s.entriesFrom Header.size = s.entries := by
  rw [entriesFrom, Nat.sub_self, List.drop_zero, entries]

theorem header_le_seek (h : s.Fitted) {ix : Index w} (hi : s.index = some ix) (f : FieldId w) :
    Header.size ≤ ix.seek f := by
  rw [Index.seek]
  split
  · exact Nat.le_refl _
  · rename_i p hp
    exact h.index ix hi p ((List.takeWhile_sublist _).subset (List.mem_of_getLast? hp))

theorem bounds_of_mem_occurrences (h : s.Fitted) (he : e ∈ s.occurrences f) :
    Header.size ≤ e.offset ∧ e.stop ≤ s.used := by
  rw [occurrences] at he
  split at he
  · rename_i ix hi
    have he := (List.dropWhile_sublist _).subset ((List.takeWhile_sublist _).subset he)
    exact h.bounds_of_mem (h.header_le_seek hi f) he
  · refine h.bounds_of_mem (Nat.le_refl _) ?_
    rw [entriesFrom_header]
    exact (List.mem_filter.1 he).1

theorem bounds_insertPoint (h : s.Fitted) (f : FieldId w) :
    Header.size ≤ s.insertPoint f ∧ s.insertPoint f ≤ s.used := by
  rw [insertPoint]
  split
  · rename_i ix hi
    split
    · rename_i e he
      obtain ⟨hstart, hstop⟩ :=
        h.bounds_of_mem (h.header_le_seek hi f) (List.mem_of_find?_eq_some he)
      exact ⟨hstart, Nat.le_trans (Nat.le_add_right ..) hstop⟩
    · exact ⟨h.header_le, Nat.le_refl _⟩
  · exact ⟨h.header_le, Nat.le_refl _⟩

theorem header_le_build (h : s.Fitted) (interval : Nat) :
    ∀ p ∈ (Index.build interval s.entries).samples, Header.size ≤ p.2 := by
  intro p hp
  obtain ⟨e, he, rfl⟩ := Index.exists_of_mem_sampleAfter hp
  exact (h.bounds_of_mem (Nat.le_refl _) (entriesFrom_header s ▸ he)).1

/-- Nothing about the block changes with the flag, the index and the interval. -/
theorem indexedBy (h : s.Fitted) (b : Bool) (interval : Nat) {index : Option (Index w)}
    (hi : ∀ ix, index = some ix → ∀ p ∈ ix.samples, Header.size ≤ p.2) :
    s.Refits { s with header := s.header.setIndexed b, index, interval } :=
  ⟨⟨h.header_le, h.used_le, h.capacity_lt, hi⟩, rfl, rfl⟩

theorem reindexed (h : s.Fitted) : s.Refits s.reindexed := by
  rw [Storage.reindexed]
  split
  · exact .refl h
  · refine ⟨⟨h.header_le, h.used_le, h.capacity_lt, ?_⟩, rfl, rfl⟩
    rintro ix hix
    exact Option.some.inj hix ▸ h.header_le_build _

theorem unindexed (h : s.Fitted) : s.Refits s.unindexed := h.indexedBy false s.interval nofun

/-- Entries of a scan take no more bytes than are in use. -/
theorem length_flatMap_le (h : s.Fitted) (hsub : es.Subperm s.entries) :
    Header.size + (es.flatMap Entry.encode).length ≤ s.capacity := by
  obtain ⟨xs, rest, hbytes, -, hscan⟩ := Entry.exists_scan (w := w) Header.size s.live
  rw [entries, hscan] at hsub
  obtain ⟨ds, hperm, hsub⟩ := hsub
  have hitems : (ds.map Entry.item).Sublist xs := map_item_layout Header.size xs ▸ hsub.map _
  have hle : (encodeAll (es.map Entry.item)).length ≤ (encodeAll xs).length :=
    (length_encodeAll_perm (hperm.symm.map _)).trans_le (length_encodeAll_sublist hitems)
  have hlen := congrArg List.length hbytes
  rw [List.length_append] at hlen
  have hlive := h.length_live
  have hused := h.used_le
  rw [Entry.flatMap_encode]
  omega

theorem indexed (h : s.Fitted) (interval : Nat) : s.Refits (s.indexed interval) := by
  have hperm : (sortEntries s.entries).Perm s.entries := List.mergeSort_perm ..
  have hsorted := h.withLive (h.length_flatMap_le hperm.subperm)
  refine hsorted.trans (hsorted.fitted.indexedBy true _ ?_)
  rintro ix hix
  exact Option.some.inj hix ▸ hsorted.fitted.header_le_build _

theorem retain (h : s.Fitted) (keep : FieldId w → Bool) : s.Refits (s.retain keep) := by
  have hsub : (s.entries.filter fun e => keep e.id).Sublist s.entries := List.filter_sublist
  have hkept := h.withLive (h.length_flatMap_le hsub.subperm)
  rw [retain_eq]
  exact hkept.trans hkept.fitted.reindexed

theorem splice (h : s.Fitted) {start stop : Nat} {bytes : Bytes} (hstart : Header.size ≤ start)
    (hle : start ≤ stop) (hstop : stop ≤ s.used) (hs : s.splice start stop bytes = .ok t) :
    s.Refits t := by
  rw [splice_eq_ok hs]
  refine h.withLive ?_
  unfold Storage.splice at hs
  dsimp only at hs
  split at hs
  · cases hs
  · have hlive := h.length_live
    simp only [List.length_append, List.length_take, List.length_drop]
    omega

theorem resized (h : s.Fitted) {size : Nat} (hused : s.used ≤ size) (hlt : size < 2 ^ 32) :
    (s.resized size).Fitted ∧ (s.resized size).capacity = size := by
  have hcap := s.capacity_resized (h.header_le.trans hused)
  exact ⟨⟨h.header_le, hused.trans hcap.ge, hcap.trans_lt hlt, h.index⟩, hcap⟩

/-- The same bytes in use, in a block of the same size. -/
theorem moved (h : s.Fitted) (handle : Nat) {body : Bytes} (hb : body.length = s.body.length) :
    Fitted { s with handle, body } ∧ capacity { s with handle, body } = s.capacity := by
  have hcap : capacity { s with handle, body } = s.capacity := congrArg (Header.size + ·) hb
  exact ⟨⟨h.header_le, hcap ▸ h.used_le, hcap ▸ h.capacity_lt, h.index⟩, hcap⟩

end Fitted

theorem Holds.fitted {xs : List (Item w)} (h : s.Holds xs) : s.Fitted where
  header_le := h.used ▸ Nat.le_add_right ..
  used_le := h.used_le
  capacity_lt := h.capacity_lt
  index ix hix p hp := by
    rw [h.index ix hix] at hp
    obtain ⟨e, he, rfl⟩ := Index.exists_of_mem_sampleAfter hp
    obtain ⟨as, x, bs, -, rfl⟩ := layout_split he
    exact Nat.le_add_right ..

/-- A write that succeeds leaves the block as it was. -/
def Steady (write : Storage w → Except Error (Storage w)) : Prop :=
  ∀ s t, s.Fitted → write s = .ok t → s.Refits t

theorem insert_steady (f : FieldId w) (entry : Bytes) : Steady (insert f entry) := by
  intro s t h ht
  obtain ⟨u, hu, rfl⟩ := ok_map_iff.1 ht
  obtain ⟨hstart, hstop⟩ := h.bounds_insertPoint f
  have hrefits := h.splice hstart (Nat.le_refl _) hstop hu
  exact hrefits.trans hrefits.fitted.reindexed

theorem push_steady (entry : Bytes) : Steady (push (w := w) entry) := by
  intro s t h ht
  obtain ⟨u, hu, rfl⟩ := ok_map_iff.1 ht
  have hrefits := h.splice h.header_le (Nat.le_refl _) (Nat.le_refl _) hu
  exact hrefits.trans hrefits.fitted.unindexed

theorem replace_steady (f : FieldId w) (k : Nat) (gap entry : Bytes) :
    Steady (replace f k gap entry) := by
  intro s t h ht
  obtain ⟨u, hu, rfl⟩ := ok_map_iff.1 ht
  have hrefits : s.Refits u := by
    dsimp only at hu
    split at hu
    · rename_i e he
      obtain ⟨hstart, hstop⟩ := h.bounds_of_mem_occurrences (List.mem_of_getElem? he)
      exact h.splice hstart (Nat.le_add_right ..) hstop hu
    · obtain ⟨hstart, hstop⟩ := h.bounds_insertPoint f
      exact h.splice hstart (Nat.le_refl _) hstop hu
  exact hrefits.trans hrefits.fitted.reindexed

end Storage

def Buffer.Fitted (b : Buffer w) : Prop := ∀ s, b = .allocated s → s.Fitted

namespace Buffer

theorem fitted_null : (.null : Buffer w).Fitted := nofun

theorem fitted_allocated (h : s.Fitted) : (Buffer.allocated s).Fitted := by
  rintro t ht
  exact Buffer.allocated.inj ht ▸ h

theorem Sound.fitted {b : Buffer w} (h : b.Sound) : b.Fitted := by
  rintro s rfl
  obtain ⟨xs, r, ⟨t, ht, hx, -⟩ | ⟨hnull, -⟩⟩ := h
  · exact Buffer.allocated.inj ht ▸ hx.fitted
  · cases hnull

end Buffer

end FieldBuffers
