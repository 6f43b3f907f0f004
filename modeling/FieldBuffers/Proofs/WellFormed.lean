import FieldBuffers.Proofs.Offers

/-! The header, the entries and the index of a buffer agree with one another, whatever was done to
it. -/

namespace FieldBuffers

open Item

variable {w : Width} {s : Storage w} {xs : List (Item w)}

/-- The entries lie one after another from one offset to another. -/
def Entry.Tiles : Nat → List (Entry w) → Nat → Prop
  | start, [], stop => start = stop
  | start, e :: es, stop => e.offset = start ∧ Tiles e.stop es stop

/-- What the parts of an allocated buffer have to do with one another. That an identifier fits the
width is part of its type. -/
structure Storage.WellFormed (s : Storage w) : Prop where
  magic : s.header.magic = Header.expectedMagic
  word : s.header.word.toNat = w.wordBytes
  header_le : Header.size ≤ s.used
  used_le : s.used ≤ s.capacity
  capacity : s.header.capacity.toNat = s.capacity
  live : s.live = s.entries.flatMap Entry.encode
  tiles : Entry.Tiles Header.size s.entries s.used
  decodes : ∀ e ∈ s.entries, ∀ c : ArenaConfig, e.value.length ≤ c.ceiling →
    ∃ v, e.decode c = .ok v ∧ v.type = e.id.type
  flag : s.header.isIndexed = s.index.isSome
  sorted : s.index.isSome → s.entries.Pairwise fun d e => d.id.raw ≤ e.id.raw
  samples : ∀ ix, s.index = some ix → 0 < ix.interval ∧
    ∀ i, ix.samples[i]? = s.entries[i * ix.interval]?.map fun e => (e.id, e.offset)

theorem Entry.tiles_layout (start : Nat) (xs : List (Item w)) :
    Entry.Tiles start (layout start xs) (start + (encodeAll xs).length) := by
  induction xs generalizing start with
  | nil => rfl
  | cons x xs ih =>
    have h := ih (start + x.size)
    rw [encodeAll_cons, List.length_append, length_encode, ← Nat.add_assoc]
    exact ⟨rfl, h⟩

theorem Index.getElem?_sampleAfter {interval : Nat} (hi : 0 < interval) (es : List (Entry w))
    (skip i : Nat) : (sampleAfter interval skip es)[i]?
      = es[skip + i * interval]?.map fun e => (e.id, e.offset) := by
  induction es generalizing skip i with
  | nil => simp [sampleAfter]
  | cons e es ih =>
    cases skip with
    | zero =>
      cases i with
      | zero => simp [sampleAfter]
      | succ i =>
        have hpos : 0 + (i + 1) * interval = interval - 1 + i * interval + 1 := by
          rw [Nat.succ_mul]
          omega
        rw [sampleAfter, List.getElem?_cons_succ, ih, hpos, List.getElem?_cons_succ]
    | succ skip =>
      have hpos : skip + 1 + i * interval = skip + i * interval + 1 := by omega
      rw [sampleAfter, ih, hpos, List.getElem?_cons_succ]

theorem pairwise_layout {start : Nat} (h : Sorted xs) :
    (layout start xs).Pairwise fun d e => d.id.raw ≤ e.id.raw := by
  rw [← map_item_layout start xs] at h
  exact List.pairwise_map (f := Entry.item) |>.1 h

theorem Storage.Holds.wellFormed (h : s.Holds xs) : s.WellFormed where
  magic := h.magic
  word := h.word
  header_le := by
    rw [h.used]
    exact Nat.le_add_right ..
  used_le := h.used_le
  capacity := h.capacity
  live := by rw [Entry.flatMap_encode, h.entries_eq, map_item_layout, h.live_eq]
  tiles := by
    rw [h.entries_eq, h.used]
    exact Entry.tiles_layout ..
  decodes e he c hroom := by
    rw [h.entries_eq] at he
    have hmem := mem_of_mem_layout he
    have hlt : e.value.length < 2 ^ 32 := by
      have hv := length_value_lt_encodeAll hmem
      have hu : regionSize xs < 2 ^ 32 := h.used ▸ s.header.used.toNat_lt
      simp only [regionSize, Entry.item] at hu hv
      omega
    obtain ⟨v, hv⟩ := (h.sound _ hmem).value.decode_eq_ok ⟨hlt, hroom⟩ e.valueOffset
    exact ⟨v, hv, Value.type_decode hv⟩
  flag := h.flag
  sorted hi := by
    rw [h.entries_eq]
    exact pairwise_layout (h.sorted hi)
  samples ix hix := by
    rw [h.index ix hix, h.entries_eq]
    have hpos : 0 < max s.interval 1 := Nat.lt_of_lt_of_le Nat.one_pos (Nat.le_max_right ..)
    refine ⟨hpos, fun i => ?_⟩
    have h := Index.getElem?_sampleAfter hpos (layout Header.size xs) 0 i
    rwa [Nat.zero_add] at h

/-- In arenas whose sizes a header can state every buffer is null, and then there is nothing in it,
or well formed. -/
theorem wellFormed_of_reachable {b : Buffer w} (h : Reachable ArenaConfig.Stated b) :
    (∀ s, b = .allocated s → s.WellFormed) ∧
      (b = .null → b.capacity = 0 ∧ b.used = 0 ∧ b.entries = [] ∧ b.index? = none) := by
  constructor
  · rintro s rfl
    obtain ⟨xs, r, ⟨t, ht, hx, -⟩ | ⟨hnull, -⟩⟩ := sound_invariant.of_reachable h
    · obtain rfl := Buffer.allocated.inj ht
      exact hx.wellFormed
    · simp at hnull
  · rintro rfl
    exact ⟨rfl, rfl, rfl, rfl⟩

theorem wellFormed_after_add :
    let f : FieldId .wide := ⟨.short, 1, by decide, by decide, by decide⟩
    let b := ((Change.add f (.short 7)).after ⟨{ config := ⟨32, 64⟩ }, .null⟩).buffer
    b.used = 26 ∧ ∀ s, b = .allocated s → s.WellFormed := by
  intro f b
  refine ⟨by decide +kernel, (wellFormed_of_reachable (b := b) ?_).1⟩
  refine .after (show 64 < 2 ^ 32 by decide) .null (fun b hb => ?_) fun b hb => ?_
  · simp [Change.value?] at hb
  · simp [Change.other?] at hb

end FieldBuffers
