import FieldBuffers.Buffer.Write
import FieldBuffers.Buffer.Algebra
import FieldBuffers.Proofs.ValueBytes

/-! What a storage stands for: the items of its entries, in their order. Every change of the bytes
in place is a change of that list. -/

namespace FieldBuffers

open Item

variable {w : Width}

namespace Item

structure Sound (x : Item w) : Prop where
  stated : x.Stated
  value : Value.Sound x.id.type x.value

/-- The bytes of a region with these entries. -/
def regionSize (xs : List (Item w)) : Nat := Header.size + (encodeAll xs).length

def Sorted (xs : List (Item w)) : Prop := xs.Pairwise fun x y => x.id.raw ≤ y.id.raw

/-- In the order of the identifiers, the items of one field in the order they had. -/
def sort (xs : List (Item w)) : List (Item w) := xs.mergeSort fun x y => x.id.raw ≤ y.id.raw

theorem sort_perm (xs : List (Item w)) : (sort xs).Perm xs := List.mergeSort_perm ..

theorem sorted_sort (xs : List (Item w)) : Sorted (sort xs) := by
  have h : (sort xs).Pairwise fun x y => decide (x.id.raw ≤ y.id.raw) = true := by
    refine List.pairwise_mergeSort (fun a b c hab hbc => ?_) (fun a b => ?_) xs
    · rw [decide_eq_true_eq] at hab hbc ⊢
      exact Nat.le_trans hab hbc
    · simpa using Nat.le_total a.id.raw b.id.raw
  exact h.imp of_decide_eq_true

theorem sort_eq_self {xs : List (Item w)} (h : Sorted xs) : sort xs = xs :=
  List.mergeSort_of_pairwise (h.imp decide_eq_true)

theorem regionSize_perm {xs ys : List (Item w)} (h : xs.Perm ys) : regionSize xs = regionSize ys := by
  rw [regionSize, regionSize, length_encodeAll_perm h]

theorem sort_map_item (es : List (Entry w)) :
    sort (es.map Entry.item) = (Storage.sortEntries es).map Entry.item :=
  Eq.symm <| List.map_mergeSort (f := Entry.item) fun _ _ _ _ => rfl

theorem map_item_sortEntries (offset : Nat) (xs : List (Item w)) :
    (Storage.sortEntries (layout offset xs)).map Entry.item = sort xs := by
  rw [← sort_map_item, map_item_layout]

end Item

namespace Header

theorem isIndexed_setIndexed (h : Header) (b : Bool) : (h.setIndexed b).isIndexed = b := by
  have or_one : ∀ n : Fin 256, (UInt8.ofNat n ||| 1) &&& 1 ≠ 0 := by decide +kernel
  have and_not_one : ∀ n : Fin 256, (UInt8.ofNat n &&& ~~~1) &&& 1 = 0 := by decide +kernel
  have h1 := or_one ⟨h.flags.toNat, h.flags.toNat_lt⟩
  have h2 := and_not_one ⟨h.flags.toNat, h.flags.toNat_lt⟩
  rw [UInt8.ofNat_toNat] at h1 h2
  cases b
  · simpa [isIndexed, setIndexed, indexedFlag] using h2
  · simpa [isIndexed, setIndexed, indexedFlag] using h1

end Header

namespace Storage

/-- The bytes of a storage are the header of a buffer of the family, the entries of some items and
free room, which is zero. -/
structure Stores (s : Storage w) (xs : List (Item w)) : Prop where
  magic : s.header.magic = Header.expectedMagic
  word : s.header.word.toNat = w.wordBytes
  capacity : s.header.capacity.toNat = s.capacity
  used : s.used = regionSize xs
  body : ∃ spare, s.body = encodeAll xs ++ Bytes.zeros spare
  sound : ∀ x ∈ xs, x.Sound

/-- The flag of the header tells whether there is an index, which is one of sorted entries. -/
structure Holds (s : Storage w) (xs : List (Item w)) : Prop extends Stores s xs where
  flag : s.header.isIndexed = s.index.isSome
  index : ∀ ix, s.index = some ix → ix = Index.build s.interval (layout Header.size xs)
  sorted : s.index.isSome → Sorted xs

variable {s : Storage w} {xs ys : List (Item w)}

namespace Stores

theorem stated (h : s.Stores xs) : ∀ x ∈ xs, x.Stated := fun x hx => (h.sound x hx).stated

theorem live_eq (h : s.Stores xs) : s.live = encodeAll xs := by
  obtain ⟨spare, hb⟩ := h.body
  rw [live, h.used, hb, regionSize, Nat.add_sub_cancel_left, List.take_left']
  rfl

theorem entries_eq (h : s.Stores xs) : s.entries = layout Header.size xs := by
  rw [entries, h.live_eq, Entry.scan_encodeAll _ _ h.stated]

theorem eq_nil_of_entries (h : s.Stores xs) (hempty : s.entries = []) : xs = [] := by
  rw [← map_item_layout Header.size xs, ← h.entries_eq, hempty]
  rfl

theorem used_le (h : s.Stores xs) : s.used ≤ s.capacity := by
  obtain ⟨spare, hb⟩ := h.body
  rw [h.used, Storage.capacity, hb, regionSize, List.length_append]
  omega

theorem capacity_lt (h : s.Stores xs) : s.capacity < 2 ^ 32 := by
  rw [← h.capacity]
  exact s.header.capacity.toNat_lt

theorem live_length (h : s.Stores xs) : s.used - Header.size = (encodeAll xs).length := by
  rw [h.used, regionSize, Nat.add_sub_cancel_left]

/-- What is written after the items' bytes stays zero. -/
theorem withLive (h : s.Stores xs) (hy : ∀ y ∈ ys, y.Sound) (hfit : regionSize ys ≤ s.capacity) :
    (s.withLive (encodeAll ys)).Stores ys ∧
      (s.withLive (encodeAll ys)).capacity = s.capacity := by
  obtain ⟨spare, hb⟩ := h.body
  have hcap := h.capacity_lt
  have hbody : (s.withLive (encodeAll ys)).body = encodeAll ys
      ++ Bytes.zeros ((encodeAll xs).length + spare - (encodeAll ys).length) := by
    simp only [Storage.withLive, h.live_length, hb, List.append_assoc]
    congr 1
    rw [List.drop_append, List.drop_eq_nil_of_le (Nat.le_max_left ..), List.nil_append]
    simp only [Bytes.zeros, List.drop_replicate, List.replicate_append_replicate]
    congr 1
    simp only [regionSize, Storage.capacity, hb, List.length_append, Bytes.length_zeros] at hfit
    omega
  have hsize : (s.withLive (encodeAll ys)).capacity = s.capacity := by
    simp only [regionSize, Storage.capacity, hb, List.length_append, Bytes.length_zeros] at hfit
    rw [Storage.capacity, hbody]
    simp only [Storage.capacity, hb, List.length_append, Bytes.length_zeros]
    omega
  refine ⟨⟨h.magic, h.word, h.capacity.trans hsize.symm, ?_, ⟨_, hbody⟩, hy⟩, hsize⟩
  have hlt : regionSize ys < 2 ^ 32 := Nat.lt_of_le_of_lt hfit hcap
  exact (UInt32.toNat_ofNat').trans (Nat.mod_eq_of_lt hlt)

theorem resized (h : s.Stores xs) {size : Nat} (hfit : regionSize xs ≤ size) (hlt : size < 2 ^ 32) :
    (s.resized size).Stores xs ∧ (s.resized size).capacity = size := by
  obtain ⟨spare, hb⟩ := h.body
  have hbody : (s.resized size).body = encodeAll xs
      ++ Bytes.zeros (size - Header.size - (encodeAll xs).length) := by
    simp only [regionSize] at hfit
    simp only [Storage.resized, Storage.capacity, hb, List.length_append, Bytes.length_zeros]
    rw [List.take_append, List.take_of_length_le (by omega), List.append_assoc]
    simp only [Bytes.zeros, List.take_replicate, List.replicate_append_replicate]
    congr 2
    omega
  have hsize : (s.resized size).capacity = size := by
    simp only [regionSize] at hfit
    rw [Storage.capacity, hbody, List.length_append, Bytes.length_zeros]
    omega
  refine ⟨⟨h.magic, h.word, ?_, h.used, ⟨_, hbody⟩, h.sound⟩, hsize⟩
  rw [hsize]
  exact (UInt32.toNat_ofNat').trans (Nat.mod_eq_of_lt hlt)

theorem setIndexed (h : s.Stores xs) (b : Bool) (index : Option (Index w)) (interval : Nat) :
    Stores { s with header := s.header.setIndexed b, index, interval } xs :=
  ⟨h.magic, h.word, h.capacity, h.used, h.body, h.sound⟩

theorem unindexed (h : s.Stores xs) : s.unindexed.Holds xs where
  toStores := h.setIndexed false none s.interval
  flag := s.header.isIndexed_setIndexed false
  index _ hix := by simp [Storage.unindexed] at hix
  sorted hix := by simp [Storage.unindexed] at hix

theorem reindexed (h : s.Stores xs) (hf : s.header.isIndexed = s.index.isSome)
    (hs : s.index.isSome → Sorted xs) : s.reindexed.Holds xs := by
  cases hix : s.index with
  | none =>
    have he : s.reindexed = s := by simp [Storage.reindexed, hix]
    rw [he]
    exact ⟨h, hf, fun ix h' => by simp [hix] at h', hs⟩
  | some ix =>
    have he : s.reindexed = { s with index := some (Index.build s.interval s.entries) } := by
      simp [Storage.reindexed, hix]
    rw [hix] at hf hs
    rw [he, h.entries_eq]
    exact ⟨⟨h.magic, h.word, h.capacity, h.used, h.body, h.sound⟩, hf,
      fun _ h' => (Option.some.inj h').symm, fun _ => hs rfl⟩

theorem flatMap_sortEntries (h : s.Stores xs) :
    (sortEntries s.entries).flatMap Entry.encode = encodeAll (sort xs) := by
  rw [Entry.flatMap_encode, h.entries_eq, map_item_sortEntries]

theorem indexed (h : s.Stores xs) (interval : Nat) :
    (s.indexed interval).Holds (sort xs) ∧ (s.indexed interval).capacity = s.capacity := by
  have hsound : ∀ y ∈ sort xs, y.Sound := fun y hy => h.sound y ((sort_perm xs).mem_iff.1 hy)
  have hfit : regionSize (sort xs) ≤ s.capacity := by
    rw [regionSize_perm (sort_perm xs), ← h.used]
    exact h.used_le
  obtain ⟨hw, hc⟩ := h.withLive hsound hfit
  simp only [Storage.indexed, h.flatMap_sortEntries, hw.entries_eq]
  exact ⟨⟨hw.setIndexed true _ _, Header.isIndexed_setIndexed _ true,
    fun _ hix => (Option.some.inj hix).symm, fun _ => sorted_sort xs⟩, hc⟩

end Stores

end Storage

/-- The buffer is allocated for some items, with an index or without. -/
def Buffer.Holds (b : Buffer w) (xs : List (Item w)) (indexed : Bool) : Prop :=
  ∃ s, b = .allocated s ∧ s.Holds xs ∧ s.index.isSome = indexed

/-- What a write finds. The block that a null buffer gets is empty and has an index. -/
def Buffer.Offers (b : Buffer w) (xs : List (Item w)) (indexed : Bool) : Prop :=
  b.Holds xs indexed ∨ b = .null ∧ xs = [] ∧ indexed = true

end FieldBuffers
