import FieldBuffers.Proofs.Offers

/-! Blocks that are not too small for what is in use (`Storage.Within`). All reads and changes of a
storage come to the same on another that differs only in the room it has (`Storage.Matches`). -/

namespace FieldBuffers

variable {w : Width} {s t u : Storage w} {f : FieldId w}

/-- The bytes in use lie in the block. -/
def Storage.Within (s : Storage w) : Prop := s.used ≤ s.capacity

def Buffer.Within (b : Buffer w) : Prop := ∀ s, b = .allocated s → s.Within

/-- An arena grants no block of some size. -/
def Error.IsRefusal (e : Error) : Prop := ∃ requested limit, e = .arenaCapacity requested limit

/-- The capacity left out of account. -/
def Header.unsized (h : Header) : Header := { h with capacity := 0 }

namespace Storage

theorem within_withLive (s : Storage w) (live : Bytes) : (s.withLive live).Within := by
  have hused : (s.withLive live).used ≤ Header.size + live.length :=
    (UInt32.toNat_ofNat' (n := Header.size + live.length)).trans_le (Nat.mod_le _ _)
  refine Nat.le_trans hused ?_
  simp only [capacity, withLive, List.length_append]
  omega

theorem Within.of_body_eq (h : s.Within) (hb : t.body.length = s.body.length)
    (hu : t.used = s.used) : t.Within := by
  simp only [Within, capacity] at h ⊢
  omega

theorem Within.length_live (h : s.Within) : s.live.length = s.used - Header.size := by
  simp only [Within, capacity] at h
  rw [live, List.length_take]
  omega

theorem within_reindexed (h : s.Within) : s.reindexed.Within := by
  rw [reindexed]
  split <;> exact h

theorem within_indexed (s : Storage w) (interval : Nat) : (s.indexed interval).Within :=
  (within_withLive s _).of_body_eq rfl rfl

theorem le_capacity_resized (s : Storage w) (size : Nat) : size ≤ (s.resized size).capacity := by
  simp only [capacity, resized, List.length_append, List.length_take, Bytes.length_zeros]
  omega

theorem live_resized (h : s.Within) {size : Nat} (hsize : s.used ≤ size) :
    (s.resized size).live = s.live := by
  simp only [Within, capacity] at h
  change (s.body.take (size - Header.size) ++ _).take (s.used - Header.size) = s.body.take _
  have hroom : s.used - Header.size ≤ (s.body.take (size - Header.size)).length := by
    rw [List.length_take]
    omega
  rw [List.take_append_of_le_length hroom, List.take_take, Nat.min_eq_left (by omega)]

/-- The same but for the blocks, neither of which is too small for what is in use. -/
structure Matches (s t : Storage w) : Prop where
  header : s.header.unsized = t.header.unsized
  live : s.live = t.live
  index : s.index = t.index
  interval : s.interval = t.interval
  left : s.Within
  right : t.Within

namespace Matches

theorem refl (h : s.Within) : s.Matches s := ⟨rfl, rfl, rfl, rfl, h, h⟩

theorem symm (h : s.Matches t) : t.Matches s :=
  ⟨h.header.symm, h.live.symm, h.index.symm, h.interval.symm, h.right, h.left⟩

theorem trans (h : s.Matches t) (h' : t.Matches u) : s.Matches u :=
  ⟨h.header.trans h'.header, h.live.trans h'.live, h.index.trans h'.index,
    h.interval.trans h'.interval, h.left, h'.right⟩

theorem used (h : s.Matches t) : s.used = t.used := by
  have hused := congrArg (fun g : Header => g.used.toNat) h.header
  exact hused

theorem entriesFrom (h : s.Matches t) (offset : Nat) :
    s.entriesFrom offset = t.entriesFrom offset := by
  rw [Storage.entriesFrom, h.live, Storage.entriesFrom]

theorem entries (h : s.Matches t) : s.entries = t.entries := by
  rw [Storage.entries, h.live, Storage.entries]

theorem occurrences (h : s.Matches t) (f : FieldId w) : s.occurrences f = t.occurrences f := by
  simp only [Storage.occurrences, h.index, h.entriesFrom, h.entries]

theorem insertPoint (h : s.Matches t) (f : FieldId w) : s.insertPoint f = t.insertPoint f := by
  simp only [Storage.insertPoint, h.index, h.entriesFrom, h.used]

theorem standalone (h : s.Matches t) : s.standalone = t.standalone := by
  have hheader : { s.header with capacity := s.header.used }
      = { t.header with capacity := t.header.used } :=
    congrArg (fun g : Header => { g with capacity := g.used }) h.header
  rw [Storage.standalone, hheader, h.live, Storage.standalone]

theorem setIndexed (h : s.Matches t) (b : Bool) {i j : Option (Index w)} {m n : Nat} (hi : i = j)
    (hn : m = n) :
    Matches { s with header := s.header.setIndexed b, index := i, interval := m }
      { t with header := t.header.setIndexed b, index := j, interval := n } where
  header := congrArg (·.setIndexed b) h.header
  live := h.live
  index := hi
  interval := hn
  left := h.left
  right := h.right

theorem unindexed (h : s.Matches t) : s.unindexed.Matches t.unindexed :=
  h.setIndexed false rfl h.interval

theorem build (h : s.Matches t) (interval : Nat) :
    some (Index.build interval s.entries) = some (Index.build interval t.entries) := by
  rw [h.entries]

theorem reindexed (h : s.Matches t) : s.reindexed.Matches t.reindexed := by
  rw [Storage.reindexed, Storage.reindexed, ← h.index]
  split
  · exact h
  · exact ⟨h.header, h.live, h.interval ▸ h.build _, h.interval, h.left, h.right⟩

end Matches

theorem live_withLive (s : Storage w) (live : Bytes) :
    (s.withLive live).live = live.take ((UInt32.ofNat (Header.size + live.length)).toNat
      - Header.size) := by
  have hused := (UInt32.toNat_ofNat' (n := Header.size + live.length)).trans_le (Nat.mod_le _ _)
  have hle : (UInt32.ofNat (Header.size + live.length)).toNat - Header.size ≤ live.length := by
    omega
  rw [Storage.live, withLive, List.append_assoc]
  exact List.take_append_of_le_length hle

/-- The bytes of the entries replaced by the same ones in both. -/
theorem Matches.withLive (h : s.Matches t) (live : Bytes) :
    (s.withLive live).Matches (t.withLive live) where
  header := congrArg (fun g : Header =>
    { g with used := UInt32.ofNat (Header.size + live.length) }) h.header
  live := by rw [live_withLive, live_withLive]
  index := h.index
  interval := h.interval
  left := within_withLive s live
  right := within_withLive t live

theorem Matches.indexed (h : s.Matches t) (interval : Nat) :
    (s.indexed interval).Matches (t.indexed interval) := by
  have hsorted := h.withLive ((sortEntries s.entries).flatMap Entry.encode)
  simp only [Storage.indexed]
  rw [← h.entries]
  exact hsorted.setIndexed true (hsorted.build _) rfl

theorem Matches.retain (h : s.Matches t) (keep : FieldId w → Bool) :
    (s.retain keep).Matches (t.retain keep) := by
  rw [retain_eq, retain_eq, h.entries]
  exact (h.withLive _).reindexed

theorem matches_resized (h : s.Within) {size : Nat} (hsize : s.used ≤ size) :
    s.Matches (s.resized size) where
  header := rfl
  live := (live_resized h hsize).symm
  index := rfl
  interval := rfl
  left := h
  right := Nat.le_trans hsize (s.le_capacity_resized size)

theorem matches_fresh (w : Width) (m n size size' : Nat) :
    (fresh w m size).Matches (fresh w n size') := by
  have hlive : ∀ m size, (fresh w m size).live = [] := fun m size => List.take_zero
  exact ⟨rfl, (hlive _ _).trans (hlive _ _).symm, rfl, rfl, Nat.le_add_right .., Nat.le_add_right ..⟩

end Storage

/-- What is stored in a buffer, which is nothing in a null one. -/
def Buffer.stored : Buffer w → Storage w
  | null => Storage.fresh w 0 0
  | allocated s => s

theorem within_null : (.null : Buffer w).Within := by
  rintro t ht
  simp at ht

theorem within_allocated (h : s.Within) : (Buffer.allocated s).Within := by
  rintro t ht
  exact Buffer.allocated.inj ht ▸ h

/-- Two null buffers, or two in whose blocks the same is stored. -/
inductive Buffer.Matches : Buffer w → Buffer w → Prop
  | null : Matches .null .null
  | allocated {s t : Storage w} : s.Matches t → Matches (.allocated s) (.allocated t)

namespace Buffer.Matches

variable {b c d : Buffer w}

theorem left (h : b.Matches c) : b.Within := by
  cases h with
  | null => exact within_null
  | allocated h => exact within_allocated h.left

theorem right (h : b.Matches c) : c.Within := by
  cases h with
  | null => exact within_null
  | allocated h => exact within_allocated h.right

theorem symm (h : b.Matches c) : c.Matches b := by
  cases h with
  | null => exact .null
  | allocated h => exact .allocated h.symm

theorem trans (h : b.Matches c) (h' : c.Matches d) : b.Matches d := by
  cases h with
  | null => exact h'
  | allocated h =>
    cases h' with
    | allocated h' => exact .allocated (h.trans h')

theorem stored (h : b.Matches c) : b.stored.Matches c.stored := by
  cases h with
  | null => exact Storage.matches_fresh ..
  | allocated h => exact h

theorem isNull (h : b.Matches c) : b.isNull = c.isNull := by
  cases h <;> rfl

theorem index? (h : b.Matches c) : b.index? = c.index? := by
  cases h with
  | null => rfl
  | allocated h => exact h.index

theorem isIndexed (h : b.Matches c) : b.isIndexed = c.isIndexed := congrArg Option.isSome h.index?

theorem occurrences (h : b.Matches c) (f : FieldId w) : b.occurrences f = c.occurrences f := by
  cases h with
  | null => rfl
  | allocated h => exact h.occurrences f

theorem value? (h : b.Matches c) (config : ArenaConfig) (f : FieldId w) (k : Nat) :
    b.value? config f k = c.value? config f k := by
  rw [Buffer.value?, h.occurrences, Buffer.value?]

end Buffer.Matches

theorem Buffer.Within.matches_snapshot {b c : Buffer w} {a a' : Arena} (hb : b.Within)
    (h : b.snapshot a = .ok (c, a')) : b.Matches c := by
  obtain ⟨rfl, rfl⟩ | ⟨s, rfl, rfl⟩ := snapshot_eq_ok h
  · exact .null
  · have hs := hb s rfl
    have hlen : s.live.length ≤ s.body.length := List.length_take_le' ..
    have hlive : s.live = (s.live ++ Bytes.zeros (s.body.length - s.live.length)).take
        (s.used - Header.size) := (List.take_left' hs.length_live).symm
    refine .allocated ⟨rfl, hlive, rfl, rfl, hs, hs.of_body_eq ?_ rfl⟩
    rw [List.length_append, Bytes.length_zeros]
    omega

end FieldBuffers
