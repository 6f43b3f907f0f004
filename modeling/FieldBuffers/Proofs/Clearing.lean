import FieldBuffers.Proofs.Fitted
import FieldBuffers.Proofs.Logical

/-! What is removed does not linger. Edits move, write and clear bytes inside the block
(`Storage.InPlace`), each of them clears just the bytes that fall free, and so all that comes after
the bytes in use is zero. -/

namespace FieldBuffers

open Item

variable {w : Width} {s t : Storage w} {xs : List (Item w)}

namespace Bytes

/-- Some bytes written over those from a place on. -/
def written (place : Nat) (new bs : Bytes) : Bytes :=
  bs.take place ++ new ++ bs.drop (place + new.length)

/-- The bytes from one place to another made zero. -/
def cleared (start stop : Nat) (bs : Bytes) : Bytes := written start (zeros (stop - start)) bs

/-- The bytes from `start` to `stop` replaced where `used` are in use: those after them are moved,
the new ones written, and what falls free is cleared. -/
def spliced (start stop used : Nat) (new bs : Bytes) : Bytes :=
  cleared (used - (stop - start) + new.length) used
    (written start new (Compaction.moved stop (used - stop) (start + new.length) bs))

theorem cleared_append {live : Bytes} {start : Nat} (hlive : live.length = start) (stop : Nat)
    (rest : Bytes) :
    cleared start stop (live ++ rest) = live ++ zeros (stop - start) ++ rest.drop (stop - start) := by
  rw [cleared, written, length_zeros, List.take_left' hlive, ← List.drop_drop,
    List.drop_left' hlive]

theorem written_zero (new bs : Bytes) : written 0 new bs = new ++ bs.drop new.length := by
  rw [written, List.take_zero, List.nil_append, Nat.zero_add]

/-- The tail moves to behind the new bytes, and what follows is zero as far as it was in use. -/
theorem spliced_append (front old tail free new : Bytes)
    (hfit : new.length ≤ old.length + free.length) :
    spliced front.length (front.length + old.length) (front.length + old.length + tail.length) new
        (front ++ old ++ tail ++ free)
      = front ++ new ++ tail ++ zeros (old.length - new.length)
        ++ free.drop (new.length - old.length) := by
  generalize hbs : front ++ old ++ tail ++ free = bs
  have hlen : bs.length = front.length + old.length + tail.length + free.length := by
    simp only [← hbs, List.length_append]
  have hfront : bs.take front.length = front := by
    rw [← hbs, List.append_assoc, List.append_assoc, List.take_left' rfl]
  have htail : (bs.drop (front.length + old.length)).take tail.length = tail := by
    rw [← hbs, List.append_assoc, List.drop_left' (List.length_append ..), List.take_left' rfl]
  have hfree : bs.drop (front.length + old.length + tail.length) = free := by
    rw [← hbs]
    exact List.drop_left' (by simp only [List.length_append])
  have hplace : (bs.take (front.length + new.length)).length = front.length + new.length := by
    rw [List.length_take]
    omega
  -- The room for the new bytes reaches into the tail or past it: its copy is read before.
  have hwritten : written front.length new (Compaction.moved (front.length + old.length) tail.length
      (front.length + new.length) bs)
      = front ++ new ++ tail ++ bs.drop (front.length + new.length + tail.length) := by
    rw [Compaction.moved, htail, List.append_assoc, written,
      List.take_append_of_le_length (by omega), List.take_take,
      Nat.min_eq_left (Nat.le_add_right ..), hfront, List.drop_left' hplace]
    simp only [List.append_assoc]
  have hstart : (front ++ new ++ tail).length
      = front.length + old.length + tail.length - old.length + new.length := by
    simp only [List.length_append]
    omega
  have hgap : front.length + old.length + tail.length
      - (front.length + old.length + tail.length - old.length + new.length)
      = old.length - new.length := by omega
  have hrest : front.length + new.length + tail.length + (old.length - new.length)
      = front.length + old.length + tail.length + (new.length - old.length) := by omega
  rw [spliced, Nat.add_sub_cancel_left, Nat.add_sub_cancel_left, hwritten, cleared_append hstart,
    hgap, List.drop_drop, hrest, ← List.drop_drop, hfree]

theorem exists_parts {a b c : Nat} {bs : Bytes} (hab : a ≤ b) (hbc : b ≤ c) (hc : c ≤ bs.length) :
    ∃ front old tail free : Bytes, bs = front ++ old ++ tail ++ free ∧ front.length = a ∧
      front.length + old.length = b ∧ front.length + old.length + tail.length = c := by
  refine ⟨bs.take a, (bs.drop a).take (b - a), (bs.drop b).take (c - b), bs.drop c, ?_, ?_, ?_, ?_⟩
  · rw [← List.take_add, Nat.add_sub_cancel' hab, ← List.take_add, Nat.add_sub_cancel' hbc,
      List.take_append_drop]
  all_goals
    simp only [List.length_take, List.length_drop]
    omega

theorem cleared_self (start : Nat) (bs : Bytes) : cleared start start bs = bs := by
  rw [cleared, Nat.sub_self, written]
  simp [zeros]

end Bytes

namespace Storage

/-- What the edits leave of a block is what comes of moving, writing and clearing some of its
bytes, where no more is cleared than falls free. -/
structure InPlace (s : Storage w) : Prop where
  splice {start stop : Nat} {new : Bytes} {t : Storage w} : Header.size ≤ start → start ≤ stop →
    stop ≤ s.used → s.splice start stop new = .ok t →
    t.body = Bytes.spliced (start - Header.size) (stop - Header.size) (s.used - Header.size) new
      s.body
  withLive (live : Bytes) : (s.withLive live).body
    = Bytes.cleared live.length (s.used - Header.size) (Bytes.written 0 live s.body)
  indexed (interval : Nat) : (s.indexed interval).body
    = Bytes.written 0 ((sortEntries s.entries).flatMap Entry.encode) s.body
  retain (keep : FieldId w → Bool) :
    let c := s.compaction keep s.entries
    (s.retain keep).body = Bytes.cleared (c.write - Header.size) (s.used - Header.size) c.body

theorem body_withLive (s : Storage w) (live : Bytes) : (s.withLive live).body
    = Bytes.cleared live.length (s.used - Header.size) (Bytes.written 0 live s.body) := by
  have hdrop : live.length + (s.used - Header.size - live.length)
      = max (s.used - Header.size) live.length := by omega
  rw [Bytes.written_zero, Bytes.cleared_append rfl, List.drop_drop, hdrop]
  rfl

theorem body_splice (hs : s.Within) {start stop : Nat} {new : Bytes} (hstart : Header.size ≤ start)
    (hle : start ≤ stop) (hstop : stop ≤ s.used) (h : s.splice start stop new = .ok t) :
    t.body = Bytes.spliced (start - Header.size) (stop - Header.size) (s.used - Header.size) new
      s.body := by
  have hlen : s.used - Header.size ≤ s.body.length := Nat.sub_le_iff_le_add'.2 hs
  have hroom : s.used - (stop - start) + new.length ≤ s.capacity := by
    unfold splice at h
    dsimp only at h
    split at h
    · cases h
    · exact Nat.le_of_not_lt ‹_›
  obtain ⟨front, old, tail, free, hbody, hfront, hold, htail⟩ :=
    Bytes.exists_parts (Nat.sub_le_sub_right hle Header.size) (Nat.sub_le_sub_right hstop _) hlen
  have hlive : s.live = front ++ old ++ tail := by
    rw [live, hbody, List.take_left' (by simp only [List.length_append, htail])]
  have hnew : s.live.take (start - Header.size) ++ new ++ s.live.drop (stop - Header.size)
      = front ++ new ++ tail := by
    rw [hlive, ← hfront, ← hold, List.drop_left' (List.length_append ..), List.append_assoc front,
      List.take_left' rfl]
  have hgap : s.used - Header.size - (front ++ new ++ tail).length = old.length - new.length := by
    simp only [List.length_append]
    omega
  have hpast : max (s.used - Header.size) (front ++ new ++ tail).length
      = (front ++ old ++ tail).length + (new.length - old.length) := by
    simp only [List.length_append]
    omega
  have hfree : s.body.drop ((front ++ old ++ tail).length + (new.length - old.length))
      = free.drop (new.length - old.length) := by
    rw [← List.drop_drop, hbody, List.drop_left' rfl]
  have hfit : new.length ≤ old.length + free.length := by
    simp only [capacity, hbody, List.length_append] at hroom
    omega
  rw [splice_eq_ok h, hnew, ← hfront, ← hold, ← htail]
  conv_rhs => rw [hbody, Bytes.spliced_append _ _ _ _ _ hfit, ← hfree, ← hpast, ← hgap]
  rfl

theorem Holds.inPlace (h : s.Holds xs) : s.InPlace where
  splice hstart hle hstop := body_splice h.used_le hstart hle hstop
  withLive := s.body_withLive
  indexed interval := by
    have hlen : ((sortEntries s.entries).flatMap Entry.encode).length = s.used - Header.size := by
      rw [h.flatMap_sortEntries, length_encodeAll_perm (sort_perm xs), h.live_length]
    refine (s.body_withLive _).trans ?_
    rw [hlen, Bytes.cleared_self]
  retain keep := by
    intro c
    have hc : c.write = regionSize (xs.filter fun x => keep x.id) := by
      obtain ⟨spare, hbody⟩ := h.body
      rw [← List.append_nil xs] at hbody
      have hw := (compaction_holds hbody keep).write
      rwa [← h.entries_eq] at hw
    have hle : c.write ≤ s.used := by
      have hsub := length_encodeAll_sublist (xs.filter_sublist (p := fun x => keep x.id))
      rw [hc, h.used]
      exact Nat.add_le_add_left hsub _
    have hheader : Header.size ≤ c.write := hc ▸ Nat.le_add_right ..
    have hgap : s.used - Header.size - (c.write - Header.size) = s.used - c.write := by omega
    have hstop : c.write - Header.size + (s.used - c.write) = s.used - Header.size := by omega
    rw [Bytes.cleared, Bytes.written, hgap, Bytes.length_zeros, hstop, Storage.retain, reindexed]
    split <;> rfl

end Storage

/-- Every byte past those in use is zero, whatever was done to the buffer before. -/
theorem spare_zero_of_reachable {s : Storage w}
    (h : Reachable ArenaConfig.Stated (.allocated s)) :
    s.InPlace ∧ s.block.length = s.capacity ∧ s.used ≤ s.capacity ∧
      ∀ x ∈ s.block.drop s.used, x = 0 := by
  obtain ⟨xs, indexed, ⟨t, ht, hs, -⟩ | ⟨hnull, -⟩⟩ := sound_invariant.of_reachable h
  · obtain rfl := Buffer.allocated.inj ht
    obtain ⟨spare, hbody⟩ := hs.body
    have hfront : (s.header.encode ++ encodeAll xs).length = s.used := by
      rw [List.length_append, Header.length_encode, hs.used, regionSize]
    have hspare : s.block.drop s.used = Bytes.zeros spare := by
      rw [Storage.block, hbody, ← List.append_assoc, List.drop_left' hfront]
    refine ⟨hs.inPlace, ?_, hs.used_le, fun x hx => ?_⟩
    · rw [Storage.block, List.length_append, Header.length_encode, Storage.capacity]
    · rw [hspare] at hx
      exact List.eq_of_mem_replicate hx
  · cases hnull

theorem spare_zero_after_set_erase :
    let f : FieldId .narrow := ⟨.string, 1, by decide, by decide, by decide⟩
    let g : FieldId .narrow := ⟨.short, 2, by decide, by decide, by decide⟩
    let p := Place.afterAll ⟨{ config := ⟨64, 64⟩ }, .null⟩
      [.add f (.string "abcdef"), .add g (.short 7), .set f 0 (.string "a"), .erase g 0]
    ∃ s, p.buffer = .allocated s ∧ s.capacity = 64 ∧ s.used = 22 ∧
      ∀ x ∈ s.block.drop s.used, x = 0 := by
  intro f g p
  have hp : Reachable ArenaConfig.Stated p.buffer := by
    refine .afterAll (p := ⟨{ config := ⟨64, 64⟩ }, .null⟩) (show 64 < 2 ^ 32 by decide) .null ?_
    intro d hd
    simp only [List.mem_cons, List.not_mem_nil, or_false] at hd
    rcases hd with rfl | rfl | rfl | rfl
    all_goals exact Change.plain_of_flat (by simp [Change.value?, Value.type]) rfl
  have hsizes : p.buffer.capacity = 64 ∧ p.buffer.used = 22 := by decide +kernel
  cases hb : p.buffer with
  | null => simp [hb, Buffer.capacity] at hsizes
  | allocated s =>
    rw [hb] at hp hsizes
    obtain ⟨-, -, -, hzero⟩ := spare_zero_of_reachable hp
    exact ⟨s, rfl, hsizes.1, hsizes.2, hzero⟩

end FieldBuffers
