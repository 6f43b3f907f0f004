import FieldBuffers.Proofs.Growth

/-! Entries moved down inside one block. The place that is written to is never past the next entry
to be looked at, so what is still to be moved stands where it stood (`spares_compaction`), and in
the end the entries that stay are at the front (`retain_eq`). -/

namespace FieldBuffers

open Item

variable {w : Width} {s : Storage w} {keep : FieldId w → Bool} {xs kept : List (Item w)}
  {x : Item w}

namespace Item

theorem layout_eq_append {offset : Nat} {as bs : List (Entry w)}
    (h : layout offset xs = as ++ bs) : ∃ ys zs, xs = ys ++ zs ∧ as = layout offset ys ∧
      bs = layout (offset + (encodeAll ys).length) zs := by
  have hlen : as.length ≤ xs.length := by
    rw [← length_layout offset xs, h, List.length_append]
    exact Nat.le_add_right ..
  have hsplit : layout offset (xs.take as.length ++ xs.drop as.length) = as ++ bs := by
    rw [List.take_append_drop, h]
  rw [layout_append] at hsplit
  obtain ⟨has, hbs⟩ := List.append_inj hsplit (by simp [hlen])
  exact ⟨_, _, (List.take_append_drop ..).symm, has.symm, hbs.symm⟩

theorem flatMap_encode_filter (keep : FieldId w → Bool) (offset : Nat) (xs : List (Item w)) :
    ((layout offset xs).filter fun e => keep e.id).flatMap Entry.encode
      = encodeAll (xs.filter fun x => keep x.id) := by
  rw [Entry.flatMap_encode, ← map_item_layout offset xs, List.filter_map, map_item_layout]
  rfl

theorem length_encodeAll_filter (keep : FieldId w → Bool) (xs : List (Item w)) :
    (encodeAll (xs.filter fun x => keep x.id)).length
      + (encodeAll (xs.filter fun x => !keep x.id)).length = (encodeAll xs).length := by
  rw [← List.length_append, ← encodeAll_append]
  exact length_encodeAll_perm (List.filter_append_perm ..)

end Item

namespace Compaction

variable {c : Compaction} {gap n : Nat} {rest : Bytes}

/-- The items kept so far, then bytes that are of no more use, then those not looked at yet. -/
structure Holds (c : Compaction) (kept : List (Item w)) (gap : Nat) (rest : Bytes) (n : Nat) :
    Prop where
  body : ∃ junk : Bytes, junk.length = gap ∧ c.body = encodeAll kept ++ junk ++ rest
  write : c.write = regionSize kept
  removed : c.removed = n

/-- What is moved down a gap leaves one of the same size behind. -/
theorem moved_append (front junk bs rest : Bytes) : ∃ junk' : Bytes, junk'.length = junk.length ∧
    moved (front.length + junk.length) bs.length front.length (front ++ junk ++ (bs ++ rest))
      = front ++ bs ++ junk' ++ rest := by
  refine ⟨(junk ++ bs).drop bs.length, by simp, ?_⟩
  have hto : (front ++ junk ++ (bs ++ rest)).take front.length = front := by
    rw [List.append_assoc, List.take_left' rfl]
  have hfrom : ((front ++ junk ++ (bs ++ rest)).drop (front.length + junk.length)).take bs.length
      = bs := by
    rw [List.drop_left' (List.length_append ..), List.take_left' rfl]
  have hafter : (front ++ junk ++ (bs ++ rest)).drop (front.length + bs.length)
      = (junk ++ bs).drop bs.length ++ rest := by
    rw [List.append_assoc, ← List.drop_drop, List.drop_left' rfl, ← List.append_assoc,
      List.drop_append_of_le_length (by simp)]
  rw [moved, hto, hfrom, hafter]
  simp only [List.append_assoc]

theorem Holds.step (h : c.Holds kept gap (x.encode ++ rest) n) (keep : FieldId w → Bool) :
    (step keep c (x.entry (regionSize kept + gap))).Holds
      (if keep x.id then kept ++ [x] else kept) (if keep x.id then gap else gap + x.size) rest
      (if keep x.id then n else n + 1) := by
  obtain ⟨junk, rfl, hbody⟩ := h.body
  by_cases hx : keep x.id
  · obtain ⟨junk', hlen, hmoved⟩ := moved_append (encodeAll kept) junk x.encode rest
    have hstart : regionSize kept + junk.length - Header.size
        = (encodeAll kept).length + junk.length := by
      simp only [regionSize]
      omega
    have hto : c.write - Header.size = (encodeAll kept).length := by
      rw [h.write, regionSize, Nat.add_sub_cancel_left]
    rw [length_encode] at hmoved
    simp only [Compaction.step, entry, hx, if_true]
    refine ⟨⟨junk', hlen, ?_⟩, ?_, h.removed⟩
    · change moved (regionSize kept + junk.length - Header.size) x.size _ _ = _
      rw [hstart, hto, hbody, hmoved]
      simp
    · change c.write + x.size = _
      rw [h.write]
      simp only [regionSize, encodeAll_append, List.length_append, encodeAll_cons, encodeAll_nil,
        length_encode, List.length_nil]
      omega
  · simp only [Compaction.step, entry, hx]
    refine ⟨⟨junk ++ x.encode, by simp, ?_⟩, h.write, congrArg (· + 1) h.removed⟩
    rw [hbody]
    simp

/-- The gap takes up just what was not kept. -/
theorem Holds.foldl (keep : FieldId w → Bool)
    (h : c.Holds kept gap (encodeAll xs ++ rest) n) :
    ((layout (regionSize kept + gap) xs).foldl (Compaction.step keep) c).Holds
      (kept ++ xs.filter fun x => keep x.id)
      (gap + (encodeAll (xs.filter fun x => !keep x.id)).length) rest
      (n + xs.countP fun x => !keep x.id) := by
  induction xs generalizing c kept gap n with
  | nil => simpa using h
  | cons x xs ih =>
    rw [encodeAll_cons, List.append_assoc] at h
    have hstep := h.step keep
    rw [layout_cons, List.foldl_cons]
    by_cases hx : keep x.id
    · simp only [hx, if_true] at hstep
      have hplace : regionSize kept + gap + x.size = regionSize (kept ++ [x]) + gap := by
        simp only [regionSize, encodeAll_append, List.length_append, encodeAll_cons, encodeAll_nil,
          length_encode, List.length_nil]
        omega
      rw [hplace]
      simpa [hx] using ih hstep
    · simp only [hx] at hstep
      rw [Nat.add_assoc]
      have hrest := ih hstep
      simpa [hx, Nat.add_assoc, Nat.add_comm, Nat.add_left_comm] using hrest

/-- What entries are still to be looked at stand where they stood, all behind the place that is
written to next. -/
structure Spares (c : Compaction) (es : List (Entry w)) : Prop where
  write_le : ∀ e ∈ es, c.write ≤ e.offset
  bytes : ∀ e ∈ es, (c.body.drop (e.offset - Header.size)).take e.size = e.encode

end Compaction

namespace Storage

/-- The block is made of some items and of bytes after them that are no entry. -/
theorem exists_items (s : Storage w) : ∃ (xs : List (Item w)) (rest : Bytes),
    s.body = encodeAll xs ++ rest ∧ s.entries = layout Header.size xs ∧
      (encodeAll xs).length ≤ s.used - Header.size := by
  obtain ⟨xs, rest, hlive, -, hscan⟩ := Entry.exists_scan Header.size s.live
  refine ⟨xs, rest ++ s.body.drop (s.used - Header.size), ?_, hscan, ?_⟩
  · rw [← List.append_assoc, ← hlive, live, List.take_append_drop]
  · have hle : s.live.length ≤ s.used - Header.size := by
      rw [live, List.length_take]
      exact Nat.min_le_left ..
    rw [hlive, List.length_append] at hle
    omega

theorem compaction_holds {ys : List (Item w)} {rest : Bytes}
    (hb : s.body = encodeAll (xs ++ ys) ++ rest) (keep : FieldId w → Bool) :
    (s.compaction keep (layout Header.size xs)).Holds (xs.filter fun x => keep x.id)
      (encodeAll (xs.filter fun x => !keep x.id)).length (encodeAll ys ++ rest)
      (xs.countP fun x => !keep x.id) := by
  have hstart : (⟨s.body, Header.size, 0⟩ : Compaction).Holds ([] : List (Item w)) 0
      (encodeAll xs ++ (encodeAll ys ++ rest)) 0 :=
    ⟨⟨[], rfl, by simp [hb]⟩, rfl, rfl⟩
  have h := hstart.foldl keep
  rwa [Nat.zero_add, Nat.zero_add, List.nil_append] at h

theorem compaction_removed (s : Storage w) (keep : FieldId w → Bool) :
    (s.compaction keep s.entries).removed = s.entries.countP fun e => !keep e.id := by
  obtain ⟨xs, rest, hb, hentries, -⟩ := s.exists_items
  rw [← List.append_nil xs] at hb
  rw [hentries, (compaction_holds hb keep).removed, ← map_item_layout Header.size xs,
    List.countP_map, map_item_layout]
  rfl

/-- The entries that stay are written to the front of the block as if it had been empty. -/
theorem retain_eq (keep : FieldId w → Bool) (s : Storage w) : s.retain keep
    = (s.withLive ((s.entries.filter fun e => keep e.id).flatMap Entry.encode)).reindexed := by
  obtain ⟨xs, rest, hb, hentries, hused⟩ := s.exists_items
  rw [← List.append_nil xs] at hb
  have hc := compaction_holds hb keep
  obtain ⟨junk, hjunk, hbody⟩ := hc.body
  have hlen := length_encodeAll_filter keep xs
  rw [← hjunk] at hlen
  rw [List.append_nil] at hb
  rw [encodeAll_nil, List.nil_append] at hbody
  have hwrite : s.used - regionSize (xs.filter fun x => keep x.id)
      = s.used - Header.size - (encodeAll (xs.filter fun x => keep x.id)).length :=
    Nat.sub_add_eq ..
  -- What was kept and the gap take up the bytes that the items took: none in use come after them.
  have hdrop : ∀ front : Bytes, front.length = (encodeAll xs).length →
      (front ++ rest).drop (s.used - Header.size)
        = rest.drop (s.used - Header.size - (encodeAll xs).length) := by
    intro front hfront
    rw [List.drop_append, hfront, List.drop_eq_nil_of_le (hfront ▸ hused), List.nil_append]
  have htail := (hdrop _ (by rw [List.length_append, hlen])).trans (hdrop _ rfl).symm
  rw [retain, hentries, flatMap_encode_filter]
  refine congrArg reindexed ?_
  simp only [withLive, hc.write, hbody, hwrite, htail, hb]
  rw [regionSize, Nat.add_sub_cancel_left, List.append_assoc _ junk, List.take_left' rfl,
    Nat.max_eq_left (by omega)]

theorem capacity_reindexed (s : Storage w) : s.reindexed.capacity = s.capacity := by
  rw [reindexed]
  split <;> rfl

theorem Holds.retain (h : s.Holds xs) (keep : FieldId w → Bool) :
    (s.retain keep).Holds (xs.filter fun x => keep x.id) ∧
      (s.retain keep).capacity = s.capacity ∧ (s.retain keep).index.isSome = s.index.isSome := by
  have hsound : ∀ y ∈ xs.filter fun x => keep x.id, y.Sound := fun y hy =>
    h.sound y (List.mem_filter.1 hy).1
  have hfit : regionSize (xs.filter fun x => keep x.id) ≤ s.capacity := by
    have hused := h.used_le
    have hle := length_encodeAll_filter keep xs
    simp only [h.used, regionSize] at hused ⊢
    omega
  obtain ⟨ht, hcap⟩ := h.withLive hsound hfit
  have hholds := ht.reindexed h.flag fun hi => sorted_filter (fun x => keep x.id) (h.sorted hi)
  rw [retain_eq, h.entries_eq, flatMap_encode_filter]
  exact ⟨hholds, (capacity_reindexed _).trans hcap, isSome_index_reindexed _⟩

theorem spares_compaction (s : Storage w) (keep : FieldId w → Bool) {as bs : List (Entry w)}
    (h : s.entries = as ++ bs) : (s.compaction keep as).Spares bs := by
  obtain ⟨zs, rest, hb, hentries, -⟩ := s.exists_items
  obtain ⟨xs, ys, rfl, rfl, rfl⟩ := layout_eq_append (hentries.symm.trans h)
  have hc := compaction_holds hb keep
  obtain ⟨junk, hjunk, hbody⟩ := hc.body
  have hlen := length_encodeAll_filter keep xs
  rw [← hjunk, ← List.length_append] at hlen
  constructor
  · intro e he
    obtain ⟨ys, y, zs, rfl, rfl⟩ := layout_split he
    rw [hc.write, regionSize]
    simp only [List.length_append] at hlen
    simp only [entry]
    omega
  · intro e he
    obtain ⟨ys, y, zs, rfl, rfl⟩ := layout_split he
    have hstart : (y.entry (Header.size + (encodeAll xs).length + (encodeAll ys).length)).offset
        - Header.size = (encodeAll xs).length + (encodeAll ys).length := by
      simp only [entry]
      omega
    rw [hstart, hbody, ← hlen, ← List.drop_drop, List.drop_left' rfl, encodeAll_append,
      List.append_assoc, List.drop_left' rfl, encodeAll_cons, List.append_assoc]
    exact List.take_left' (length_encode y)

end Storage

end FieldBuffers
