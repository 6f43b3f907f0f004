import FieldBuffers.Proofs.Occurrence

/-! Writes of single entries. A write lays out a changed list of items where the block has room for
it, and otherwise asks for exactly the room that is lacking (`Storage.laid`). -/

namespace FieldBuffers

open Item

variable {w : Width} {s : Storage w} {xs as bs cs : List (Item w)}

/-- What setting an occurrence makes of items: those missing in front of it are fillers. -/
def Item.overwrite (sorted : Bool) (f : FieldId w) (k : Nat) (filler x : Item w)
    (xs : List (Item w)) : List (Item w) :=
  if k < (ofField f xs).length then substitute f [x] k xs
  else put sorted f (List.replicate (k - (ofField f xs).length) filler ++ [x]) xs

theorem Item.mem_overwrite {sorted : Bool} {f : FieldId w} {k : Nat} {filler x z : Item w}
    (h : z ∈ overwrite sorted f k filler x xs) : z ∈ xs ∨ z = filler ∨ z = x := by
  rw [overwrite] at h
  split at h
  · exact (mem_substitute ‹_› h).imp_right fun hz => .inr (List.mem_singleton.1 hz)
  · rcases mem_put h with hz | hz
    · exact .inl hz
    · rcases List.mem_append.1 hz with hz | hz
      · exact .inr (.inl (List.eq_of_mem_replicate hz))
      · exact .inr (.inr (List.mem_singleton.1 hz))

namespace Storage

/-- What comes of a write that is to leave some items. -/
def laid (zs : List (Item w)) (s : Storage w) : Except Error (Storage w) :=
  if s.capacity < regionSize zs then
    .error (.spaceExhausted (regionSize zs - s.used) (s.capacity - s.used))
  else .ok (s.withLive (encodeAll zs))

theorem laid_of_le {zs : List (Item w)} (h : regionSize zs ≤ s.capacity) :
    s.laid zs = .ok (s.withLive (encodeAll zs)) := if_neg (Nat.not_lt.2 h)

theorem laid_of_lt {zs : List (Item w)} (h : s.capacity < regionSize zs) :
    s.laid zs = .error (.spaceExhausted (regionSize zs - s.used) (s.capacity - s.used)) := if_pos h

theorem Stores.splice_eq (h : s.Stores (as ++ bs ++ cs)) (ys : List (Item w)) :
    s.splice (regionSize as) (regionSize (as ++ bs)) (encodeAll ys) = s.laid (as ++ ys ++ cs) := by
  have hgap : regionSize (as ++ bs) - regionSize as = (encodeAll bs).length := by
    simp only [regionSize, encodeAll_append, List.length_append]
    omega
  have hused : s.used - (encodeAll bs).length + (encodeAll ys).length
      = regionSize (as ++ ys ++ cs) := by
    simp only [h.used, regionSize, encodeAll_append, List.length_append]
    omega
  have hneed : (encodeAll ys).length - (encodeAll bs).length
      = regionSize (as ++ ys ++ cs) - s.used := by
    simp only [h.used, regionSize, encodeAll_append, List.length_append]
    omega
  have htake : s.live.take (regionSize as - Header.size) = encodeAll as := by
    rw [h.live_eq, regionSize, Nat.add_sub_cancel_left, List.append_assoc, encodeAll_append,
      List.take_left' rfl]
  have hdrop : s.live.drop (regionSize (as ++ bs) - Header.size) = encodeAll cs := by
    rw [h.live_eq, regionSize, Nat.add_sub_cancel_left, encodeAll_append (as ++ bs) cs,
      List.drop_left' rfl]
  simp only [splice, laid, hgap, hused, hneed, htake, hdrop, encodeAll_append]

theorem stop_entry (as : List (Item w)) (y : Item w) :
    (y.entry (regionSize as)).stop = regionSize (as ++ [y]) := by
  simp only [Entry.stop, Entry.size, entry, regionSize, encodeAll_append, encodeAll_cons,
    encodeAll_nil, List.append_nil, List.length_append, length_encode, size]
  omega

theorem encodeAll_singleton (x : Item w) : encodeAll [x] = x.encode := by simp

/-- Fillers are what they are only where there are any. -/
theorem flatten_replicate {n : Nat} {gap : Bytes} {filler : Item w}
    (h : 0 < n → gap = filler.encode) :
    (List.replicate n gap).flatten = encodeAll (List.replicate n filler) := by
  cases n with
  | zero => rfl
  | succ n => rw [h (Nat.succ_pos n), encodeAll, List.flatMap_def, List.map_replicate]

namespace Holds

theorem splice_put (h : s.Holds xs) (f : FieldId w) (ys : List (Item w)) :
    s.splice (s.insertPoint f) (s.insertPoint f) (encodeAll ys)
      = s.laid (put s.index.isSome f ys xs) := by
  have hs : s.Stores (before s.index.isSome f xs ++ [] ++ after s.index.isSome f xs) := by
    rw [List.append_nil, before_append_after]
    exact h.toStores
  have hsplice := hs.splice_eq ys
  rwa [List.append_nil, ← h.insertPoint_eq] at hsplice

theorem splice_occurrence (h : s.Holds xs) {f : FieldId w} {k : Nat} {e : Entry w}
    (he : (s.occurrences f)[k]? = some e) (ys : List (Item w)) :
    k < (ofField f xs).length ∧
      s.splice e.offset e.stop (encodeAll ys) = s.laid (substitute f ys k xs) := by
  rw [h.occurrences_eq] at he
  have hk := (List.getElem?_eq_some_iff.1 he).1
  rw [length_filter_layout] at hk
  obtain ⟨as, y, cs, rfl, hy, hn, rfl⟩ := layout_occurrence he
  have hs : s.Stores (as ++ [y] ++ cs) := by simpa using h.toStores
  refine ⟨hk, ?_⟩
  rw [substitute_split hy hn, ← hs.splice_eq, ← stop_entry]
  rfl

theorem length_occurrences (h : s.Holds xs) (f : FieldId w) :
    (s.occurrences f).length = (ofField f xs).length := by
  rw [h.occurrences_eq, length_filter_layout]

theorem insert_eq (h : s.Holds xs) (f : FieldId w) (x : Item w) :
    s.insert f x.encode = (s.laid (put s.index.isSome f [x] xs)).map reindexed := by
  rw [Storage.insert, ← encodeAll_singleton, h.splice_put]

theorem push_eq (h : s.Holds xs) (x : Item w) :
    s.push x.encode = (s.laid (xs ++ [x])).map unindexed := by
  have hs : s.Stores (xs ++ [] ++ []) := by simpa using h.toStores
  have hsplice := hs.splice_eq [x]
  rw [List.append_nil, List.append_nil, ← h.used, encodeAll_singleton] at hsplice
  rw [Storage.push, hsplice]

theorem replace_eq (h : s.Holds xs) (f : FieldId w) {k : Nat} (filler x : Item w) {gap : Bytes}
    (hgap : (ofField f xs).length < k → gap = filler.encode) :
    s.replace f k gap x.encode
      = (s.laid (overwrite s.index.isSome f k filler x xs)).map reindexed := by
  unfold Storage.replace overwrite
  cases he : (s.occurrences f)[k]? with
  | some e =>
    obtain ⟨hk, hsplice⟩ := h.splice_occurrence he [x]
    rw [encodeAll_singleton] at hsplice
    simp only [he, hsplice, if_pos hk]
  | none =>
    have hk : ¬ k < (ofField f xs).length := by
      rw [← h.length_occurrences, Nat.not_lt]
      exact List.getElem?_eq_none_iff.1 he
    have hfill := flatten_replicate (n := k - (ofField f xs).length)
      fun hpos => hgap (Nat.lt_of_sub_pos hpos)
    simp only [he, h.length_occurrences, hfill, ← encodeAll_singleton x, ← encodeAll_append,
      h.splice_put, if_neg hk]

end Holds

end Storage

end FieldBuffers
