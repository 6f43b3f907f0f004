import FieldBuffers.Proofs.Algebra
import FieldBuffers.Proofs.Demand

/-! What some fields have in a buffer, and what all others have. The two parts make up the buffer:
nothing is in both, and put together they are equal to it. -/

namespace FieldBuffers

open Item

variable {w : Width} {s t u : Storage w} {p : Place w} {xs ys zs : List (Item w)}

/-- The block holds those entries of the other that were to stay, byte for byte and in their order,
and has an index where that one had. -/
structure Storage.Keeps (s : Storage w) (keep : FieldId w → Bool) (t : Storage w) : Prop where
  items : t.entries.map Entry.item = (s.entries.filter fun e => keep e.id).map Entry.item
  live : t.live = (s.entries.filter fun e => keep e.id).flatMap Entry.encode
  index : t.index.isSome = s.index.isSome
  interval : t.interval = s.interval
  handle : t.handle = s.handle
  capacity : t.capacity = s.capacity
  wellFormed : t.WellFormed

namespace Storage

theorem Holds.keeps (h : s.Holds xs) (keep : FieldId w → Bool) : s.Keeps keep (s.retain keep) := by
  obtain ⟨ht, hcap, hi⟩ := h.retain keep
  have hsame : (s.retain keep).interval = s.interval ∧ (s.retain keep).handle = s.handle := by
    rw [Storage.retain, reindexed]
    split <;> exact ⟨rfl, rfl⟩
  refine ⟨?_, ?_, hi, hsame.1, hsame.2, hcap, ht.wellFormed⟩
  · rw [ht.entries_eq, map_item_layout, h.entries_eq, ← map_item_layout Header.size xs,
      List.filter_map, map_item_layout]
    rfl
  · rw [ht.live_eq, h.entries_eq, flatMap_encode_filter]

end Storage

namespace Edit

theorem retain_eq_ok (hp : p.buffer = .allocated s) (operation : String) (keep : FieldId w → Bool) :
    retain operation keep p = .ok (s.entries.countP fun e => !keep e.id)
      { p with buffer := .allocated (s.retain keep) } := by
  rw [← s.compaction_removed]
  exact bind_of_ok (storage_of_allocated operation hp)

/-- A block that has room for the items of both takes them in as it is. -/
theorem concat_eq_ok {a : Arena} (hc : a.config.Stated) (hs : s.Holds xs) (ht : t.Holds ys)
    (hu : u.Holds zs) (hroom : s.used ≤ t.capacity)
    (hfields : ∀ f, ofField f ys ++ ofField f zs = ofField f xs) :
    ∃ q, merge .concat (.allocated u) (⟨a, .allocated t⟩ : Place w) = .ok () q ∧
      (Buffer.allocated s).Equal q.buffer := by
  have hsort : sort ((Merge.concat.entries (layout Header.size ys) (layout Header.size zs)).map
      Entry.item) = sort xs := by
    refine eq_of_sorted (sorted_sort _) (sorted_sort _) fun f => ?_
    rw [ofField_sort, ofField_sort, Merge.ofField_entries]
    exact hfields f
  have hgrows := merge_grows (m := .concat) (p := ⟨a, .allocated t⟩) rfl ht hu hc
  have hsize : Header.size + ((Merge.concat.entries t.entries u.entries).map Entry.size).sum
      = s.used := by
    rw [sum_map_size, ht.entries_eq, hu.entries_eq, hs.used, ← regionSize,
      ← regionSize_perm (sort_perm _), hsort, regionSize_perm (sort_perm xs)]
  rw [hsize] at hgrows
  obtain ⟨⟨⟩, q, hrun, -⟩ := hgrows.fits hroom
  refine ⟨q, hrun, ?_⟩
  have hmakes := merge_makes (m := .concat) (p := ⟨a, .allocated t⟩) ⟨t, rfl, ht, rfl⟩
    ⟨u, rfl, hu, rfl⟩ hc
  rw [Makes, Ends, hrun, hsort] at hmakes
  obtain ⟨⟨r, hr, hholds, -⟩, -⟩ := hmakes
  rw [hr]
  exact hs.same hholds.toStores (sort_eq_self (sorted_sort xs)).symm

/-- What a projection on some fields and the removal of the same fields leave, and that both
together are what there was. -/
structure Partitions (p : Place w) (s : Storage w) (fs : List (FieldId w)) (t u : Storage w)
    (n m : Nat) : Prop where
  project : project fs p = .ok n { p with buffer := .allocated t }
  eraseMany : eraseMany fs p = .ok m { p with buffer := .allocated u }
  kept : s.Keeps fs.contains t
  others : s.Keeps (!fs.contains ·) u
  removed : n + m = s.entries.length
  concat (a : Arena) : a.config.Stated →
    ∃ q, merge .concat (.allocated u) (⟨a, .allocated t⟩ : Place w) = .ok () q ∧
      p.buffer.Equal q.buffer
  concat_others (a : Arena) : a.config.Stated →
    ∃ q, merge .concat (.allocated t) (⟨a, .allocated u⟩ : Place w) = .ok () q ∧
      p.buffer.Equal q.buffer
  spares {as bs : List (Entry w)} : s.entries = as ++ bs →
    (s.compaction fs.contains as).Spares bs ∧ (s.compaction (!fs.contains ·) as).Spares bs

theorem partitions_of_reachable (hb : Reachable ArenaConfig.Stated p.buffer)
    (hp : p.buffer = .allocated s) (fs : List (FieldId w)) :
    ∃ t u n m, Partitions p s fs t u n m := by
  rw [hp] at hb
  obtain ⟨xs, _, _, hs, hx, -⟩ := Buffer.holds_of_reachable hb rfl
  obtain rfl := Buffer.allocated.inj hs
  obtain ⟨ht, htcap, -⟩ := hx.retain fs.contains
  obtain ⟨hu, hucap, -⟩ := hx.retain (!fs.contains ·)
  have hparts : ∀ f, ofField f (xs.filter fun x => fs.contains x.id)
      ++ ofField f (xs.filter fun x => !fs.contains x.id) = ofField f xs ∧
    ofField f (xs.filter fun x => !fs.contains x.id)
      ++ ofField f (xs.filter fun x => fs.contains x.id) = ofField f xs := by
    intro f
    rw [ofField_filter fs.contains, ofField_filter (!fs.contains ·)]
    cases fs.contains f <;> simp
  refine ⟨_, _, _, _, retain_eq_ok hp "project" fs.contains,
    retain_eq_ok hp "erase_many" (!fs.contains ·), hx.keeps _, hx.keeps _, ?_, fun a hc => ?_,
    fun a hc => ?_, fun h => ⟨s.spares_compaction _ h, s.spares_compaction _ h⟩⟩
  · rw [List.length_eq_countP_add_countP fun e => fs.contains e.id, Nat.add_comm]
    simp
  · rw [hp]
    exact concat_eq_ok hc hx ht hu (htcap ▸ hx.used_le) fun f => (hparts f).1
  · rw [hp]
    exact concat_eq_ok hc hx hu ht (hucap ▸ hx.used_le) fun f => (hparts f).2

/-- One field is named twice, and one that is named has no entry. -/
theorem partitions_after_adds :
    let f : FieldId .wide := ⟨.short, 1, by decide, by decide, by decide⟩
    let g : FieldId .wide := ⟨.char, 2, by decide, by decide, by decide⟩
    let h : FieldId .wide := ⟨.short, 3, by decide, by decide, by decide⟩
    let empty : Place .wide := ⟨{ config := ⟨128, 256⟩ }, .null⟩
    let p := empty.afterAll [.append g (.char 65), .append f (.short 7), .append g (.char 66)]
    p.buffer.length = 3 ∧ p.buffer.isIndexed = false ∧
      ∃ s t u n m, p.buffer = .allocated s ∧ Partitions p s [g, h, g] t u n m := by
  intro f g h empty p
  have hb : Reachable ArenaConfig.Stated p.buffer := by
    refine .afterAll (show empty.arena.config.Stated from show 256 < 2 ^ 32 by decide) .null
      fun d hd => ?_
    have hflat : ∀ d ∈ [Change.append g (.char 65), .append f (.short 7), .append g (.char 66)],
        (∀ v ∈ d.value?, v.type ≠ .fml) ∧ d.other? = none := by decide
    exact Change.plain_of_flat (hflat d hd).1 (hflat d hd).2
  have hnull : p.buffer.isNull = false := by decide +kernel
  refine ⟨by decide +kernel, by decide +kernel, ?_⟩
  cases hp : p.buffer with
  | null =>
    rw [hp] at hnull
    cases hnull
  | allocated s =>
    obtain ⟨t, u, n, m, hparts⟩ := partitions_of_reachable hb hp [g, h, g]
    exact ⟨s, t, u, n, m, rfl, hparts⟩

end Edit

end FieldBuffers
