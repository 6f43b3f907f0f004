import FieldBuffers.Proofs.Logical

/-! Looking through the index finds what a scan of the whole region finds, for a field that is
there and for one that is not, whatever the interval of the samples. -/

namespace FieldBuffers

open Item

variable {w : Width} {s : Storage w} {xs : List (Item w)} {f : FieldId w}

theorem Item.find?_layout (offset : Nat) (f : FieldId w) (xs : List (Item w)) :
    ((layout offset xs).find? (f.raw < ·.id.raw)).elim (offset + (encodeAll xs).length) (·.offset)
      = offset + (encodeAll (xs.takeWhile (·.id.raw ≤ f.raw))).length := by
  cases h : (layout offset xs).find? (f.raw < ·.id.raw) with
  | none => rw [find?_layout_eq_none h, Option.elim_none]
  | some e => rw [← find?_layout_eq_some h, Option.elim_some]

namespace Storage

/-- The same storage with an index of every `interval`-th of its entries. -/
def sampled (s : Storage w) (interval : Nat) : Storage w :=
  { s with interval, index := some (Index.build interval s.entries) }

@[simp] theorem entries_sampled (s : Storage w) (interval : Nat) :
    (s.sampled interval).entries = s.entries := rfl

@[simp] theorem used_sampled (s : Storage w) (interval : Nat) :
    (s.sampled interval).used = s.used := rfl

theorem Holds.sampled (h : s.Holds xs) (hi : s.index.isSome) (interval : Nat) :
    (s.sampled interval).Holds xs where
  toStores := ⟨h.magic, h.word, h.capacity, h.used, h.body, h.sound⟩
  flag := h.flag.trans hi
  index _ hix := by
    rw [← Option.some.inj hix, h.entries_eq]
    rfl
  sorted _ := h.sorted hi

/-- What looking for a field finds is what a scan of all entries finds: its occurrences in their
order, and the first entry of a greater field, or the end of the region. -/
structure Locates (s : Storage w) (f : FieldId w) : Prop where
  occurrences : s.occurrences f = s.entries.filter (·.id = f)
  insertPoint : s.insertPoint f = (s.entries.find? (f.raw < ·.id.raw)).elim s.used (·.offset)

theorem Holds.locates (h : s.Holds xs) (hi : s.index.isSome) (f : FieldId w) : s.Locates f where
  occurrences := by rw [h.occurrences_eq, h.entries_eq]
  insertPoint := by
    rw [h.insertPoint_eq, hi, h.entries_eq, h.used]
    exact (find?_layout Header.size f xs).symm

/-- Neither the index of a buffer nor one of another interval misses an entry that is there. -/
theorem locates_of_reachable (hb : Reachable ArenaConfig.Stated (.allocated s))
    (hi : s.index.isSome) (f : FieldId w) :
    s.Locates f ∧ ∀ interval, (s.sampled interval).Locates f := by
  obtain ⟨xs, _, t, ht, hx, -⟩ := Buffer.holds_of_reachable hb rfl
  obtain rfl := Buffer.allocated.inj ht
  exact ⟨hx.locates hi f, fun interval => (hx.sampled hi interval).locates rfl f⟩

/-- The middle one of three fields has an entry on either side of the second sample. -/
theorem locates_amid_samples :
    let f : FieldId .wide := ⟨.short, 1, by decide, by decide, by decide⟩
    let g : FieldId .wide := ⟨.short, 2, by decide, by decide, by decide⟩
    let h : FieldId .wide := ⟨.short, 3, by decide, by decide, by decide⟩
    let empty : Place .wide := ⟨{ config := ⟨128, 256⟩ }, .null⟩
    let ds := [Change.reallocate 128, .buildIndex 2, .add g (.short 7), .add f (.short 6),
      .add h (.short 9), .add g (.short 8)]
    let b := (empty.afterAll ds).buffer
    b.index?.map (·.samples) = some [(f, 16), (g, 36)] ∧
      (b.occurrences g).map (·.offset) = [26, 36] ∧
      ∀ s, b = .allocated s → s.Locates g ∧ ∀ interval, (s.sampled interval).Locates g := by
  intro f g h empty ds b
  have hflat : ∀ d ∈ ds, (∀ v ∈ d.value?, v.type ≠ .fml) ∧ d.other? = none := by decide
  have hc : empty.arena.config.Stated := show 256 < 2 ^ 32 by decide
  have hb : Reachable ArenaConfig.Stated b :=
    .afterAll hc .null fun d hd => Change.plain_of_flat (hflat d hd).1 (hflat d hd).2
  have hi : b.index?.isSome := by decide +kernel
  refine ⟨by decide +kernel, by decide +kernel, fun s hs => ?_⟩
  rw [hs] at hb hi
  exact locates_of_reachable hb hi g

end Storage

end FieldBuffers
