import FieldBuffers.Proofs.Ample
import FieldBuffers.Proofs.Merging

/-! How many bytes a change leaves in use, and what that asks of the block. Where they do not fit the
block grows once, to twice its size or to what is needed, and the write then goes through. -/

namespace FieldBuffers

open Item

variable {α : Type} {w : Width} {s t : Storage w} {xs ys zs as bs cs : List (Item w)} {p : Place w}
  {n : Nat} {write : Storage w → Except Error (Storage w)} {finish : Storage w → Storage w}

/-- The edit leaves `n` bytes in use. The block stays as it is where they fit; elsewhere it grows to
twice its size, or to `n` bytes if that is more, unless the arena grants no such block. -/
structure Grows (x : Edit w α) (p : Place w) (s : Storage w) (n : Nat) : Prop where
  fits : n ≤ s.capacity →
    ∃ a q, x p = .ok a q ∧ q.buffer.used = n ∧ q.buffer.capacity = s.capacity
  grows : s.capacity < n → max (2 * s.capacity) n ≤ p.arena.config.ceiling →
    ∃ a q, x p = .ok a q ∧ q.buffer.used = n ∧ q.buffer.capacity = max (2 * s.capacity) n
  refused : s.capacity < n → p.arena.config.ceiling < max (2 * s.capacity) n →
    x p = .error (.arenaCapacity (max (2 * s.capacity) n) p.arena.config.ceiling) p

theorem Grows.bind_pure {β : Type} {x : Edit w α} (h : Grows x p s n) (b : β) :
    Grows (do let _ ← x; return b) p s n where
  fits hfit := by
    obtain ⟨a, q, hx, hq⟩ := h.fits hfit
    exact ⟨b, q, bind_of_ok hx, hq⟩
  grows hlt hgrant := by
    obtain ⟨a, q, hx, hq⟩ := h.grows hlt hgrant
    exact ⟨b, q, bind_of_ok hx, hq⟩
  refused hlt hrefuse := bind_of_error (h.refused hlt hrefuse)

theorem bind_congr_at {β : Type} {x y : Edit w α} {f : α → Edit w β} (h : x p = y p) :
    (x >>= f) p = (y >>= f) p := by
  change EStateM.bind x f p = EStateM.bind y f p
  rw [EStateM.bind, EStateM.bind, h]

theorem Grows.congr {x y : Edit w α} (h : Grows x p s n) (hxy : x p = y p) : Grows y p s n where
  fits hfit := hxy ▸ h.fits hfit
  grows hlt hgrant := hxy ▸ h.grows hlt hgrant
  refused hlt hrefuse := hxy ▸ h.refused hlt hrefuse

/-- What is left to do after a write does not change the sizes. -/
structure KeepsSizes (finish : Storage w → Storage w) : Prop where
  capacity (t : Storage w) : (finish t).capacity = t.capacity
  used (t : Storage w) : (finish t).used = t.used

theorem keepsSizes_reindexed : KeepsSizes (Storage.reindexed (w := w)) where
  capacity := Storage.capacity_reindexed
  used t := by
    rw [Storage.reindexed]
    split <;> rfl

theorem keepsSizes_unindexed : KeepsSizes (Storage.unindexed (w := w)) where
  capacity _ := rfl
  used _ := rfl

theorem Storage.Holds.capacity_sizeFor (h : s.Holds xs) (hlt : s.capacity < regionSize zs)
    {c : ArenaConfig} (hgrant : s.sizeFor zs ≤ c.ceiling) (hc : c.Stated) :
    (s.resized (s.sizeFor zs)).capacity = s.sizeFor zs := by
  refine (h.toStores.resized ?_ (Nat.lt_of_le_of_lt hgrant hc)).2
  rw [← h.used]
  exact h.used_le.trans (Nat.le_of_lt (s.capacity_lt_sizeFor hlt))

namespace Edit

end Edit

/-- The write that a change of a single occurrence comes to, its arguments being valid, and the bytes
that are then in use. -/
inductive Change.Writes (s : Storage w) :
    Change w → (Storage w → Except Error (Storage w)) → Nat → Prop
  | add {f : FieldId w} {v u : Value} {entry : Bytes} :
      v.coerce f.type (.ident w f) = .ok u → u.encodeEntry f = .ok entry →
      Writes s (.add f v) (Storage.insert f entry) (s.used + entry.length)
  | append {f : FieldId w} {v : Value} {entry : Bytes} :
      v.type = f.type → v.encodeEntry f = .ok entry →
      Writes s (.append f v) (Storage.push entry) (s.used + entry.length)
  | overwrite {f : FieldId w} {k : Nat} {v u : Value} {entry : Bytes} {e : Entry w} :
      v.coerce f.type (.ident w f) = .ok u → u.encodeEntry f = .ok entry →
      (0 < k → s.index.isSome) → (s.occurrences f)[k]? = some e →
      Writes s (.set f k v) (Storage.replace f k [] entry) (s.used - e.size + entry.length)
  | fill {f : FieldId w} {k : Nat} {v u : Value} {entry filler : Bytes} :
      v.coerce f.type (.ident w f) = .ok u → u.encodeEntry f = .ok entry →
      (0 < k → s.index.isSome) → (s.occurrences f).length ≤ k →
      (Value.default f.type).encodeEntry f = .ok filler →
      Writes s (.set f k v)
        (Storage.replace f k (if (s.occurrences f).length < k then filler else []) entry)
        (s.used + ((k - (s.occurrences f).length) * filler.length + entry.length))

theorem Item.sum_map_size (es : List (Entry w)) :
    (es.map Entry.size).sum = (encodeAll (es.map Entry.item)).length := by
  rw [encodeAll, List.length_flatMap, List.map_map]
  exact congrArg List.sum (List.map_congr_left fun e _ => (e.item.length_encode).symm)

namespace Storage.Holds

variable {f : FieldId w} {x filler : Item w} {k : Nat} {e : Entry w}

end Storage.Holds

namespace Change.Writes

variable {c : Change w}

theorem run_eq (hw : c.Writes s write n) (hp : p.buffer = .allocated s) :
    c.run p = (do Edit.growing write; return none : Edit w (Option Nat)) p := by
  have hready : ∀ {k : Nat}, (0 < k → s.index.isSome) → ¬ Edit.CannotSet p.buffer k := by
    rintro k hk ⟨hpos, -, hi⟩
    rw [hp, Buffer.isIndexed, Buffer.index?, hk hpos] at hi
    cases hi
  have hset : ∀ {f : FieldId w} {k : Nat} {v u : Value} {entry filler : Bytes},
      v.coerce f.type (.ident w f) = .ok u → u.encodeEntry f = .ok entry →
      (0 < k → s.index.isSome) → (Value.default f.type).encodeEntry f = .ok filler →
      Edit.set f k v p = Edit.allocating (Storage.replace f k
        (if (s.occurrences f).length < k then filler else []) entry) p := by
    intro f k v u entry filler hu he hk hd
    rw [Edit.set_eq_replace hu he (hready hk) hd, hp]
    rfl
  have hgrowing : ∀ write, Edit.allocating write p = Edit.growing write p := fun write => by
    rw [Edit.allocating, hp]
  cases hw with
  | add hu he => exact bind_congr_at ((Edit.add_eq hu he).trans (hgrowing _))
  | append ht he => exact bind_congr_at ((Edit.append_eq ht he).trans (hgrowing _))
  | @overwrite f k v u entry e hu he hk hocc =>
    obtain ⟨filler, hd⟩ := Value.exists_encodeEntry_default f
    have hlt := (List.getElem?_eq_some_iff.1 hocc).1
    have h := hset hu he hk hd
    rw [if_neg (Nat.lt_asymm hlt)] at h
    exact bind_congr_at (h.trans (hgrowing _))
  | fill hu he hk hocc hd => exact bind_congr_at ((hset hu he hk hd).trans (hgrowing _))

end Change.Writes

namespace Edit

/-- The block is asked to grow by what is lacking, and it grows once. -/
theorem grow_of_lt (hp : p.buffer = .allocated s) (h : s.Holds xs)
    (hlt : s.capacity < regionSize zs) :
    grow (regionSize zs - s.used) p
      = if s.sizeFor zs ≤ p.arena.config.ceiling then
          .ok () ⟨{ p.arena with tracker := p.arena.tracker.resize s.handle (s.sizeFor zs) },
            .allocated (s.resized (s.sizeFor zs))⟩
        else .error (.arenaCapacity (s.sizeFor zs) p.arena.config.ceiling) p := by
  have hneed : s.used + (regionSize zs - s.used) = regionSize zs := by
    have := h.used_le
    omega
  have hgrow : grow (regionSize zs - s.used) p
      = extend s (max (2 * s.capacity) (s.used + (regionSize zs - s.used))) p :=
    bind_of_ok (storage_of_allocated "grow" hp)
  rw [hgrow, hneed, ← Storage.sizeFor, extend, Arena.extend_of_lt _ _ (s.capacity_lt_sizeFor hlt)]
  by_cases hgrant : s.sizeFor zs ≤ p.arena.config.ceiling
  · rw [if_pos hgrant, if_pos hgrant]
  · rw [if_neg hgrant, if_neg hgrant]

/-- Other entries in place of all there are. -/
theorem install_grows (hp : p.buffer = .allocated s) (h : s.Holds xs) (hc : p.arena.config.Stated)
    (hz : ∀ z ∈ zs, z.Sound) : Grows (install (encodeAll zs)) p s (regionSize zs) := by
  have hput : ∀ (t : Storage w) (q : Place w), t.Holds xs → q.buffer = .allocated t →
      regionSize zs ≤ t.capacity → ∃ a r, (do
        let s ← storage "write"
        put ((s.withLive (encodeAll zs)).indexed s.interval) : Edit w Unit) q = .ok a r ∧
        r.buffer.used = regionSize zs ∧ r.buffer.capacity = t.capacity := by
    intro t q ht hq hfit
    obtain ⟨hl, hcap⟩ := ht.toStores.withLive hz hfit
    obtain ⟨hi, hcap'⟩ := hl.indexed t.interval
    refine ⟨(), _, bind_of_ok (storage_of_allocated "write" hq), ?_, hcap'.trans hcap⟩
    exact hi.used.trans (regionSize_perm (sort_perm zs))
  have hrun : install (encodeAll zs) p = (do
      if s.capacity < regionSize zs then grow (regionSize zs - s.used)
      let s ← storage "write"
      put ((s.withLive (encodeAll zs)).indexed s.interval) : Edit w Unit) p :=
    bind_of_ok (storage_of_allocated "write" hp)
  constructor
  case fits =>
    intro hfit
    rw [hrun, if_neg (Nat.not_lt.2 hfit)]
    exact hput s p h hp hfit
  case grows =>
    intro hlt hgrant
    obtain ⟨hr, hroom⟩ := h.resized_sizeFor hlt (Nat.lt_of_le_of_lt hgrant hc)
    obtain ⟨a, r, hr, hused, hcap⟩ := hput _
      ⟨{ p.arena with tracker := p.arena.tracker.resize s.handle (s.sizeFor zs) }, _⟩ hr rfl hroom
    refine ⟨a, r, ?_, hused, hcap.trans (h.capacity_sizeFor hlt hgrant hc)⟩
    rw [hrun, if_pos hlt]
    exact (bind_of_ok ((grow_of_lt hp h hlt).trans (if_pos hgrant))).trans hr
  case refused =>
    intro hlt hrefuse
    rw [hrun, if_pos hlt]
    exact bind_of_error ((grow_of_lt hp h hlt).trans (if_neg (Nat.not_le.2 hrefuse)))

theorem merge_grows {m : Merge} (hp : p.buffer = .allocated s) (hx : s.Holds xs) (hy : t.Holds ys)
    (hc : p.arena.config.Stated) :
    Grows (merge m (.allocated t)) p s
      (Header.size + ((m.entries s.entries t.entries).map Entry.size).sum) := by
  have hrun : merge m (.allocated t) p
      = install ((m.entries s.entries t.entries).flatMap Entry.encode) p :=
    (bind_of_ok (storage_of_allocated m.name hp)).trans (bind_of_ok (ofExcept_of_ok rfl))
  rw [Entry.flatMap_encode] at hrun
  rw [Item.sum_map_size]
  refine (install_grows hp hx hc ?_).congr hrun.symm
  rw [hx.entries_eq, hy.entries_eq]
  exact Merge.sound_entries hx.sound hy.sound

end Edit

namespace Change

variable {c : Change w}

end Change

end FieldBuffers
