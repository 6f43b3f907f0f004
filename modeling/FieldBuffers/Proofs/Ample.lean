import FieldBuffers.Proofs.Alike
import FieldBuffers.Proofs.Editing

/-! Arenas with room to spare. A new last occurrence is refused only in an arena that is not ample
for the buffer it makes (`Edit.add_ends`). -/

namespace FieldBuffers

open Item

variable {w : Width} {s : Storage w} {xs zs : List (Item w)} {p : Place w}

/-- The arena grants the first block, and twice what a buffer of the size takes. -/
structure ArenaConfig.Ample (c : ArenaConfig) (size : Nat) : Prop where
  first : max c.initial Header.size ≤ c.ceiling
  twice : 2 * size ≤ c.ceiling

theorem ArenaConfig.Ample.mono {c : ArenaConfig} {m n : Nat} (h : c.Ample n) (hm : m ≤ n) :
    c.Ample m :=
  ⟨h.first, Nat.le_trans (Nat.mul_le_mul_left 2 hm) h.twice⟩

theorem Buffer.allocate_of_room {size : Nat} {a : Arena}
    (h : Region.Room a.config (max size Header.size)) :
    ∃ r, Buffer.allocate w size a = .ok r := by
  have hreserve : ∃ r, a.reserve w.blockKind (max size Header.size) = .ok r := by
    rw [Arena.reserve, ArenaConfig.check, if_pos h.granted]
    exact ⟨_, rfl⟩
  obtain ⟨⟨handle, a'⟩, hreserve⟩ := hreserve
  refine ⟨(.allocated (Storage.fresh w handle (max size Header.size)), a'), ?_⟩
  rw [Buffer.allocate]
  exact ok_bind_iff.2
    ⟨(), (Region.checkRoom_eq_ok_iff ..).2 h, ok_bind_iff.2 ⟨_, hreserve, rfl⟩⟩

namespace Edit

theorem allocate_ample (hc : p.arena.config.Stated) :
    Ends (allocate p.arena.config.initial) p (fun _ _ => True)
      fun _ _ => ∀ n, ¬ p.arena.config.Ample n := by
  simp only [Ends, allocate]
  cases h : Buffer.allocate w p.arena.config.initial p.arena with
  | ok r => trivial
  | error e =>
    intro n hn
    obtain ⟨r, hr⟩ :=
      Buffer.allocate_of_room (w := w) ⟨Nat.lt_of_le_of_lt hn.first hc, hn.first⟩
    cases h.symm.trans hr

section Writing

variable {write : Storage w → Except Error (Storage w)} {finish : Storage w → Storage w}

theorem growing_ample (hp : p.buffer = .allocated s) (h : s.Holds xs) (hc : p.arena.config.Stated)
    (hz : ∀ z ∈ zs, z.Sound) (hfinish : ∀ t, (finish t).capacity = t.capacity)
    (hw : ∀ t : Storage w, t.Holds xs → t.index = s.index → write t = (t.laid zs).map finish) :
    Ends (growing write) p (fun _ q => s.capacity ≤ q.buffer.capacity)
      fun _ _ => ¬ p.arena.config.Ample (regionSize zs) ∧ s.capacity < regionSize zs := by
  rw [Ends, growing_eq hp h hc hw]
  by_cases hfit : regionSize zs ≤ s.capacity
  · rw [if_pos hfit]
    have hcap := (h.toStores.withLive hz hfit).2
    exact (hcap.symm.trans (hfinish _).symm).le
  have hlt := Nat.lt_of_not_le hfit
  by_cases hgrant : s.sizeFor zs ≤ p.arena.config.ceiling
  · rw [if_neg hfit, if_pos hgrant]
    have hsize := Nat.lt_of_le_of_lt hgrant hc
    obtain ⟨hr, hroom⟩ := h.resized_sizeFor hlt hsize
    have hcap := (hr.toStores.withLive hz hroom).2
    exact ((Nat.le_of_lt hlt).trans hroom).trans (hcap.symm.trans (hfinish _).symm).le
  · rw [if_neg hfit, if_neg hgrant]
    refine ⟨fun hample => ?_, hlt⟩
    have htwice := hample.twice
    rw [Storage.sizeFor] at hgrant
    omega

theorem allocating_ample {indexed : Bool} (hp : p.buffer.Offers xs indexed)
    (hc : p.arena.config.Stated) (hz : ∀ z ∈ zs, z.Sound)
    (hfinish : ∀ t, (finish t).capacity = t.capacity)
    (hw : ∀ t : Storage w, t.Holds xs → t.index.isSome = indexed →
      write t = (t.laid zs).map finish) :
    Ends (allocating write) p (fun _ q => p.buffer.capacity ≤ q.buffer.capacity)
      fun _ _ => ¬ p.arena.config.Ample (regionSize zs) ∧ p.buffer.capacity < regionSize zs := by
  have hgrow : ∀ (q : Place w) (s : Storage w), q.buffer = .allocated s → s.Holds xs →
      s.index.isSome = indexed → q.arena.config = p.arena.config →
      Ends (growing write) q (fun _ r => s.capacity ≤ r.buffer.capacity)
        fun _ _ => ¬ p.arena.config.Ample (regionSize zs) ∧ s.capacity < regionSize zs := by
    rintro q s hs hx hi ha
    rw [← ha]
    refine growing_ample hs hx (ha ▸ hc) hz hfinish fun t ht hix => hw t ht ?_
    rw [hix, hi]
  rcases hp with ⟨s, hs, hx, hi⟩ | ⟨hnull, rfl, rfl⟩
  · have h := hgrow p s hs hx hi rfl
    simpa only [Ends, allocating, hs, Buffer.capacity] using h
  · have hfresh := (allocate_makes hc p.arena.config.initial).and (allocate_ample hc)
    have hpos : 0 < regionSize zs := Nat.lt_of_lt_of_le (by decide) (Nat.le_add_right ..)
    rw [hnull]
    refine (ends_allocating hnull).2 (hfresh.mono ?_ fun _ _ h => ⟨h.2 _, hpos⟩)
    rintro _ q ⟨⟨⟨s, hs, hx, hi⟩, ha⟩, -⟩
    refine (hgrow q s hs hx hi ha).mono (fun _ _ _ => Nat.zero_le _) fun e r he => ?_
    exact ends_free.2 ⟨fun _ _ => ⟨he.1, hpos⟩, fun _ => ⟨he.1, hpos⟩⟩

end Writing

/-- A value of the field's kind that is added. -/
theorem add_put_ends {indexed : Bool} {x : Item w} {v : Value} (hp : p.buffer.Offers zs indexed)
    (hc : p.arena.config.Stated) (hv : v.Built) (ht : v.type = x.id.type) (hn : v.Named)
    (hs : v.Shallow) (hst : x.Stated) (hx : x.value = v.encode) :
    Ends (add x.id v) p
      (fun _ q => q.buffer.Holds (Item.put indexed x.id [x] zs) indexed ∧
        q.arena.config = p.arena.config ∧ p.buffer.capacity ≤ q.buffer.capacity)
      fun e _ => p.arena.config.Refuses e ∧ ¬ p.arena.config.Ample (regionSize (zs ++ [x])) ∧
        p.buffer.capacity < regionSize (zs ++ [x]) := by
  have hitem : Item.of x.id v = x := by rw [Item.of, ← hx]
  have hcoerce : v.coerce x.id.type (.ident w x.id) = .ok v := if_pos ht
  have hentry : v.encodeEntry x.id = .ok x.encode :=
    (Value.encodeEntry_eq_ok_iff ..).2 ⟨hn, hs, hx ▸ hst, hx ▸ rfl⟩
  have hsound : x.Sound := hitem ▸ (Value.sound_item ht hv hentry).1
  have hmakes := add_makes hp hc hv ⟨hcoerce, _, hentry⟩
  rw [hitem] at hmakes
  have hsize : regionSize (Item.put indexed x.id [x] zs) = regionSize (zs ++ [x]) :=
    regionSize_perm (put_perm ..)
  have hput : ∀ z ∈ Item.put indexed x.id [x] zs, z.Sound := by
    intro z hz
    rcases mem_put hz with hz | hz
    · exact hp.sound z hz
    · exact List.mem_singleton.1 hz ▸ hsound
  have hample := (ends_congr (add_eq hcoerce hentry)).2 (allocating_ample hp hc hput
    Storage.capacity_reindexed fun t ht hi => hi ▸ ht.insert_eq x.id x)
  rw [hsize] at hample
  exact (hmakes.and hample).mono (fun _ _ h => ⟨h.1.1, h.1.2, h.2⟩) fun _ _ h => ⟨h.1.1, h.2⟩

/-- A value of the field's kind that is added to sorted items. -/
theorem add_ends {x : Item w} {v : Value} (hp : p.buffer.Offers zs true)
    (hc : p.arena.config.Stated) (hv : v.Built) (ht : v.type = x.id.type) (hn : v.Named)
    (hs : v.Shallow) (hst : x.Stated) (hx : x.value = v.encode) :
    Ends (add x.id v) p
      (fun _ q => q.buffer.Holds (sort (zs ++ [x])) true ∧ q.arena.config = p.arena.config)
      fun e _ => p.arena.config.Refuses e ∧ ¬ p.arena.config.Ample (regionSize (zs ++ [x])) := by
  have h := add_put_ends hp hc hv ht hn hs hst hx
  rw [put_eq_sort (hp.sorted rfl)] at h
  exact h.mono (fun _ _ h => ⟨h.1, h.2.1⟩) fun _ _ h => ⟨h.1, h.2.1⟩

end Edit

end FieldBuffers
