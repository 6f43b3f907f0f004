import FieldBuffers.Proofs.Editing
import FieldBuffers.Proofs.Reading

/-! Every buffer that operations can leave is null or holds items. -/

namespace FieldBuffers

open Item

variable {α : Type} {w : Width} {xs zs : List (Item w)} {p : Place w} {f : FieldId w} {v : Value}
  {indexed : Bool}

/-- A write finds some items in the buffer. -/
def Buffer.Sound (b : Buffer w) : Prop := ∃ xs indexed, b.Offers xs indexed

theorem Buffer.sound_null : (.null : Buffer w).Sound := ⟨[], true, .inr ⟨rfl, rfl, rfl⟩⟩

/-- A write finds items of one sort in the buffer. -/
def Buffer.Consists (P : Item w → Prop) (b : Buffer w) : Prop :=
  ∃ xs indexed, b.Offers xs indexed ∧ ∀ x ∈ xs, P x

theorem Buffer.Sound.consists {b : Buffer w} (h : b.Sound) : b.Consists fun _ => True := by
  obtain ⟨xs, indexed, hx⟩ := h
  exact ⟨xs, indexed, hx, fun _ _ => trivial⟩

theorem Buffer.Consists.sound {P : Item w → Prop} {b : Buffer w} (h : b.Consists P) : b.Sound := by
  obtain ⟨xs, indexed, hx, -⟩ := h
  exact ⟨xs, indexed, hx⟩

/-- The edit leaves a sound buffer in the same arena, whether it succeeds or fails. -/
def StaysSound (x : Edit w α) (p : Place w) : Prop :=
  Ends x p (fun _ q => q.buffer.Sound ∧ q.arena.config = p.arena.config)
    fun _ q => q.buffer.Sound ∧ q.arena.config = p.arena.config

/-- The edit leaves items of one sort in the same arena, whether it succeeds or fails. -/
def Stays (P : Item w → Prop) (x : Edit w α) (p : Place w) : Prop :=
  Ends x p (fun _ q => q.buffer.Consists P ∧ q.arena.config = p.arena.config)
    fun _ q => q.buffer.Consists P ∧ q.arena.config = p.arena.config

section Stays

variable {P : Item w → Prop}

theorem consists_null : (.null : Buffer w).Consists P := ⟨[], true, .inr ⟨rfl, rfl, rfl⟩, by simp⟩

theorem Makes.stays {x : Edit w α} (h : Makes x p zs indexed) (hp : p.buffer.Consists P)
    (hz : ∀ z ∈ zs, P z) : Stays P x p :=
  h.mono (fun _ _ hq => ⟨⟨_, _, .inl hq.1, hz⟩, hq.2⟩) fun _ _ hq => ⟨hq.2.1 ▸ hp, hq.2.2⟩

theorem Leaves.stays {x : Edit w α} (h : Leaves x p zs indexed) (hz : ∀ z ∈ zs, P z) :
    Stays P x p :=
  h.mono (fun _ _ hq => ⟨⟨_, _, .inl hq.1, hz⟩, hq.2⟩) fun _ _ he => he.elim

theorem stays_of_error {x : Edit w α} (h : ∃ e, x p = .error e p) (hp : p.buffer.Consists P) :
    Stays P x p := by
  obtain ⟨e, he⟩ := h
  exact (ends_of_error he).2 ⟨hp, rfl⟩

namespace Edit

theorem add_stays (hp : p.buffer.Consists P) (hc : p.arena.config.Stated) (hv : v.Built)
    (hP : ∀ u, Accepts f v u → P (Item.of f u)) : Stays P (add f v) p := by
  by_cases ha : ∃ u, Accepts f v u
  · obtain ⟨u, ha⟩ := ha
    have hb := hp
    obtain ⟨xs, indexed, hx, hxs⟩ := hp
    refine (add_makes hx hc hv ha).stays hb fun z hz => ?_
    rcases mem_put hz with hz | hz
    · exact hxs z hz
    · exact List.mem_singleton.1 hz ▸ hP u ha
  · exact stays_of_error (add_eq_error (not_exists.1 ha)) hp

theorem append_stays (hp : p.buffer.Consists P) (hc : p.arena.config.Stated) (hv : v.Built)
    (hP : ∀ u, Accepts f v u → P (Item.of f u)) : Stays P (append f v) p := by
  by_cases ha : v.type = f.type ∧ ∃ entry, v.encodeEntry f = .ok entry
  · obtain ⟨ht, entry, he⟩ := ha
    have hb := hp
    obtain ⟨xs, indexed, hx, hxs⟩ := hp
    refine (append_makes hx hc hv ht he).stays hb fun z hz => ?_
    rcases List.mem_append.1 hz with hz | hz
    · exact hxs z hz
    · have hcoerce : v.coerce f.type (.ident w f) = .ok v := if_pos ht
      exact List.mem_singleton.1 hz ▸ hP v ⟨hcoerce, entry, he⟩
  · exact stays_of_error (append_eq_error fun ht entry he => ha ⟨ht, entry, he⟩) hp

theorem set_stays (k : Nat) (hp : p.buffer.Consists P) (hc : p.arena.config.Stated)
    (hv : v.Built) (hP : ∀ u, Accepts f v u → P (Item.of f u))
    (hd : P (Item.of f (Value.default f.type))) : Stays P (set f k v) p := by
  by_cases ha : ∃ u, Accepts f v u
  · obtain ⟨u, ha⟩ := ha
    by_cases hk : CannotSet p.buffer k
    · exact stays_of_error ⟨_, set_eq_notIndexed ha hk⟩ hp
    · have hb := hp
      obtain ⟨xs, indexed, hx, hxs⟩ := hp
      refine (set_makes hx hc hv hk ha).stays hb fun z hz => ?_
      rcases mem_overwrite hz with hz | rfl | rfl
      · exact hxs z hz
      · exact hd
      · exact hP u ha
  · exact stays_of_error (set_eq_error (not_exists.1 ha)) hp

theorem stays_of_storage {operation : String} {x : Storage w → Edit w α}
    (hp : p.buffer.Consists P)
    (h : ∀ xs indexed, p.buffer.Holds xs indexed → (∀ z ∈ xs, P z) →
      Stays P (do x (← storage operation)) p) :
    Stays P (do x (← storage operation)) p := by
  obtain ⟨xs, indexed, hx | ⟨hb, rfl, rfl⟩, hxs⟩ := hp
  · exact h xs indexed hx hxs
  · rw [Stays, ends_bind, ends_storage]
    exact ⟨fun s hs => by simp [hb] at hs, fun _ => ⟨hb ▸ consists_null, rfl⟩⟩

theorem erase_stays (f : FieldId w) (k : Nat) (hp : p.buffer.Consists P) :
    Stays P (erase f k) p := by
  have hb := hp
  obtain ⟨xs, indexed, hx | ⟨hnull, -⟩, hxs⟩ := hp
  · cases indexed with
    | false => exact stays_of_error ⟨_, erase_unindexed hx⟩ hb
    | true =>
      by_cases hk : k < (ofField f xs).length
      · refine (erase_leaves hx hk).stays fun z hz => ?_
        exact hxs z ((mem_substitute hk hz).resolve_right List.not_mem_nil)
      · exact stays_of_error ⟨_, erase_missing hx (Nat.le_of_not_lt hk)⟩ hb
  · exact stays_of_error ⟨_, erase_null hnull⟩ hb

theorem retain_stays (operation : String) (keep : FieldId w → Bool)
    (hp : p.buffer.Consists P) : Stays P (retain operation keep) p :=
  stays_of_storage hp fun _ _ hx hxs =>
    (retain_leaves hx).stays fun z hz => hxs z (List.mem_filter.1 hz).1

theorem clear_stays (hp : p.buffer.Consists P) : Stays P clear p :=
  stays_of_storage hp fun _ _ hx _ => (clear_leaves hx).stays (by simp)

theorem buildIndex_stays (interval : Nat) (hp : p.buffer.Consists P) :
    Stays P (buildIndex interval) p :=
  stays_of_storage hp fun _ _ hx hxs =>
    (buildIndex_leaves hx interval).stays fun z hz => hxs z ((sort_perm _).mem_iff.1 hz)

theorem dropIndex_stays (hp : p.buffer.Consists P) : Stays P dropIndex p := by
  have hb := hp
  obtain ⟨xs, indexed, hx | ⟨hnull, -⟩, hxs⟩ := hp
  · exact (dropIndex_leaves hx).stays hxs
  · simp only [Stays, Ends, dropIndex, hnull]
    exact ⟨hnull ▸ hb, trivial⟩

theorem free_stays (hp : p.buffer.Consists P) : Stays P free p :=
  ends_free.2 ⟨fun _ _ => ⟨consists_null, rfl⟩, fun _ => ⟨hp, rfl⟩⟩

theorem reallocate_stays (size : Nat) (hp : p.buffer.Consists P) (hc : p.arena.config.Stated) :
    Stays P (reallocate size) p := by
  have hb := hp
  obtain ⟨xs, indexed, hx | ⟨hnull, -⟩, hxs⟩ := hp
  · refine (reallocate_ends hx hc size).mono (fun _ _ h => ⟨⟨_, _, .inl h.1, hxs⟩, h.2⟩) ?_
    rintro _ q rfl
    exact ⟨hb, rfl⟩
  · have h := (allocate_makes hc size).stays hb (by simp)
    simpa only [Stays, Ends, reallocate, hnull] using h

theorem merge_stays (m : Merge) {other : Buffer w} (hp : p.buffer.Consists P)
    (ho : other.Consists P) (hc : p.arena.config.Stated) : Stays P (merge m other) p := by
  refine stays_of_storage hp fun xs indexed hx hxs => ?_
  obtain ⟨ys, r, hy | ⟨rfl, -⟩, hys⟩ := ho
  · refine (merge_makes hx hy hc).stays hp fun z hz => ?_
    obtain ⟨e, he, rfl⟩ := List.mem_map.1 ((sort_perm _).mem_iff.1 hz)
    rcases Merge.mem_of_entries he with he | he
    · exact hxs _ (mem_of_mem_layout he)
    · exact hys _ (mem_of_mem_layout he)
  · rw [Stays, ends_bind, ends_storage]
    exact ⟨fun s hs => ⟨hp, rfl⟩, fun hs => ⟨hp, rfl⟩⟩

end Edit

/-- A sort of items is kept by every change that writes items of that sort. -/
theorem Change.stays {c : Change w} (hp : p.buffer.Consists P) (hc : p.arena.config.Stated)
    (hd : ∀ f : FieldId w, P (Item.of f (Value.default f.type)))
    (hv : ∀ v, c.value? = some v → v.Built ∧ ∀ f u, Edit.Accepts f v u → P (Item.of f u))
    (ho : ∀ b, c.other? = some b → b.Consists P) : Stays P c.run p := by
  cases c with
  | add f v => exact ends_bind.2 (Edit.add_stays hp hc (hv v rfl).1 ((hv v rfl).2 f))
  | append f v => exact ends_bind.2 (Edit.append_stays hp hc (hv v rfl).1 ((hv v rfl).2 f))
  | set f k v => exact ends_bind.2 (Edit.set_stays k hp hc (hv v rfl).1 ((hv v rfl).2 f) (hd f))
  | erase f k => exact ends_bind.2 (Edit.erase_stays f k hp)
  | eraseAll f => exact ends_bind.2 (Edit.retain_stays _ _ hp)
  | eraseMany fs => exact ends_bind.2 (Edit.retain_stays _ _ hp)
  | project fs => exact ends_bind.2 (Edit.retain_stays _ _ hp)
  | merge m other => exact ends_bind.2 (Edit.merge_stays m hp (ho other rfl) hc)
  | reallocate size => exact ends_bind.2 (Edit.reallocate_stays size hp hc)
  | clear => exact ends_bind.2 (Edit.clear_stays hp)
  | buildIndex interval => exact ends_bind.2 (Edit.buildIndex_stays interval hp)
  | dropIndex => exact ends_bind.2 (Edit.dropIndex_stays hp)
  | free => exact ends_bind.2 (Edit.free_stays hp)

end Stays

theorem Change.staysSound {c : Change w} (hp : p.buffer.Sound) (hc : p.arena.config.Stated)
    (hv : ∀ v, c.value? = some v → v.Built) (ho : ∀ b, c.other? = some b → b.Sound) :
    StaysSound c.run p := by
  have h := c.stays hp.consists hc (fun _ => trivial) (fun v h => ⟨hv v h, fun _ _ _ => trivial⟩)
    fun b h => (ho b h).consists
  exact h.mono (fun _ _ hq => ⟨hq.1.sound, hq.2⟩) fun _ _ hq => ⟨hq.1.sound, hq.2⟩

namespace Storage

theorem Holds.moved {s : Storage w} (h : s.Holds xs) (handle : Nat) :
    Holds { s with handle, body := s.live ++ Bytes.zeros (s.body.length - s.live.length) } xs where
  magic := h.magic
  word := h.word
  capacity := by
    have hle : s.live.length ≤ s.body.length := List.length_take_le' ..
    rw [h.capacity, Storage.capacity, Storage.capacity, List.length_append, Bytes.length_zeros]
    omega
  used := h.used
  body := ⟨_, by rw [h.live_eq]⟩
  sound := h.sound
  flag := h.flag
  index := h.index
  sorted := h.sorted

end Storage

namespace Buffer

theorem snapshot_eq_ok {b c : Buffer w} {a a' : Arena} (h : b.snapshot a = .ok (c, a')) :
    b = .null ∧ c = .null ∨ ∃ s : Storage w, b = .allocated s ∧ c = .allocated
      { s with handle := a.nextHandle,
               body := s.live ++ Bytes.zeros (s.body.length - s.live.length) } := by
  cases b with
  | null => exact .inl ⟨rfl, (Prod.mk.inj (Except.ok.inj h)).1.symm⟩
  | allocated s =>
    obtain ⟨⟨handle, a1⟩, hres, h⟩ := ok_bind_iff.1 h
    obtain ⟨⟨⟩, -, hres⟩ := ok_bind_iff.1 hres
    obtain ⟨rfl, -⟩ := Prod.mk.inj (Except.ok.inj hres)
    exact .inr ⟨s, rfl, (Prod.mk.inj (Except.ok.inj h)).1.symm⟩

theorem Offers.snapshot {b c : Buffer w} {a a' : Arena} (hb : b.Offers xs indexed)
    (h : b.snapshot a = .ok (c, a')) : c.Offers xs indexed := by
  obtain ⟨rfl, rfl⟩ | ⟨s, rfl, rfl⟩ := snapshot_eq_ok h
  · exact hb
  · obtain ⟨t, ht, hx, hi⟩ | ⟨ht, -⟩ := hb
    · obtain rfl := Buffer.allocated.inj ht
      exact .inl ⟨_, rfl, hx.moved _, hi⟩
    · simp at ht

theorem Offers.copy {b c : Buffer w} {a a' : Arena} (hb : b.Offers xs indexed)
    (h : b.copy a = .ok (c, a')) : c.Offers (sort xs) true := by
  obtain ⟨⟨d, a1⟩, hd, h⟩ := ok_bind_iff.1 h
  obtain ⟨t, rfl, hx, -⟩ | ⟨rfl, rfl, -⟩ := hb.snapshot hd
  · obtain ⟨rfl, -⟩ := Prod.mk.inj (Except.ok.inj h)
    exact .inl ⟨_, rfl, (hx.indexed _).1, rfl⟩
  · obtain ⟨rfl, -⟩ := Prod.mk.inj (Except.ok.inj h)
    exact .inr ⟨rfl, sort_eq_self List.Pairwise.nil, rfl⟩

theorem exists_of_ofRegion {region : Bytes} {a a' : Arena} {b : Buffer w}
    (h : ofRegion w region a = .ok (b, a')) :
    ∃ (g : Header) (handle : Nat), Region.header w region = .ok g ∧ Region.Sound w region ∧
      nestingDepth w region ≤ maxNesting ∧ Region.Room a.config region.length ∧
      b = .allocated (Region.storage handle g region) := by
  obtain ⟨g, hg, h⟩ := ok_bind_iff.1 h
  obtain ⟨⟨⟩, hroom, h⟩ := ok_bind_iff.1 h
  obtain ⟨⟨handle, a1⟩, -, h⟩ := ok_bind_iff.1 h
  obtain ⟨rfl, -⟩ := Prod.mk.inj (Except.ok.inj h)
  obtain ⟨hh, hs, hd⟩ := Region.of_check_eq_ok hg
  exact ⟨g, handle, hh, hs, hd, (Region.checkRoom_eq_ok_iff ..).1 hroom, rfl⟩

theorem holds_of_ofRegion {region : Bytes} {a a' : Arena} {b : Buffer w}
    (h : ofRegion w region a = .ok (b, a')) :
    ∃ s xs, b = .allocated s ∧ s.Holds xs ∧ s.index.isSome ∧ s.used ≤ a.config.ceiling := by
  obtain ⟨g, handle, hg, hsound, hd, hroom, rfl⟩ := exists_of_ofRegion h
  obtain ⟨xs, hs, hi, hused, -⟩ := hsound.exists_holds hd hg handle
  exact ⟨_, _, rfl, hs, hi, hused.le.trans hroom.granted⟩

theorem sound_ofRegion {bs : Bytes} {c : Buffer w} {a a' : Arena}
    (h : Buffer.ofRegion w bs a = .ok (c, a')) : c.Sound := by
  obtain ⟨s, xs, rfl, hs, hi, -⟩ := holds_of_ofRegion h
  exact ⟨xs, true, .inl ⟨s, rfl, hs, hi⟩⟩

theorem sound_allocate {size : Nat} {c : Buffer w} {a a' : Arena}
    (h : Buffer.allocate w size a = .ok (c, a')) : c.Sound := by
  obtain ⟨rfl, -, hroom⟩ := allocate_eq_ok h
  exact ⟨_, _, .inl ⟨_, rfl, (Storage.fresh_holds w _ (Nat.le_max_right ..) hroom.stated).1, rfl⟩⟩

end Buffer

theorem sound_invariant : Invariant ArenaConfig.Stated fun _ b => b.Sound where
  null := Buffer.sound_null
  allocated := Buffer.sound_allocate
  region := Buffer.sound_ofRegion
  copied hb h := by
    obtain ⟨xs, r, hx⟩ := hb
    exact ⟨_, _, hx.copy h⟩
  snapshot hb h := by
    obtain ⟨xs, r, hx⟩ := hb
    exact ⟨_, _, hx.snapshot h⟩
  nested h := Value.built_decode h _ rfl
  changed hc hp hv ho :=
    Change.staysSound hp hc (fun v hv' b hb => hv b (hb ▸ hv')) ho

end FieldBuffers
