import FieldBuffers.Proofs.Matching

/-! A failing operation changes no buffer, whatever arena it is in. All that is needed of a buffer is
that its bytes in use lie in its block. -/

namespace FieldBuffers

open Item

variable {α : Type} {w : Width} {s t : Storage w} {f : FieldId w} {p : Place w}

namespace Storage

theorem size_le_of_mem_occurrences {e : Entry w} (h : e ∈ s.occurrences f) : e.size ≤ s.used := by
  have hscan : ∀ (offset : Nat) (bs : Bytes), e ∈ Entry.scan w offset bs → e.size ≤ bs.length := by
    intro offset bs he
    obtain ⟨xs, rest, rfl, -, hxs⟩ := Entry.exists_scan (w := w) offset bs
    rw [hxs] at he
    obtain ⟨as, x, cs, rfl, rfl⟩ := layout_split he
    have hx : (x.entry (offset + (encodeAll as).length)).size = x.size := rfl
    simp only [hx, encodeAll_append, encodeAll_cons, List.length_append, length_encode]
    omega
  have hlive : s.live.length ≤ s.used := by
    have := List.length_take_le (s.used - Header.size) s.body
    exact Nat.le_trans this (Nat.sub_le ..)
  refine Nat.le_trans ?_ hlive
  rw [occurrences] at h
  split at h
  · have h := List.dropWhile_sublist _ |>.subset (List.takeWhile_sublist _ |>.subset h)
    refine Nat.le_trans (hscan _ _ h) ?_
    simp
  · exact hscan _ _ (List.mem_filter.1 h).1

/-- Writes that fail for want of room only, and not where there is what they asked for. -/
structure Retries (write : Storage w → Except Error (Storage w)) : Prop where
  within {s t : Storage w} : s.Within → write s = .ok t → t.Within
  exhausted {s : Storage w} {e : Error} : write s = .error e →
    ∃ needed available, e = .spaceExhausted needed available
  retry {s : Storage w} {needed available size : Nat} : s.Within → s.capacity ≤ size →
    write s = .error (.spaceExhausted needed available) → s.used + needed ≤ size →
    ∃ t, write (s.resized size) = .ok t

theorem splice_eq_ok {start stop : Nat} {bytes : Bytes} (h : s.splice start stop bytes = .ok t) :
    t = s.withLive
      (s.live.take (start - Header.size) ++ bytes ++ s.live.drop (stop - Header.size)) := by
  unfold splice at h
  dsimp only at h
  split at h
  · simp at h
  · exact (Except.ok.inj h).symm

theorem splice_within {start stop : Nat} {bytes : Bytes} (h : s.splice start stop bytes = .ok t) :
    t.Within := splice_eq_ok h ▸ within_withLive ..

theorem splice_exhausted {start stop : Nat} {bytes : Bytes} {e : Error}
    (h : s.splice start stop bytes = .error e) :
    ∃ needed available, e = .spaceExhausted needed available := by
  unfold splice at h
  dsimp only at h
  split at h
  · exact ⟨_, _, (Except.error.inj h).symm⟩
  · simp at h

theorem splice_retry {start stop : Nat} {bytes : Bytes} {needed available size : Nat}
    (hgap : stop - start ≤ s.used)
    (h : s.splice start stop bytes = .error (.spaceExhausted needed available))
    (hs : s.used + needed ≤ size) : ∃ t, (s.resized size).splice start stop bytes = .ok t := by
  have hle := le_capacity_resized s size
  have hused : (s.resized size).used = s.used := rfl
  unfold splice at h ⊢
  dsimp only at h ⊢
  split at h
  · obtain ⟨rfl, -⟩ := Error.spaceExhausted.inj (Except.error.inj h)
    rw [hused, if_neg (by omega)]
    exact ⟨_, rfl⟩
  · simp at h

theorem exists_map_eq_ok {α β : Type} {x : Except Error α} (g : α → β) (h : ∃ a, x = .ok a) :
    ∃ b, x.map g = .ok b := by
  obtain ⟨a, rfl⟩ := h
  exact ⟨g a, rfl⟩

theorem insert_retries (f : FieldId w) (entry : Bytes) : Retries (insert f entry) where
  within _ h := by
    obtain ⟨t, ht, rfl⟩ := ok_map_iff.1 h
    exact within_reindexed (splice_within ht)
  exhausted h := splice_exhausted (error_map_iff.1 h)
  retry {s _ _ size} hw hc h hs := by
    have hsplice := error_map_iff.1 h
    rw [insert]
    rw [← (matches_resized hw (Nat.le_trans hw hc)).insertPoint]
    exact exists_map_eq_ok _ (splice_retry (by simp) hsplice hs)

theorem push_retries (entry : Bytes) : Retries (push (w := w) entry) where
  within _ h := by
    obtain ⟨t, ht, rfl⟩ := ok_map_iff.1 h
    have hw := splice_within ht
    exact hw
  exhausted h := splice_exhausted (error_map_iff.1 h)
  retry {s _ _ size} hw hc h hs := by
    have hsplice := error_map_iff.1 h
    exact exists_map_eq_ok _ (splice_retry (by simp) hsplice hs)

theorem replace_retries (f : FieldId w) (k : Nat) (gap entry : Bytes) :
    Retries (replace f k gap entry) where
  within {s t} _ h := by
    obtain ⟨t, ht, rfl⟩ := ok_map_iff.1 h
    refine within_reindexed ?_
    dsimp only at ht
    split at ht
    · exact splice_within ht
    · exact splice_within ht
  exhausted {s e} h := by
    have h := error_map_iff.1 h
    dsimp only at h
    split at h
    · exact splice_exhausted h
    · exact splice_exhausted h
  retry {s _ _ size} hw hc h hs := by
    have hsplice := error_map_iff.1 h
    rw [replace]
    have hsame := matches_resized hw (Nat.le_trans hw hc)
    rw [← hsame.occurrences, ← hsame.insertPoint]
    refine exists_map_eq_ok _ ?_
    dsimp only at hsplice ⊢
    split
    · rename_i e he
      rw [he] at hsplice
      have hsize := size_le_of_mem_occurrences (List.mem_of_getElem? he)
      refine splice_retry ?_ hsplice hs
      simp only [Entry.stop]
      omega
    · rename_i he
      rw [he] at hsplice
      exact splice_retry (by simp) hsplice hs

end Storage

/-- An edit of a buffer within its block leaves it so, and changes nothing if it fails. -/
def Atomic (x : Edit w α) (p : Place w) : Prop :=
  Ends x p (fun _ q => q.buffer.Within ∧ q.arena.config = p.arena.config)
    fun _ q => q.buffer = p.buffer ∧ q.arena.config = p.arena.config

theorem ArenaConfig.isRefusal_of_check {c : ArenaConfig} {size : Nat} {e : Error}
    (h : c.check size = .error e) : e.IsRefusal := by
  rw [check] at h
  split at h
  · cases h
  · exact ⟨_, _, (Except.error.inj h).symm⟩

theorem ArenaConfig.Refuses.isRefusal {c : ArenaConfig} {e : Error} (h : c.Refuses e) :
    e.IsRefusal := by
  obtain ⟨size, limit, -, he⟩ := h
  exact ⟨size, limit, he⟩

theorem Region.isRefusal_of_checkRoom {c : ArenaConfig} {size : Nat} {e : Error}
    (h : checkRoom c size = .error e) : e.IsRefusal := by
  rw [checkRoom] at h
  split at h
  · exact ⟨_, _, (Except.error.inj h).symm⟩
  · exact ArenaConfig.isRefusal_of_check h

namespace Arena

variable {a b : Arena} {handle old new size : Nat} {kind : BlockKind} {e : Error}

theorem config_extend (h : a.extend handle old new = .ok b) : b.config = a.config := by
  rw [extend] at h
  split at h
  · exact Except.ok.inj h ▸ rfl
  · obtain ⟨⟨⟩, -, h⟩ := ok_bind_iff.1 h
    exact Except.ok.inj h ▸ rfl

theorem isRefusal_of_extend (h : a.extend handle old new = .error e) : e.IsRefusal := by
  rw [extend] at h
  split at h
  · cases h
  · rcases error_bind_iff.1 h with h | ⟨_, -, h⟩
    · exact ArenaConfig.isRefusal_of_check h
    · cases h

theorem isRefusal_of_reserve (h : a.reserve kind size = .error e) : e.IsRefusal := by
  rcases error_bind_iff.1 h with h | ⟨_, -, h⟩
  · exact ArenaConfig.isRefusal_of_check h
  · cases h

end Arena

theorem Buffer.isRefusal_of_snapshot {b : Buffer w} {a : Arena} {e : Error}
    (h : b.snapshot a = .error e) : e.IsRefusal := by
  cases b with
  | null => cases h
  | allocated s =>
    rcases error_bind_iff.1 h with h | ⟨_, -, h⟩
    · exact Arena.isRefusal_of_reserve h
    · cases h

theorem Buffer.isRefusal_of_allocate {size : Nat} {a : Arena} {e : Error}
    (h : Buffer.allocate w size a = .error e) : e.IsRefusal := by
  rcases error_bind_iff.1 h with h | ⟨_, -, h⟩
  · exact Region.isRefusal_of_checkRoom h
  rcases error_bind_iff.1 h with h | ⟨_, -, h⟩
  · exact Arena.isRefusal_of_reserve h
  · cases h

namespace Edit

theorem allocate_ends (p : Place w) (size : Nat) :
    Ends (allocate size) p
      (fun _ q => q.arena.config = p.arena.config ∧
        ∃ handle n, q.buffer = .allocated (Storage.fresh w handle n))
      fun e q => e.IsRefusal ∧ q = p := by
  rw [Ends, allocate]
  cases h : Buffer.allocate w size p.arena with
  | error e => exact ⟨Buffer.isRefusal_of_allocate h, rfl⟩
  | ok r =>
    obtain ⟨b, a⟩ := r
    obtain ⟨rfl, ha, -⟩ := Buffer.allocate_eq_ok h
    exact ⟨ha, _, _, rfl⟩

section Writing

variable {write : Storage w → Except Error (Storage w)}

/-- A write is refused the room that it lacks, or done in a block with that room. -/
theorem growing_ends (hw : Storage.Retries write) (hp : p.buffer = .allocated s) (h : s.Within) :
    Ends (growing write) p
      (fun _ q => q.arena.config = p.arena.config ∧
        ∃ u v, s.Matches u ∧ write u = .ok v ∧ q.buffer = .allocated v)
      fun e q => e.IsRefusal ∧ q = p := by
  cases hr : write s with
  | ok v => exact (ends_of_ok (growing_of_ok hp hr)).2 ⟨rfl, s, v, .refl h, hr, rfl⟩
  | error e =>
    obtain ⟨needed, available, rfl⟩ := hw.exhausted hr
    rw [Ends, growing_of_exhausted hp hr]
    have hroom : s.used + needed ≤ max (2 * s.capacity) (s.used + needed) := Nat.le_max_right ..
    have hcap : s.capacity ≤ max (2 * s.capacity) (s.used + needed) := by omega
    generalize max (2 * s.capacity) (s.used + needed) = size at hroom hcap
    cases hext : p.arena.extend s.handle s.capacity size with
    | error e => exact ⟨Arena.isRefusal_of_extend hext, rfl⟩
    | ok a =>
      obtain ⟨v, hv⟩ := hw.retry h hcap hr hroom
      have hsame := Storage.matches_resized h (Nat.le_trans h hcap)
      simp only [hv]
      exact ⟨Arena.config_extend hext, _, v, hsame, hv, rfl⟩

theorem allocating_ends (hw : Storage.Retries write) (hb : p.buffer.Within) :
    Ends (allocating write) p
      (fun _ q => q.arena.config = p.arena.config ∧
        ∃ u v, p.buffer.stored.Matches u ∧ write u = .ok v ∧ q.buffer = .allocated v)
      fun e q => e.IsRefusal ∧ q.buffer = p.buffer ∧ q.arena.config = p.arena.config := by
  cases hp : p.buffer with
  | allocated s =>
    have hsame : allocating write p = growing write p := by simp only [allocating, hp]
    refine (ends_congr hsame).2 ((growing_ends hw hp (hb s hp)).mono (fun _ _ h => h) ?_)
    rintro e q ⟨he, rfl⟩
    exact ⟨he, hp, rfl⟩
  | null =>
    refine (ends_allocating hp).2 ((allocate_ends p p.arena.config.initial).mono ?_ ?_)
    · rintro _ q ⟨ha, handle, n, hq⟩
      have hfresh := Storage.matches_fresh w 0 handle 0 n
      apply (growing_ends hw hq hfresh.right).mono
      · rintro _ r ⟨har, u, v, hu, hv, hr⟩
        exact ⟨har.trans ha, u, v, hfresh.trans hu, hv, hr⟩
      · rintro e r ⟨he, rfl⟩
        exact ends_free.2 ⟨fun _ _ => ⟨he, rfl, ha⟩, fun hnull => ⟨he, hnull, ha⟩⟩
    · rintro e q ⟨he, rfl⟩
      exact ⟨he, hp, rfl⟩

theorem allocating_atomic (hw : Storage.Retries write) (hb : p.buffer.Within) :
    Atomic (allocating write) p := by
  apply (allocating_ends hw hb).mono
  · rintro _ q ⟨ha, u, v, hu, hv, hq⟩
    exact ⟨hq ▸ within_allocated (hw.within hu.right hv), ha⟩
  · exact fun _ _ h => h.2

end Writing

theorem atomic_of_error {x : Edit w α} (h : ∃ e, x p = .error e p) : Atomic x p := by
  obtain ⟨e, he⟩ := h
  exact (ends_of_error he).2 ⟨rfl, rfl⟩

theorem add_atomic (f : FieldId w) (v : Value) (hb : p.buffer.Within) : Atomic (add f v) p := by
  by_cases ha : ∃ u, Accepts f v u
  · obtain ⟨u, hu, entry, he⟩ := ha
    exact (ends_congr (add_eq hu he)).2 (allocating_atomic (Storage.insert_retries f entry) hb)
  · exact atomic_of_error (add_eq_error (not_exists.1 ha))

theorem append_atomic (f : FieldId w) (v : Value) (hb : p.buffer.Within) :
    Atomic (append f v) p := by
  by_cases ha : v.type = f.type ∧ ∃ entry, v.encodeEntry f = .ok entry
  · obtain ⟨ht, entry, he⟩ := ha
    exact (ends_congr (append_eq ht he)).2 (allocating_atomic (Storage.push_retries entry) hb)
  · exact atomic_of_error (append_eq_error fun ht entry he => ha ⟨ht, entry, he⟩)

theorem set_atomic (f : FieldId w) (k : Nat) (v : Value) (hb : p.buffer.Within) :
    Atomic (set f k v) p := by
  by_cases ha : ∃ u, Accepts f v u
  · obtain ⟨u, hu, entry, he⟩ := ha
    by_cases hk : CannotSet p.buffer k
    · exact atomic_of_error ⟨_, set_eq_notIndexed ⟨hu, entry, he⟩ hk⟩
    · obtain ⟨gap, -, hset⟩ := set_eq hu he hk
      exact (ends_congr hset).2 (allocating_atomic (Storage.replace_retries f k gap entry) hb)
  · exact atomic_of_error (set_eq_error (not_exists.1 ha))

theorem erase_atomic (f : FieldId w) (k : Nat) : Atomic (erase f k) p := by
  rw [Atomic, Ends, run_erase]
  cases p.buffer.requireIndex "erase" with
  | error e => exact ⟨rfl, rfl⟩
  | ok s =>
    dsimp only
    cases (s.occurrences f)[k]? with
    | none => exact ⟨rfl, rfl⟩
    | some e =>
      dsimp only
      cases ht : s.splice e.offset e.stop [] with
      | error e => exact ⟨rfl, rfl⟩
      | ok t => exact ⟨within_allocated (Storage.within_reindexed (Storage.splice_within ht)), rfl⟩

theorem atomic_of_storage {operation : String} {x : Storage w → Edit w α}
    (h : ∀ s, p.buffer = .allocated s → Atomic (x s) p) :
    Atomic (do x (← storage operation)) p := by
  rw [Atomic, ends_bind, ends_storage]
  exact ⟨h, fun _ => ⟨rfl, rfl⟩⟩

theorem put_atomic (h : s.Within) : Atomic (put s) p := ⟨within_allocated h, rfl⟩

theorem retain_atomic (operation : String) (keep : FieldId w → Bool) :
    Atomic (retain operation keep) p :=
  atomic_of_storage fun s _ => by
    rw [Atomic, ends_bind, ends_put, ends_pure, Storage.retain_eq]
    exact ⟨within_allocated (Storage.within_reindexed (Storage.within_withLive ..)), rfl⟩

theorem clear_atomic : Atomic (clear (w := w)) p :=
  atomic_of_storage fun s _ => put_atomic (Storage.within_withLive s [])

theorem buildIndex_atomic (interval : Nat) : Atomic (buildIndex interval) p :=
  atomic_of_storage fun s _ => put_atomic (s.within_indexed interval)

theorem dropIndex_atomic (hb : p.buffer.Within) : Atomic dropIndex p := by
  simp only [Atomic, Ends, dropIndex]
  cases hp : p.buffer with
  | null => exact ⟨hp ▸ hb, rfl⟩
  | allocated s => exact ⟨within_allocated (hb s hp), rfl⟩

theorem free_atomic (hb : p.buffer.Within) : Atomic free p :=
  ends_free.2 ⟨fun _ _ => ⟨within_null, rfl⟩, fun _ => ⟨hb, rfl⟩⟩

theorem allocate_atomic (size : Nat) : Atomic (allocate size) p := by
  apply (allocate_ends p size).mono
  · rintro _ q ⟨ha, handle, n, hq⟩
    exact ⟨hq ▸ within_allocated (Storage.matches_fresh w 0 handle 0 n).right, ha⟩
  · exact fun _ _ h => ⟨h.2 ▸ rfl, h.2 ▸ rfl⟩

/-- The block is given another size, or the arena refuses to. -/
def Moves (x : Edit w Unit) (p : Place w) (s : Storage w) : Prop :=
  Ends x p (fun _ q => q.arena.config = p.arena.config ∧ ∃ t, s.Matches t ∧ q.buffer = .allocated t)
    fun e q => e.IsRefusal ∧ q = p

theorem extend_moves (h : s.Within) {size : Nat} (hsize : s.used ≤ size) :
    Moves (extend s size) p s := by
  apply (extend_ends s size).mono
  · rintro _ q ⟨hq, ha, -⟩
    exact ⟨ha, _, Storage.matches_resized h hsize, hq⟩
  · exact fun _ _ he => ⟨he.1.isRefusal, he.2⟩

theorem grow_moves (hp : p.buffer = .allocated s) (h : s.Within) (needed : Nat) :
    Moves (grow needed) p s := by
  rw [Moves, grow, ends_bind, ends_storage]
  refine ⟨fun t ht => ?_, fun hnull => by simp [hp] at hnull⟩
  obtain rfl := Buffer.allocated.inj (hp.symm.trans ht)
  exact extend_moves h (Nat.le_trans (Nat.le_add_right ..) (Nat.le_max_right ..))

theorem reallocate_moves (hp : p.buffer = .allocated s) (h : s.Within) {size : Nat}
    (hsize : s.used ≤ max size Header.size) : Moves (reallocate size) p s := by
  refine ends_reallocate hp (fun hlt => absurd hsize (Nat.not_le.2 hlt)) (fun n hused _ => ?_)
    fun n hused _ => ?_
  · exact extend_moves h hused
  · exact ⟨Arena.config_reduce .., _, Storage.matches_resized h hused, rfl⟩

theorem reallocate_of_lt (hp : p.buffer = .allocated s) {size : Nat}
    (hsize : max size Header.size < s.used) :
    reallocate size p = .error (.spaceExhausted s.used (max size Header.size)) p := by
  simp only [reallocate, hp]
  exact if_pos hsize

theorem reallocate_atomic (size : Nat) (hb : p.buffer.Within) :
    Atomic (reallocate size) p := by
  cases hp : p.buffer with
  | null =>
    have h := allocate_atomic (p := p) size
    simpa only [Atomic, Ends, reallocate, hp] using h
  | allocated s =>
    rcases Nat.lt_or_ge (max size Header.size) s.used with hsize | hsize
    · exact atomic_of_error ⟨_, reallocate_of_lt hp hsize⟩
    · apply (reallocate_moves hp (hb s hp) hsize).mono
      · rintro _ q ⟨ha, t, ht, hq⟩
        exact ⟨hq ▸ within_allocated ht.right, ha⟩
      · exact fun _ _ h => ⟨h.2 ▸ rfl, h.2 ▸ rfl⟩

/-- Nothing fails after the block has grown. -/
theorem install_ends (hp : p.buffer = .allocated s) (h : s.Within) (body : Bytes) :
    Ends (install body) p
      (fun _ q => q.arena.config = p.arena.config ∧
        ∃ t, s.Matches t ∧ q.buffer = .allocated ((t.withLive body).indexed t.interval))
      fun e q => e.IsRefusal ∧ q = p := by
  have hput : ∀ (q : Place w) (t : Storage w), q.buffer = .allocated t → (do
      let s ← storage "write"
      put ((s.withLive body).indexed s.interval)) q
        = .ok () { q with buffer := .allocated ((t.withLive body).indexed t.interval) } :=
    fun q t hq => bind_of_ok (storage_of_allocated "write" hq)
  rw [install, ends_bind, ends_storage]
  refine ⟨fun t ht => ?_, fun hnull => by simp [hp] at hnull⟩
  obtain rfl := Buffer.allocated.inj (hp.symm.trans ht)
  dsimp only
  split
  · rw [ends_bind]
    refine (grow_moves hp h _).mono ?_ fun _ _ h => h
    rintro _ q ⟨ha, t, ht, hq⟩
    exact (ends_of_ok (hput q t hq)).2 ⟨ha, t, ht, rfl⟩
  · exact (ends_of_ok (hput p s hp)).2 ⟨rfl, s, .refl h, rfl⟩

theorem install_atomic (hb : p.buffer.Within) (body : Bytes) : Atomic (install body) p := by
  cases hp : p.buffer with
  | null => exact atomic_of_error ⟨_, bind_of_error (storage_of_null "write" hp)⟩
  | allocated s =>
    apply (install_ends hp (hb s hp) body).mono
    · rintro _ q ⟨ha, t, -, hq⟩
      exact ⟨hq ▸ within_allocated (Storage.within_indexed ..), ha⟩
    · exact fun _ _ h => ⟨h.2 ▸ rfl, h.2 ▸ rfl⟩

theorem merge_atomic (m : Merge) (other : Buffer w) (hb : p.buffer.Within) :
    Atomic (merge m other) p :=
  atomic_of_storage fun s _ => by
    rw [Atomic, ends_bind, ends_ofExcept]
    exact ⟨fun t _ => install_atomic hb _, fun _ _ => ⟨rfl, rfl⟩⟩

end Edit

theorem Atomic.bind_pure {x : Edit w α} (h : Atomic x p) {β : Type} (g : α → β) :
    Atomic (do return g (← x)) p := ends_bind.2 h

theorem Change.atomic (c : Change w) (hb : p.buffer.Within) : Atomic c.run p := by
  cases c with
  | add f v => exact (Edit.add_atomic f v hb).bind_pure _
  | append f v => exact (Edit.append_atomic f v hb).bind_pure _
  | set f k v => exact (Edit.set_atomic f k v hb).bind_pure _
  | erase f k => exact (Edit.erase_atomic f k).bind_pure _
  | eraseAll f => exact (Edit.retain_atomic _ _).bind_pure _
  | eraseMany fs => exact (Edit.retain_atomic _ _).bind_pure _
  | project fs => exact (Edit.retain_atomic _ _).bind_pure _
  | merge m other => exact (Edit.merge_atomic m other hb).bind_pure _
  | reallocate size => exact (Edit.reallocate_atomic size hb).bind_pure _
  | clear => exact Edit.clear_atomic.bind_pure _
  | buildIndex interval => exact (Edit.buildIndex_atomic interval).bind_pure _
  | dropIndex => exact (Edit.dropIndex_atomic hb).bind_pure _
  | free => exact (Edit.free_atomic hb).bind_pure _

namespace Buffer

theorem Sound.within {b : Buffer w} (h : b.Sound) : b.Within := by
  rintro s rfl
  obtain ⟨xs, r, ⟨t, ht, hx, -⟩ | ⟨hnull, -⟩⟩ := h
  · exact Buffer.allocated.inj ht ▸ hx.used_le
  · simp at hnull

theorem Within.snapshot {b c : Buffer w} {a a' : Arena} (hb : b.Within)
    (h : b.snapshot a = .ok (c, a')) : c.Within := (hb.matches_snapshot h).right

theorem within_copy {b c : Buffer w} {a a' : Arena} (h : b.copy a = .ok (c, a')) : c.Within := by
  obtain ⟨⟨d, a1⟩, -, h⟩ := ok_bind_iff.1 h
  cases d with
  | null => exact (Prod.mk.inj (Except.ok.inj h)).1 ▸ within_null
  | allocated s =>
    exact (Prod.mk.inj (Except.ok.inj h)).1 ▸ within_allocated (Storage.within_indexed ..)

end Buffer

theorem within_invariant : Invariant (fun _ => True) fun _ b => b.Within where
  null := within_null
  allocated h := (Buffer.sound_allocate h).within
  region h := (Buffer.sound_ofRegion h).within
  copied _ h := Buffer.within_copy h
  snapshot hb h := hb.snapshot h
  nested h := Buffer.Sound.within (Value.built_decode h _ rfl)
  changed {_ c _} _ hb _ _ :=
    (c.atomic hb).mono (fun _ _ h => h) fun _ _ h => ⟨h.1 ▸ hb, h.2⟩

theorem Dump.read_ends (config : ArenaConfig) (files : Files) (dump : Bytes)
    (p : Dump.Progress w) :
    Ends (Dump.read config files dump) p (fun _ _ => True)
      fun _ q => q.place.buffer = p.place.buffer := by
  simp only [Ends, Dump.read]
  cases Dump.linesFrom 1 (Text.linesBy 0x0A 0x0D dump) with
  | error e => exact rfl
  | ok lines =>
    dsimp only
    cases p.place.buffer.snapshot p.place.arena with
    | error e => exact rfl
    | ok r =>
      dsimp only
      cases Dump.readLevel config files w 0 lines ⟨⟨r.2, r.1⟩, p.catalogs⟩ with
      | error e q => exact rfl
      | ok a q => exact trivial

/-- Whatever ceiling the arena has, an operation that fails leaves the buffer as it was: null, or
the same header, bytes and index in the same block. -/
theorem buffer_eq_of_failed {p q : Dump.Progress w} (h : Reachable (fun _ => True) p.place.buffer)
    (op : Operation w) (config : ArenaConfig) (files : Files) {e : Error}
    (hrun : op.run config files p = .error e q) : q.place.buffer = p.place.buffer := by
  have hends : Ends (op.run config files) p (fun _ _ => True)
      fun _ q => q.place.buffer = p.place.buffer := by
    cases op with
    | change c =>
      apply Dump.Reading.ends_edit.2
      exact (c.atomic (within_invariant.of_reachable h)).mono (fun _ _ _ => trivial) fun _ _ h => h.1
    | read dump =>
      exact ends_bind.2 ((Dump.read_ends config files dump p).mono (fun _ _ _ => trivial)
        fun _ _ h => h)
  exact (ends_of_error hrun).1 hends

theorem null_of_refused_growth :
    let f : FieldId .wide := ⟨.carray, 1, by decide, by decide, by decide⟩
    let p : Dump.Progress .wide := ⟨⟨{ config := ⟨32, 40⟩ }, .null⟩, {}⟩
    ∃ q, (Operation.change (.add f (.carray (List.replicate 40 1)))).run p.place.arena.config
      (fun _ => .error "") p = .error (.arenaCapacity 64 40) q ∧ q.place.buffer = .null := by
  intro f p
  have hfails : (match (Operation.change (.add f (.carray (List.replicate 40 1)))).run
      p.place.arena.config (fun _ => .error "") p with
    | .error (.arenaCapacity 64 40) _ => true
    | _ => false) = true := by decide +kernel
  split at hfails
  · rename_i q hrun
    exact ⟨q, hrun, buffer_eq_of_failed .null _ _ _ hrun⟩
  · simp at hfails

end FieldBuffers
