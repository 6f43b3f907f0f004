import Mathlib.Data.Multiset.Bind
import FieldBuffers.Proofs.Books
import FieldBuffers.Proofs.Fitted

/-! Edits and the accounts of an arena. Whether an edit succeeds or fails, the accounts follow the
block of its buffer, and those of all other blocks stay as they were (`Change.settling`). -/

namespace FieldBuffers

open Books

variable {w : Width} {α β σ : Type}

/-- The block of a buffer that is not null. -/
def Buffer.out : Buffer w → Multiset (Nat × Nat)
  | .null => 0
  | .allocated s => {(s.handle, s.capacity)}

/-- The arena once the block of a buffer was given back. -/
def Buffer.released (a : Arena) : Buffer w → Arena
  | .null => a
  | .allocated s => a.release s.handle

/-- An arena has given a buffer the block that it lies in. -/
structure Buffer.Granted (a : Arena) (b : Buffer w) (a' : Arena) : Prop where
  fitted : b.Fitted
  updates (out : Multiset (Nat × Nat)) : Updates ⟨a, out⟩ ⟨a', b.out + out⟩

namespace Buffer

variable {a a' : Arena} {b c : Buffer w} {s : Storage w}

theorem updates_released (a : Arena) (b : Buffer w) (out : Multiset (Nat × Nat)) :
    Updates ⟨a, b.out + out⟩ ⟨b.released a, out⟩ := by
  cases b with
  | null => rw [Buffer.out, zero_add, released]
  | allocated s =>
    rw [Buffer.out, Multiset.singleton_add]
    exact .single .release

theorem config_released (a : Arena) (b : Buffer w) : (b.released a).config = a.config := by
  cases b <;> rfl

theorem granted_null (a : Arena) : Granted a (.null : Buffer w) a :=
  ⟨fitted_null, fun out => by rw [Buffer.out, zero_add]⟩

theorem granted_allocated {kind : BlockKind} {size : Nat} (hs : s.Fitted)
    (hsize : s.capacity = size) (h : a.reserve kind size = .ok (s.handle, a')) :
    Granted a (.allocated s) a' where
  fitted := fitted_allocated hs
  updates out := by
    rw [Buffer.out, hsize, Multiset.singleton_add]
    exact .single (.reserve h)

theorem granted_allocate {size : Nat} (h : allocate w size a = .ok (b, a')) : Granted a b a' := by
  have hfit := (sound_allocate h).fitted
  obtain ⟨⟨⟩, -, h⟩ := ok_bind_iff.1 h
  obtain ⟨⟨handle, a1⟩, hres, h⟩ := ok_bind_iff.1 h
  obtain ⟨rfl, rfl⟩ := Prod.mk.inj (Except.ok.inj h)
  have hcap : (Storage.fresh w handle (max size Header.size)).capacity = max size Header.size := by
    simp only [Storage.capacity, Storage.fresh, Bytes.length_zeros]
    omega
  exact granted_allocated (hfit _ rfl) hcap hres

theorem granted_ofRegion {region : Bytes} (h : ofRegion w region a = .ok (b, a')) :
    Granted a b a' := by
  obtain ⟨s, xs, rfl, hs, -⟩ := holds_of_ofRegion h
  obtain ⟨g, -, h⟩ := ok_bind_iff.1 h
  obtain ⟨⟨⟩, hroom, h⟩ := ok_bind_iff.1 h
  obtain ⟨⟨handle, a1⟩, hres, h⟩ := ok_bind_iff.1 h
  obtain ⟨heq, rfl⟩ := Prod.mk.inj (Except.ok.inj h)
  obtain rfl := Buffer.allocated.inj heq
  have hlt := ((Region.checkRoom_eq_ok_iff ..).1 hroom).stated
  have hcap : (Region.storage handle g region : Storage w).header.capacity.toNat = region.length :=
    UInt32.toNat_ofNat'.trans (Nat.mod_eq_of_lt hlt)
  exact granted_allocated hs.fitted (hs.capacity.symm.trans hcap) hres

theorem granted_imported {m : ExportMode} {bs : Bytes} (h : imported w m bs a = .ok (b, a')) :
    Granted a b a' := by
  obtain ⟨frame, -, h⟩ := ok_bind_iff.1 h
  obtain ⟨region, -, h⟩ := ok_bind_iff.1 h
  cases region with
  | none =>
    obtain ⟨rfl, rfl⟩ := Prod.mk.inj (Except.ok.inj h)
    exact granted_null a
  | some region => exact granted_ofRegion h

theorem granted_snapshot (hc : c.Fitted) (h : c.snapshot a = .ok (b, a')) : Granted a b a' := by
  cases c with
  | null =>
    obtain ⟨rfl, rfl⟩ := Prod.mk.inj (Except.ok.inj h)
    exact granted_null a
  | allocated s =>
    obtain ⟨⟨handle, a1⟩, hres, h⟩ := ok_bind_iff.1 h
    obtain ⟨rfl, rfl⟩ := Prod.mk.inj (Except.ok.inj h)
    have hlen : (s.live ++ Bytes.zeros (s.body.length - s.live.length)).length = s.body.length := by
      have hle : s.live.length ≤ s.body.length := List.length_take_le' ..
      rw [List.length_append, Bytes.length_zeros]
      omega
    obtain ⟨hfit, hcap⟩ := (hc s rfl).moved handle hlen
    exact granted_allocated hfit hcap hres

theorem granted_copy (hc : c.Fitted) (h : c.copy a = .ok (b, a')) : Granted a b a' := by
  obtain ⟨⟨d, a1⟩, hd, h⟩ := ok_bind_iff.1 h
  have hgranted := granted_snapshot hc hd
  cases d with
  | null =>
    obtain ⟨rfl, rfl⟩ := Prod.mk.inj (Except.ok.inj h)
    exact hgranted
  | allocated s =>
    obtain ⟨rfl, rfl⟩ := Prod.mk.inj (Except.ok.inj h)
    have hrefits := (hgranted.fitted s rfl).indexed s.interval
    refine ⟨fitted_allocated hrefits.fitted, fun out => ?_⟩
    rw [Buffer.out, hrefits.handle, hrefits.capacity]
    exact hgranted.updates out

end Buffer

/-! A place that an edit leaves in order. -/

namespace Place

/-- The buffer lies in its block, and so it will after it has grown. -/
structure Good (p : Place w) : Prop where
  fitted : p.buffer.Fitted
  stated : p.arena.config.Stated

/-- From the first place to the second, the accounts follow the buffer's block. -/
structure Settles (p q : Place w) : Prop where
  fitted : q.buffer.Fitted
  config : q.arena.config = p.arena.config
  updates (out : Multiset (Nat × Nat)) :
    Updates ⟨p.arena, p.buffer.out + out⟩ ⟨q.arena, q.buffer.out + out⟩

variable {p q r : Place w} {s t : Storage w}

theorem Settles.refl (h : p.Good) : p.Settles p := ⟨h.fitted, rfl, fun _ => .refl⟩

theorem Settles.trans (h : p.Settles q) (h' : q.Settles r) : p.Settles r :=
  ⟨h'.fitted, h'.config.trans h.config, fun out => (h.updates out).trans (h'.updates out)⟩

theorem Settles.good (h : p.Settles q) (hp : p.Good) : q.Good :=
  ⟨h.fitted, h.config.symm ▸ hp.stated⟩

theorem Good.storage (h : p.Good) (hp : p.buffer = .allocated s) : s.Fitted := h.fitted s hp

theorem settles_of_refits (hp : p.buffer = .allocated s) (h : s.Refits t) :
    p.Settles { p with buffer := .allocated t } where
  fitted := Buffer.fitted_allocated h.fitted
  config := rfl
  updates out := by
    rw [hp, Buffer.out, Buffer.out, h.handle, h.capacity]

end Place

/-- A run that leaves the accounts in order, whether it succeeds or fails. -/
def Settling (place : σ → Place w) (x : EStateM Error σ α) : Prop :=
  ∀ p, (place p).Good →
    Ends x p (fun _ q => (place p).Settles (place q)) fun _ q => (place p).Settles (place q)

namespace Settling

variable {place : σ → Place w} {x : EStateM Error σ α} {f : α → EStateM Error σ β}

theorem pure (a : α) : Settling place (pure a) := fun _ hp => Place.Settles.refl hp

theorem throw (e : Error) : Settling place (throw e : EStateM Error σ α) :=
  fun _ hp => Place.Settles.refl hp

theorem bind (hx : Settling place x) (hf : ∀ a, Settling place (f a)) :
    Settling place (x >>= f) := by
  intro p hp
  rw [ends_bind]
  refine (hx p hp).mono (fun a q hq => ?_) fun _ _ hq => hq
  exact (hf a q (hq.good hp)).mono (fun _ _ hr => hq.trans hr) fun _ _ hr => hq.trans hr

theorem get {f : σ → EStateM Error σ β} (hf : ∀ p, Settling place (f p)) :
    Settling place (get >>= f) := by
  intro p hp
  rw [ends_bind, ends_get]
  exact hf p p hp

end Settling

namespace Edit

variable {p : Place w} {s t : Storage w} {write : Storage w → Except Error (Storage w)}

theorem ofExcept_settling (r : Except Error α) : Settling id (ofExcept r : Edit w α) :=
  fun _ hp => ends_ofExcept.2 ⟨fun _ _ => .refl hp, fun _ _ => .refl hp⟩

/-- What is put in place of the storage fits the same block. -/
theorem settling_of_storage {operation : String} {f : Storage w → Edit w α}
    (h : ∀ p s, p.Good → p.buffer = .allocated s →
      Ends (f s) p (fun _ q => p.Settles q) fun _ q => p.Settles q) :
    Settling id (do f (← storage operation)) := by
  intro p hp
  rw [ends_bind, ends_storage]
  exact ⟨fun s hs => h p s hp hs, fun _ => .refl hp⟩

theorem put_settling {operation : String} {f : Storage w → Storage w}
    (h : ∀ s : Storage w, s.Fitted → s.Refits (f s)) : Settling id (do put (f (← storage operation))) :=
  settling_of_storage fun _ s hp hs => Place.settles_of_refits hs (h s (hp.storage hs))

theorem lt_of_extend {a a' : Arena} {handle old new : Nat} (hc : a.config.Stated)
    (hold : old < 2 ^ 32) (h : a.extend handle old new = .ok a') : new < 2 ^ 32 := by
  rcases Nat.lt_or_ge old new with hlt | hle
  · rw [Arena.extend_of_lt _ _ hlt] at h
    split at h
    · rename_i hgrant
      exact Nat.lt_of_le_of_lt hgrant hc
    · cases h
  · exact Nat.lt_of_le_of_lt hle hold

/-- A block that grows has the size that was asked for. -/
theorem extend_settles (hp : p.Good) (hs : p.buffer = .allocated s) {size : Nat}
    (hcap : s.capacity ≤ size) :
    Ends (extend s size) p
      (fun _ q => p.Settles q ∧ ∃ t, q.buffer = .allocated t ∧ t.capacity = size)
      fun _ q => p.Settles q := by
  simp only [Ends, extend]
  cases h : p.arena.extend s.handle s.capacity size with
  | error e => exact .refl hp
  | ok a =>
    have hfit := hp.storage hs
    have hlt := lt_of_extend hp.stated hfit.capacity_lt h
    obtain ⟨hresized, hsize⟩ := hfit.resized (hfit.used_le.trans hcap) hlt
    refine ⟨⟨Buffer.fitted_allocated hresized, Arena.config_extend h, fun out => ?_⟩, _, rfl, hsize⟩
    have hupdates := updates_extend h out
    rw [Nat.max_eq_right hcap] at hupdates
    rw [hs, Buffer.out, Buffer.out, hsize, Multiset.singleton_add, Multiset.singleton_add]
    exact hupdates

theorem grow_settles (hp : p.Good) (hs : p.buffer = .allocated s) (needed : Nat) :
    Ends (grow needed) p
      (fun _ q => p.Settles q ∧ ∃ t, q.buffer = .allocated t ∧ s.used + needed ≤ t.capacity)
      fun _ q => p.Settles q := by
  rw [grow, ends_bind, ends_storage]
  refine ⟨fun u hu => ?_, fun hnull => by cases hs.symm.trans hnull⟩
  obtain rfl := Buffer.allocated.inj (hs.symm.trans hu)
  have hcap : s.capacity ≤ max (2 * s.capacity) (s.used + needed) := by omega
  refine (extend_settles hp hs hcap).mono ?_ fun _ _ hq => hq
  rintro _ q ⟨hq, t, ht, hsize⟩
  exact ⟨hq, t, ht, hsize ▸ Nat.le_max_right ..⟩

theorem grow_settling (needed : Nat) : Settling id (grow needed : Edit w Unit) := by
  intro p hp
  cases hs : p.buffer with
  | null => exact (ends_of_error (bind_of_error (storage_of_null "grow" hs))).2 (.refl hp)
  | allocated s => exact (grow_settles hp hs needed).mono (fun _ _ hq => hq.1) fun _ _ hq => hq

theorem growing_settling (hw : Storage.Steady write) : Settling id (growing write) := by
  refine settling_of_storage fun p s hp hs => ?_
  have hagain : Settling id (do
      let s ← storage "write"
      put (← ofExcept (write s))) := by
    refine settling_of_storage fun q t hq ht => ?_
    rw [ends_bind, ends_ofExcept]
    refine ⟨fun u hu => ?_, fun _ _ => .refl hq⟩
    exact Place.settles_of_refits ht (hw t u (hq.storage ht) hu)
  split
  · rename_i t ht
    exact Place.settles_of_refits hs (hw s t (hp.storage hs) ht)
  · exact ((grow_settling _).bind fun _ => hagain) p hp
  · exact Place.Settles.refl hp

theorem allocate_settles (hp : p.Good) (hnull : p.buffer = .null) (size : Nat) :
    Ends (allocate size) p (fun _ q => p.Settles q) fun _ q => p.Settles q := by
  simp only [Ends, allocate]
  cases h : Buffer.allocate w size p.arena with
  | error e => exact .refl hp
  | ok r =>
    obtain ⟨b, a⟩ := r
    have hgranted := Buffer.granted_allocate h
    obtain ⟨-, hconfig, -⟩ := Buffer.allocate_eq_ok h
    refine ⟨hgranted.fitted, hconfig, fun out => ?_⟩
    rw [hnull, Buffer.out, zero_add]
    exact hgranted.updates out

theorem free_settling : Settling id (free : Edit w Unit) := by
  refine fun p hp => ends_free.2 ⟨fun s hs => ?_, fun _ => .refl hp⟩
  refine ⟨Buffer.fitted_null, rfl, fun out => ?_⟩
  have hreleased := Buffer.updates_released p.arena (.allocated s) out
  rw [id, hs, id, Buffer.out, zero_add]
  exact hreleased

theorem allocating_settling (hw : Storage.Steady write) : Settling id (allocating write) := by
  intro p hp
  cases hs : p.buffer with
  | allocated s =>
    have hsame : allocating write p = growing write p := by simp only [allocating, hs]
    exact (ends_congr hsame).2 (growing_settling hw p hp)
  | null =>
    refine (ends_allocating hs).2 ((allocate_settles hp hs _).mono (fun _ q hq => ?_) fun _ _ hq => hq)
    refine (growing_settling hw q (hq.good hp)).mono (fun _ _ hr => hq.trans hr) fun e r hr => ?_
    have hqr := hq.trans hr
    exact (free_settling r (hqr.good hp)).mono (fun _ _ ht => hqr.trans ht) fun _ _ ht => hqr.trans ht

theorem add_settling (f : FieldId w) (v : Value) : Settling id (add f v) :=
  (ofExcept_settling _).bind fun _ => (ofExcept_settling _).bind fun entry =>
    allocating_settling (Storage.insert_steady f entry)

theorem append_settling (f : FieldId w) (v : Value) : Settling id (append f v) := by
  rw [append]
  split
  · exact (Settling.throw _).bind fun _ => (ofExcept_settling _).bind fun entry =>
      allocating_settling (Storage.push_steady entry)
  · exact (ofExcept_settling _).bind fun entry => allocating_settling (Storage.push_steady entry)

theorem settles_of_error {x : Edit w α} (hp : p.Good) (h : ∃ e, x p = .error e p) :
    Ends x p (fun _ q => p.Settles q) fun _ q => p.Settles q := by
  obtain ⟨e, he⟩ := h
  exact (ends_of_error he).2 (.refl hp)

theorem set_settling (f : FieldId w) (k : Nat) (v : Value) : Settling id (set f k v) := by
  intro p hp
  by_cases ha : ∃ u, Accepts f v u
  · obtain ⟨u, hu, entry, he⟩ := ha
    by_cases hk : CannotSet p.buffer k
    · exact settles_of_error hp ⟨_, set_eq_notIndexed ⟨hu, entry, he⟩ hk⟩
    · obtain ⟨gap, -, hset⟩ := set_eq hu he hk
      exact (ends_congr hset).2 (allocating_settling (Storage.replace_steady f k gap entry) p hp)
  · exact settles_of_error hp (set_eq_error (not_exists.1 ha))

theorem erase_settling (f : FieldId w) (k : Nat) : Settling id (erase f k) := by
  intro p hp
  rw [Ends, run_erase]
  cases hr : p.buffer.requireIndex "erase" with
  | error e => exact Place.Settles.refl hp
  | ok s =>
    dsimp only
    cases he : (s.occurrences f)[k]? with
    | none => exact Place.Settles.refl hp
    | some e =>
      dsimp only
      cases ht : s.splice e.offset e.stop [] with
      | error e => exact Place.Settles.refl hp
      | ok t =>
        have hs : p.buffer = .allocated s := by
          cases hb : p.buffer with
          | null => simp [hb, Buffer.requireIndex] at hr
          | allocated u =>
            rw [hb, Buffer.requireIndex] at hr
            split at hr
            · rw [Except.ok.inj hr]
            · cases hr
        have hfit := Place.Good.storage hp hs
        obtain ⟨hstart, hstop⟩ := hfit.bounds_of_mem_occurrences (List.mem_of_getElem? he)
        have hrefits := hfit.splice hstart (Nat.le_add_right ..) hstop ht
        exact Place.settles_of_refits hs (hrefits.trans hrefits.fitted.reindexed)

theorem retain_settling (operation : String) (keep : FieldId w → Bool) :
    Settling id (retain operation keep) :=
  settling_of_storage fun p s hp hs => by
    rw [ends_bind, ends_put, ends_pure]
    exact Place.settles_of_refits hs ((hp.storage hs).retain keep)

theorem clear_settling : Settling id (clear : Edit w Unit) := by
  refine put_settling fun s hs => ?_
  have hroom : Header.size + ([] : Bytes).length ≤ s.capacity := hs.header_le.trans hs.used_le
  have hempty := hs.withLive hroom
  refine hempty.trans (hempty.fitted.indexedBy true _ ?_)
  rintro ix hix
  exact Option.some.inj hix ▸ hempty.fitted.header_le_build _

theorem buildIndex_settling (interval : Nat) : Settling id (buildIndex interval : Edit w Unit) :=
  put_settling fun _ hs => hs.indexed interval

theorem dropIndex_settling : Settling id (dropIndex : Edit w Unit) := by
  intro p hp
  simp only [Ends, dropIndex]
  cases hs : p.buffer with
  | null => exact Place.Settles.refl hp
  | allocated s => exact Place.settles_of_refits hs (Place.Good.storage hp hs).unindexed

theorem reduce_settles (hp : p.Good) (hs : p.buffer = .allocated s) {size : Nat}
    (hused : s.used ≤ size) (hcap : size ≤ s.capacity) :
    p.Settles ⟨p.arena.reduce s.handle s.capacity size, .allocated (s.resized size)⟩ := by
  have hfit := hp.storage hs
  obtain ⟨hresized, hsize⟩ := hfit.resized hused (Nat.lt_of_le_of_lt hcap hfit.capacity_lt)
  refine ⟨Buffer.fitted_allocated hresized, Arena.config_reduce .., fun out => ?_⟩
  have hupdates := updates_reduce p.arena s.handle s.capacity size out
  rw [Nat.min_eq_right hcap] at hupdates
  rw [hs, Buffer.out, Buffer.out, hsize, Multiset.singleton_add, Multiset.singleton_add]
  exact hupdates

theorem reallocate_settling (size : Nat) : Settling id (reallocate size : Edit w Unit) := by
  intro p hp
  cases hs : p.buffer with
  | null =>
    have hsame : reallocate size p = allocate size p := by simp only [reallocate, hs]
    exact (ends_congr hsame).2 (allocate_settles hp hs size)
  | allocated s =>
    refine ends_reallocate hs (fun _ => .refl hp) (fun n _ hgrow => ?_) fun n hused hcap => ?_
    · exact (extend_settles hp hs (Nat.le_of_lt hgrow)).mono (fun _ _ hq => hq.1) fun _ _ hq => hq
    · exact reduce_settles hp hs hused hcap

theorem install_settling (body : Bytes) : Settling id (install body : Edit w Unit) := by
  have hput : ∀ (p q : Place w) (t : Storage w), p.Settles q → p.Good → q.buffer = .allocated t →
      Header.size + body.length ≤ t.capacity →
      Ends (do
        let s ← storage "write"
        put ((s.withLive body).indexed s.interval)) q (fun _ r => p.Settles r)
          fun _ r => p.Settles r := by
    intro p q t hq hp ht hroom
    have hrefits := ((hq.good hp).storage ht).withLive hroom
    have hsettles := Place.settles_of_refits ht (hrefits.trans (hrefits.fitted.indexed t.interval))
    rw [ends_bind, ends_storage]
    refine ⟨fun u hu => ?_, fun hnull => by cases ht.symm.trans hnull⟩
    obtain rfl := Buffer.allocated.inj (ht.symm.trans hu)
    exact hq.trans hsettles
  refine settling_of_storage fun p s hp hs => ?_
  dsimp only
  split
  · rename_i hlt
    rw [ends_bind]
    refine (grow_settles hp hs _).mono ?_ fun _ _ hq => hq
    rintro _ q ⟨hq, t, ht, hsize⟩
    have hle := (hp.storage hs).used_le
    exact hput p q t hq hp ht (by omega)
  · rename_i hfit
    exact hput p p s (.refl hp) hp hs (Nat.le_of_not_lt hfit)

theorem merge_settling (m : Merge) (other : Buffer w) : Settling id (merge m other) :=
  settling_of_storage fun p _ hp _ =>
    ((ofExcept_settling _).bind fun _ => install_settling _) p hp

end Edit

theorem Change.settling (c : Change w) : Settling id c.run := by
  cases c with
  | add f v => exact (Edit.add_settling f v).bind fun _ => .pure _
  | append f v => exact (Edit.append_settling f v).bind fun _ => .pure _
  | set f k v => exact (Edit.set_settling f k v).bind fun _ => .pure _
  | erase f k => exact (Edit.erase_settling f k).bind fun _ => .pure _
  | eraseAll f => exact (Edit.retain_settling _ _).bind fun _ => .pure _
  | eraseMany fs => exact (Edit.retain_settling _ _).bind fun _ => .pure _
  | project fs => exact (Edit.retain_settling _ _).bind fun _ => .pure _
  | merge m other => exact (Edit.merge_settling m other).bind fun _ => .pure _
  | reallocate size => exact (Edit.reallocate_settling size).bind fun _ => .pure _
  | clear => exact Edit.clear_settling.bind fun _ => .pure _
  | buildIndex interval => exact (Edit.buildIndex_settling interval).bind fun _ => .pure _
  | dropIndex => exact Edit.dropIndex_settling.bind fun _ => .pure _
  | free => exact Edit.free_settling.bind fun _ => .pure _

end FieldBuffers
