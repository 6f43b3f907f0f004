import FieldBuffers.Proofs.Writing

/-! What an edit of a place comes to. It either leaves a buffer of some items or is refused a block
large enough for them, and then the buffer is the one before (`Makes`). -/

namespace FieldBuffers

open Item

variable {ε σ α β : Type}

/-- A run from `p` that succeeds ends so that `Q`, and one that fails so that `E`. -/
def Ends (x : EStateM ε σ α) (p : σ) (Q : α → σ → Prop) (E : ε → σ → Prop) : Prop :=
  match x p with
  | .ok a q => Q a q
  | .error e q => E e q

section Ends

variable {x : EStateM ε σ α} {f : α → EStateM ε σ β} {p : σ} {Q : α → σ → Prop} {E : ε → σ → Prop}

theorem bind_of_ok {a : α} {q : σ} (h : x p = .ok a q) : (x >>= f) p = f a q := by
  change EStateM.bind x f p = _
  rw [EStateM.bind, h]

theorem bind_of_error {e : ε} {q : σ} (h : x p = .error e q) : (x >>= f) p = .error e q := by
  change EStateM.bind x f p = _
  rw [EStateM.bind, h]

theorem Ends.mono {Q' : α → σ → Prop} {E' : ε → σ → Prop} (h : Ends x p Q E)
    (hQ : ∀ a q, Q a q → Q' a q) (hE : ∀ e q, E e q → E' e q) : Ends x p Q' E' := by
  rw [Ends] at h ⊢
  cases hx : x p with
  | ok a q => rw [hx] at h; exact hQ a q h
  | error e q => rw [hx] at h; exact hE e q h

theorem Ends.and {Q' : α → σ → Prop} {E' : ε → σ → Prop} (h : Ends x p Q E)
    (h' : Ends x p Q' E') : Ends x p (fun a q => Q a q ∧ Q' a q) fun e q => E e q ∧ E' e q := by
  rw [Ends] at h h' ⊢
  cases hx : x p with
  | ok a q => rw [hx] at h h'; exact ⟨h, h'⟩
  | error e q => rw [hx] at h h'; exact ⟨h, h'⟩

theorem ends_bind {Q : β → σ → Prop} :
    Ends (x >>= f) p Q E ↔ Ends x p (fun a q => Ends (f a) q Q E) E := by
  change (match EStateM.bind x f p with | .ok a q => Q a q | .error e q => E e q) ↔ _
  cases hx : x p <;> simp [Ends, EStateM.bind, hx]

theorem ends_pure {a : α} : Ends (pure a) p Q E ↔ Q a p := Iff.rfl

theorem ends_get {Q : σ → σ → Prop} :
    Ends (get : EStateM ε σ σ) p Q E ↔ Q p p := Iff.rfl

theorem ends_congr {y : EStateM ε σ α} (h : x p = y p) :
    Ends x p Q E ↔ Ends y p Q E := by rw [Ends, Ends, h]

theorem ends_of_ok {a : α} {q : σ} (h : x p = .ok a q) : Ends x p Q E ↔ Q a q := by
  rw [Ends, h]

theorem ends_of_error {e : ε} {q : σ} (h : x p = .error e q) : Ends x p Q E ↔ E e q := by
  rw [Ends, h]

end Ends

variable {w : Width} {s : Storage w} {xs zs : List (Item w)} {p : Place w}

namespace Edit

variable {Q : α → Place w → Prop} {E : Error → Place w → Prop}

theorem ofExcept_of_ok {r : Except Error α} {a : α} (h : r = .ok a) : ofExcept r p = .ok a p := by
  rw [h]
  rfl

theorem ofExcept_of_error {r : Except Error α} {e : Error} (h : r = .error e) :
    ofExcept r p = .error e p := by
  rw [h]
  rfl

theorem storage_of_allocated (operation : String) (hp : p.buffer = .allocated s) :
    storage operation p = .ok s p := ofExcept_of_ok (by rw [hp]; rfl)

theorem storage_of_null (operation : String) (hp : p.buffer = .null) :
    storage operation p = .error (.bufferNull operation) p := ofExcept_of_error (by rw [hp]; rfl)

theorem ends_ofExcept {r : Except Error α} :
    Ends (ofExcept r) p Q E ↔ (∀ a, r = .ok a → Q a p) ∧ ∀ e, r = .error e → E e p := by
  cases r <;> simp [Ends, ofExcept]

theorem ends_ok {a : α} : Ends (ofExcept (.ok a)) p Q E ↔ Q a p := Iff.rfl

theorem ends_storage {operation : String} {Q : Storage w → Place w → Prop} :
    Ends (storage operation) p Q E ↔ (∀ s, p.buffer = .allocated s → Q s p) ∧
      (p.buffer = .null → E (.bufferNull operation) p) := by
  cases hb : p.buffer <;> simp [Ends, storage, ofExcept, hb, Buffer.require]

theorem ends_free {Q : Unit → Place w → Prop} :
    Ends free p Q E ↔ (∀ s, p.buffer = .allocated s → Q () ⟨p.arena.release s.handle, .null⟩) ∧
      (p.buffer = .null → Q () p) := by
  cases hb : p.buffer <;> simp [Ends, free, hb]

/-- A write of a null buffer that fails gives back the block that it got. -/
theorem ends_allocating {write : Storage w → Except Error (Storage w)} {Q : Unit → Place w → Prop}
    (hp : p.buffer = .null) :
    Ends (allocating write) p Q E ↔ Ends (allocate p.arena.config.initial) p
      (fun _ q => Ends (growing write) q Q fun e r => Ends free r (fun _ => E e) fun _ => E e) E := by
  simp only [Ends, allocating, hp]
  cases allocate p.arena.config.initial p with
  | error e q => exact Iff.rfl
  | ok u q =>
    dsimp only
    cases growing write q with
    | ok u r => exact Iff.rfl
    | error e r =>
      dsimp only
      cases free r <;> exact Iff.rfl

theorem ends_put {s : Storage w} {Q : Unit → Place w → Prop} :
    Ends (put s) p Q E ↔ Q () { p with buffer := .allocated s } := Iff.rfl

end Edit

/-- The words of a header can state the size of every block of the arena. -/
def ArenaConfig.Stated (c : ArenaConfig) : Prop := c.ceiling < 2 ^ 32

/-- The edit leaves a buffer of the items, or is refused the room for them and leaves the buffer
there was. -/
def Makes (x : Edit w α) (p : Place w) (zs : List (Item w)) (indexed : Bool) : Prop :=
  Ends x p (fun _ q => q.buffer.Holds zs indexed ∧ q.arena.config = p.arena.config) fun e q =>
    p.arena.config.Refuses e ∧ q.buffer = p.buffer ∧ q.arena.config = p.arena.config

/-- The edit leaves a buffer of the items. -/
def Leaves (x : Edit w α) (p : Place w) (zs : List (Item w)) (indexed : Bool) : Prop :=
  Ends x p (fun _ q => q.buffer.Holds zs indexed ∧ q.arena.config = p.arena.config) fun _ _ => False

theorem Leaves.makes {x : Edit w α} {indexed : Bool} (h : Leaves x p zs indexed) :
    Makes x p zs indexed := h.mono (fun _ _ hq => hq) fun _ _ he => he.elim

theorem Arena.extend_of_lt (a : Arena) (handle : Nat) {old new : Nat} (h : old < new) :
    a.extend handle old new
      = if new ≤ a.config.ceiling then .ok { a with tracker := a.tracker.resize handle new }
        else .error (.arenaCapacity new a.config.ceiling) := by
  rw [Arena.extend, if_neg (Nat.not_le.2 h), ArenaConfig.check]
  split <;> rfl

theorem Arena.config_reduce (a : Arena) (handle old new : Nat) :
    (a.reduce handle old new).config = a.config := by
  rw [Arena.reduce]
  split <;> rfl

namespace Edit

theorem extend_ends (s : Storage w) (size : Nat) :
    Ends (extend s size) p
      (fun _ q => q.buffer = .allocated (s.resized size) ∧ q.arena.config = p.arena.config ∧
        (s.capacity < size → size ≤ p.arena.config.ceiling))
      fun e q => p.arena.config.Refuses e ∧ q = p := by
  simp only [Ends, extend]
  by_cases hlt : s.capacity < size
  · rw [Arena.extend_of_lt _ _ hlt]
    by_cases hgrant : size ≤ p.arena.config.ceiling
    · simp only [if_pos hgrant]
      exact ⟨trivial, trivial, fun _ => hgrant⟩
    · simp only [if_neg hgrant]
      exact ⟨⟨_, _, Nat.lt_of_not_le hgrant, rfl⟩, trivial⟩
  · rw [Arena.extend, if_pos (Nat.le_of_not_lt hlt)]
    exact ⟨rfl, rfl, fun h => absurd h hlt⟩

theorem ends_reallocate {Q : Unit → Place w → Prop} {E : Error → Place w → Prop} {size : Nat}
    (hp : p.buffer = .allocated s)
    (hsmall : max size Header.size < s.used → E (.spaceExhausted s.used (max size Header.size)) p)
    (hmore : ∀ n, s.used ≤ n → s.capacity < n → Ends (extend s n) p Q E)
    (hless : ∀ n, s.used ≤ n → n ≤ s.capacity →
      Q () ⟨p.arena.reduce s.handle s.capacity n, .allocated (s.resized n)⟩) :
    Ends (reallocate size) p Q E := by
  simp only [Ends, reallocate, hp]
  generalize max size Header.size = n at hsmall ⊢
  by_cases hused : n < s.used
  · rw [if_pos hused]
    exact hsmall hused
  · rw [if_neg hused]
    by_cases hgrow : s.capacity < n
    · rw [if_pos hgrow]
      exact hmore n (Nat.le_of_not_lt hused) hgrow
    · rw [if_neg hgrow]
      exact hless n (Nat.le_of_not_lt hused) (Nat.le_of_not_lt hgrow)

end Edit

theorem Storage.Holds.resized (h : s.Holds xs) {size : Nat} (hfit : regionSize xs ≤ size)
    (hlt : size < 2 ^ 32) : (s.resized size).Holds xs where
  toStores := (h.toStores.resized hfit hlt).1
  flag := h.flag
  index := h.index
  sorted := h.sorted

/-- The size of the block that a write asks for when its items do not fit. -/
def Storage.sizeFor (zs : List (Item w)) (s : Storage w) : Nat :=
  max (2 * s.capacity) (regionSize zs)

theorem Storage.capacity_lt_sizeFor (s : Storage w) (h : s.capacity < regionSize zs) :
    s.capacity < s.sizeFor zs := Nat.lt_of_lt_of_le h (Nat.le_max_right ..)

theorem Storage.Holds.resized_sizeFor (h : s.Holds xs) (hlt : s.capacity < regionSize zs)
    (hs : s.sizeFor zs < 2 ^ 32) : (s.resized (s.sizeFor zs)).Holds xs ∧
      regionSize zs ≤ (s.resized (s.sizeFor zs)).capacity := by
  have hxs : regionSize xs ≤ s.sizeFor zs := by
    rw [← h.used]
    exact Nat.le_trans h.used_le (Nat.le_of_lt (s.capacity_lt_sizeFor hlt))
  rw [(h.toStores.resized hxs hs).2]
  exact ⟨h.resized hxs hs, Nat.le_max_right ..⟩

theorem Storage.isSome_index_reindexed (s : Storage w) :
    s.reindexed.index.isSome = s.index.isSome := by
  rw [Storage.reindexed]
  cases h : s.index <;> simp [h]

namespace Edit

section Growing

variable {write : Storage w → Except Error (Storage w)} {finish : Storage w → Storage w}

theorem growing_of_ok {t : Storage w} (hp : p.buffer = .allocated s) (hw : write s = .ok t) :
    growing write p = .ok () { p with buffer := .allocated t } := by
  refine (bind_of_ok (storage_of_allocated "write" hp)).trans ?_
  rw [hw]
  rfl

theorem growing_of_exhausted {needed available : Nat} (hp : p.buffer = .allocated s)
    (hw : write s = .error (.spaceExhausted needed available)) :
    growing write p
      = match p.arena.extend s.handle s.capacity (max (2 * s.capacity) (s.used + needed)) with
        | .error e => .error e p
        | .ok a =>
          let grown := s.resized (max (2 * s.capacity) (s.used + needed))
          match write grown with
          | .ok t => .ok () ⟨a, .allocated t⟩
          | .error e => .error e ⟨a, .allocated grown⟩ := by
  refine (bind_of_ok (storage_of_allocated "write" hp)).trans ?_
  have hgrow : grow needed p = extend s (max (2 * s.capacity) (s.used + needed)) p :=
    bind_of_ok (storage_of_allocated "grow" hp)
  rw [hw]
  generalize max (2 * s.capacity) (s.used + needed) = size at hgrow
  rw [extend] at hgrow
  cases hext : p.arena.extend s.handle s.capacity size with
  | error e =>
    rw [hext] at hgrow
    exact bind_of_error hgrow
  | ok a =>
    rw [hext] at hgrow
    refine (bind_of_ok hgrow).trans ((bind_of_ok (storage_of_allocated "write" rfl)).trans ?_)
    dsimp only
    cases hr : write (s.resized size) with
    | ok t => exact bind_of_ok (ofExcept_of_ok rfl)
    | error e => exact bind_of_error (ofExcept_of_error rfl)

/-- The block grows only when the items do not fit, and then once. -/
theorem growing_eq (hp : p.buffer = .allocated s) (h : s.Holds xs) (hc : p.arena.config.Stated)
    (hw : ∀ t : Storage w, t.Holds xs → t.index = s.index → write t = (t.laid zs).map finish) :
    growing write p
      = if regionSize zs ≤ s.capacity then
          .ok () { p with buffer := .allocated (finish (s.withLive (encodeAll zs))) }
        else if s.sizeFor zs ≤ p.arena.config.ceiling then
          .ok () ⟨{ p.arena with tracker := p.arena.tracker.resize s.handle (s.sizeFor zs) },
            .allocated (finish ((s.resized (s.sizeFor zs)).withLive (encodeAll zs)))⟩
        else .error (.arenaCapacity (s.sizeFor zs) p.arena.config.ceiling) p := by
  by_cases hfit : regionSize zs ≤ s.capacity
  · rw [if_pos hfit]
    exact growing_of_ok hp (by rw [hw s h rfl, Storage.laid_of_le hfit]; rfl)
  · have hlt := Nat.lt_of_not_le hfit
    have hused := h.used_le
    have hneed : s.used + (regionSize zs - s.used) = regionSize zs := by omega
    rw [if_neg hfit, growing_of_exhausted hp (by rw [hw s h rfl, Storage.laid_of_lt hlt]; rfl),
      hneed, ← Storage.sizeFor, Arena.extend_of_lt _ _ (s.capacity_lt_sizeFor hlt)]
    by_cases hgrant : s.sizeFor zs ≤ p.arena.config.ceiling
    · obtain ⟨ht, hroom⟩ := h.resized_sizeFor hlt (Nat.lt_of_le_of_lt hgrant hc)
      simp only [if_pos hgrant, hw _ ht rfl]
      rw [Storage.laid_of_le hroom]
      rfl
    · simp only [if_neg hgrant]

/-- What is left to do once the items of a write are in place. -/
def Finishes (finish : Storage w → Storage w) (zs : List (Item w)) (indexed after : Bool) : Prop :=
  ∀ t : Storage w, t.Stores zs → t.header.isIndexed = t.index.isSome →
    t.index.isSome = indexed → (finish t).Holds zs ∧ (finish t).index.isSome = after

theorem finishes_unindexed (zs : List (Item w)) (indexed : Bool) :
    Finishes Storage.unindexed zs indexed false := fun _ h _ _ => ⟨h.unindexed, rfl⟩

theorem finishes_reindexed {indexed : Bool} (hs : indexed → Sorted zs) :
    Finishes Storage.reindexed zs indexed indexed := by
  rintro t h hflag rfl
  exact ⟨h.reindexed hflag hs, t.isSome_index_reindexed⟩

theorem growing_makes {after : Bool} (hp : p.buffer = .allocated s) (h : s.Holds xs)
    (hc : p.arena.config.Stated) (hz : ∀ z ∈ zs, z.Sound)
    (hw : ∀ t : Storage w, t.Holds xs → t.index = s.index → write t = (t.laid zs).map finish)
    (hfinish : Finishes finish zs s.index.isSome after) : Makes (growing write) p zs after := by
  rw [Makes, Ends, growing_eq hp h hc hw]
  by_cases hfit : regionSize zs ≤ s.capacity
  · rw [if_pos hfit]
    obtain ⟨ht, hi⟩ := hfinish _ (h.toStores.withLive hz hfit).1 h.flag rfl
    exact ⟨⟨_, rfl, ht, hi⟩, rfl⟩
  · rw [if_neg hfit]
    by_cases hgrant : s.sizeFor zs ≤ p.arena.config.ceiling
    · obtain ⟨hr, hroom⟩ :=
        h.resized_sizeFor (Nat.lt_of_not_le hfit) (Nat.lt_of_le_of_lt hgrant hc)
      obtain ⟨ht, hi⟩ := hfinish _ (hr.toStores.withLive hz hroom).1 hr.flag rfl
      rw [if_pos hgrant]
      exact ⟨⟨_, rfl, ht, hi⟩, rfl⟩
    · rw [if_neg hgrant]
      exact ⟨⟨_, _, Nat.lt_of_not_le hgrant, rfl⟩, rfl, rfl⟩

end Growing

end Edit

end FieldBuffers
