import FieldBuffers.Proofs.Compacting
import FieldBuffers.Proofs.Lockstep

/-! Changes of two buffers in blocks of one size. They both succeed or both fail, and leave such
buffers again (`Edit.add_abreast`, `Edit.set_abreast`, `Edit.retain_abreast`). -/

namespace FieldBuffers

variable {σ τ υ α β γ δ : Type} {w : Width}

/-- Two runs that both succeed, with results and states that are related, or both fail. -/
inductive Concurs (V : α → β → Prop) (R : σ → τ → Prop) :
    EStateM.Result Error σ α → EStateM.Result Error τ β → Prop
  | ok {a : α} {b : β} {p : σ} {q : τ} : V a b → R p q → Concurs V R (.ok a p) (.ok b q)
  | error {e e' : Error} {p : σ} {q : τ} : Concurs V R (.error e p) (.error e' q)

namespace Concurs

variable {V : α → β → Prop} {R : σ → τ → Prop}

theorem of_ok {x : EStateM.Result Error σ α} {y : EStateM.Result Error τ β} {a : α} {p : σ}
    (h : Concurs V R x y) (hx : x = .ok a p) : ∃ b q, y = .ok b q ∧ V a b ∧ R p q := by
  subst hx
  cases h with
  | ok hab hpq => exact ⟨_, _, rfl, hab, hpq⟩

theorem refl {V : α → α → Prop} (hV : ∀ a, V a a) (x : EStateM.Result Error σ α) :
    Concurs V Eq x x := by
  cases x with
  | ok a p => exact .ok (hV a) rfl
  | error e p => exact .error

theorem symm {V' : β → α → Prop} {R' : τ → σ → Prop} {x : EStateM.Result Error σ α}
    {y : EStateM.Result Error τ β} (h : Concurs V R x y) (hV : ∀ a b, V a b → V' b a)
    (hR : ∀ p q, R p q → R' q p) : Concurs V' R' y x := by
  cases h with
  | ok hab hpq => exact .ok (hV _ _ hab) (hR _ _ hpq)
  | error => exact .error

theorem trans {V' : β → γ → Prop} {R' : τ → υ → Prop} {V'' : α → γ → Prop} {R'' : σ → υ → Prop}
    {x : EStateM.Result Error σ α} {y : EStateM.Result Error τ β} {z : EStateM.Result Error υ γ}
    (h : Concurs V R x y) (h' : Concurs V' R' y z) (hV : ∀ a b c, V a b → V' b c → V'' a c)
    (hR : ∀ p q r, R p q → R' q r → R'' p r) : Concurs V'' R'' x z := by
  cases h with
  | ok hab hpq =>
    cases h' with
    | ok hbc hqr => exact .ok (hV _ _ _ hab hbc) (hR _ _ _ hpq hqr)
  | error =>
    cases h' with
    | error => exact .error

theorem bind {V' : γ → δ → Prop} {x : EStateM Error σ α} {y : EStateM Error τ β}
    {f : α → EStateM Error σ γ} {g : β → EStateM Error τ δ} {p : σ} {q : τ}
    (h : Concurs V R (x p) (y q))
    (hf : ∀ a b p' q', x p = .ok a p' → V a b → R p' q' → Concurs V' R (f a p') (g b q')) :
    Concurs V' R ((x >>= f) p) ((y >>= g) q) := by
  generalize hx : x p = r at h
  generalize hy : y q = r' at h
  cases h with
  | ok hab hpq =>
    rw [bind_of_ok hx, bind_of_ok hy]
    exact hf _ _ _ _ hx hab hpq
  | error =>
    rw [bind_of_error hx, bind_of_error hy]
    exact .error

end Concurs

/-- Runs from related states concur, with the same result. -/
def Abreast (R : σ → σ → Prop) (x : EStateM Error σ α) : Prop :=
  ∀ p q, R p q → Concurs Eq R (x p) (x q)

namespace Abreast

variable {R : σ → σ → Prop} {x : EStateM Error σ α} {f : α → EStateM Error σ β}

theorem bind (hx : Abreast R x) (hf : ∀ a, Abreast R (f a)) : Abreast R (x >>= f) := by
  intro p q h
  refine (hx p q h).bind ?_
  rintro a _ p q - rfl hpq
  exact hf a p q hpq

theorem pure (a : α) : Abreast R (pure a) := fun _ _ h => .ok rfl h

theorem throw (e : Error) : Abreast R (throw e : EStateM Error σ α) := fun _ _ _ => .error

end Abreast

namespace Storage

variable {s t s' t' : Storage w}

/-- The same is stored in two blocks of one size. -/
structure Twins (s t : Storage w) : Prop extends s.Matches t where
  room : s.body.length = t.body.length
  stated : s.header.capacity = t.header.capacity

namespace Twins

theorem symm (h : s.Twins t) : t.Twins s := ⟨h.toMatches.symm, h.room.symm, h.stated.symm⟩

theorem trans {u : Storage w} (h : s.Twins t) (h' : t.Twins u) : s.Twins u :=
  ⟨h.toMatches.trans h'.toMatches, h.room.trans h'.room, h.stated.trans h'.stated⟩

theorem capacity (h : s.Twins t) : s.capacity = t.capacity := congrArg (Header.size + ·) h.room

theorem withLive (h : s.Twins t) (live : Bytes) : (s.withLive live).Twins (t.withLive live) where
  toMatches := h.toMatches.withLive live
  room := by
    simp only [Storage.withLive, List.length_append, List.length_drop, h.used, h.room]
  stated := h.stated

theorem reindexed (h : s.Twins t) : s.reindexed.Twins t.reindexed := by
  have hkept : ∀ u : Storage w,
      u.reindexed.body = u.body ∧ u.reindexed.header = u.header := by
    intro u
    rw [Storage.reindexed]
    split <;> exact ⟨rfl, rfl⟩
  refine ⟨h.toMatches.reindexed, ?_, ?_⟩
  · rw [(hkept s).1, (hkept t).1, h.room]
  · rw [(hkept s).2, (hkept t).2, h.stated]

theorem retain (h : s.Twins t) (keep : FieldId w → Bool) :
    (s.retain keep).Twins (t.retain keep) := by
  rw [retain_eq, retain_eq, h.entries]
  exact (h.withLive _).reindexed

theorem resized (h : s.Twins t) {size : Nat} (hsize : s.used ≤ size) :
    (s.resized size).Twins (t.resized size) where
  toMatches := ((matches_resized h.left hsize).symm.trans h.toMatches).trans
    (matches_resized h.right (h.used ▸ hsize))
  room := by
    simp only [Storage.resized, List.length_append, List.length_take, h.capacity, h.room]
  stated := rfl

end Twins

theorem twins_fresh (w : Width) (m n size : Nat) : (fresh w m size).Twins (fresh w n size) :=
  ⟨matches_fresh w m n size size, rfl, rfl⟩

/-- A write that goes the same way in two blocks of one size. -/
def Even (write : Storage w → Except Error (Storage w)) : Prop :=
  ∀ s t, s.Twins t → (∃ s' t', write s = .ok s' ∧ write t = .ok t' ∧ s'.Twins t') ∨
    ∃ e, write s = .error e ∧ write t = .error e

/-- Bytes put in the same place of both, with the index taken afresh. -/
theorem Twins.splice (h : s.Twins t) (start stop : Nat) (bytes : Bytes) :
    (∃ s' t', (s.splice start stop bytes).map Storage.reindexed = .ok s' ∧
      (t.splice start stop bytes).map Storage.reindexed = .ok t' ∧ s'.Twins t') ∨
    ∃ e, (s.splice start stop bytes).map Storage.reindexed = .error e ∧
      (t.splice start stop bytes).map Storage.reindexed = .error e := by
  simp only [Storage.splice, h.used, h.capacity, h.live]
  split
  · exact .inr ⟨_, rfl, rfl⟩
  · exact .inl ⟨_, _, rfl, rfl, (h.withLive _).reindexed⟩

theorem insert_even (f : FieldId w) (entry : Bytes) : Even (insert f entry) := by
  intro s t h
  rw [insert, insert, h.insertPoint]
  exact h.splice _ _ _

theorem replace_even (f : FieldId w) (k : Nat) (filler entry : Bytes) :
    Even (replace f k filler entry) := by
  intro s t h
  rw [replace, replace, h.occurrences, h.insertPoint]
  dsimp only
  cases (t.occurrences f)[k]? with
  | some e => exact h.splice _ _ _
  | none => exact h.splice _ _ _

end Storage

/-- Two null buffers, or two of one size with the same in them. -/
inductive Buffer.Twins : Buffer w → Buffer w → Prop
  | null : Twins .null .null
  | allocated {s t : Storage w} : s.Twins t → Twins (.allocated s) (.allocated t)

namespace Buffer.Twins

variable {b c d : Buffer w}

theorem toMatches (h : b.Twins c) : b.Matches c := by
  cases h with
  | null => exact .null
  | allocated h => exact .allocated h.toMatches

theorem symm (h : b.Twins c) : c.Twins b := by
  cases h with
  | null => exact .null
  | allocated h => exact .allocated h.symm

theorem trans (h : b.Twins c) (h' : c.Twins d) : b.Twins d := by
  cases h with
  | null => exact h'
  | allocated h =>
    cases h' with
    | allocated h' => exact .allocated (h.trans h')

end Buffer.Twins

/-- Places in arenas under one ceiling, with such buffers. -/
structure Place.Twins (p q : Place w) : Prop where
  buffer : p.buffer.Twins q.buffer
  config : p.arena.config = q.arena.config

namespace Place.Twins

variable {p q r : Place w}

theorem symm (h : p.Twins q) : q.Twins p := ⟨h.buffer.symm, h.config.symm⟩

theorem trans (h : p.Twins q) (h' : q.Twins r) : p.Twins r :=
  ⟨h.buffer.trans h'.buffer, h.config.trans h'.config⟩

end Place.Twins

namespace Edit

theorem ofExcept_abreast (r : Except Error α) : Abreast Place.Twins (ofExcept r : Edit w α) := by
  intro p q h
  cases r with
  | ok a => exact .ok rfl h
  | error e => exact .error

theorem storage_concurs {R : Place w → Place w → Prop} {operation : String}
    {x : Storage w → Edit w α}
    (hx : ∀ s t, s.Twins t → ∀ p q : Place w, p.Twins q → Concurs Eq R (x s p) (x t q))
    {p q : Place w} (h : p.Twins q) :
    Concurs Eq R ((do x (← storage operation) : Edit w α) p)
      ((do x (← storage operation) : Edit w α) q) := by
  obtain ⟨a, b⟩ := p
  obtain ⟨a', c⟩ := q
  have hbuffer : b.Twins c := h.buffer
  cases hbuffer with
  | null => exact .error
  | allocated hs => exact hx _ _ hs _ _ h

theorem put_concurs {s t : Storage w} (hs : s.Twins t) {p q : Place w} (h : p.Twins q) :
    Concurs Eq Place.Twins (put s p) (put t q) := .ok rfl ⟨.allocated hs, h.config⟩

theorem extend_concurs {s t : Storage w} (hs : s.Twins t) {size : Nat} (hsize : s.used ≤ size)
    {p q : Place w} (h : p.Twins q) :
    Concurs Eq Place.Twins (extend s size p) (extend t size q) := by
  have hresized := hs.resized hsize
  rcases Nat.lt_or_ge s.capacity size with hlt | hle
  · rw [extend, extend, Arena.extend_of_lt _ _ hlt, Arena.extend_of_lt _ _ (hs.capacity ▸ hlt),
      h.config]
    by_cases hgrant : size ≤ q.arena.config.ceiling
    · rw [if_pos hgrant, if_pos hgrant]
      exact .ok rfl ⟨.allocated hresized, rfl⟩
    · rw [if_neg hgrant, if_neg hgrant]
      exact .error
  · rw [extend, extend, Arena.extend, if_pos hle, Arena.extend, if_pos (hs.capacity ▸ hle)]
    exact .ok rfl ⟨.allocated hresized, h.config⟩

theorem grow_abreast (needed : Nat) : Abreast Place.Twins (grow needed : Edit w Unit) := by
  intro p q h
  refine storage_concurs (fun s t hs p q h => ?_) h
  rw [← hs.capacity, ← hs.used]
  exact extend_concurs hs (by omega) h

variable {write : Storage w → Except Error (Storage w)}

theorem growing_abreast (hw : Storage.Even write) : Abreast Place.Twins (growing write) := by
  intro p q h
  refine storage_concurs (fun s t hs p q h => ?_) h
  -- the second write, into the room that was made
  have hagain : Abreast Place.Twins (do
      let s ← storage "write"
      put (← ofExcept (write s))) := by
    intro p q h
    refine storage_concurs (fun s t hs p q h => ?_) h
    obtain ⟨s', t', hs', ht', hst⟩ | ⟨e, hs', ht'⟩ := hw s t hs
    · rw [hs', ht']
      exact put_concurs hst h
    · rw [hs', ht']
      exact .error
  obtain ⟨s', t', hs', ht', hst⟩ | ⟨e, hs', ht'⟩ := hw s t hs
  · rw [hs', ht']
    exact put_concurs hst h
  · rw [hs', ht']
    cases e with
    | spaceExhausted needed available => exact (grow_abreast needed).bind (fun _ => hagain) p q h
    | _ => exact .error

theorem allocate_concurs (size : Nat) {p q : Place w} (h : p.arena.config = q.arena.config) :
    Concurs Eq Place.Twins (allocate size p) (allocate size q) := by
  rw [allocate, allocate, Buffer.allocate, Buffer.allocate, Arena.reserve, Arena.reserve, h]
  dsimp only
  cases Region.checkRoom q.arena.config (max size Header.size) with
  | error e => exact .error
  | ok u =>
    cases q.arena.config.check (max size Header.size) with
    | error e => exact .error
    | ok u => exact .ok rfl ⟨.allocated (Storage.twins_fresh ..), rfl⟩

theorem allocating_abreast (hw : Storage.Even write) : Abreast Place.Twins (allocating write) := by
  intro p q h
  have hbuffer := h.buffer
  generalize hb : p.buffer = b at hbuffer
  generalize hc : q.buffer = c at hbuffer
  cases hbuffer with
  | allocated hs =>
    have hp : allocating write p = growing write p := by simp only [allocating, hb]
    have hq : allocating write q = growing write q := by simp only [allocating, hc]
    rw [hp, hq]
    exact growing_abreast hw p q h
  | null =>
    simp only [allocating, hb, hc, h.config]
    have hfresh := allocate_concurs q.arena.config.initial h.config
    generalize allocate q.arena.config.initial p = x at hfresh ⊢
    generalize allocate q.arena.config.initial q = y at hfresh ⊢
    cases hfresh with
    | error => exact .error
    | @ok _ _ p q _ hpq =>
      dsimp only
      have hgrown := growing_abreast hw p q hpq
      generalize growing write p = x at hgrown ⊢
      generalize growing write q = y at hgrown ⊢
      cases hgrown with
      | ok hu hpq => exact .ok hu hpq
      | @error _ _ p q =>
        dsimp only
        cases free p <;> cases free q <;> exact .error

theorem add_abreast (f : FieldId w) (v : Value) : Abreast Place.Twins (add f v) :=
  (ofExcept_abreast _).bind fun _ => (ofExcept_abreast _).bind fun _ =>
    allocating_abreast (Storage.insert_even f _)

theorem set_abreast (f : FieldId w) (k : Nat) (v : Value) : Abreast Place.Twins (set f k v) := by
  refine (ofExcept_abreast _).bind fun u => (ofExcept_abreast _).bind fun entry => ?_
  have hfill : ∀ fill : Prop, [Decidable fill] → Abreast Place.Twins (do
      let filler ← if fill then ofExcept ((Value.default f.type).encodeEntry f) else pure []
      allocating (Storage.replace f k filler entry) : Edit w Unit) := by
    intro fill _
    have hwrite := fun filler => allocating_abreast (Storage.replace_even f k filler entry)
    split
    · exact (ofExcept_abreast _).bind hwrite
    · exact (Abreast.pure _).bind hwrite
  intro p q h
  have hsame := h.buffer.toMatches
  change Concurs _ _ ((if _ then _ else _ : Edit w Unit) p) ((if _ then _ else _ : Edit w Unit) q)
  rw [hsame.isNull, hsame.isIndexed, hsame.occurrences]
  split
  · exact ((Abreast.throw _).bind fun _ => hfill _) p q h
  · exact hfill _ p q h

theorem retain_abreast (operation : String) (keep : FieldId w → Bool) :
    Abreast Place.Twins (retain operation keep) := by
  intro p q h
  refine storage_concurs (fun s t hs p q h => ?_) h
  have hcount : (s.compaction keep s.entries).removed = (t.compaction keep t.entries).removed := by
    rw [s.compaction_removed, t.compaction_removed, hs.entries]
  exact .ok hcount ⟨.allocated (hs.retain keep), h.config⟩

end Edit

end FieldBuffers
