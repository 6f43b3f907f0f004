import FieldBuffers.Proofs.Atomic

/-! Changes of two buffers that differ only in the room they have. A change gives both the same
result and leaves them so, unless one of them is refused a block (`Change.lockstep`). -/

namespace FieldBuffers

variable {σ α β : Type} {w : Width} {s t : Storage w}

/-- Two runs that end with the same result in related states, or one of which was refused a
block. -/
inductive InStep (R : σ → σ → Prop) :
    EStateM.Result Error σ α → EStateM.Result Error σ α → Prop
  | ok {a : α} {p q : σ} : R p q → InStep R (.ok a p) (.ok a q)
  | error {e : Error} {p q : σ} : R p q → InStep R (.error e p) (.error e q)
  | left {e : Error} {p : σ} {y : EStateM.Result Error σ α} :
      e.IsRefusal → InStep R (.error e p) y
  | right {e : Error} {x : EStateM.Result Error σ α} {q : σ} :
      e.IsRefusal → InStep R x (.error e q)

/-- Runs from related states are in step. -/
def Lockstep (R : σ → σ → Prop) (x : EStateM Error σ α) : Prop :=
  ∀ p q, R p q → InStep R (x p) (x q)

section Lockstep

variable {R : σ → σ → Prop} {x y : EStateM Error σ α} {f g : α → EStateM Error σ β} {p q : σ}

theorem InStep.bind (h : InStep R (x p) (y q))
    (hf : ∀ a p q, R p q → InStep R (f a p) (g a q)) : InStep R ((x >>= f) p) ((y >>= g) q) := by
  generalize hx : x p = r at h
  generalize hy : y q = r' at h
  cases h with
  | ok h =>
    rw [bind_of_ok hx, bind_of_ok hy]
    exact hf _ _ _ h
  | error h =>
    rw [bind_of_error hx, bind_of_error hy]
    exact .error h
  | left he =>
    rw [bind_of_error hx]
    exact .left he
  | right he =>
    rw [bind_of_error hy]
    exact .right he

theorem InStep.of_ends_eq {x y : EStateM Error σ α} {P Q : α → σ → Prop} {E F : Error → σ → Prop}
    (hx : Ends x p P E) (hy : Ends y q Q F) (h : ∀ a b p q, P a p → Q b q → a = b ∧ R p q)
    (hE : ∀ e p, E e p → e.IsRefusal) (hF : ∀ e q, F e q → e.IsRefusal) :
    InStep R (x p) (y q) := by
  rw [Ends] at hx hy
  cases hxp : x p with
  | error e p' =>
    rw [hxp] at hx
    exact .left (hE _ _ hx)
  | ok a p' =>
    cases hyq : y q with
    | error e q' =>
      rw [hyq] at hy
      exact .right (hF _ _ hy)
    | ok b q' =>
      rw [hxp] at hx
      rw [hyq] at hy
      obtain ⟨rfl, hR⟩ := h _ _ _ _ hx hy
      exact .ok hR

theorem InStep.of_ends {x y : EStateM Error σ Unit} {P Q : σ → Prop} {E F : Error → σ → Prop}
    (hx : Ends x p (fun _ => P) E) (hy : Ends y q (fun _ => Q) F)
    (h : ∀ p q, P p → Q q → R p q) (hE : ∀ e p, E e p → e.IsRefusal)
    (hF : ∀ e q, F e q → e.IsRefusal) : InStep R (x p) (y q) :=
  .of_ends_eq hx hy (fun _ _ p q hp hq => ⟨rfl, h p q hp hq⟩) hE hF

theorem Lockstep.bind (hx : Lockstep R x) (hf : ∀ a, Lockstep R (f a)) : Lockstep R (x >>= f) :=
  fun p q h => (hx p q h).bind fun a => hf a

theorem Lockstep.pure (a : α) : Lockstep R (pure a) := fun _ _ h => .ok h

theorem Lockstep.throw (e : Error) : Lockstep R (throw e : EStateM Error σ α) := fun _ _ h => .error h

end Lockstep

namespace Storage

/-- Writes that come to the same in any two blocks with the room for them. -/
structure Uniform (write : Storage w → Except Error (Storage w)) : Prop extends Retries write where
  same {s t s' t' : Storage w} : s.Matches t → write s = .ok s' → write t = .ok t' → s'.Matches t'

variable {s' t' : Storage w} {start stop : Nat} {bytes : Bytes}

theorem Matches.splice (h : s.Matches t) (hs : s.splice start stop bytes = .ok s')
    (ht : t.splice start stop bytes = .ok t') : s'.Matches t' := by
  rw [splice_eq_ok hs, splice_eq_ok ht, h.live]
  exact h.withLive _

theorem insert_uniform (f : FieldId w) (entry : Bytes) : Uniform (insert f entry) where
  toRetries := insert_retries f entry
  same {s t _ _} h hs ht := by
    obtain ⟨u, hu, rfl⟩ := ok_map_iff.1 hs
    obtain ⟨v, hv, rfl⟩ := ok_map_iff.1 ht
    rw [← h.insertPoint] at hv
    exact (h.splice hu hv).reindexed

theorem push_uniform (entry : Bytes) : Uniform (push (w := w) entry) where
  toRetries := push_retries entry
  same {s t _ _} h hs ht := by
    obtain ⟨u, hu, rfl⟩ := ok_map_iff.1 hs
    obtain ⟨v, hv, rfl⟩ := ok_map_iff.1 ht
    rw [← h.used] at hv
    exact (h.splice hu hv).unindexed

/-- The fillers and the place where they go are found again by the second try. -/
theorem replace_uniform (f : FieldId w) (k : Nat) (filler entry : Bytes) :
    Uniform (replace f k filler entry) where
  toRetries := replace_retries f k filler entry
  same {s t _ _} h hs ht := by
    obtain ⟨u, hu, rfl⟩ := ok_map_iff.1 hs
    obtain ⟨v, hv, rfl⟩ := ok_map_iff.1 ht
    rw [← h.occurrences, ← h.insertPoint] at hv
    refine Matches.reindexed ?_
    cases hk : (s.occurrences f)[k]? with
    | some e =>
      rw [hk] at hu hv
      exact h.splice hu hv
    | none =>
      rw [hk] at hu hv
      exact h.splice hu hv

/-- What an entry takes is in use, so that taking it out needs no room. -/
theorem splice_nil (h : s.Within) (start stop : Nat) :
    s.splice start stop [] = .ok (s.withLive
      (s.live.take (start - Header.size) ++ [] ++ s.live.drop (stop - Header.size))) := by
  have hroom : ¬ s.capacity < s.used - (stop - start) + ([] : Bytes).length :=
    Nat.not_lt.2 (Nat.le_trans (Nat.sub_le ..) h)
  exact if_neg hroom

end Storage

/-- The buffers of two places match. -/
def Place.Matches (p q : Place w) : Prop := p.buffer.Matches q.buffer

namespace Edit

theorem ofExcept_lockstep (r : Except Error α) :
    Lockstep Place.Matches (ofExcept r : Edit w α) := by
  intro p q h
  cases r with
  | ok a => exact .ok h
  | error e => exact .error h

theorem storage_lockstep {operation : String} {x : Storage w → Edit w α}
    (hx : ∀ s t, s.Matches t → ∀ p q : Place w, p.Matches q →
      InStep Place.Matches (x s p) (x t q)) :
    Lockstep Place.Matches (do x (← storage operation)) := by
  rintro ⟨a, b⟩ ⟨a', c⟩ h
  cases h with
  | null => exact .error .null
  | allocated h => exact hx _ _ h _ _ (.allocated h)

theorem allocating_lockstep {write : Storage w → Except Error (Storage w)}
    (hw : Storage.Uniform write) :
    Lockstep Place.Matches (allocating write) := by
  intro p q h
  refine .of_ends (allocating_ends hw.toRetries h.left) (allocating_ends hw.toRetries h.right)
    ?_ (fun _ _ he => he.1) fun _ _ he => he.1
  rintro p' q' ⟨-, u, v, hu, hv, hp⟩ ⟨-, u', v', hu', hv', hq⟩
  rw [Place.Matches, hp, hq]
  exact .allocated (hw.same (hu.symm.trans (h.stored.trans hu')) hv hv')

theorem add_lockstep (f : FieldId w) (v : Value) : Lockstep Place.Matches (add f v) :=
  (ofExcept_lockstep _).bind fun _ => (ofExcept_lockstep _).bind fun _ =>
    allocating_lockstep (Storage.insert_uniform f _)

theorem append_lockstep (f : FieldId w) (v : Value) : Lockstep Place.Matches (append f v) := by
  have hwrite : Lockstep Place.Matches (do
      allocating (Storage.push (← ofExcept (v.encodeEntry f))) : Edit w Unit) :=
    (ofExcept_lockstep _).bind fun _ => allocating_lockstep (Storage.push_uniform _)
  rw [append]
  split
  · exact (Lockstep.throw _).bind fun _ => hwrite
  · exact hwrite

theorem set_lockstep (f : FieldId w) (k : Nat) (v : Value) :
    Lockstep Place.Matches (set f k v) := by
  refine (ofExcept_lockstep _).bind fun u => (ofExcept_lockstep _).bind fun entry => ?_
  have hfill : ∀ fill : Prop, [Decidable fill] → Lockstep Place.Matches (do
      let filler ← if fill then ofExcept ((Value.default f.type).encodeEntry f) else pure []
      allocating (Storage.replace f k filler entry) : Edit w Unit) := by
    intro fill _
    have hwrite := fun filler => allocating_lockstep (Storage.replace_uniform f k filler entry)
    split
    · exact (ofExcept_lockstep _).bind hwrite
    · exact (Lockstep.pure _).bind hwrite
  intro p q h
  change InStep _ ((if _ then _ else _ : Edit w Unit) p) ((if _ then _ else _ : Edit w Unit) q)
  rw [h.isNull, h.isIndexed, h.occurrences]
  split
  · exact ((Lockstep.throw _).bind fun _ => hfill _) p q h
  · exact hfill _ p q h

theorem erase_lockstep (f : FieldId w) (k : Nat) : Lockstep Place.Matches (erase f k) := by
  rintro ⟨a, b⟩ ⟨a', c⟩ h
  rw [run_erase, run_erase]
  cases h with
  | null => exact .error .null
  | @allocated s t h =>
    by_cases hindex : s.index.isSome
    · have hs : (Buffer.allocated s).requireIndex "erase" = .ok s := if_pos hindex
      have ht : (Buffer.allocated t).requireIndex "erase" = .ok t := if_pos (h.index ▸ hindex)
      simp only [hs, ht, h.occurrences f]
      cases (t.occurrences f)[k]? with
      | none => exact .error (.allocated h)
      | some e =>
        have hu := Storage.splice_nil h.left e.offset e.stop
        have hv := Storage.splice_nil h.right e.offset e.stop
        simp only [hu, hv]
        exact .ok (.allocated (h.splice hu hv).reindexed)
    · have hs : (Buffer.allocated s).requireIndex "erase" = .error (.notIndexed "erase") :=
        if_neg hindex
      have ht : (Buffer.allocated t).requireIndex "erase" = .error (.notIndexed "erase") :=
        if_neg (h.index ▸ hindex)
      simp only [hs, ht]
      exact .error (.allocated h)

theorem retain_lockstep (operation : String) (keep : FieldId w → Bool) :
    Lockstep Place.Matches (retain operation keep) :=
  storage_lockstep fun s t h p q _ => by
    have hcount : (s.compaction keep s.entries).removed = (t.compaction keep t.entries).removed := by
      rw [s.compaction_removed, t.compaction_removed, h.entries]
    change InStep _ (.ok (s.compaction keep s.entries).removed _) (.ok _ _)
    rw [hcount]
    exact .ok (.allocated (h.retain keep))

theorem clear_lockstep : Lockstep Place.Matches (clear (w := w)) :=
  storage_lockstep fun _ _ h _ _ _ => by
    have hempty := h.withLive []
    exact .ok (.allocated (hempty.setIndexed true (hempty.interval ▸ hempty.build _)
      hempty.interval))

theorem buildIndex_lockstep (interval : Nat) :
    Lockstep Place.Matches (buildIndex (w := w) interval) :=
  storage_lockstep fun _ _ h _ _ _ => .ok (.allocated (h.indexed interval))

theorem dropIndex_lockstep : Lockstep Place.Matches (dropIndex (w := w)) := by
  rintro ⟨a, b⟩ ⟨a', c⟩ h
  cases h with
  | null => exact .ok .null
  | allocated h => exact .ok (.allocated h.unindexed)

theorem free_lockstep : Lockstep Place.Matches (free (w := w)) := by
  rintro ⟨a, b⟩ ⟨a', c⟩ h
  cases h with
  | null => exact .ok .null
  | allocated h => exact .ok .null

theorem allocate_lockstep (size : Nat) : Lockstep Place.Matches (allocate (w := w) size) := by
  intro p q _
  refine .of_ends (allocate_ends p size) (allocate_ends q size) ?_ (fun _ _ he => he.1)
    fun _ _ he => he.1
  rintro p' q' ⟨-, m, _, hp⟩ ⟨-, n, _, hq⟩
  rw [Place.Matches, hp, hq]
  exact .allocated (Storage.matches_fresh ..)

theorem reallocate_lockstep (size : Nat) : Lockstep Place.Matches (reallocate (w := w) size) := by
  rintro ⟨a, b⟩ ⟨a', c⟩ h
  cases h with
  | null => exact allocate_lockstep size _ _ .null
  | @allocated s t h =>
    rcases Nat.lt_or_ge (max size Header.size) s.used with hsize | hsize
    · rw [reallocate_of_lt rfl hsize, h.used, reallocate_of_lt rfl (h.used ▸ hsize)]
      exact .error (.allocated h)
    · refine .of_ends (reallocate_moves rfl h.left hsize)
        (reallocate_moves rfl h.right (h.used ▸ hsize)) ?_ (fun _ _ he => he.1) fun _ _ he => he.1
      rintro p' q' ⟨-, u, hu, hp⟩ ⟨-, v, hv, hq⟩
      rw [Place.Matches, hp, hq]
      exact .allocated (hu.symm.trans (h.trans hv))

theorem install_lockstep (body : Bytes) : Lockstep Place.Matches (install (w := w) body) := by
  rintro ⟨a, b⟩ ⟨a', c⟩ h
  cases h with
  | null => exact .error .null
  | @allocated s t h =>
    refine .of_ends (install_ends rfl h.left body) (install_ends rfl h.right body) ?_
      (fun _ _ he => he.1) fun _ _ he => he.1
    rintro p' q' ⟨-, u, hu, hp⟩ ⟨-, v, hv, hq⟩
    have huv := hu.symm.trans (h.trans hv)
    rw [Place.Matches, hp, hq, huv.interval]
    exact .allocated ((huv.withLive body).indexed _)

theorem merge_lockstep (m : Merge) (other : Buffer w) :
    Lockstep Place.Matches (merge m other) :=
  storage_lockstep fun s t h p q hpq =>
    (ofExcept_lockstep _ p q hpq).bind fun u p q hpq => by
      rw [h.entries]
      exact install_lockstep _ p q hpq

end Edit

theorem Change.lockstep (c : Change w) : Lockstep Place.Matches c.run := by
  cases c with
  | add f v => exact (Edit.add_lockstep f v).bind fun _ => .pure _
  | append f v => exact (Edit.append_lockstep f v).bind fun _ => .pure _
  | set f k v => exact (Edit.set_lockstep f k v).bind fun _ => .pure _
  | erase f k => exact (Edit.erase_lockstep f k).bind fun _ => .pure _
  | eraseAll f => exact (Edit.retain_lockstep _ _).bind fun _ => .pure _
  | eraseMany fs => exact (Edit.retain_lockstep _ _).bind fun _ => .pure _
  | project fs => exact (Edit.retain_lockstep _ _).bind fun _ => .pure _
  | merge m other => exact (Edit.merge_lockstep m other).bind fun _ => .pure _
  | reallocate size => exact (Edit.reallocate_lockstep size).bind fun _ => .pure _
  | clear => exact Edit.clear_lockstep.bind fun _ => .pure _
  | buildIndex interval => exact (Edit.buildIndex_lockstep interval).bind fun _ => .pure _
  | dropIndex => exact Edit.dropIndex_lockstep.bind fun _ => .pure _
  | free => exact Edit.free_lockstep.bind fun _ => .pure _

end FieldBuffers
