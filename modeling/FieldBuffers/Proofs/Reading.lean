import FieldBuffers.Proofs.Reachable

/-! Reading a dump keeps what every single change keeps, the nested buffers on the way included. So
does a run of any operations. -/

namespace FieldBuffers

variable {w : Width} {α β : Type}

namespace Dump

variable {ok : ArenaConfig → Prop} {I : ∀ w : Width, Buffer w → Prop}

/-- What holds while a dump is read. -/
def Progress.Good (ok : ArenaConfig → Prop) (I : ∀ w : Width, Buffer w → Prop)
    (p : Progress w) : Prop := ok p.place.arena.config ∧ I w p.place.buffer

/-- Reading that starts well ends well, with a value of some sort if it succeeds. -/
def Keeps (ok : ArenaConfig → Prop) (I : ∀ w : Width, Buffer w → Prop) (x : Reading w α)
    (Q : α → Prop) : Prop :=
  ∀ p, p.Good ok I → Ends x p (fun a q => q.Good ok I ∧ Q a) fun _ q => q.Good ok I

theorem Reading.ends_edit {e : Edit w α} {p : Progress w} {Q : α → Progress w → Prop}
    {E : Error → Progress w → Prop} : Ends (Reading.edit e) p Q E ↔
      Ends e p.place (fun a place => Q a { p with place }) fun e place => E e { p with place } := by
  simp only [Ends, Reading.edit]
  cases e p.place <;> exact Iff.rfl

namespace Keeps

variable {Q : α → Prop} {R : β → Prop} {x : Reading w α} {f : α → Reading w β}

theorem pure {a : α} (h : Q a) : Keeps ok I (pure a : Reading w α) Q := fun _ hp => ⟨hp, h⟩

theorem throw (e : Error) : Keeps ok I (throw e : Reading w α) Q := fun _ hp => hp

theorem bind (hx : Keeps ok I x Q) (hf : ∀ a, Q a → Keeps ok I (f a) R) :
    Keeps ok I (x >>= f) R := by
  intro p hp
  rw [ends_bind]
  exact (hx p hp).mono (fun a q h => hf a h.2 q h.1) fun _ _ h => h

theorem get {f : Progress w → Reading w β} (hf : ∀ p, p.Good ok I → Keeps ok I (f p) R) :
    Keeps ok I (get >>= f) R := by
  intro p hp
  rw [ends_bind, ends_get]
  exact hf p hp p hp

theorem edit {e : Edit w α} (h : ∀ p : Place w, ok p.arena.config → I w p.buffer →
    Ends e p (fun a q => (I w q.buffer ∧ q.arena.config = p.arena.config) ∧ Q a)
      fun _ q => I w q.buffer ∧ q.arena.config = p.arena.config) :
    Keeps ok I (Reading.edit e) Q := by
  intro p hp
  apply Reading.ends_edit.2
  apply (h p.place hp.1 hp.2).mono
  · rintro a q ⟨⟨hq, ha⟩, hQ⟩
    exact ⟨⟨ha.symm ▸ hp.1, hq⟩, hQ⟩
  · rintro e q ⟨hq, ha⟩
    exact ⟨ha.symm ▸ hp.1, hq⟩

theorem ofExcept {r : Except Error α} (h : ∀ a, r = .ok a → Q a) :
    Keeps ok I (Reading.edit (Edit.ofExcept r) : Reading w α) Q :=
  edit fun _ _ hp => Edit.ends_ofExcept.2 ⟨fun a ha => ⟨⟨hp, rfl⟩, h a ha⟩, fun _ _ => ⟨hp, rfl⟩⟩

theorem resolve (r : Resolving w α) : Keeps ok I (Reading.resolve r) fun _ => True := by
  intro p hp
  simp only [Ends, Reading.resolve]
  cases r (p.catalogs.get w) with
  | ok a c => exact ⟨hp, trivial⟩
  | error e c => exact hp

theorem attempt (r : Resolving w α) : Keeps ok I (Reading.attempt r) fun _ => True := by
  intro p hp
  simp only [Ends, Reading.attempt]
  cases r (p.catalogs.get w) with
  | ok a c => exact ⟨hp, trivial⟩
  | error e c => exact ⟨hp, trivial⟩

theorem nested {config : ArenaConfig} {r : Reading .wide α} (hI : Invariant ok I)
    (hc : ok config) (hr : Keeps ok I r Q) :
    Keeps ok I (Reading.nested config r : Reading w (α × Buffer .wide))
      fun b => Q b.1 ∧ I .wide b.2 := by
  intro p hp
  have h := hr ⟨⟨{ config }, .null⟩, p.catalogs⟩ ⟨hc, hI.null⟩
  simp only [Ends, Reading.nested] at h ⊢
  cases hq : r ⟨⟨{ config }, .null⟩, p.catalogs⟩ with
  | ok b q =>
    rw [hq] at h
    exact ⟨hp, h.2, h.1.2⟩
  | error e q => exact hp

end Keeps

theorem type_ofNumeral {t : FieldType} {cs : List Char} {v : Value}
    (h : Value.ofNumeral? t cs = some v) : v.type = t := by
  cases t <;> simp only [Value.ofNumeral?, Option.map_eq_some_iff, reduceCtorEq] at h
  all_goals
    obtain ⟨n, -, rfl⟩ := h
    rfl

theorem value_ne_fml {line : Nat} {t : FieldType} {cs : List Char} {v : Value}
    (h : value line t cs = .ok v) (b : Buffer .wide) : v ≠ .fml b := by
  rintro rfl
  cases t <;> simp only [value] at h
  case string | char =>
    obtain ⟨bs, -, h⟩ := ok_bind_iff.1 h
    split at h <;> simp [throw, throwThe, MonadExceptOf.throw, pure, Except.pure] at h
  case carray | mbstring | view =>
    obtain ⟨a, -, ha⟩ := ok_map_iff.1 h
    simp at ha
  case ptr => split at h <;> simp at h
  case fml => simp at h
  all_goals
    split at h
    · rename_i hv
      obtain rfl := Except.ok.inj h
      simpa [Value.type] using type_ofNumeral hv
    · simp at h

theorem snapshot_config {b c : Buffer w} {a a' : Arena} (h : b.snapshot a = .ok (c, a')) :
    a'.config = a.config := by
  cases b with
  | null =>
    obtain ⟨-, rfl⟩ := Prod.mk.inj (Except.ok.inj h)
    rfl
  | allocated s =>
    obtain ⟨⟨handle, a1⟩, hres, h⟩ := ok_bind_iff.1 h
    obtain ⟨⟨⟩, -, hres⟩ := ok_bind_iff.1 hres
    obtain ⟨-, rfl⟩ := Prod.mk.inj (Except.ok.inj hres)
    obtain ⟨-, rfl⟩ := Prod.mk.inj (Except.ok.inj h)
    rfl

section Lines

variable {config : ArenaConfig} {files : Files}

theorem copied_keeps (hI : Invariant ok I) (cs : List Char) :
    Keeps ok I (copied config files cs : Reading w (Option Value))
      fun v => ∀ b, v = some (.fml b) → I .wide b := by
  have hvalue : ∀ (b : Buffer w) (f : FieldId w) (r : Option Value), b.value? config f 0 = .ok r →
      ∀ n, r = some (.fml n) → I .wide n := by
    intro b f r hr n hn
    subst hn
    rw [Buffer.value?] at hr
    split at hr
    · simp at hr
    · obtain ⟨v, hv, hs⟩ := ok_map_iff.1 hr
      obtain rfl := Option.some.inj hs
      exact hI.nested hv
  rw [copied]
  refine (Keeps.attempt _).bind fun source _ => ?_
  cases source with
  | none => exact Keeps.pure fun b h => by simp at h
  | some f =>
    refine Keeps.get fun p _ => (Keeps.ofExcept (hvalue p.place.buffer f)).bind fun r hr => ?_
    cases r with
    | none => exact Keeps.throw _
    | some v => exact Keeps.pure hr

theorem store_keeps (hI : Invariant ok I) (flag : Flag) (f : FieldId w) {v : Value}
    (hv : ∀ b, v = .fml b → I .wide b) : Keeps ok I (store flag f v) fun _ => True := by
  have hwrite : ∀ c : Change w, c.value? = some v → c.other? = none → ∀ e : Edit w Unit,
      c.run = (do e; return none) → Keeps ok I (Reading.edit e) fun _ => True := by
    intro c hcv hco e hrun
    refine Keeps.edit fun p hp hb => ?_
    have h := hI.changed (c := c) hp hb (fun b hb => hv b (Option.some.inj (hcv.symm.trans hb)))
      (fun b hb => by simp [hco] at hb)
    rw [hrun, ends_bind] at h
    exact h.mono (fun _ _ hq => ⟨hq, trivial⟩) fun _ _ hq => hq
  cases flag with
  | set => exact hwrite (.set f 0 v) rfl rfl _ rfl
  | add => exact hwrite (.add f v) rfl rfl _ rfl
  | erase => exact hwrite (.add f v) rfl rfl _ rfl

theorem eraseAll_keeps (hI : Invariant ok I) (f : FieldId w) :
    Keeps ok I (Reading.edit (Edit.eraseAll f)) fun _ => True := by
  refine Keeps.edit fun p hp hb => ?_
  have h := hI.changed (c := .eraseAll f) hp hb (fun b hb => by simp [Change.value?] at hb)
    fun b hb => by simp [Change.other?] at hb
  rw [Change.run, ends_bind] at h
  exact h.mono (fun _ _ hq => ⟨hq, trivial⟩) fun _ _ hq => hq

theorem field_keeps (line : Nat) (name : List Char) :
    Keeps ok I (field files line name : Reading w (FieldId w)) fun _ => True := by
  rw [field]
  split
  · exact Keeps.ofExcept fun _ _ => trivial
  · exact Keeps.resolve _

theorem readLevel_keeps (files : Files) (hI : Invariant ok I) (hc : ok config) (n : Nat) :
    ∀ (w : Width) (depth : Nat) (lines : List Line), lines.length ≤ n →
      Keeps ok I (readLevel config files w depth lines) fun _ => True := by
  induction n with
  | zero =>
    intro w depth lines hn
    obtain rfl := List.length_eq_zero_iff.1 (Nat.le_zero.1 hn)
    rw [readLevel]
    exact Keeps.pure trivial
  | succ n ih =>
    intro w depth lines hn
    cases lines with
    | nil =>
      rw [readLevel]
      exact Keeps.pure trivial
    | cons line rest =>
      have hrest : rest.length ≤ n := Nat.le_of_succ_le_succ hn
      rw [readLevel]
      split
      · exact Keeps.pure trivial
      split
      · exact Keeps.throw _
      have htail : ∀ left : { r : List Line // r.length ≤ rest.length },
          Keeps ok I (do
            let last ← readLevel config files w depth left.1
            return ⟨last.1, Nat.le_succ_of_le (Nat.le_trans last.2 left.2)⟩ :
            Reading w { r : List Line // r.length ≤ (line :: rest).length }) fun _ => True :=
        fun left => (ih w depth left.1 (Nat.le_trans left.2 hrest)).bind
          fun _ _ => Keeps.pure trivial
      dsimp only
      -- a remark, a field to erase, a nested buffer, then any other value
      split
      · exact htail ⟨rest, Nat.le_refl _⟩
      refine (field_keeps _ _).bind fun f _ => ?_
      split
      · refine Keeps.get fun p _ => ?_
        split
        · exact (eraseAll_keeps hI f).bind fun _ _ => htail ⟨rest, Nat.le_refl _⟩
        · exact htail ⟨rest, Nat.le_refl _⟩
      split
      · split
        · exact (Keeps.throw _).bind (Q := fun _ => False) fun _ h => h.elim
        · refine ((ih .wide (depth + 1) rest hrest).nested hI hc).bind fun b hb => ?_
          refine (store_keeps hI _ f fun n hn => ?_).bind fun _ _ => htail b.1
          exact Value.fml.inj hn ▸ hb.2
      have hread : Keeps ok I (do
          let v ← Reading.edit (Edit.ofExcept (value line.number f.type
            (splitLine (splitFlag (line.text.drop depth)).2).2))
          store (splitFlag (line.text.drop depth)).1 f v
          let last ← readLevel config files w depth rest
          return ⟨last.1, Nat.le_succ_of_le last.2⟩ :
          Reading w { r : List Line // r.length ≤ (line :: rest).length }) fun _ => True :=
        (Keeps.ofExcept fun v hv b hb => absurd hb (value_ne_fml hv b)).bind fun v hv =>
          (store_keeps hI _ f hv).bind fun _ _ => htail ⟨rest, Nat.le_refl _⟩
      split
      · refine (copied_keeps hI _).bind fun copy hcopy => ?_
        cases copy with
        | none => exact hread
        | some v =>
          exact (store_keeps hI _ f fun b hb => hcopy b (hb ▸ rfl)).bind fun _ _ =>
            htail ⟨rest, Nat.le_refl _⟩
      · exact hread

theorem read_keeps (hI : Invariant ok I) (hc : ok config) (dump : Bytes) :
    Keeps ok I (read config files dump : Reading w Unit) fun _ => True := by
  intro p hp
  simp only [Ends, read]
  cases linesFrom 1 (Text.linesBy 0x0A 0x0D dump) with
  | error e => exact hp
  | ok lines =>
    dsimp only
    cases hs : p.place.buffer.snapshot p.place.arena with
    | error e => exact hp
    | ok r =>
      obtain ⟨copy, arena⟩ := r
      have hgood : Progress.Good (w := w) ok I ⟨⟨arena, copy⟩, p.catalogs⟩ :=
        ⟨snapshot_config hs ▸ hp.1, hI.snapshot hp.2 hs⟩
      have h := readLevel_keeps files hI hc lines.length w 0 lines (Nat.le_refl _) _ hgood
      rw [Ends] at h
      dsimp only
      cases hq : readLevel config files w 0 lines ⟨⟨arena, copy⟩, p.catalogs⟩ with
      | error e q =>
        rw [hq] at h
        refine ⟨?_, hp.2⟩
        cases hb : q.place.buffer <;> exact h.1
      | ok a q =>
        rw [hq] at h
        refine ⟨⟨?_, h.1.2⟩, trivial⟩
        cases hb : p.place.buffer <;> exact h.1.1

end Lines

end Dump

/-- A run of any operations keeps what each of them keeps. -/
theorem Invariant.of_reachable {ok : ArenaConfig → Prop} {I : ∀ w : Width, Buffer w → Prop}
    (hI : Invariant ok I) {b : Buffer w} (h : Reachable ok b) : I w b := by
  induction h with
  | null => exact hI.null
  | allocated h => exact hI.allocated h
  | imported h =>
    rcases Buffer.exists_of_imported h with rfl | ⟨region, h⟩
    · exact hI.null
    · exact hI.region h
  | copied _ h ih => exact hI.copied ih h
  | snapshot _ h ih => exact hI.snapshot ih h
  | nested h => exact hI.nested h
  | @operated w config files op p q hc hp _ _ _ hrun hb hv ho =>
    have hkeeps : Dump.Keeps ok I (op.run config files) fun _ => True := by
      cases op with
      | change c =>
        exact Dump.Keeps.edit fun r hr hb =>
          (hI.changed hr hb hv ho).mono (fun _ _ h => ⟨h, trivial⟩) fun _ _ h => h
      | read dump => exact (Dump.read_keeps hI hc dump).bind fun _ _ => Dump.Keeps.pure trivial
    have h := hkeeps p ⟨hp, hb⟩
    rcases hrun with ⟨n, hrun⟩ | ⟨e, hrun⟩
    · exact ((ends_of_ok hrun).1 h).1.2
    · exact ((ends_of_error hrun).1 h).2

end FieldBuffers
