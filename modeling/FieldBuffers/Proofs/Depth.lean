import FieldBuffers.Proofs.Descent
import FieldBuffers.Proofs.Faults
import FieldBuffers.Proofs.Reading

/-! The reader follows the lines of a text: it refuses a level of them for its depth only where they
go too deep, and reads none that do (`readLevel_tracks`). -/

namespace FieldBuffers

variable {w : Width} {α β : Type} {files : Files}

/-- The refusal of a text that nests buffers too deep. -/
def Error.IsTooDeep (e : Error) : Prop :=
  ∃ line, e = .textParse line s!"buffers nested more than {maxNesting} levels deep"

theorem Error.IsTooDeep.isOfLine {e : Error} (h : e.IsTooDeep) : e.IsOfLine :=
  h.imp fun _ h => ⟨_, h⟩

/-- The text starts, and not as the cause of that refusal does. -/
def StartsOtherwise (s : String) : Prop := s.toList.head?.all (· == 'b') = false

instance (s : String) : Decidable (StartsOtherwise s) := inferInstanceAs (Decidable (_ = false))

theorem StartsOtherwise.append {s : String} (h : StartsOtherwise s) (t : String) :
    StartsOtherwise (s ++ t) := by
  rw [StartsOtherwise] at h ⊢
  rw [String.toList_append]
  cases hs : s.toList with
  | nil => simp [hs] at h
  | cons c cs => simpa [hs] using h

theorem StartsOtherwise.not_isTooDeep {line : Nat} {cause : String} (h : StartsOtherwise cause) :
    ¬ (Error.textParse line cause).IsTooDeep := by
  rintro ⟨line', he⟩
  obtain ⟨-, rfl⟩ := Error.textParse.inj he
  exact absurd h (by decide +kernel)

namespace Dump

/-! Names while a text is read. -/

/-- What the catalogs are asked later, they would have answered alike before. -/
def Answers (files : Files) (cs later : Catalogs) : Prop :=
  ∀ (w : Width) (name : String) (f : FieldId w) (c : Catalog w),
    Catalog.identFor files name (later.get w) = .ok f c →
      ∃ c', Catalog.identFor files name (cs.get w) = .ok f c'

/-- What a catalog has become when it was asked for a name. -/
def Asked (files : Files) (c later : Catalog w) : Prop :=
  later = c ∨ ∃ t, Catalog.table files c = .ok t later

theorem asked_identFor (files : Files) (name : String) (c : Catalog w) :
    Ends (Catalog.identFor files name) c (fun _ later => Asked files c later)
      fun _ later => Asked files c later := by
  rw [Catalog.identFor, ends_bind]
  simp only [Ends]
  cases ht : Catalog.table files c with
  | ok t later =>
    have hasked : Asked files c later := .inr ⟨t, ht⟩
    dsimp only
    cases t.ident? name <;> exact hasked
  | error e later =>
    rw [Catalog.table] at ht
    split at ht
    · cases ht
    · split at ht <;> cases ht
      exact .inl rfl

theorem Asked.identFor {c later last : Catalog w} (h : Asked files c later) {name : String}
    {f : FieldId w} (hf : Catalog.identFor files name later = .ok f last) :
    ∃ c', Catalog.identFor files name c = .ok f c' := by
  rcases h with rfl | ⟨t, ht⟩
  · exact ⟨last, hf⟩
  · have hcache := (Catalogs.table_eq_ok ht).1
    have hlater : Catalog.table files later = .ok t later := by rw [Catalog.table, hcache]
    refine ⟨last, ?_⟩
    rw [Catalog.identFor, bind_of_ok hlater] at hf
    rw [Catalog.identFor, bind_of_ok ht]
    exact hf

theorem Answers.set {cs later : Catalogs} (h : Answers files cs later) {c : Catalog w}
    (hc : Asked files (later.get w) c) : Answers files cs (later.set w c) := by
  intro v name f d hf
  by_cases hv : v = w
  · subst hv
    rw [Catalogs.get_set_self] at hf
    obtain ⟨c', hf⟩ := hc.identFor hf
    exact h v name f c' hf
  · rw [Catalogs.get_set_ne hv] at hf
    exact h v name f d hf

/-! Reading. -/

/-- A step of reading finds the names as they were, and is refused for its depth only if `E`. -/
def Tracks (files : Files) (cs : Catalogs) (x : Reading w α) (Q : α → Prop) (E : Prop) : Prop :=
  ∀ p, Answers files cs p.catalogs →
    Ends x p (fun a q => Answers files cs q.catalogs ∧ Q a) fun e _ => e.IsTooDeep → E

namespace Tracks

variable {cs : Catalogs} {x : Reading w α} {f : α → Reading w β} {Q Q' : α → Prop} {R : β → Prop}
  {E E' : Prop}

theorem pure {a : α} (h : Q a) : Tracks files cs (pure a : Reading w α) Q E := fun _ hp => ⟨hp, h⟩

theorem throw {e : Error} (h : e.IsTooDeep → E) : Tracks files cs (throw e : Reading w α) Q E :=
  fun _ _ => h

theorem bind (hx : Tracks files cs x Q E) (hf : ∀ a, Q a → Tracks files cs (f a) R E) :
    Tracks files cs (x >>= f) R E := by
  intro p hp
  rw [ends_bind]
  exact (hx p hp).mono (fun a q h => hf a h.2 q h.1) fun _ _ h => h

theorem mono (h : Tracks files cs x Q E) (hQ : ∀ a, Q a → Q' a) (hE : E → E') :
    Tracks files cs x Q' E' := fun p hp =>
  (h p hp).mono (fun a _ hq => ⟨hq.1, hQ a hq.2⟩) fun _ _ he hd => hE (he hd)

theorem get {f : Progress w → Reading w β} (hf : ∀ p, Tracks files cs (f p) R E) :
    Tracks files cs (get >>= f) R E := by
  intro p hp
  rw [ends_bind, ends_get]
  exact hf p p hp

theorem edit {e : Edit w α} (h : Unlined e) :
    Tracks files cs (Reading.edit e) (fun _ => True) E := by
  intro p hp
  apply Reading.ends_edit.2
  exact (h p.place).mono (fun _ _ _ => ⟨hp, trivial⟩) fun _ _ he hd => absurd hd.isOfLine he

theorem ofExcept {r : Except Error α} (h : FailsOnly (¬ ·.IsTooDeep) r) :
    Tracks files cs (Reading.edit (Edit.ofExcept r) : Reading w α) (fun a => r = .ok a) E := by
  intro p hp
  apply Reading.ends_edit.2
  exact Edit.ends_ofExcept.2 ⟨fun a ha => ⟨hp, ha⟩, fun e he hd => absurd hd (h e he)⟩

theorem nested {config : ArenaConfig} {r : Reading .wide α} (hr : Tracks files cs r Q E) :
    Tracks files cs (Reading.nested config r : Reading w (α × Buffer .wide))
      (fun b => Q b.1) E := by
  intro p hp
  have h := hr ⟨⟨{ config }, .null⟩, p.catalogs⟩ hp
  simp only [Ends, Reading.nested] at h ⊢
  cases hq : r ⟨⟨{ config }, .null⟩, p.catalogs⟩ with
  | ok b q => rw [hq] at h; exact h
  | error e q => rw [hq] at h; exact h

end Tracks

section Lines

variable {cs : Catalogs} {config : ArenaConfig}

theorem attempt_tracks (name : String) : Tracks files cs
    (Reading.attempt (Catalog.identFor files name) : Reading w (Option (FieldId w)))
    (fun _ => True) False := by
  intro p hp
  have h := asked_identFor files name (p.catalogs.get w)
  simp only [Ends, Reading.attempt] at h ⊢
  cases hr : Catalog.identFor files name (p.catalogs.get w) with
  | ok f c => rw [hr] at h; exact ⟨hp.set h, trivial⟩
  | error e c => rw [hr] at h; exact ⟨hp.set h, trivial⟩

theorem referred_failsOnly (line : Nat) (name inner : List Char) :
    FailsOnly (¬ ·.IsTooDeep) (referred w line name inner) := by
  have hwords : StartsOtherwise "invalid field reference '" := by decide
  rw [referred]
  split
  · exact .error ((hwords.append _).append _).not_isTooDeep
  · intro e he
    obtain ⟨fault, -, rfl⟩ := error_mapError_iff.1 he
    rintro ⟨_, h⟩
    cases h

/-- The field of a line is the one that the catalogs told of at first. -/
theorem field_tracks (line : Nat) (name : List Char) :
    Tracks files cs (field files line name : Reading w (FieldId w))
      (fun f => ∃ q, field files line name (⟨⟨{}, .null⟩, cs⟩ : Progress w) = .ok f q) False := by
  cases hr : reference? name with
  | some inner =>
    have hfield : ∀ p : Progress w, field files line name p
        = Reading.edit (Edit.ofExcept (referred w line name inner)) p := fun p => by
      simp only [field, hr]
    intro p hp
    refine (ends_congr (hfield p)).2 ?_
    refine (Tracks.ofExcept (referred_failsOnly line name inner) p hp).mono ?_ fun _ _ h => h
    rintro f q ⟨hq, hf⟩
    exact ⟨hq, _, (hfield _).trans (by rw [hf]; rfl)⟩
  | none =>
    have hfield : ∀ p : Progress w, field files line name p
        = Reading.resolve (Catalog.identFor files (String.ofList name)) p := fun p => by
      simp only [field, hr]
    intro p hp
    refine (ends_congr (hfield p)).2 ?_
    have hasked := asked_identFor files (String.ofList name) (p.catalogs.get w)
    have hunlined := Catalog.unlined_identFor files (String.ofList name) (p.catalogs.get w)
    simp only [Ends, Reading.resolve] at hasked hunlined ⊢
    cases hi : Catalog.identFor files (String.ofList name) (p.catalogs.get w) with
    | ok f c =>
      rw [hi] at hasked
      obtain ⟨c', hf⟩ := hp w _ f c hi
      have hresolve : Reading.resolve (Catalog.identFor files (String.ofList name))
          (⟨⟨{}, .null⟩, cs⟩ : Progress w) = .ok f ⟨⟨{}, .null⟩, cs.set w c'⟩ := by
        simp only [Reading.resolve, hf]
      exact ⟨hp.set hasked, _, (hfield _).trans hresolve⟩
    | error e c =>
      rw [hi] at hunlined
      exact fun hd => absurd hd.isOfLine hunlined

theorem copied_tracks (cs' : List Char) :
    Tracks files cs (copied config files cs' : Reading w (Option Value)) (fun _ => True) False := by
  rw [copied]
  refine (attempt_tracks _).bind fun source _ => ?_
  cases source with
  | none => exact .pure trivial
  | some f =>
    refine .get fun p => ?_
    have hvalue : Unlined (Edit.ofExcept (p.place.buffer.value? config f 0) :
        Edit w (Option Value)) :=
      Edit.unlined_ofExcept ((p.place.buffer.value?_failsOnly config f 0).mono fun _ h =>
        h.not_isOfLine)
    refine (Tracks.edit hvalue).bind fun r _ => ?_
    cases r with
    | none =>
      refine .throw fun h => ?_
      obtain ⟨_, h⟩ := h
      cases h
    | some v => exact .pure trivial

theorem store_tracks (flag : Flag) (f : FieldId w) (v : Value) :
    Tracks files cs (store flag f v) (fun _ => True) False := by
  refine .edit ?_
  cases flag with
  | set => exact Edit.unlined_set f 0 v
  | add => exact Edit.unlined_add f v
  | erase => exact Edit.unlined_add f v

theorem unescaped_failsOnly (line : Nat) (cs : List Char) :
    FailsOnly (¬ ·.IsTooDeep) (unescaped line cs) := by
  have hwords : StartsOtherwise "invalid escape at column " := by decide
  intro e he
  obtain ⟨column, -, rfl⟩ := error_mapError_iff.1 he
  exact (hwords.append _).not_isTooDeep

theorem startsOtherwise_keyword : ∀ t : FieldType, StartsOtherwise t.keyword := by
  intro t
  cases t <;> decide

theorem named_failsOnly (line : Nat) (t : FieldType) (cs : List Char) :
    FailsOnly (¬ ·.IsTooDeep) (named line t cs) := by
  have hwords : StartsOtherwise "name is not valid UTF-8" := by decide
  rw [named]
  split
  · exact .error ((startsOtherwise_keyword t).append _).not_isTooDeep
  · refine (unescaped_failsOnly line _).bind fun bs => ?_
    split
    · exact .error hwords.not_isTooDeep
    · exact (unescaped_failsOnly line _).bind fun _ => .ok _ _

theorem value_failsOnly (line : Nat) (t : FieldType) (cs : List Char) :
    FailsOnly (¬ ·.IsTooDeep) (value line t cs) := by
  have hchar : StartsOtherwise "char value must be one byte, got '" := by
    decide
  have hstring : StartsOtherwise "string is not valid UTF-8" := by decide
  have hinvalid : StartsOtherwise "invalid " := by decide
  have hpointer : StartsOtherwise "invalid pointer '" := by decide
  have hnested : StartsOtherwise "nested buffers take their fields on the following lines" := by
    decide
  cases t <;> simp only [value]
  case char =>
    refine (unescaped_failsOnly line cs).bind fun bs => ?_
    split
    · exact .ok _ _
    · exact .error ((hchar.append _).append _).not_isTooDeep
  case string =>
    refine (unescaped_failsOnly line cs).bind fun bs => ?_
    split
    · exact .ok _ _
    · exact .error hstring.not_isTooDeep
  case carray => exact (unescaped_failsOnly line cs).map _
  case mbstring | view => exact (named_failsOnly line _ cs).map _
  case fml => exact .error hnested.not_isTooDeep
  case ptr =>
    split
    · exact .ok _ _
    · exact .error ((hpointer.append _).append _).not_isTooDeep
  all_goals
    split
    · exact .ok _ _
    · exact .error ((((hinvalid.append _).append _).append _).append _).not_isTooDeep

/-- What is left of some lines after a level of them, which goes less deep than `n` buffers. -/
structure Passes (files : Files) (cs : Catalogs) (w : Width) (depth n : Nat)
    (lines left : List Line) : Prop where
  block : ∃ block, lines = block ++ left ∧ ∀ l ∈ block, depth ≤ l.tabs
  shallow : ∀ inner, ¬ Descends files cs w depth n lines inner

/-- A level of lines is refused for its depth only if `n` buffers are nested in it one in another,
and is not read to its end then. -/
def TracksLevel (files : Files) (cs : Catalogs) (depth n : Nat) (lines : List Line) {length : Nat}
    (x : Reading w { r : List Line // r.length ≤ length }) : Prop :=
  Tracks files cs x (fun left => Passes files cs w depth n lines left.1)
    (∃ inner, Descends files cs w depth n lines inner)

section Level

variable {depth n : Nat} {line : Line} {rest left : List Line} {length : Nat} {f : FieldId w}

/-- The lines after one that has been read, and after those of the buffer that it nests. -/
theorem rest_tracks (h : TracksLevel files cs depth n left (readLevel config files w depth left))
    (hline : depth ≤ line.tabs)
    (hleft : ∃ block, rest = block ++ left ∧ ∀ l ∈ block, depth ≤ l.tabs)
    (hdown : ∀ inner, Descends files cs w depth n (line :: rest) inner →
      Descends files cs w depth n left inner) (hlength : left.length ≤ length) :
    TracksLevel files cs depth n (line :: rest) (do
        let last ← readLevel config files w depth left
        return ⟨last.1, Nat.le_trans last.2 hlength⟩ :
        Reading w { r : List Line // r.length ≤ length }) := by
  obtain ⟨block, rfl, hblock⟩ := hleft
  have hcons : ∀ l ∈ line :: block, depth ≤ l.tabs := List.forall_mem_cons.2 ⟨hline, hblock⟩
  refine (h.mono (fun _ h => h) fun ⟨inner, h⟩ => ⟨inner, h.append hcons⟩).bind fun last hlast =>
    .pure ⟨?_, fun inner h => hlast.shallow inner (hdown inner h)⟩
  obtain ⟨more, hlines, hmore⟩ := hlast.block
  exact ⟨line :: (block ++ more), congrArg (line :: ·)
    ((congrArg (block ++ ·) hlines).trans (List.append_assoc ..).symm),
    List.forall_mem_append.2 ⟨hcons, hmore⟩⟩

/-- A line that nests a buffer, the lines of that buffer, and those after them. -/
theorem nested_tracks (flag : Flag) (htabs : line.tabs = depth)
    (hline : line.field? files cs w depth = some f) (hnested : f.type = .fml)
    (hinner : TracksLevel files cs (depth + 1) (n + 1) rest
      (readLevel config files .wide (depth + 1) rest))
    (hlevel : ∀ left : List Line, left.length ≤ rest.length →
      TracksLevel files cs depth (n + 2) left (readLevel config files w depth left)) :
    TracksLevel files cs depth (n + 2) (line :: rest) (do
        let b ← Reading.nested config (readLevel config files .wide (depth + 1) rest)
        store flag f (.fml b.2)
        let last ← readLevel config files w depth b.1.1
        return ⟨last.1, Nat.le_trans last.2 (Nat.le_succ_of_le b.1.2)⟩ :
        Reading w { r : List Line // r.length ≤ (line :: rest).length }) := by
  refine (hinner.nested.mono (fun _ h => h) ?_).bind fun b hb => ?_
  · rintro ⟨inner, h⟩
    exact ⟨inner, .into htabs hline hnested h⟩
  · obtain ⟨block, hblock, hfurther⟩ := hb.block
    have hout : ∀ l ∈ block, depth ≤ l.tabs := fun l hl => Nat.le_of_succ_le (hfurther l hl)
    refine ((store_tracks flag f _).mono (fun _ h => h) False.elim).bind fun _ _ =>
      rest_tracks (hlevel b.1.1 b.1.2) htabs.ge ⟨block, hblock, hout⟩ (fun inner h => ?_)
        (Nat.le_succ_of_le b.1.2)
    cases h with
    | into _ _ _ h => exact absurd h (hb.shallow inner)
    | skip _ h => exact (hblock ▸ h).of_append hfurther

/-- A value that is taken from the buffer or read from its line is stored before the rest. -/
theorem stored_tracks {x : Reading w β} {R : β → Prop} {E : Prop} (flag : Flag) (number : Nat)
    (f : FieldId w) (raw : List Char) (hx : Tracks files cs x R E) :
    Tracks files cs (do
        let v ← Reading.edit (Edit.ofExcept (value number f.type raw))
        store flag f v
        x) R E :=
  (Tracks.ofExcept (value_failsOnly _ _ _)).bind fun v _ =>
    ((store_tracks flag f v).mono (fun _ h => h) False.elim).bind fun _ _ => hx

/-- A level is refused for its depth only where its lines go deeper than the limit, and is not read
to its end where they do. -/
theorem readLevel_tracks (config : ArenaConfig) (files : Files) (cs : Catalogs) (n : Nat) :
    ∀ (w : Width) (depth m : Nat) (lines : List Line), lines.length ≤ n → depth + m = maxNesting →
    TracksLevel files cs depth (m + 1) lines (readLevel config files w depth lines) := by
  induction n with
  | zero =>
    intro w depth m lines hn hm
    obtain rfl := List.length_eq_zero_iff.1 (Nat.le_zero.1 hn)
    rw [readLevel]
    exact .pure ⟨⟨[], rfl, List.forall_mem_nil _⟩, fun _ h => h.ne_nil rfl⟩
  | succ n ih =>
    intro w depth m lines hn hm
    cases lines with
    | nil =>
      rw [readLevel]
      exact .pure ⟨⟨[], rfl, List.forall_mem_nil _⟩, fun _ h => h.ne_nil rfl⟩
    | cons line rest =>
      have hrest : rest.length ≤ n := Nat.le_of_succ_le_succ hn
      rw [readLevel]
      split
      · rename_i hout
        exact .pure ⟨⟨[], rfl, List.forall_mem_nil _⟩,
          fun inner h => absurd h.le_tabs (Nat.not_le.2 hout)⟩
      split
      · have hwords : StartsOtherwise "unexpected indentation" := by decide
        exact .throw fun h => absurd h hwords.not_isTooDeep
      have htabs : line.tabs = depth := by omega
      have hflat : (∀ f, line.field? files cs w depth = some f → f.type ≠ .fml) →
          TracksLevel files cs depth (m + 1) (line :: rest) (do
            let last ← readLevel config files w depth rest
            return ⟨last.1, Nat.le_succ_of_le last.2⟩ :
            Reading w { r : List Line // r.length ≤ (line :: rest).length }) := fun hline =>
        rest_tracks (ih w depth m rest hrest hm) htabs.ge ⟨[], rfl, List.forall_mem_nil _⟩
          (fun _ h => h.of_cons hline) (Nat.le_succ _)
      dsimp only
      -- a remark, a field to erase, a nested buffer, then any other value
      split
      · rename_i hmark
        exact hflat fun f hf => by simp [field?_of_mark hmark] at hf
      rename_i hmark
      refine ((field_tracks _ _).mono (fun _ h => h) False.elim).bind fun f hfield => ?_
      split
      · rename_i herase
        have hnone := hflat fun f hf => by simp [field?_of_erase hmark herase] at hf
        refine .get fun p => ?_
        split
        · exact (Tracks.edit (Edit.unlined_retain _ _)).bind fun _ _ => hnone
        · exact hnone
      rename_i hflag
      obtain ⟨q, hfield⟩ := hfield
      have hline : line.field? files cs w depth = some f := field?_of_ok hmark hflag hfield
      split
      · rename_i hnested
        split
        · obtain rfl : m = 0 := by omega
          exact (Tracks.throw fun _ => ⟨rest, .one htabs hline hnested⟩).bind (Q := fun _ => False)
            fun _ h => h.elim
        · obtain ⟨m, rfl⟩ := Nat.exists_eq_succ_of_ne_zero (show m ≠ 0 by omega)
          exact nested_tracks _ htabs hline hnested (ih .wide (depth + 1) m rest hrest (by omega))
            fun left hleft => ih w depth _ left (Nat.le_trans hleft hrest) hm
      · rename_i hnested
        have hlast := hflat fun g hg => Option.some.inj (hline.symm.trans hg) ▸ hnested
        split
        · refine ((copied_tracks _).mono (fun _ h => h) False.elim).bind fun copy _ => ?_
          cases copy with
          | none => exact stored_tracks _ _ f _ hlast
          | some v =>
            exact ((store_tracks _ f v).mono (fun _ h => h) False.elim).bind fun _ _ => hlast
        · exact stored_tracks _ _ f _ hlast

end Level

theorem linesFrom_failsOnly (number : Nat) (ls : List Bytes) :
    FailsOnly (¬ ·.IsTooDeep) (linesFrom number ls) := by
  induction ls generalizing number with
  | nil => exact .ok _ _
  | cons bs ls ih =>
    rw [linesFrom]
    split
    · refine .error fun h => ?_
      obtain ⟨_, h⟩ := h
      cases h
    split
    · exact .ok _ _
    · exact (ih _).map _

/-- A dump is refused for its depth only where its lines go deeper than the limit, and those of one
that is taken do not. -/
theorem read_ends_at_depth (config : ArenaConfig) (files : Files) (dump : Bytes) (p : Progress w) :
    Ends (read config files dump) p
      (fun _ _ => ∃ lines, linesFrom 1 (Text.linesBy 0x0A 0x0D dump) = .ok lines ∧
        ∀ inner, ¬ Descends files p.catalogs w 0 (maxNesting + 1) lines inner)
      fun e _ => e.IsTooDeep → ∃ lines, linesFrom 1 (Text.linesBy 0x0A 0x0D dump) = .ok lines ∧
        ∃ inner, Descends files p.catalogs w 0 (maxNesting + 1) lines inner := by
  simp only [Ends, read]
  cases hlines : linesFrom 1 (Text.linesBy 0x0A 0x0D dump) with
  | error e => exact fun hd => absurd hd (linesFrom_failsOnly _ _ e hlines)
  | ok lines =>
    dsimp only
    cases hs : p.place.buffer.snapshot p.place.arena with
    | error e => exact fun hd => absurd hd.isOfLine (Buffer.isRefusal_of_snapshot hs).not_isOfLine
    | ok r =>
      obtain ⟨copy, arena⟩ := r
      have h := readLevel_tracks config files p.catalogs lines.length w 0 maxNesting lines
        (Nat.le_refl _) (Nat.zero_add _) ⟨⟨arena, copy⟩, p.catalogs⟩ fun _ _ _ c h => ⟨c, h⟩
      rw [Ends] at h
      dsimp only
      cases hq : readLevel config files w 0 lines ⟨⟨arena, copy⟩, p.catalogs⟩ with
      | error e q =>
        rw [hq] at h
        exact fun hd => ⟨lines, rfl, h hd⟩
      | ok left q =>
        rw [hq] at h
        exact ⟨lines, rfl, h.2.shallow⟩

end Lines

end Dump

end FieldBuffers
