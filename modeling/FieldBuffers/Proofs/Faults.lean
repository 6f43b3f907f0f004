import FieldBuffers.Proofs.Acceptance
import FieldBuffers.Proofs.Atomic

/-! Errors that speak of a line of a text. Edits give none, and neither do catalogs: what is wrong
in a line of a table is told as an error of the table. -/

namespace FieldBuffers

variable {w : Width} {α β σ : Type}

/-- An error about a line of a text. -/
def Error.IsOfLine (e : Error) : Prop := ∃ line cause, e = .textParse line cause

theorem Error.IsMismatch.not_isOfLine {e : Error} (h : e.IsMismatch) : ¬ e.IsOfLine := by
  obtain ⟨f, expected, actual, rfl⟩ := h
  rintro ⟨_, _, h⟩
  cases h

theorem Error.IsRefusal.not_isOfLine {e : Error} (h : e.IsRefusal) : ¬ e.IsOfLine := by
  obtain ⟨requested, limit, rfl⟩ := h
  rintro ⟨_, _, h⟩
  cases h

theorem Error.IsOfRegion.not_isOfLine {e : Error} (h : e.IsOfRegion) : ¬ e.IsOfLine := by
  obtain ⟨offset, cause, rfl⟩ | ⟨size, limit, rfl⟩ := h <;> rintro ⟨_, _, h⟩ <;> cases h

/-- A computation that does not fail because of a line. -/
def Unlined (x : EStateM Error σ α) : Prop :=
  ∀ p, Ends x p (fun _ _ => True) fun e _ => ¬ e.IsOfLine

namespace Unlined

variable {x : EStateM Error σ α} {f : α → EStateM Error σ β}

theorem pure (a : α) : Unlined (pure a : EStateM Error σ α) := fun _ => trivial

theorem throw {e : Error} (h : ¬ e.IsOfLine) : Unlined (throw e : EStateM Error σ α) := fun _ => h

theorem bind (hx : Unlined x) (hf : ∀ a, Unlined (f a)) : Unlined (x >>= f) :=
  fun p => ends_bind.2 ((hx p).mono (fun a q _ => hf a q) fun _ _ h => h)

theorem get {f : σ → EStateM Error σ β} (hf : ∀ p, Unlined (f p)) : Unlined (get >>= f) :=
  fun p => ends_bind.2 (ends_get.2 (hf p p))

end Unlined

namespace Edit

theorem unlined_ofExcept {r : Except Error α} (h : FailsOnly (¬ ·.IsOfLine) r) :
    Unlined (ofExcept r : Edit w α) :=
  fun _ => ends_ofExcept.2 ⟨fun _ _ => trivial, h⟩

theorem unlined_storage (operation : String) :
    Unlined (storage operation : Edit w (Storage w)) :=
  fun _ => ends_storage.2 ⟨fun _ _ => trivial, fun _ => by rintro ⟨_, _, h⟩; cases h⟩

theorem unlined_extend (s : Storage w) (size : Nat) : Unlined (extend s size) := fun _ =>
  (extend_ends s size).mono (fun _ _ _ => trivial) fun _ _ h => h.1.isRefusal.not_isOfLine

theorem unlined_grow (needed : Nat) : Unlined (grow needed : Edit w Unit) :=
  (unlined_storage _).bind fun s => unlined_extend s _

section Writing

variable {write : Storage w → Except Error (Storage w)}

theorem unlined_growing (hw : Storage.Retries write) : Unlined (growing write) := by
  have hexhausted : ∀ s, FailsOnly (¬ ·.IsOfLine) (write s) := by
    intro s e he
    obtain ⟨needed, available, rfl⟩ := hw.exhausted he
    rintro ⟨_, _, h⟩
    cases h
  refine (unlined_storage _).bind fun s => ?_
  split
  · exact fun _ => trivial
  · exact (unlined_grow _).bind fun _ => (unlined_storage _).bind fun s =>
      (unlined_ofExcept (hexhausted s)).bind fun _ _ => trivial
  · exact .throw (hexhausted s _ ‹_›)

theorem unlined_allocating (hw : Storage.Retries write) : Unlined (allocating write) := by
  intro p
  cases hp : p.buffer with
  | allocated s =>
    have hsame : allocating write p = growing write p := by simp only [allocating, hp]
    exact (ends_congr hsame).2 (unlined_growing hw p)
  | null =>
    refine (ends_allocating hp).2 ((allocate_ends p p.arena.config.initial).mono ?_ ?_)
    · exact fun _ q _ => (unlined_growing hw q).mono (fun _ _ _ => trivial)
        fun _ _ he => ends_free.2 ⟨fun _ _ => he, fun _ => he⟩
    · exact fun _ _ h => h.1.not_isOfLine

end Writing

theorem unlined_coerce (f : FieldId w) (v : Value) :
    Unlined (ofExcept (v.coerce f.type (.ident w f)) : Edit w Value) :=
  unlined_ofExcept ((v.coerce_failsOnly _ _).mono fun _ h => h.not_isOfLine)

theorem unlined_encodeEntry (f : FieldId w) (v : Value) :
    Unlined (ofExcept (v.encodeEntry f) : Edit w Bytes) :=
  unlined_ofExcept ((v.encodeEntry_failsOnly f).mono fun _ h => h.not_isOfLine)

theorem unlined_add (f : FieldId w) (v : Value) : Unlined (add f v) :=
  (unlined_coerce f v).bind fun v => (unlined_encodeEntry f v).bind fun entry =>
    unlined_allocating (Storage.insert_retries f entry)

theorem unlined_set (f : FieldId w) (k : Nat) (v : Value) : Unlined (set f k v) := by
  refine (unlined_coerce f v).bind fun v => (unlined_encodeEntry f v).bind fun entry =>
    .get fun p => ?_
  have hwrite : ∀ filler, Unlined (allocating (Storage.replace f k filler entry)) := fun filler =>
    unlined_allocating (Storage.replace_retries f k filler entry)
  have hfill : Unlined (do
      let filler ←
        if (p.buffer.occurrences f).length < k then
          ofExcept ((Value.default f.type).encodeEntry f)
        else pure []
      allocating (Storage.replace f k filler entry)) := by
    split
    · exact (unlined_encodeEntry f _).bind hwrite
    · exact hwrite []
  dsimp only
  split
  · exact (Unlined.throw (by rintro ⟨_, _, h⟩; cases h)).bind fun _ => hfill
  · exact hfill

theorem unlined_retain (operation : String) (keep : FieldId w → Bool) :
    Unlined (retain operation keep) :=
  (unlined_storage _).bind fun _ => (show Unlined (put _) from fun _ => trivial).bind
    fun _ => .pure _

end Edit

/-! Values that are read from a buffer. -/

theorem Value.decode_failsOnly (c : ArenaConfig) (t : FieldType) (offset : Nat) (bs : Bytes) :
    FailsOnly Error.IsOfRegion (Value.decode c t offset bs) := by
  intro e h
  rw [decode] at h
  split at h
  · obtain ⟨inner, hinner, rfl⟩ := error_mapError_iff.1 h
    apply Region.isOfRegion_fromOutside
    rcases error_bind_iff.1 hinner with hcheck | ⟨g, -, hinner⟩
    · exact Region.isOfRegion_of_check hcheck
    rcases error_bind_iff.1 hinner with hroom | ⟨⟨⟩, -, hinner⟩
    · exact Region.isOfRegion_of_checkRoom hroom
    · cases hinner
  · exact Region.isOfRegion_of_decodeFlat h

theorem Buffer.value?_failsOnly (c : ArenaConfig) (b : Buffer w) (f : FieldId w) (k : Nat) :
    FailsOnly Error.IsOfRegion (b.value? c f k) := by
  rw [value?]
  split
  · exact .ok _ _
  · exact (Value.decode_failsOnly c _ _ _).map _

/-! Names and tables. -/

theorem FailsOnly.mapM {P : Error → Prop} {f : α → Except Error β}
    (hf : ∀ a, FailsOnly P (f a)) (as : List α) : FailsOnly P (as.mapM f) := by
  induction as with
  | nil => exact .ok _ _
  | cons a as ih =>
    rw [List.mapM_cons]
    exact (hf a).bind fun _ => ih.bind fun _ => .ok _ _

theorem FailsOnly.foldlM {P : Error → Prop} {f : β → α → Except Error β}
    (hf : ∀ b a, FailsOnly P (f b a)) (as : List α) (b : β) : FailsOnly P (as.foldlM f b) := by
  induction as generalizing b with
  | nil => exact .ok _ _
  | cons a as ih =>
    rw [List.foldlM_cons]
    exact (hf b a).bind fun b => ih b

theorem FieldTable.ofFile_failsOnly (files : Files) (path : String) :
    FailsOnly (¬ ·.IsOfLine) (ofFile files path) := by
  have htable : ∀ cause, ¬ (Error.tableLoad path cause).IsOfLine := by
    rintro cause ⟨_, _, h⟩
    cases h
  refine FailsOnly.bind (fun e he => ?_) fun text => ?_
  · obtain ⟨cause, -, rfl⟩ := error_mapError_iff.1 he
    exact htable cause
  rw [ofDocument]
  split
  · cases Yaml.table? text with
    | none => exact .error (htable _)
    | some t => exact .ok _ _
  · cases Json.table? text with
    | none => exact .error (htable _)
    | some t => exact .ok _ _
  · intro e he
    obtain ⟨d, -, rfl⟩ := error_mapError_iff.1 he
    split
    · exact htable _
    · rename_i hd
      rintro ⟨line, cause, h⟩
      exact hd line cause h

theorem NameTable.define_failsOnly (origin : String) (t : NameTable w)
    (d : String × Nat × FieldType) : FailsOnly (¬ ·.IsOfLine) (define origin t d) := by
  have htable : ∀ cause, ¬ (Error.tableLoad origin cause).IsOfLine := by
    rintro cause ⟨_, _, h⟩
    cases h
  obtain ⟨name, number, type⟩ := d
  simp only [define]
  split
  · exact .error (htable _)
  split
  · exact .ok _ _
  split
  · exact .ok _ _
  · exact .error (htable _)

namespace Catalog

theorem read_failsOnly (files : Files) (c : Catalog w) :
    FailsOnly (¬ ·.IsOfLine) (c.read files) := by
  refine (FailsOnly.mapM (fun path => ?_) _).bind fun found => ?_
  · exact (FieldTable.ofFile_failsOnly files path).bind fun _ => .ok _ _
  · exact .foldlM (fun t _ => .foldlM (NameTable.define_failsOnly _) _ t) _ _

theorem unlined_table (files : Files) : Unlined (table files : Resolving w (NameTable w)) := by
  intro c
  simp only [Ends, table]
  cases c.cache with
  | some t => trivial
  | none =>
    cases hread : c.read files with
    | ok t => trivial
    | error e => exact read_failsOnly files c e hread

theorem unlined_identFor (files : Files) (name : String) :
    Unlined (identFor files name : Resolving w (FieldId w)) := by
  refine (unlined_table files).bind fun t => ?_
  split
  · exact .pure _
  · exact .throw (by rintro ⟨_, _, h⟩; cases h)

end Catalog

end FieldBuffers
