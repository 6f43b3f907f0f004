import FieldBuffers.Proofs.Multimap

/-! Every buffer that operations can leave does what a map of lists does. -/

namespace FieldBuffers

open Item

variable {α : Type} {w : Width} {s : Storage w} {xs : List (Item w)} {c : ArenaConfig}

/-- A value that is read when it finds its room, and else is refused it. -/
def Value.Answers (c : ArenaConfig) (v : Value) (r : Except Error Value) : Prop :=
  (v.Fits c → r = .ok v) ∧ (¬ v.Fits c → ∃ e, c.Refuses e ∧ r = .error e)

theorem Item.Sound.answers {x : Item w} (hx : x.Sound) (offset : Nat) :
    x.read.Answers c (Value.decode c x.id.type offset x.value) :=
  ⟨fun hf => decode_read hx hf offset, fun hf => decode_refuses hx hf offset⟩

namespace Storage.Holds

theorem map_read_occurrences (h : s.Holds xs) (f : FieldId w) :
    (s.occurrences f).map (fun e => e.item.read) = values xs f := by
  rw [h.occurrences_eq, values, ← map_item_filter_layout Header.size, List.map_map]
  rfl

theorem map_read_entries (h : s.Holds xs) (f : FieldId w) :
    (s.entries.filter (·.id = f)).map (fun e => e.item.read) = values xs f := by
  rw [h.entries_eq, ← h.occurrences_eq, h.map_read_occurrences]

theorem sound_of_mem_occurrences (h : s.Holds xs) {f : FieldId w} {e : Entry w}
    (he : e ∈ s.occurrences f) : e.item.Sound := by
  rw [h.occurrences_eq] at he
  exact h.sound _ (mem_of_mem_layout (List.mem_filter.1 he).1)

theorem answers_of_getElem? (h : s.Holds xs) {f : FieldId w} {k : Nat} {v : Value}
    (hv : (values xs f)[k]? = some v) :
    ∃ e, (s.occurrences f)[k]? = some e ∧ v.Answers c (e.decode c) := by
  rw [← h.map_read_occurrences, List.getElem?_map] at hv
  obtain ⟨e, he, rfl⟩ := Option.map_eq_some_iff.1 hv
  exact ⟨e, he, (h.sound_of_mem_occurrences (List.mem_of_getElem? he)).answers e.valueOffset⟩

end Storage.Holds

namespace Buffer

theorem firstWhere_eq {test : Value → Bool} {es : List (Entry w)} (n : Nat)
    (h : ∀ e ∈ es, e.decode c = .ok e.item.read) :
    firstWhere c test n es
      = .ok (((es.map fun e => e.item.read).findIdx? test).map (· + n)) := by
  induction es generalizing n with
  | nil => rfl
  | cons e es ih =>
    have hrest := ih (n + 1) fun d hd => h d (List.mem_cons_of_mem _ hd)
    rw [List.map_cons, List.findIdx?_cons, firstWhere, h e (List.mem_cons_self ..)]
    change (if test e.item.read = true then _ else firstWhere c test (n + 1) es) = _
    by_cases ht : test e.item.read = true
    · rw [if_pos ht, if_pos ht]
      simp [pure, Except.pure]
    · rw [if_neg ht, if_neg ht, hrest, Option.map_map]
      congr 2
      funext i
      exact (Nat.add_right_comm i 1 n).symm

/-- Each field's occurrences come in order, numbered from what was seen of the field before. -/
theorem filter_positionsAfter (seen : List (FieldId w)) (es : List (Entry w)) (f : FieldId w) :
    (((positionsAfter seen es).zip es).map fun p => (p.1.1, p.1.2, p.2.item.read)).filter
        (·.1 = f)
      = (((es.filter (·.id = f)).map fun e => e.item.read).zipIdx (seen.count f)).map
          fun p => (f, p.2, p.1) := by
  induction es generalizing seen with
  | nil => rfl
  | cons e es ih =>
    rw [positionsAfter, List.zip_cons_cons, List.map_cons]
    by_cases hid : e.id = f
    · rw [List.filter_cons_of_pos (by simpa using hid), List.filter_cons_of_pos (by simpa using hid),
        ih, List.map_cons, List.zipIdx_cons, List.map_cons, hid, List.count_cons_self]
    · rw [List.filter_cons_of_neg (by simpa using hid), List.filter_cons_of_neg (by simpa using hid),
        ih, List.count_cons_of_ne hid]

theorem filter_toList {b : Buffer w} (h : ∀ e ∈ b.entries, e.decode c = .ok e.item.read)
    (f : FieldId w) : (b.toList c).filter (·.1 = f)
      = ((b.entries.filter (·.id = f)).map fun e => e.item.read).zipIdx.map
          fun p => (f, p.2, p.1) := by
  have hread : b.toList c
      = (b.positions.zip b.entries).map fun p => (p.1.1, p.1.2, p.2.item.read) := by
    refine List.map_congr_left fun p hp => ?_
    obtain ⟨⟨g, k⟩, e⟩ := p
    have he := h e (List.of_mem_zip hp).2
    simp only [he]
    rfl
  rw [hread]
  exact filter_positionsAfter [] b.entries f

end Buffer

/-- An edit turns contents into others, or the arena has no room for it. -/
def Turns (x : Edit w α) (p : Place w) (m : Multimap w) : Prop :=
  Ends x p (fun _ q => q.buffer.contents = some m) fun e q =>
    p.arena.config.Refuses e ∧ q.buffer = p.buffer

/-- An edit that needs no room turns contents into others. -/
def Becomes (x : Edit w α) (p : Place w) (m : Multimap w) : Prop :=
  Ends x p (fun _ q => q.buffer.contents = some m) fun _ _ => False

/-- The buffer in a value, if any, is one that operations can leave. -/
def Value.Made (v : Value) : Prop := ∀ b, v = .fml b → Reachable ArenaConfig.Stated b

/-- Writes of a place are writes of a map of lists. -/
structure Place.Writes (p : Place w) (m : Multimap w) : Prop where
  add {f : FieldId w} {v u : Value} : v.Made → Edit.Accepts f v u →
    Turns (Edit.add f v) p (m.push f u.stored)
  append {f : FieldId w} {v : Value} {entry : Bytes} : v.Made → v.type = f.type →
    v.encodeEntry f = .ok entry → Turns (Edit.append f v) p (m.push f v.stored)
  set {f : FieldId w} {k : Nat} {v u : Value} : v.Made → Edit.Accepts f v u →
    ¬ Edit.CannotSet p.buffer k → Turns (Edit.set f k v) p (m.set f k u.stored)
  set_notIndexed {f : FieldId w} {k : Nat} {v u : Value} : Edit.Accepts f v u →
    Edit.CannotSet p.buffer k → Edit.set f k v p = .error (.notIndexed "set") p

/-- Removals from a place are removals from a map of lists. -/
structure Place.Removes (p : Place w) (m : Multimap w) : Prop where
  erase {f : FieldId w} {k : Nat} : p.buffer.isIndexed → k < (m f).length →
    Becomes (Edit.erase f k) p (m.erase f k)
  erase_notPresent {f : FieldId w} {k : Nat} : p.buffer.isIndexed → (m f).length ≤ k →
    Edit.erase f k p = .error (.notPresent (.ident w f) k) p
  erase_notIndexed {f : FieldId w} {k : Nat} : p.buffer.isNull = false →
    p.buffer.isIndexed = false → Edit.erase f k p = .error (.notIndexed "erase") p
  eraseAll {f : FieldId w} : p.buffer.isNull = false →
    Becomes (Edit.eraseAll f) p (m.restrict (· != f))
  eraseMany {fs : List (FieldId w)} : p.buffer.isNull = false →
    Becomes (Edit.eraseMany fs) p (m.restrict (!fs.contains ·))
  project {fs : List (FieldId w)} : p.buffer.isNull = false →
    Becomes (Edit.project fs) p (m.restrict fs.contains)
  null {f : FieldId w} {k : Nat} {fs : List (FieldId w)} : p.buffer = .null →
    Edit.erase f k p = .error (.bufferNull "erase") p ∧
      Edit.eraseAll f p = .error (.bufferNull "erase_all") p ∧
      Edit.eraseMany fs p = .error (.bufferNull "erase_many") p ∧
      Edit.project fs p = .error (.bufferNull "project") p

/-- Reads of a buffer are reads of a map of lists. -/
structure Buffer.Reads (c : ArenaConfig) (b : Buffer w) (m : Multimap w) : Prop where
  count (f : FieldId w) : b.count f = (m f).length
  has (f : FieldId w) (k : Nat) : b.has f k = decide (k < (m f).length)
  get {f : FieldId w} {k : Nat} {v : Value} : b.isIndexed → (m f)[k]? = some v →
    v.Answers c (b.get c f k)
  get_notPresent {f : FieldId w} {k : Nat} : b.isIndexed → (m f).length ≤ k →
    b.get c f k = .error (.notPresent (.ident w f) k)
  getLast {f : FieldId w} {v : Value} : b.isIndexed → (m f).getLast? = some v →
    v.Answers c (b.getLast c f)
  getLast_notPresent {f : FieldId w} : b.isIndexed → m f = [] →
    b.getLast c f = .error (.notPresent (.ident w f) 0)
  find {f : FieldId w} {v u : Value} : b.isIndexed → v.coerce f.type (.ident w f) = .ok u →
    (∀ x ∈ m f, x.Fits c) → b.find c f v = .ok ((m f).findIdx? fun x => x.same c u)
  toList : (∀ f, ∀ x ∈ m f, x.Fits c) →
    ∀ f, (b.toList c).filter (·.1 = f) = (m f).zipIdx.map fun p => (f, p.2, p.1)
  notIndexed {f : FieldId w} {k : Nat} {v : Value} : b.isNull = false → b.isIndexed = false →
    b.get c f k = .error (.notIndexed "get") ∧
      b.getLast c f = .error (.notIndexed "get_last") ∧
      b.find c f v = .error (.notIndexed "find")
  null {f : FieldId w} {k : Nat} {v : Value} : b = .null →
    b.get c f k = .error (.bufferNull "get") ∧
      b.getLast c f = .error (.bufferNull "get_last") ∧
      b.find c f v = .error (.bufferNull "find")

section Proofs

variable {indexed : Bool} {p : Place w} {b : Buffer w}

theorem Value.Made.built {v : Value} (h : v.Made) : v.Built :=
  fun b hb => sound_invariant.of_reachable (h b hb)

theorem Buffer.Holds.contents_eq (h : b.Holds xs indexed) : b.contents = some (values xs) := by
  obtain ⟨s, rfl, hx, -⟩ := h
  exact hx.contents_eq

theorem Buffer.Holds.isIndexed_eq (h : b.Holds xs indexed) : b.isIndexed = indexed := by
  obtain ⟨s, rfl, -, hi⟩ := h
  exact hi

theorem Makes.turns {x : Edit w α} {zs : List (Item w)} {m : Multimap w}
    (h : Makes x p zs indexed) (hm : values zs = m) : Turns x p m :=
  h.mono (fun _ _ hq => hm ▸ hq.1.contents_eq) fun _ _ he => ⟨he.1, he.2.1⟩

theorem Leaves.becomes {x : Edit w α} {zs : List (Item w)} {m : Multimap w}
    (h : Leaves x p zs indexed) (hm : values zs = m) : Becomes x p m :=
  h.mono (fun _ _ hq => hm ▸ hq.1.contents_eq) fun _ _ he => he.elim

theorem Buffer.Offers.writes (hp : p.buffer.Offers xs indexed) (hc : p.arena.config.Stated) :
    p.Writes (values xs) where
  add {f v u} hv ha := by
    refine (Edit.add_makes hp hc hv.built ha).turns ?_
    obtain ⟨hu, entry, he⟩ := ha
    rw [values_put (f := f) hp.sorted rfl, read_of (Value.built_coerce hu hv.built)
      (Value.coerce_eq_ok hu).1 he]
  append {f v entry} hv ht he := by
    refine (Edit.append_makes hp hc hv.built ht he).turns ?_
    rw [values_snoc (f := f) rfl, read_of hv.built ht he]
  set {f k v u} hv ha hk := by
    refine (Edit.set_makes hp hc hv.built hk ha).turns ?_
    obtain ⟨hu, entry, he⟩ := ha
    obtain ⟨gap, hgap⟩ := Value.exists_encodeEntry_default f
    have hd : (Item.of f (Value.default f.type)).read = Value.default f.type := by
      rw [read_of (Value.built_default _) (Value.type_default _) hgap]
      cases f.type <;> rfl
    rw [values_overwrite (f := f) hp.sorted rfl rfl hd, read_of (Value.built_coerce hu hv.built)
      (Value.coerce_eq_ok hu).1 he]
  set_notIndexed ha hk := Edit.set_eq_notIndexed ha hk

theorem Buffer.Holds.removes (hp : p.buffer.Holds xs indexed) : p.Removes (values xs) where
  erase {f k} hi hk := by
    obtain rfl := hp.isIndexed_eq.symm.trans hi
    have hk' : k < (ofField f xs).length := by simpa [values] using hk
    exact (Edit.erase_leaves hp hk').becomes (values_substitute hk')
  erase_notPresent {f k} hi hk := by
    obtain rfl := hp.isIndexed_eq.symm.trans hi
    exact Edit.erase_missing hp (by simpa [values] using hk)
  erase_notIndexed _ hi := by
    obtain rfl := hp.isIndexed_eq.symm.trans hi
    exact Edit.erase_unindexed hp
  eraseAll {f} _ := (Edit.retain_leaves hp).becomes (values_filter (· != f) xs)
  eraseMany {fs} _ := (Edit.retain_leaves hp).becomes (values_filter (!fs.contains ·) xs)
  project {fs} _ := (Edit.retain_leaves hp).becomes (values_filter fs.contains xs)
  null hnull := by
    obtain ⟨s, hs, -⟩ := hp
    simp [hs] at hnull

theorem Buffer.removes_null (hp : p.buffer = .null) : p.Removes fun _ => [] where
  erase hi := by simp [hp, Buffer.isIndexed, Buffer.index?] at hi
  erase_notPresent hi := by simp [hp, Buffer.isIndexed, Buffer.index?] at hi
  erase_notIndexed hn := by simp [hp, Buffer.isNull, Buffer.storage?] at hn
  eraseAll hn := by simp [hp, Buffer.isNull, Buffer.storage?] at hn
  eraseMany hn := by simp [hp, Buffer.isNull, Buffer.storage?] at hn
  project hn := by simp [hp, Buffer.isNull, Buffer.storage?] at hn
  null _ := by
    refine ⟨Edit.erase_null hp, ?_, ?_, ?_⟩
    all_goals exact bind_of_error (Edit.storage_of_null _ hp)

namespace Storage

variable {operation : String} {f : FieldId w} {k : Nat}

theorem entry_eq_ok (hi : s.index.isSome) {e : Entry w} (he : (s.occurrences f)[k]? = some e) :
    (Buffer.allocated s).entry operation f k = .ok e := by
  simp [Buffer.entry, Buffer.requireIndex, hi, he, bind, Except.bind, pure, Except.pure]

theorem entry_eq_notPresent (hi : s.index.isSome) (hk : (s.occurrences f).length ≤ k) :
    (Buffer.allocated s).entry operation f k = .error (.notPresent (.ident w f) k) := by
  simp [Buffer.entry, Buffer.requireIndex, hi, List.getElem?_eq_none hk, bind, Except.bind, throw,
    throwThe, MonadExceptOf.throw]

theorem Holds.length_values (h : s.Holds xs) (f : FieldId w) :
    (Buffer.allocated s).count f = (values xs f).length := by
  rw [values, List.length_map]
  exact h.length_occurrences f

theorem Holds.answers_get (h : s.Holds xs) (hi : s.index.isSome) {v : Value}
    (hv : (values xs f)[k]? = some v) : v.Answers c ((Buffer.allocated s).get c f k) := by
  obtain ⟨e, he, ha⟩ := h.answers_of_getElem? hv
  rw [Buffer.get, entry_eq_ok hi he]
  exact ha

theorem Holds.answers_getLast (h : s.Holds xs) (hi : s.index.isSome) {v : Value}
    (hv : (values xs f).getLast? = some v) :
    v.Answers c ((Buffer.allocated s).getLast c f) := by
  have hlen := h.length_values f
  rw [List.getLast?_eq_getElem?, ← hlen] at hv
  have hreq : (Buffer.allocated s).requireIndex "get_last" = .ok s := if_pos hi
  rw [Buffer.getLast, hreq]
  cases hn : (Buffer.allocated s).count f with
  | zero =>
    rw [hn] at hlen hv
    rw [List.length_eq_zero_iff.1 hlen.symm] at hv
    simp at hv
  | succ n =>
    rw [hn] at hv
    exact h.answers_get hi hv

theorem Holds.decode_of_fits (h : s.Holds xs) (hf : ∀ f, ∀ v ∈ values xs f, v.Fits c)
    {e : Entry w} (he : e ∈ s.entries) : e.decode c = .ok e.item.read := by
  rw [h.entries_eq] at he
  have hmem := mem_of_mem_layout he
  refine ((h.sound _ hmem).answers e.valueOffset).1 (hf e.id _ ?_)
  exact List.mem_map_of_mem (mem_ofField.2 ⟨hmem, rfl⟩)

theorem Holds.find_eq (h : s.Holds xs) (hi : s.index.isSome) {v u : Value}
    (hu : v.coerce f.type (.ident w f) = .ok u) (hf : ∀ x ∈ values xs f, x.Fits c) :
    (Buffer.allocated s).find c f v = .ok ((values xs f).findIdx? fun x => x.same c u) := by
  have hreq : (Buffer.allocated s).requireIndex "find" = .ok s := if_pos hi
  have hread : ∀ e ∈ s.occurrences f, e.decode c = .ok e.item.read := fun e he => by
    refine ((h.sound_of_mem_occurrences he).answers e.valueOffset).1 (hf _ ?_)
    rw [← h.map_read_occurrences]
    exact List.mem_map_of_mem he
  rw [Buffer.find, hreq]
  change (v.coerce f.type (.ident w f) >>= fun wanted =>
    Buffer.firstWhere c (fun u => u.same c wanted) 0 (s.occurrences f)) = _
  rw [hu, ← h.map_read_occurrences]
  refine (Buffer.firstWhere_eq 0 hread).trans ?_
  simp

end Storage

theorem Buffer.Holds.reads (hb : b.Holds xs indexed) (c : ArenaConfig) :
    b.Reads c (values xs) := by
  obtain ⟨s, rfl, hx, -⟩ := hb
  exact {
    count := hx.length_values
    has := fun f k => by rw [Buffer.has, hx.length_values]
    get := fun hi hv => hx.answers_get hi hv
    get_notPresent := fun {f k} hi hk => by
      rw [Buffer.get, Storage.entry_eq_notPresent hi (by rwa [← hx.length_values] at hk)]
      rfl
    getLast := fun hi hv => hx.answers_getLast hi hv
    getLast_notPresent := fun {f} hi hm => by
      have hreq : (Buffer.allocated s).requireIndex "get_last" = .ok s := if_pos hi
      rw [Buffer.getLast, hreq, hx.length_values, hm]
      rfl
    find := fun hi hu hf => hx.find_eq hi hu hf
    toList := fun hf f => by
      have hread : ∀ e ∈ (Buffer.allocated s).entries, e.decode c = .ok e.item.read :=
        fun e he => hx.decode_of_fits hf he
      rw [Buffer.filter_toList hread, ← hx.map_read_entries]
      rfl
    notIndexed := fun {f k v} _ hi => by
      have hreq : ∀ operation, (Buffer.allocated s).requireIndex operation
          = .error (.notIndexed operation) := fun _ => if_neg (ne_true_of_eq_false hi)
      exact ⟨by rw [Buffer.get, Buffer.entry, hreq]; rfl, by rw [Buffer.getLast, hreq]; rfl,
        by rw [Buffer.find, hreq]; rfl⟩
    null := fun hnull => by simp at hnull }

theorem Buffer.reads_null (c : ArenaConfig) : (.null : Buffer w).Reads c fun _ => [] where
  count _ := rfl
  has _ _ := rfl
  get hi := by simp [Buffer.isIndexed, Buffer.index?] at hi
  get_notPresent hi := by simp [Buffer.isIndexed, Buffer.index?] at hi
  getLast hi := by simp [Buffer.isIndexed, Buffer.index?] at hi
  getLast_notPresent hi := by simp [Buffer.isIndexed, Buffer.index?] at hi
  find hi := by simp [Buffer.isIndexed, Buffer.index?] at hi
  toList _ _ := rfl
  notIndexed hn := by simp [Buffer.isNull, Buffer.storage?] at hn
  null _ := ⟨rfl, rfl, rfl⟩

/-- A value and what it comes back as are the same, or nested buffers that are equal. -/
def Value.ComesBackAs (v u : Value) : Prop :=
  u = v ∨ ∃ b d, v = .fml b ∧ u = .fml d ∧ (d = .null ↔ b = .null) ∧
    ∀ c, Buffer.same c d b = true

theorem Value.Made.comesBackAs {v : Value} (h : v.Made) : v.ComesBackAs v.stored := by
  by_cases ht : v.type = .fml
  · cases v with
    | fml b =>
      obtain ⟨d, hd, hnull, hsame⟩ := stored_fml (sound_invariant.of_reachable (h b rfl))
      exact .inr ⟨b, d, rfl, hd, hnull, hsame⟩
    | _ => simp [type] at ht
  · exact .inl (stored_of_ne_fml ht)

/-- A buffer that operations left stands for the lists of its fields' values: writes, removals and
reads do to it what they do to the lists, and a value comes back as what it was. -/
theorem simulation_of_reachable (hb : Reachable ArenaConfig.Stated p.buffer)
    (hc : p.arena.config.Stated) (c : ArenaConfig) :
    ∃ m : Multimap w, (p.buffer.contents = some m ∨ p.buffer = .null ∧ m = fun _ => []) ∧
      p.Writes m ∧ p.Removes m ∧ p.buffer.Reads c m ∧
      ∀ v : Value, v.Made → v.ComesBackAs v.stored := by
  obtain ⟨xs, indexed, hx⟩ := sound_invariant.of_reachable hb
  refine ⟨values xs, ?_, hx.writes hc, ?_, ?_, fun v hv => hv.comesBackAs⟩
  all_goals obtain hx | ⟨hnull, rfl, -⟩ := hx
  · exact .inl hx.contents_eq
  · exact .inr ⟨hnull, rfl⟩
  · exact hx.removes
  · exact Buffer.removes_null hnull
  · exact hx.reads c
  · exact hnull ▸ Buffer.reads_null c

theorem simulation_after_add :
    let f : FieldId .wide := ⟨.short, 1, by decide, by decide, by decide⟩
    let p := (Change.add f (.short 7)).after ⟨{ config := ⟨32, 64⟩ }, .null⟩
    ∃ m : Multimap .wide, m f = [.short 7] ∧ p.Writes m ∧ p.Removes m ∧ p.buffer.Reads {} m := by
  intro f p
  have hreach : Reachable ArenaConfig.Stated p.buffer := by
    refine .after (show 64 < 2 ^ 32 by decide) .null (fun b hb => ?_) fun b hb => ?_
    · simp [Change.value?] at hb
    · simp [Change.other?] at hb
  have hceiling : p.arena.config.ceiling = 64 := by decide +kernel
  have hc : p.arena.config.Stated := by
    rw [ArenaConfig.Stated, hceiling]
    decide
  have hf : p.buffer.contents.map (· f) = some [.short 7] := by decide +kernel
  obtain ⟨m, hm, hw, hr, hreads, -⟩ := simulation_of_reachable hreach hc {}
  refine ⟨m, ?_, hw, hr, hreads⟩
  rcases hm with hm | ⟨hnull, -⟩
  · rw [hm] at hf
    exact Option.some.inj hf
  · rw [hnull] at hf
    simp [Buffer.contents] at hf

end Proofs

end FieldBuffers
