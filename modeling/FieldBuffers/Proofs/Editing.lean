import FieldBuffers.Proofs.Compacting
import FieldBuffers.Proofs.Standalone

/-! Every edit of this library as a change of items. -/

namespace FieldBuffers

open Item

variable {α : Type} {w : Width} {s : Storage w} {xs zs : List (Item w)} {p : Place w} {f : FieldId w}

namespace Storage

theorem fresh_holds (w : Width) (handle : Nat) {size : Nat} (hmin : Header.size ≤ size)
    (hlt : size < 2 ^ 32) : (fresh w handle size).Holds [] ∧ (fresh w handle size).capacity = size := by
  have hcap : (fresh w handle size).capacity = size := by
    simp only [capacity, fresh, Bytes.length_zeros]
    omega
  refine ⟨⟨⟨rfl, ?_, ?_, rfl, ⟨_, rfl⟩, by simp⟩, ?_, ?_, fun _ => List.Pairwise.nil⟩, hcap⟩
  · cases w <;> rfl
  · rw [hcap]
    exact (UInt32.toNat_ofNat').trans (Nat.mod_eq_of_lt hlt)
  · change (Header.empty w size).isIndexed = true
    simp [Header.empty, Header.isIndexed, Header.indexedFlag]
  · rintro ix hix
    exact (Option.some.inj hix).symm

end Storage

namespace Buffer

theorem allocate_eq_ok {size : Nat} {a a' : Arena} {b : Buffer w}
    (h : Buffer.allocate w size a = .ok (b, a')) :
    b = .allocated (Storage.fresh w a.nextHandle (max size Header.size)) ∧
      a'.config = a.config ∧ Region.Room a.config (max size Header.size) := by
  rw [Buffer.allocate] at h
  obtain ⟨⟨⟩, hroom, h⟩ := ok_bind_iff.1 h
  obtain ⟨⟨handle, a1⟩, hres, h⟩ := ok_bind_iff.1 h
  obtain ⟨⟨⟩, hc, hres⟩ := ok_bind_iff.1 hres
  obtain ⟨rfl, rfl⟩ := Prod.mk.inj (Except.ok.inj hres)
  obtain ⟨rfl, rfl⟩ := Prod.mk.inj (Except.ok.inj h)
  exact ⟨rfl, rfl, (Region.checkRoom_eq_ok_iff ..).1 hroom⟩

theorem allocate_eq_error {size : Nat} {a : Arena} (hc : a.config.Stated) {e : Error}
    (h : Buffer.allocate w size a = .error e) : a.config.Refuses e := by
  rw [Buffer.allocate] at h
  dsimp only at h
  cases hroom : Region.checkRoom a.config (max size Header.size) with
  | error e' =>
    rw [hroom] at h
    obtain rfl : e' = e := Except.error.inj h
    exact Region.refuses_of_checkRoom (.inr hc) hroom
  | ok u =>
    have hgrant := ((Region.checkRoom_eq_ok_iff ..).1 hroom).granted
    rw [hroom] at h
    simp [Arena.reserve, ArenaConfig.check, hgrant, bind, Except.bind, pure, Except.pure] at h

end Buffer

namespace Edit

theorem allocate_makes (hc : p.arena.config.Stated) (size : Nat) :
    Makes (allocate size) p ([] : List (Item w)) true := by
  simp only [Makes, Ends, allocate]
  cases h : Buffer.allocate w size p.arena with
  | error e => exact ⟨Buffer.allocate_eq_error hc h, rfl, rfl⟩
  | ok r =>
    obtain ⟨b, a⟩ := r
    obtain ⟨rfl, ha, hroom⟩ := Buffer.allocate_eq_ok h
    exact ⟨⟨_, rfl, (Storage.fresh_holds w _ (Nat.le_max_right ..) hroom.stated).1, rfl⟩, ha⟩

/-- A write of a null buffer is one of an empty buffer, undone as a whole if there is no room. -/
theorem allocating_makes {write : Storage w → Except Error (Storage w)}
    {finish : Storage w → Storage w} {indexed after : Bool} (hp : p.buffer.Offers xs indexed)
    (hc : p.arena.config.Stated) (hz : ∀ z ∈ zs, z.Sound)
    (hw : ∀ t : Storage w, t.Holds xs → t.index.isSome = indexed →
      write t = (t.laid zs).map finish)
    (hfinish : Finishes finish zs indexed after) : Makes (allocating write) p zs after := by
  have hgrow : ∀ q : Place w, q.buffer.Holds xs indexed → q.arena.config = p.arena.config →
      Makes (growing write) q zs after := by
    rintro q ⟨s, hs, hx, hi⟩ ha
    refine growing_makes hs hx (ha ▸ hc) hz (fun t ht hix => hw t ht ?_) (hi ▸ hfinish)
    rw [hix, hi]
  rcases hp with hp | ⟨hnull, rfl, rfl⟩
  · have h := hgrow p hp rfl
    obtain ⟨s, hs, -⟩ := hp
    simpa only [Makes, Ends, allocating, hs] using h
  · have hfresh := allocate_makes hc p.arena.config.initial
    refine (ends_allocating hnull).2 (hfresh.mono ?_ fun _ _ h => h)
    rintro _ q ⟨hholds, ha⟩
    apply (hgrow q hholds ha).mono
    · rintro _ r ⟨hr, har⟩
      exact ⟨hr, har.trans ha⟩
    · rintro e r ⟨he, hb, har⟩
      refine ends_free.2 ⟨fun s hs => ?_, fun hr => ?_⟩
      · exact ⟨ha ▸ he, hnull.symm, har.trans ha⟩
      · exact ⟨ha ▸ he, hr.trans hnull.symm, har.trans ha⟩

/-- What a field of some kind stores of a value, if it takes the value at all. -/
def Accepts (f : FieldId w) (v u : Value) : Prop :=
  v.coerce f.type (.ident w f) = .ok u ∧ ∃ entry, u.encodeEntry f = .ok entry

end Edit

/-- A value has another type or extent than the one that is asked for. -/
def Error.IsMismatch (x : Error) : Prop := ∃ f expected actual, x = .typeMismatch f expected actual

/-- The item that a value of the field's kind becomes. -/
def Item.of (f : FieldId w) (v : Value) : Item w := ⟨f, v.encode⟩

namespace Value

theorem type_ofInt {t : FieldType} (hn : t.isNumeric) (hf : isFraction t = false) (i : Int) :
    (ofInt t i).type = t := by
  cases t <;> simp_all [ofInt, type, isFraction, FieldType.isNumeric]

theorem type_ofDouble {t : FieldType} (hf : isFraction t = true) (n : Nat) :
    (ofDouble t n).type = t := by
  cases t <;> simp_all [ofDouble, type, isFraction]

theorem type_convert {t : FieldType} (hn : t.isNumeric) {v u : Value} (h : v.convert? t = some u) :
    u.type = t := by
  rw [convert?] at h
  split at h
  · obtain ⟨n, -, rfl⟩ := Option.map_eq_some_iff.1 h
    exact type_ofDouble ‹_› n
  · rename_i hf
    obtain ⟨i, -, rfl⟩ := Option.map_eq_some_iff.1 h
    exact type_ofInt hn (eq_false_of_ne_true hf) i

theorem coerce_eq_ok {t : FieldType} {field : FieldRef} {v u : Value}
    (h : v.coerce t field = .ok u) : u.type = t ∧ (u = v ∨ t ≠ .fml) := by
  rw [coerce] at h
  split at h
  · obtain rfl := Except.ok.inj h
    exact ⟨‹_›, .inl rfl⟩
  · split at h
    · rename_i u' hu
      obtain rfl := Except.ok.inj h
      split at hu
      · rename_i hn
        refine ⟨type_convert hn hu, .inr ?_⟩
        rintro rfl
        simp [FieldType.isNumeric] at hn
      · simp at hu
    · simp at h

theorem coerce_failsOnly (v : Value) (t : FieldType) (field : FieldRef) :
    FailsOnly Error.IsMismatch (v.coerce t field) := by
  rw [coerce]
  split
  · exact .ok _ _
  · split
    · exact .ok _ _
    · exact .error ⟨_, _, _, rfl⟩

theorem checkEncodable_failsOnly (f : FieldId w) (v : Value) :
    FailsOnly Error.IsMismatch (v.checkEncodable f) := by
  have hname : ∀ what s, FailsOnly Error.IsMismatch (checkEncodable.name f what s) := by
    intro what s
    rw [checkEncodable.name]
    split
    · exact .ok _ _
    · exact .error ⟨_, _, _, rfl⟩
  rw [checkEncodable.eq_def]
  split
  · exact hname _ _
  · exact hname _ _
  · dsimp only
    split
    · exact .ok _ _
    · exact .error ⟨_, _, _, rfl⟩
  · exact .ok _ _

theorem encodeEntry_failsOnly (f : FieldId w) (v : Value) :
    FailsOnly Error.IsMismatch (v.encodeEntry f) := by
  refine (v.checkEncodable_failsOnly f).bind fun _ => ?_
  dsimp only
  split
  · exact .ok _ _
  · exact .error ⟨_, _, _, rfl⟩

theorem built_coerce {t : FieldType} {field : FieldRef} {v u : Value}
    (h : v.coerce t field = .ok u) (hv : v.Built) : u.Built := by
  obtain ⟨ht, rfl | hne⟩ := coerce_eq_ok h
  · exact hv
  · exact built_of_ne_fml (ht ▸ hne)

theorem sound_item {v : Value} (hv : v.type = f.type) (hb : v.Built) {entry : Bytes}
    (he : v.encodeEntry f = .ok entry) :
    (Item.of f v).Sound ∧ entry = (Item.of f v).encode := by
  obtain ⟨hn, hs, hst, rfl⟩ := (encodeEntry_eq_ok_iff ..).1 he
  exact ⟨⟨hst, hv ▸ sound_encode hb hn hs⟩, rfl⟩

theorem built_default (t : FieldType) : (default t).Built := by
  rintro b hb
  refine ⟨[], true, .inr ⟨?_, rfl, rfl⟩⟩
  cases t <;> simp_all [default]

theorem exists_encodeEntry_default (f : FieldId w) :
    ∃ entry, (default f.type).encodeEntry f = .ok entry := by
  have hmax : 65535 ≤ w.maxValueLength := by cases w <;> decide
  refine ⟨_, (encodeEntry_eq_ok_iff ..).2 ⟨?_, ?_, ?_, rfl⟩⟩
  · cases f.type <;> simp [default, Named]
  · cases f.type <;> simp [default, Shallow]
  · refine Nat.le_trans (Nat.le_trans ?_ (show 9 ≤ 65535 by decide)) hmax
    cases f.type <;> simp [default, encode, encodeName, Buffer.standalone, Bytes.ofText]

end Value

theorem Buffer.Offers.sound {b : Buffer w} {indexed : Bool} (h : b.Offers xs indexed) :
    ∀ x ∈ xs, x.Sound := by
  obtain ⟨s, -, hs, -⟩ | ⟨-, rfl, -⟩ := h
  · exact hs.sound
  · simp

theorem Buffer.Offers.sorted {b : Buffer w} {indexed : Bool} (h : b.Offers xs indexed) :
    indexed → Sorted xs := by
  obtain ⟨s, -, hs, rfl⟩ | ⟨-, rfl, -⟩ := h
  · exact hs.sorted
  · exact fun _ => List.Pairwise.nil

namespace Edit

variable {v u : Value} {indexed : Bool}

theorem insert_makes {x : Item w} (hp : p.buffer.Offers xs indexed) (hc : p.arena.config.Stated)
    (hx : x.Sound) (hf : x.id = f) :
    Makes (allocating (Storage.insert f x.encode)) p (Item.put indexed f [x] xs) indexed := by
  refine allocating_makes hp hc (fun z hz => ?_) (fun t ht hi => hi ▸ ht.insert_eq f x)
    (finishes_reindexed fun hi => ?_)
  · rcases mem_put hz with hz | hz
    · exact hp.sound z hz
    · exact List.mem_singleton.1 hz ▸ hx
  · subst hi
    exact sorted_put (hp.sorted rfl) (by simpa using hf)

theorem push_makes {x : Item w} (hp : p.buffer.Offers xs indexed) (hc : p.arena.config.Stated)
    (hx : x.Sound) : Makes (allocating (Storage.push x.encode)) p (xs ++ [x]) false := by
  refine allocating_makes hp hc (fun z hz => ?_) (fun t ht _ => ht.push_eq x)
    (finishes_unindexed _ _)
  rcases List.mem_append.1 hz with hz | hz
  · exact hp.sound z hz
  · exact List.mem_singleton.1 hz ▸ hx

theorem replace_makes {x filler : Item w} {k : Nat} {gap : Bytes}
    (hp : p.buffer.Offers xs indexed) (hc : p.arena.config.Stated) (hx : x.Sound) (hf : x.id = f)
    (hd : filler.Sound) (hg : filler.id = f)
    (hgap : (ofField f xs).length < k → gap = filler.encode) :
    Makes (allocating (Storage.replace f k gap x.encode)) p
      (overwrite indexed f k filler x xs) indexed := by
  have hone : ∀ y ∈ [x], y.id = f := by simpa using hf
  have hmany : ∀ n, ∀ y ∈ List.replicate n filler ++ [x], y.id = f := by
    intro n y hy
    rcases List.mem_append.1 hy with hy | hy
    · rw [List.eq_of_mem_replicate hy, hg]
    · exact hone y hy
  refine allocating_makes hp hc (fun z hz => ?_)
    (fun t ht hi => hi ▸ ht.replace_eq f filler x hgap) (finishes_reindexed fun hi => ?_)
  · rcases mem_overwrite hz with hz | rfl | rfl
    · exact hp.sound z hz
    · exact hd
    · exact hx
  · subst hi
    rw [overwrite]
    split
    · exact sorted_substitute ‹_› hone (hp.sorted rfl)
    · exact sorted_put (hp.sorted rfl) (hmany _)

theorem add_eq {entry : Bytes} (hu : v.coerce f.type (.ident w f) = .ok u)
    (he : u.encodeEntry f = .ok entry) : add f v p = allocating (Storage.insert f entry) p :=
  (bind_of_ok (ofExcept_of_ok hu)).trans (bind_of_ok (ofExcept_of_ok he))

/-- A value that the field does not take is refused in every place alike. -/
theorem encoding_fails {write : Value → Bytes → Edit w α} (h : ∀ u, ¬ Accepts f v u) :
    ∃ e : Error, e.IsMismatch ∧ ∀ p : Place w, (do
      let u ← ofExcept (v.coerce f.type (.ident w f))
      let entry ← ofExcept (u.encodeEntry f)
      write u entry : Edit w α) p = .error e p := by
  cases hu : v.coerce f.type (.ident w f) with
  | error e =>
    exact ⟨e, v.coerce_failsOnly _ _ e hu, fun p => bind_of_error (ofExcept_of_error rfl)⟩
  | ok u =>
    cases he : u.encodeEntry f with
    | error e =>
      exact ⟨e, u.encodeEntry_failsOnly f e he, fun p =>
        (bind_of_ok (ofExcept_of_ok rfl)).trans (bind_of_error (ofExcept_of_error he))⟩
    | ok entry => exact absurd ⟨hu, entry, he⟩ (h u)

theorem add_fails (h : ∀ u, ¬ Accepts f v u) :
    ∃ e : Error, e.IsMismatch ∧ ∀ p : Place w, add f v p = .error e p := encoding_fails h

theorem add_eq_error (h : ∀ u, ¬ Accepts f v u) : ∃ e, add f v p = .error e p := by
  obtain ⟨e, -, he⟩ := add_fails h
  exact ⟨e, he p⟩

theorem append_eq {entry : Bytes} (ht : v.type = f.type) (he : v.encodeEntry f = .ok entry) :
    append f v p = allocating (Storage.push entry) p := by
  rw [append, if_neg (not_not.2 ht)]
  exact bind_of_ok (ofExcept_of_ok he)

theorem append_fails (h : v.type = f.type → ∀ entry, v.encodeEntry f ≠ .ok entry) :
    ∃ e : Error, e.IsMismatch ∧ ∀ p : Place w, append f v p = .error e p := by
  by_cases ht : v.type = f.type
  · cases he : v.encodeEntry f with
    | error e =>
      refine ⟨e, v.encodeEntry_failsOnly f e he, fun p => ?_⟩
      rw [append, if_neg (not_not.2 ht)]
      exact bind_of_error (ofExcept_of_error he)
    | ok entry => exact absurd he (h ht entry)
  · refine ⟨.mismatch f f.type.keyword v.type.keyword, ⟨_, _, _, rfl⟩, fun p => ?_⟩
    rw [append, if_pos ht]
    rfl

theorem append_eq_error (h : v.type = f.type → ∀ entry, v.encodeEntry f ≠ .ok entry) :
    ∃ e, append f v p = .error e p := by
  obtain ⟨e, -, he⟩ := append_fails h
  exact ⟨e, he p⟩

/-- Occurrences past the first can be set by number only where there is an index. -/
def CannotSet (b : Buffer w) (k : Nat) : Prop := 0 < k ∧ b.isNull = false ∧ b.isIndexed = false

theorem run_set {k : Nat} {entry : Bytes} (hu : v.coerce f.type (.ident w f) = .ok u)
    (he : u.encodeEntry f = .ok entry) :
    set f k v p = (do
      if 0 < k && !p.buffer.isNull && !p.buffer.isIndexed then throw (.notIndexed "set")
      let filler ←
        if (p.buffer.occurrences f).length < k then
          ofExcept ((Value.default f.type).encodeEntry f)
        else pure []
      allocating (Storage.replace f k filler entry) : Edit w Unit) p := by
  exact (bind_of_ok (ofExcept_of_ok hu)).trans (bind_of_ok (ofExcept_of_ok he))

theorem set_eq_replace {k : Nat} {entry filler : Bytes} (hu : v.coerce f.type (.ident w f) = .ok u)
    (he : u.encodeEntry f = .ok entry) (hk : ¬ CannotSet p.buffer k)
    (hd : (Value.default f.type).encodeEntry f = .ok filler) :
    set f k v p = allocating (Storage.replace f k
      (if (p.buffer.occurrences f).length < k then filler else []) entry) p := by
  have hready : (decide (0 < k) && !p.buffer.isNull && !p.buffer.isIndexed) = false := by
    by_contra hc
    simp only [Bool.not_eq_false, Bool.and_eq_true, decide_eq_true_eq, Bool.not_eq_true'] at hc
    exact hk ⟨hc.1.1, hc.1.2, hc.2⟩
  rw [run_set hu he, hready, if_neg Bool.false_ne_true]
  by_cases hlt : (p.buffer.occurrences f).length < k
  · rw [if_pos hlt, if_pos hlt, hd]
    rfl
  · rw [if_neg hlt, if_neg hlt]
    rfl

theorem set_eq {k : Nat} {entry : Bytes} (hu : v.coerce f.type (.ident w f) = .ok u)
    (he : u.encodeEntry f = .ok entry) (hk : ¬ CannotSet p.buffer k) :
    ∃ gap, ((p.buffer.occurrences f).length < k →
        (Value.default f.type).encodeEntry f = .ok gap) ∧
      set f k v p = allocating (Storage.replace f k gap entry) p := by
  obtain ⟨filler, hd⟩ := Value.exists_encodeEntry_default f
  refine ⟨_, fun hlt => ?_, set_eq_replace hu he hk hd⟩
  rw [if_pos hlt]
  exact hd

theorem set_eq_notIndexed {k : Nat} (ha : Accepts f v u) (hk : CannotSet p.buffer k) :
    set f k v p = .error (.notIndexed "set") p := by
  obtain ⟨hu, entry, he⟩ := ha
  obtain ⟨h0, hn, hi⟩ := hk
  rw [run_set hu he, if_pos (by simp [h0, hn, hi])]
  rfl

theorem set_fails {k : Nat} (h : ∀ u, ¬ Accepts f v u) :
    ∃ e : Error, e.IsMismatch ∧ ∀ p : Place w, set f k v p = .error e p := encoding_fails h

theorem set_eq_error {k : Nat} (h : ∀ u, ¬ Accepts f v u) : ∃ e, set f k v p = .error e p := by
  obtain ⟨e, -, he⟩ := set_fails h
  exact ⟨e, he p⟩

theorem length_occurrences (h : p.buffer.Offers xs indexed) (f : FieldId w) :
    (p.buffer.occurrences f).length = (ofField f xs).length := by
  obtain ⟨s, hs, hx, -⟩ | ⟨hs, rfl, -⟩ := h
  · rw [hs]
    exact hx.length_occurrences f
  · rw [hs]
    rfl

theorem set_makes {k : Nat} (hp : p.buffer.Offers xs indexed) (hc : p.arena.config.Stated)
    (hv : v.Built) (hk : ¬ CannotSet p.buffer k) (ha : Accepts f v u) :
    Makes (set f k v) p
      (overwrite indexed f k (Item.of f (Value.default f.type)) (Item.of f u) xs) indexed := by
  obtain ⟨hu, entry, he⟩ := ha
  obtain ⟨hsound, rfl⟩ := Value.sound_item (Value.coerce_eq_ok hu).1 (Value.built_coerce hu hv) he
  obtain ⟨gap, hgap, hset⟩ := set_eq hu he hk
  obtain ⟨filler, hfiller⟩ := Value.exists_encodeEntry_default f
  obtain ⟨hd, rfl⟩ :=
    Value.sound_item (Value.type_default f.type) (Value.built_default f.type) hfiller
  refine (ends_congr hset).2 (replace_makes hp hc hsound rfl hd rfl fun hlt => ?_)
  rw [← length_occurrences hp] at hlt
  exact Except.ok.inj ((hgap hlt).symm.trans hfiller)

theorem add_makes (hp : p.buffer.Offers xs indexed) (hc : p.arena.config.Stated) (hv : v.Built)
    (ha : Accepts f v u) : Makes (add f v) p (Item.put indexed f [Item.of f u] xs) indexed := by
  obtain ⟨hu, entry, he⟩ := ha
  obtain ⟨hsound, rfl⟩ := Value.sound_item (Value.coerce_eq_ok hu).1 (Value.built_coerce hu hv) he
  exact (ends_congr (add_eq hu he)).2 (insert_makes hp hc hsound rfl)

theorem append_makes (hp : p.buffer.Offers xs indexed) (hc : p.arena.config.Stated) (hv : v.Built)
    (ht : v.type = f.type) {entry : Bytes} (he : v.encodeEntry f = .ok entry) :
    Makes (append f v) p (xs ++ [Item.of f v]) false := by
  obtain ⟨hsound, rfl⟩ := Value.sound_item ht hv he
  exact (ends_congr (append_eq ht he)).2 (push_makes hp hc hsound)

theorem run_erase (f : FieldId w) (k : Nat) (p : Place w) :
    erase f k p = match p.buffer.requireIndex "erase" with
      | .error e => .error e p
      | .ok s => match (s.occurrences f)[k]? with
        | none => .error (.notPresent (.ident w f) k) p
        | some e => match s.splice e.offset e.stop [] with
          | .error e => .error e p
          | .ok t => .ok () { p with buffer := .allocated t.reindexed } := by
  have hget : (get : Edit w (Place w)) p = .ok p p := rfl
  refine (bind_of_ok hget).trans ?_
  cases p.buffer.requireIndex "erase" with
  | error e => exact bind_of_error (ofExcept_of_error rfl)
  | ok s =>
    refine (bind_of_ok (ofExcept_of_ok rfl)).trans ?_
    dsimp only
    cases (s.occurrences f)[k]? with
    | none => rfl
    | some e =>
      dsimp only
      cases s.splice e.offset e.stop [] with
      | error e => exact bind_of_error (ofExcept_of_error rfl)
      | ok t => exact bind_of_ok (ofExcept_of_ok rfl)

theorem erase_null {k : Nat} (hp : p.buffer = .null) :
    erase f k p = .error (.bufferNull "erase") p := by
  rw [run_erase, hp]
  rfl

theorem erase_unindexed {k : Nat} (hp : p.buffer.Holds xs false) :
    erase f k p = .error (.notIndexed "erase") p := by
  obtain ⟨s, hs, hx, hi⟩ := hp
  simp [run_erase, hs, Buffer.requireIndex, hi]

theorem erase_missing {k : Nat} (hp : p.buffer.Holds xs true) (hk : (ofField f xs).length ≤ k) :
    erase f k p = .error (.notPresent (.ident w f) k) p := by
  obtain ⟨s, hs, hx, hi⟩ := hp
  rw [← hx.length_occurrences] at hk
  simp [run_erase, hs, Buffer.requireIndex, hi, List.getElem?_eq_none hk]

theorem erase_leaves {k : Nat} (hp : p.buffer.Holds xs true) (hk : k < (ofField f xs).length) :
    Leaves (erase f k) p (substitute f [] k xs) true := by
  obtain ⟨s, hs, hx, hi⟩ := hp
  obtain ⟨e, he⟩ : ∃ e, (s.occurrences f)[k]? = some e := by
    rw [← hx.length_occurrences] at hk
    exact ⟨_, List.getElem?_eq_getElem hk⟩
  have hsplice := (hx.splice_occurrence he []).2
  have hsound : ∀ y ∈ substitute f [] k xs, y.Sound := fun y hy =>
    hx.sound y ((mem_substitute hk hy).resolve_right List.not_mem_nil)
  have hfit : regionSize (substitute f [] k xs) ≤ s.capacity := by
    obtain ⟨as, y, cs, rfl, hy, rfl⟩ := exists_occurrence hk
    have hused := hx.used_le
    simp only [hx.used, regionSize, encodeAll_append, encodeAll_cons, List.length_append] at hused
    simp only [substitute_split hy rfl, regionSize, encodeAll_append, List.append_nil,
      List.length_append]
    omega
  have hsorted : Sorted (substitute f [] k xs) := sorted_substitute hk (by simp) (hx.sorted hi)
  rw [Storage.laid_of_le hfit] at hsplice
  rw [encodeAll_nil] at hsplice
  simp only [Leaves, Ends, run_erase, hs, Buffer.requireIndex, hi, if_true, he, hsplice]
  have ht := (hx.withLive hsound hfit).1.reindexed hx.flag fun _ => hsorted
  exact ⟨⟨_, rfl, ht, (Storage.isSome_index_reindexed _).trans hi⟩, trivial⟩

theorem retain_leaves {operation : String} {keep : FieldId w → Bool}
    (hp : p.buffer.Holds xs indexed) :
    Leaves (retain operation keep) p (xs.filter fun x => keep x.id) indexed := by
  obtain ⟨s, hs, hx, rfl⟩ := hp
  simp only [Leaves, retain, ends_bind, ends_storage, hs, ends_put, ends_pure]
  refine ⟨fun t hst => ?_, fun h => by simp at h⟩
  obtain rfl := Buffer.allocated.inj hst
  obtain ⟨ht, -, hi⟩ := hx.retain keep
  exact ⟨⟨_, rfl, ht, hi⟩, trivial⟩

theorem clear_leaves (hp : p.buffer.Holds xs indexed) :
    Leaves clear p ([] : List (Item w)) true := by
  obtain ⟨s, hs, hx, -⟩ := hp
  have hfit : regionSize ([] : List (Item w)) ≤ s.capacity := by
    have hused := hx.used_le
    simp only [hx.used, regionSize, encodeAll_nil, List.length_nil] at hused ⊢
    omega
  have hnone : ∀ y ∈ ([] : List (Item w)), y.Sound := by simp
  have ht := (hx.withLive hnone hfit).1
  simp only [Leaves, clear, ends_bind, ends_storage, hs, ends_put]
  refine ⟨fun t hst => ?_, fun h => by simp at h⟩
  obtain rfl := Buffer.allocated.inj hst
  rw [encodeAll_nil] at ht
  have hentries := ht.entries_eq
  refine ⟨⟨_, rfl, ⟨ht.setIndexed true _ _, Header.isIndexed_setIndexed _ true, ?_,
    fun _ => List.Pairwise.nil⟩, rfl⟩, trivial⟩
  rintro ix hix
  rw [← hentries]
  exact (Option.some.inj hix).symm

theorem buildIndex_leaves (hp : p.buffer.Holds xs indexed) (interval : Nat) :
    Leaves (buildIndex interval) p (sort xs) true := by
  obtain ⟨s, hs, hx, -⟩ := hp
  simp only [Leaves, buildIndex, ends_bind, ends_storage, hs, ends_put]
  refine ⟨fun t hst => ?_, fun h => by simp at h⟩
  obtain rfl := Buffer.allocated.inj hst
  exact ⟨⟨_, rfl, (hx.indexed interval).1, rfl⟩, trivial⟩

theorem dropIndex_leaves (hp : p.buffer.Holds xs indexed) : Leaves dropIndex p xs false := by
  obtain ⟨s, hs, hx, -⟩ := hp
  simp only [Leaves, Ends, dropIndex, hs]
  exact ⟨⟨_, rfl, hx.unindexed, rfl⟩, rfl⟩

theorem reallocate_ends (hp : p.buffer.Holds xs indexed) (hc : p.arena.config.Stated) (size : Nat) :
    Ends (reallocate size) p
      (fun _ q => q.buffer.Holds xs indexed ∧ q.arena.config = p.arena.config) fun _ q => q = p := by
  obtain ⟨s, hs, hx, hi⟩ := hp
  refine ends_reallocate hs (fun _ => rfl) (fun n hused hgrow => ?_) fun n hused hless => ?_
  · apply (extend_ends s n).mono
    · rintro _ q ⟨hq, ha, hgrant⟩
      exact ⟨⟨_, hq, hx.resized (hx.used ▸ hused) (Nat.lt_of_le_of_lt (hgrant hgrow) hc), hi⟩, ha⟩
    · exact fun _ _ h => h.2
  · have hlt : n < 2 ^ 32 := Nat.lt_of_le_of_lt hless hx.capacity_lt
    exact ⟨⟨_, rfl, hx.resized (hx.used ▸ hused) hlt, hi⟩, Arena.config_reduce ..⟩

theorem grow_ends (hs : p.buffer = .allocated s) (hx : s.Holds xs) (hc : p.arena.config.Stated)
    (hlt : s.capacity < regionSize zs) :
    Ends (grow (regionSize zs - s.used)) p
      (fun _ q => q.arena.config = p.arena.config ∧ ∃ t, q.buffer = .allocated t ∧ t.Holds xs ∧
        regionSize zs ≤ t.capacity)
      fun e q => p.arena.config.Refuses e ∧ q = p := by
  have hused := hx.used_le
  have hneed : s.used + (regionSize zs - s.used) = regionSize zs := by omega
  rw [grow, ends_bind, ends_storage]
  refine ⟨fun t hst => ?_, fun h => by simp [hs] at h⟩
  obtain rfl := Buffer.allocated.inj (hs.symm.trans hst)
  rw [hneed, ← Storage.sizeFor]
  apply (extend_ends s _).mono
  · rintro _ q ⟨hq, ha, hgrant⟩
    have hsize := Nat.lt_of_le_of_lt (hgrant (s.capacity_lt_sizeFor hlt)) hc
    obtain ⟨ht, hroom⟩ := hx.resized_sizeFor hlt hsize
    exact ⟨ha, _, hq, ht, hroom⟩
  · exact fun _ _ h => h

theorem install_makes (hp : p.buffer.Holds xs indexed) (hc : p.arena.config.Stated)
    (hz : ∀ z ∈ zs, z.Sound) : Makes (install (encodeAll zs)) p (sort zs) true := by
  obtain ⟨s, hs, hx, -⟩ := hp
  have hput : ∀ (t : Storage w) (q : Place w), t.Holds xs → q.buffer = .allocated t →
      regionSize zs ≤ t.capacity → Leaves (do
        let s ← storage "write"
        put ((s.withLive (encodeAll zs)).indexed s.interval)) q (sort zs) true := by
    intro t q ht hq hfit
    simp only [Leaves, ends_bind, ends_storage, hq, ends_put]
    refine ⟨fun _ hst => ?_, fun h => by simp at h⟩
    obtain rfl := Buffer.allocated.inj hst
    exact ⟨⟨_, rfl, ((ht.withLive hz hfit).1.indexed _).1, rfl⟩, trivial⟩
  rw [Makes, install, ends_bind, ends_storage]
  refine ⟨fun t hst => ?_, fun h => by simp [hs] at h⟩
  obtain rfl := Buffer.allocated.inj (hs.symm.trans hst)
  have hsize : Header.size + (encodeAll zs).length = regionSize zs := rfl
  simp only [hsize]
  by_cases hfit : s.capacity < regionSize zs
  · rw [if_pos hfit, ends_bind]
    refine (grow_ends hs hx hc hfit).mono ?_ ?_
    · rintro _ q ⟨ha, t, hq, ht, hroom⟩
      exact (hput t q ht hq hroom).mono (fun _ _ h => ⟨h.1, h.2.trans ha⟩) fun _ _ h => h.elim
    · rintro e q ⟨he, rfl⟩
      exact ⟨he, rfl, rfl⟩
  · rw [if_neg hfit]
    exact (hput s p hx hs (Nat.le_of_not_lt hfit)).makes

end Edit

namespace Merge

theorem mem_of_overlay {α : Type} {as bs : List α} {a : α} (h : a ∈ overlay as bs) :
    a ∈ as ∨ a ∈ bs := by
  induction as generalizing bs with
  | nil =>
    cases bs with
    | nil => exact .inl h
    | cons b bs => exact .inr h
  | cons c as ih =>
    cases bs with
    | nil => exact .inl h
    | cons b bs =>
      rcases List.mem_cons.1 h with rfl | h
      · exact .inr (List.mem_cons_self ..)
      · exact (ih h).imp (List.mem_cons_of_mem _) (List.mem_cons_of_mem _)

theorem mem_of_merge {α : Type} {m : Merge} {as bs : List α} {a : α} (h : a ∈ m.merge as bs) :
    a ∈ as ∨ a ∈ bs := by
  cases m with
  | concat => exact List.mem_append.1 h
  | join =>
    simp only [merge] at h
    split at h
    · simp at h
    · exact .inr h
  | outerJoin =>
    simp only [merge] at h
    split at h
    · simp at h
    · split at h
      · exact .inl h
      · exact .inr h
  | update => exact mem_of_overlay h

theorem mem_of_entries {m : Merge} {es ds : List (Entry w)} {e : Entry w}
    (h : e ∈ m.entries es ds) : e ∈ es ∨ e ∈ ds := by
  obtain ⟨f, -, hf⟩ := List.mem_flatMap.1 h
  exact (mem_of_merge hf).imp (fun h => (List.mem_filter.1 h).1) fun h => (List.mem_filter.1 h).1

end Merge

theorem Merge.sound_entries {m : Merge} {ys : List (Item w)} (hx : ∀ x ∈ xs, x.Sound)
    (hy : ∀ y ∈ ys, y.Sound) :
    ∀ z ∈ (m.entries (layout Header.size xs) (layout Header.size ys)).map Entry.item, z.Sound := by
  intro z hz
  obtain ⟨e, he, rfl⟩ := List.mem_map.1 hz
  rcases Merge.mem_of_entries he with he | he
  · exact hx _ (mem_of_mem_layout he)
  · exact hy _ (mem_of_mem_layout he)

theorem Edit.merge_makes {m : Merge} {ys : List (Item w)} {indexed other : Bool} {b : Buffer w}
    (hp : p.buffer.Holds xs indexed) (hb : b.Holds ys other) (hc : p.arena.config.Stated) :
    Makes (merge m b) p
      (sort ((m.entries (layout Header.size xs) (layout Header.size ys)).map Entry.item)) true := by
  obtain ⟨s, hs, hx, hi⟩ := hp
  obtain ⟨t, rfl, hy, -⟩ := hb
  have h := install_makes ⟨s, hs, hx, hi⟩ hc (Merge.sound_entries (m := m) hx.sound hy.sound)
  rw [Makes, merge, ends_bind, ends_storage]
  refine ⟨fun u hst => ?_, fun h => by simp [hs] at h⟩
  obtain rfl := Buffer.allocated.inj (hs.symm.trans hst)
  simp only [Buffer.require, ends_bind, ends_ok, Entry.flatMap_encode, hx.entries_eq, hy.entries_eq]
  exact h

end FieldBuffers
