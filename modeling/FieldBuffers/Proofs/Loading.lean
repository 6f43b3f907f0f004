import FieldBuffers.Proofs.Logical
import FieldBuffers.Proofs.Simulation

/-! Many values written one after another. Appending them all and sorting once leaves the bytes that
adding each in its place does, and only the order of the values of each field counts. -/

namespace FieldBuffers

open Item

variable {w : Width} {α : Type} {xs zs : List (Item w)} {p q r : Place w} {f : FieldId w}
  {x : FieldId w × Value} {us vs : List (FieldId w × Value)}

namespace Change

def appends (vs : List (FieldId w × Value)) : List (Change w) := vs.map fun x => .append x.1 x.2

def adds (vs : List (FieldId w × Value)) : List (Change w) := vs.map fun x => .add x.1 x.2

/-- The change is not refused any room. -/
def Granted (d : Change w) (p : Place w) : Prop :=
  Ends d.run p (fun _ _ => True) fun e _ => ¬ p.arena.config.Refuses e

theorem after_of_error {d : Change w} {e : Error} (h : d.run p = .error e q) : d.after p = q := by
  rw [after, h]

theorem after_of_makes {d : Change w} {edit : Edit w Unit} {indexed : Bool}
    (hd : d.run = do edit; return none) (h : Makes edit p zs indexed) (hg : d.Granted p) :
    (d.after p).buffer.Holds zs indexed ∧ (d.after p).arena.config = p.arena.config := by
  have hrun : Ends d.run p
      (fun _ q => q.buffer.Holds zs indexed ∧ q.arena.config = p.arena.config)
      fun e _ => p.arena.config.Refuses e := by
    rw [hd, ends_bind]
    exact Ends.mono h (fun _ _ hq => hq) fun _ _ he => he.1
  have hboth := hrun.and hg
  rw [Ends] at hboth
  rw [after]
  cases hr : d.run p with
  | ok n q =>
    rw [hr] at hboth
    exact hboth.1
  | error e q =>
    rw [hr] at hboth
    exact absurd hboth.1 hboth.2

end Change

def Place.Granted : Place w → List (Change w) → Prop
  | _, [] => True
  | p, d :: ds => d.Granted p ∧ (d.after p).Granted ds

instance (c : ArenaConfig) : (e : Error) → Decidable (c.Refuses e)
  | .arenaCapacity size limit =>
    decidable_of_iff (c.ceiling < size)
      ⟨fun h => ⟨size, limit, h, rfl⟩, fun ⟨_, _, h, he⟩ => by cases he; exact h⟩
  | .notPresent .. | .typeMismatch .. | .spaceExhausted .. | .bufferNull _ | .notIndexed _
  | .unknownName _ | .unknownIdentifier _ | .invalidIdentifier .. | .tableLoad ..
  | .malformedExpression .. | .corrupt .. | .textParse .. | .transport _ | .io .. =>
    isFalse fun ⟨_, _, _, he⟩ => nomatch he

instance (d : Change w) (p : Place w) : Decidable (d.Granted p) :=
  match h : d.run p with
  | .ok _ _ => isTrue ((ends_of_ok h).2 trivial)
  | .error e _ =>
    if he : p.arena.config.Refuses e then isFalse fun hg => (ends_of_error h).1 hg he
    else isTrue ((ends_of_error h).2 he)

instance decidableGranted : (p : Place w) → (ds : List (Change w)) → Decidable (p.Granted ds)
  | _, [] => isTrue trivial
  | p, d :: ds =>
    have := decidableGranted (d.after p) ds
    inferInstanceAs (Decidable (_ ∧ _))

/-- The item that a write of a value adds, if the field can store the value. -/
def Item.written (x : FieldId w × Value) : List (Item w) :=
  match x.2.encodeEntry x.1 with
  | .ok _ => [Item.of x.1 x.2]
  | .error _ => []

theorem Item.written_id {y : Item w} (h : y ∈ written x) : y.id = x.1 := by
  rw [written] at h
  split at h
  · rw [List.mem_singleton.1 h]
    rfl
  · cases h

def Matching (vs : List (FieldId w × Value)) : Prop :=
  ∀ x ∈ vs, x.2.type = x.1.type ∧ x.2.Made

section Step

variable {indexed : Bool} (hc : p.arena.config.Stated) (ht : x.2.type = x.1.type) (hv : x.2.Made)
include hc ht hv

theorem append_after (hp : p.buffer.Holds xs indexed) (hg : (Change.append x.1 x.2).Granted p) :
    (∃ i, ((Change.append x.1 x.2).after p).buffer.Holds (xs ++ written x) i) ∧
      ((Change.append x.1 x.2).after p).arena.config = p.arena.config := by
  cases he : x.2.encodeEntry x.1 with
  | ok entry =>
    have h := Edit.append_makes (.inl hp) hc hv.built ht he
    obtain ⟨hh, hconf⟩ := Change.after_of_makes rfl h hg
    rw [written, he]
    exact ⟨⟨_, hh⟩, hconf⟩
  | error e =>
    obtain ⟨d, hd⟩ := Edit.append_eq_error (p := p) fun _ entry h => nomatch he.symm.trans h
    have hrun : (Change.append x.1 x.2).run p = .error d p := bind_of_error hd
    rw [Change.after_of_error hrun, written, he, List.append_nil]
    exact ⟨⟨_, hp⟩, rfl⟩

theorem add_after (hp : p.buffer.Holds xs true) (hg : (Change.add x.1 x.2).Granted p) :
    ((Change.add x.1 x.2).after p).buffer.Holds (sort (xs ++ written x)) true ∧
      ((Change.add x.1 x.2).after p).arena.config = p.arena.config := by
  have hs : Sorted xs := Buffer.Offers.sorted (.inl hp) rfl
  have hcoerce : x.2.coerce x.1.type (.ident w x.1) = .ok x.2 := if_pos ht
  cases he : x.2.encodeEntry x.1 with
  | ok entry =>
    have h := Edit.add_makes (.inl hp) hc hv.built ⟨hcoerce, entry, he⟩
    rw [written, he, ← put_eq_sort hs]
    exact Change.after_of_makes rfl h hg
  | error e =>
    have hnot : ∀ u, ¬ Edit.Accepts x.1 x.2 u := by
      rintro u ⟨hu, entry, h⟩
      obtain rfl := Except.ok.inj (hcoerce.symm.trans hu)
      exact nomatch he.symm.trans h
    obtain ⟨d, hd⟩ := Edit.add_eq_error (p := p) hnot
    have hrun : (Change.add x.1 x.2).run p = .error d p := bind_of_error hd
    rw [Change.after_of_error hrun, written, he, List.append_nil, sort_eq_self hs]
    exact ⟨hp, rfl⟩

end Step

theorem holds_of_appends {indexed : Bool} (hc : p.arena.config.Stated) (hm : Matching vs)
    (hp : p.buffer.Holds xs indexed) (hg : p.Granted (Change.appends vs)) :
    ∃ i, (p.afterAll (Change.appends vs)).buffer.Holds (xs ++ vs.flatMap written) i := by
  induction vs generalizing p xs indexed with
  | nil =>
    rw [List.flatMap_nil, List.append_nil]
    exact ⟨indexed, hp⟩
  | cons x vs ih =>
    obtain ⟨hx, hvs⟩ := List.forall_mem_cons.1 hm
    obtain ⟨⟨i, hi⟩, hconf⟩ := append_after hc hx.1 hx.2 hp hg.1
    obtain ⟨j, hj⟩ := ih (hconf ▸ hc) hvs hi hg.2
    rw [List.append_assoc] at hj
    exact ⟨j, hj⟩

theorem holds_of_adds (hc : p.arena.config.Stated) (hm : Matching vs)
    (hp : p.buffer.Holds xs true) (hg : p.Granted (Change.adds vs)) :
    (p.afterAll (Change.adds vs)).buffer.Holds (sort (xs ++ vs.flatMap written)) true := by
  induction vs generalizing p xs with
  | nil =>
    have hs : Sorted xs := Buffer.Offers.sorted (.inl hp) rfl
    rw [List.flatMap_nil, List.append_nil, sort_eq_self hs]
    exact hp
  | cons x vs ih =>
    obtain ⟨hx, hvs⟩ := List.forall_mem_cons.1 hm
    obtain ⟨hi, hconf⟩ := add_after hc hx.1 hx.2 hp hg.1
    have hj := ih (hconf ▸ hc) hvs hi hg.2
    rw [sort_append_sort, List.append_assoc] at hj
    exact hj

/-- The places that a list of values can be loaded into: appended and then sorted, added one by one,
or added and then indexed afresh. -/
inductive Loads (p : Place w) (vs : List (FieldId w × Value)) : Place w → Prop
  | appended (interval : Nat) : p.Granted (Change.appends vs) →
      Loads p vs ((Change.buildIndex interval).after (p.afterAll (Change.appends vs)))
  | added : p.Granted (Change.adds vs) → Loads p vs (p.afterAll (Change.adds vs))
  | indexed (interval : Nat) : p.Granted (Change.adds vs) →
      Loads p vs ((Change.buildIndex interval).after (p.afterAll (Change.adds vs)))

theorem holds_of_buildIndex {indexed : Bool} (hp : p.buffer.Holds xs indexed) (interval : Nat) :
    ((Change.buildIndex interval).after p).buffer.Holds (sort xs) true := by
  have h := Edit.buildIndex_leaves hp interval
  refine (Change.after_of_makes rfl h.makes ?_).1
  rw [Change.Granted, Change.run, ends_bind]
  exact Ends.mono h (fun _ _ _ => trivial) fun _ _ he => he.elim

theorem Loads.holds (h : Loads p vs q) (hc : p.arena.config.Stated) (hm : Matching vs)
    (hp : p.buffer.Holds xs true) : q.buffer.Holds (sort (xs ++ vs.flatMap written)) true := by
  cases h with
  | appended interval hg =>
    obtain ⟨i, hi⟩ := holds_of_appends hc hm hp hg
    exact holds_of_buildIndex hi interval
  | added hg => exact holds_of_adds hc hm hp hg
  | indexed interval hg =>
    have h := holds_of_buildIndex (holds_of_adds hc hm hp hg) interval
    rwa [sort_eq_self (sorted_sort _)] at h

theorem ofField_flatMap_written (f : FieldId w) (vs : List (FieldId w × Value)) :
    ofField f (vs.flatMap written) = (vs.filter (·.1 = f)).flatMap written := by
  induction vs with
  | nil => rfl
  | cons x vs ih =>
    rw [List.flatMap_cons, ofField_append, ih]
    by_cases hx : x.1 = f
    · rw [List.filter_cons_of_pos (by simpa using hx), List.flatMap_cons,
        ofField_eq_self fun y hy => (written_id hy).trans hx]
    · rw [List.filter_cons_of_neg (by simpa using hx),
        ofField_eq_nil fun y hy => by rwa [written_id hy], List.nil_append]

theorem sort_append_written (h : ∀ f, us.filter (·.1 = f) = vs.filter (·.1 = f)) :
    sort (xs ++ us.flatMap written) = sort (xs ++ vs.flatMap written) := by
  refine eq_of_sorted (sorted_sort _) (sorted_sort _) fun f => ?_
  rw [ofField_sort, ofField_sort, ofField_append, ofField_append, ofField_flatMap_written,
    ofField_flatMap_written, h]

def Buffer.live : Buffer w → Bytes
  | .null => []
  | .allocated s => s.live

/-- The bytes of the entries that the values of a field become, those left out that it cannot
store. -/
def entriesOf (f : FieldId w) (vs : List (FieldId w × Value)) : List Bytes :=
  (vs.filter (·.1 = f)).filterMap fun x => (x.2.encodeEntry x.1).toOption

theorem entriesOf_eq (hm : Matching vs) (f : FieldId w) :
    entriesOf f vs = (ofField f (vs.flatMap written)).map Item.encode := by
  have hstep : ∀ x ∈ vs, (x.2.encodeEntry x.1).toOption.toList = (written x).map Item.encode := by
    intro x hx
    obtain ⟨ht, hv⟩ := hm x hx
    rw [written]
    cases he : x.2.encodeEntry x.1 with
    | error e => rfl
    | ok entry =>
      rw [(Value.sound_item ht hv.built he).2]
      rfl
  rw [ofField_flatMap_written, entriesOf, List.map_flatMap, List.filterMap_eq_flatMap_toList]
  refine List.flatMap_congr fun x hx => hstep x (List.mem_filter.1 hx).1

/-- Two buffers give every reader the same. -/
structure Buffer.SameAnswers (a b : Buffer w) : Prop where
  length : a.length = b.length
  fields : a.fields = b.fields
  checksum : a.checksum = b.checksum
  count (f : FieldId w) : a.count f = b.count f
  has (f : FieldId w) (k : Nat) : a.has f k = b.has f k
  get (c : ArenaConfig) (f : FieldId w) (k : Nat) : a.get c f k = b.get c f k
  getAs (c : ArenaConfig) (t : FieldType) (f : FieldId w) (k : Nat) :
    a.getAs c t f k = b.getAs c t f k
  getLast (c : ArenaConfig) (f : FieldId w) : a.getLast c f = b.getLast c f
  valueLength (f : FieldId w) (k : Nat) : a.valueLength f k = b.valueLength f k
  find (c : ArenaConfig) (f : FieldId w) (v : Value) : a.find c f v = b.find c f v
  findMatch (c : ArenaConfig) (f : FieldId w) (source : String) :
    a.findMatch c f source = b.findMatch c f source
  toList (c : ArenaConfig) : a.toList c = b.toList c
  next? (after : Option (FieldId w × Nat)) : a.next? after = b.next? after
  test (c : ArenaConfig) (e : Expr w) : e.test c a = e.test c b
  compute (c : ArenaConfig) (e : Expr w) : e.compute c a = e.compute c b

namespace Buffer

theorem entry_of_isIndexed {b : Buffer w} (hb : b.isIndexed = true) (operation : String)
    (f : FieldId w) (k : Nat) : b.entry operation f k = match (b.occurrences f)[k]? with
      | some e => .ok e
      | none => .error (.notPresent (.ident w f) k) := by
  cases b with
  | null => cases hb
  | allocated s =>
    have hs : (allocated s).requireIndex operation = .ok s := if_pos hb
    rw [entry, hs]
    rfl

theorem getLast_of_isIndexed {b : Buffer w} (hb : b.isIndexed = true) (c : ArenaConfig)
    (f : FieldId w) : b.getLast c f = match b.count f with
      | 0 => .error (.notPresent (.ident w f) 0)
      | n + 1 => b.get c f n := by
  cases b with
  | null => cases hb
  | allocated s =>
    have hs : (allocated s).requireIndex "get_last" = .ok s := if_pos hb
    rw [getLast, hs]
    rfl

theorem find_of_isIndexed {b : Buffer w} (hb : b.isIndexed = true) (c : ArenaConfig)
    (f : FieldId w) (v : Value) : b.find c f v = (do
      let wanted ← v.coerce f.type (.ident w f)
      firstWhere c (fun u => u.same c wanted) 0 (b.occurrences f)) := by
  cases b with
  | null => cases hb
  | allocated s =>
    have hs : (allocated s).requireIndex "find" = .ok s := if_pos hb
    rw [find, hs]
    rfl

theorem findMatch_of_isIndexed {b : Buffer w} (hb : b.isIndexed = true) (c : ArenaConfig)
    (f : FieldId w) (source : String) : b.findMatch c f source =
      if f.type.isTextual then
        match Pattern.anchored? source with
        | none => .error (.malformedExpression source 0 "invalid regex")
        | some p =>
          firstWhere c (fun v => v.text?.any fun t => p.found t.toList) 0 (b.occurrences f)
      else .error (.mismatch f "string, carray or mbstring" f.type.keyword) := by
  cases b with
  | null => cases hb
  | allocated s =>
    have hs : (allocated s).requireIndex "find_match" = .ok s := if_pos hb
    rw [findMatch, hs]
    cases f.type.isTextual
    · rfl
    · cases Pattern.anchored? source <;> rfl

theorem sameAnswers_of_eq {a b : Buffer w} (ha : a.isIndexed = true) (hb : b.isIndexed = true)
    (hentries : a.entries = b.entries) (hocc : ∀ f, a.occurrences f = b.occurrences f)
    (hsum : a.checksum = b.checksum) : a.SameAnswers b := by
  have hcount : ∀ f, a.count f = b.count f := fun f => by rw [count, count, hocc]
  have hentry : ∀ operation f k, a.entry operation f k = b.entry operation f k := by
    intro operation f k
    rw [entry_of_isIndexed ha, entry_of_isIndexed hb, hocc]
  have hget : ∀ c f k, a.get c f k = b.get c f k := fun c f k => by rw [get, get, hentry]
  have hpositions : a.positions = b.positions := by rw [positions, positions, hentries]
  have heval : ∀ c (e : Expr w), e.test c a = e.test c b ∧ e.compute c a = e.compute c b := by
    refine fun c e => Expr.eq_of_reads ⟨hcount, fun r n => ?_⟩ e
    rw [r.fetch_eq, r.fetch_eq, hocc]
    exact .refl _
  constructor
  case length => rw [length, length, hentries]
  case fields => rw [fields, fields, hentries]
  case checksum => exact hsum
  case count => exact hcount
  case has =>
    intro f k
    rw [has, has, hcount]
  case get => exact hget
  case getAs =>
    intro c t f k
    rw [getAs, getAs, hget]
  case getLast =>
    intro c f
    rw [getLast_of_isIndexed ha, getLast_of_isIndexed hb, hcount]
    simp only [hget]
  case valueLength =>
    intro f k
    rw [valueLength, valueLength, hentry]
  case find =>
    intro c f v
    rw [find_of_isIndexed ha, find_of_isIndexed hb, hocc]
  case findMatch =>
    intro c f source
    rw [findMatch_of_isIndexed ha, findMatch_of_isIndexed hb, hocc]
  case toList =>
    intro c
    rw [toList, toList, hpositions, hentries]
  case next? =>
    intro after
    rw [next?.eq_def, next?.eq_def, hpositions]
  case test => exact fun c e => (heval c e).1
  case compute => exact fun c e => (heval c e).2

theorem Holds.live_eq {b : Buffer w} {indexed : Bool} (h : b.Holds xs indexed) :
    b.live = encodeAll xs := by
  obtain ⟨s, rfl, hs, -⟩ := h
  exact hs.live_eq

theorem Holds.checksum_eq {b : Buffer w} {indexed : Bool} (h : b.Holds xs indexed) :
    b.checksum = .ok (Checksum.crc32 (encodeAll xs)) := by
  obtain ⟨s, rfl, hs, -⟩ := h
  change Except.ok (Checksum.crc32 s.live) = _
  rw [hs.live_eq]

theorem Holds.sameAnswers {a b : Buffer w} (ha : a.Holds xs true) (hb : b.Holds xs true) :
    a.SameAnswers b := by
  have hi := ha.isIndexed_eq
  have hj := hb.isIndexed_eq
  have hsum := ha.checksum_eq.trans hb.checksum_eq.symm
  obtain ⟨s, rfl, hs, -⟩ := ha
  obtain ⟨t, rfl, ht, -⟩ := hb
  refine sameAnswers_of_eq hi hj (hs.entries_eq.trans ht.entries_eq.symm) (fun f => ?_) hsum
  exact (hs.occurrences_eq f).trans (ht.occurrences_eq f).symm

end Buffer

/-- Appending a list of values to an indexed buffer and then sorting leaves the entries that adding
them in order does: each field's occurrences, and after them those the list has for the field. Two
lists that have the same values for each field, in the same order, leave the same bytes. -/
theorem loads_of_reachable {p q r : Place w} {us vs : List (FieldId w × Value)}
    (hb : Reachable ArenaConfig.Stated p.buffer) (hi : p.buffer.isIndexed = true)
    (hc : p.arena.config.Stated) (hu : Matching us) (hv : Matching vs)
    (h : ∀ f, us.filter (·.1 = f) = vs.filter (·.1 = f)) (hq : Loads p us q) (hr : Loads p vs r) :
    q.buffer.live = r.buffer.live ∧ q.buffer.SameAnswers r.buffer ∧ q.buffer.isIndexed = true ∧
      ∀ f, q.buffer.rawOccurrences f = p.buffer.rawOccurrences f ++ entriesOf f us := by
  have hn : p.buffer.isNull = false := by
    cases hp : p.buffer with
    | null =>
      rw [hp] at hi
      cases hi
    | allocated s => rfl
  obtain ⟨xs, indexed, hp⟩ := Buffer.holds_of_reachable hb hn
  obtain rfl : indexed = true := hp.isIndexed_eq.symm.trans hi
  have hx := hq.holds hc hu hp
  have hy := hr.holds hc hv hp
  rw [← sort_append_written h] at hy
  refine ⟨hx.live_eq.trans hy.live_eq.symm, hx.sameAnswers hy, hx.isIndexed_eq, fun f => ?_⟩
  obtain ⟨s, hs, hp, -⟩ := hp
  obtain ⟨t, ht, hx, -⟩ := hx
  rw [hs, ht, hp.rawOccurrences_eq, hx.rawOccurrences_eq, ofField_sort, ofField_append,
    List.map_append, entriesOf_eq hu]

theorem loads_after_allocate :
    let f : FieldId .wide := ⟨.short, 1, by decide, by decide, by decide⟩
    let g : FieldId .wide := ⟨.char, 2, by decide, by decide, by decide⟩
    let p := (Change.reallocate 32).after (⟨{ config := ⟨32, 128⟩ }, .null⟩ : Place .wide)
    let q := (Change.buildIndex 2).after
      (p.afterAll (Change.appends [(g, .char 65), (f, .short 7), (f, .short 8)]))
    let r := p.afterAll (Change.adds [(f, .short 7), (f, .short 8), (g, .char 65)])
    q.buffer.live = r.buffer.live ∧ q.buffer.SameAnswers r.buffer ∧
      (q.buffer.rawOccurrences f).length = 2 := by
  intro f g p q r
  have hempty : Reachable ArenaConfig.Stated (.null : Buffer .wide) := .null
  have hstated : (⟨32, 128⟩ : ArenaConfig).Stated := show 128 < 2 ^ 32 by decide
  have hplain : (Change.reallocate 32 : Change .wide).Plain :=
    ⟨by simp [Change.value?], by simp [Change.other?]⟩
  have hb : Reachable ArenaConfig.Stated p.buffer :=
    .after hstated hempty (fun b h => absurd h (hplain.value b)) fun b h => absurd h (hplain.other b)
  have hc : p.arena.config.Stated := by
    rw [Change.config_after hstated hempty hplain]
    exact hstated
  have hmatch : ∀ us : List (FieldId .wide × Value),
      (∀ x ∈ us, x = (f, .short 7) ∨ x = (f, .short 8) ∨ x = (g, .char 65)) → Matching us := by
    intro us hus x hx
    rcases hus x hx with rfl | rfl | rfl
    all_goals exact ⟨rfl, by simp [Value.Made]⟩
  have hu : Matching [(g, .char 65), (f, .short 7), (f, .short 8)] := hmatch _ (by simp)
  have hv : Matching [(f, .short 7), (f, .short 8), (g, .char 65)] := hmatch _ (by simp)
  have h := loads_of_reachable hb (by decide +kernel) hc hu hv (fun e => ?_)
    (.appended 2 (by decide +kernel)) (.added (by decide +kernel))
  · refine ⟨h.1, h.2.1, ?_⟩
    rw [h.2.2.2 f]
    decide +kernel
  · have hne : g ≠ f := by decide
    by_cases he : f = e
    · subst he
      simp [hne]
    · simp [List.filter_cons, he]

end FieldBuffers
