import FieldBuffers.Expr.Evaluation
import FieldBuffers.Proofs.Merging
import FieldBuffers.Proofs.Alike

/-! What an evaluation can see of a buffer: how many occurrences each field has, and what each of
them reads as. Equal buffers show the same, whatever the order of their entries and whether or not
there is an index. -/

namespace FieldBuffers

open Item

variable {w : Width} {α β : Type}

/-- The same outcome, or two errors of one sort. -/
def Agree (P : Error → Prop) (x y : Except Error α) : Prop :=
  x = y ∨ ∃ e d, x = .error e ∧ y = .error d ∧ P e ∧ P d

namespace Agree

variable {P : Error → Prop} {x y : Except Error α}

theorem refl (x : Except Error α) : Agree P x x := .inl rfl

theorem errors {e d : Error} (he : P e) (hd : P d) : Agree P (.error e : Except Error α) (.error d) :=
  .inr ⟨e, d, rfl, rfl, he, hd⟩

theorem eq (h : Agree (fun _ => False) x y) : x = y := by
  rcases h with h | ⟨_, _, _, _, h, _⟩
  · exact h
  · exact h.elim

theorem bind {f g : α → Except Error β} (h : Agree P x y) (hf : ∀ a, Agree P (f a) (g a)) :
    Agree P (x >>= f) (y >>= g) := by
  rcases h with rfl | ⟨e, d, rfl, rfl, he, hd⟩
  · cases x with
    | error e => exact refl _
    | ok a => exact hf a
  · exact errors he hd

theorem map (f : α → β) (h : Agree P x y) : Agree P (x.map f) (y.map f) := by
  rcases h with rfl | ⟨e, d, rfl, rfl, he, hd⟩
  · exact refl _
  · exact errors he hd

end Agree

namespace Expr

variable {P : Error → Prop} {c : ArenaConfig} {a b : Buffer w}

/-- An occurrence as an expression reads it. -/
def Reference.fetch (c : ArenaConfig) (b : Buffer w) (r : Reference w) (n : Nat) :
    Except Error Scalar := do
  match ← b.value? c r.id n with
  | some v => r.scalar v
  | none => throw (.notPresent (.named r.name) n)

/-- Two buffers look alike to expressions, up to errors of one sort. -/
structure Reads (P : Error → Prop) (c : ArenaConfig) (a b : Buffer w) : Prop where
  count (f : FieldId w) : a.count f = b.count f
  fetch (r : Reference w) (n : Nat) : Agree P (r.fetch c a n) (r.fetch c b n)

theorem settled?_error {e : Error} (he : ∀ f k, e ≠ .notPresent f k) :
    settled? (.error e) = some (.error e) := by
  cases e with
  | notPresent f k => exact absurd rfl (he f k)
  | _ => rfl

theorem holdsFrom_agree (hP : ∀ f k, ¬ P (.notPresent f k)) (limits : List Nat)
    {s t : List Nat → Except Error Bool} (h : ∀ ds, Agree P (s ds) (t ds)) (fuel : Nat)
    (ds : List Nat) : Agree P (holdsFrom limits s fuel ds) (holdsFrom limits t fuel ds) := by
  induction fuel generalizing ds with
  | zero => exact .refl _
  | succ fuel ih =>
    have hne : ∀ e, P e → ∀ f k, e ≠ .notPresent f k := by
      rintro e he f k rfl
      exact hP f k he
    rw [holdsFrom, holdsFrom]
    rcases h ds with hs | ⟨e, d, hs, ht, he, hd⟩
    · rw [hs]
      split
      · exact .refl _
      · exact ih _
      · exact .refl _
    · rw [hs, ht, settled?_error (hne e he), settled?_error (hne d hd)]
      exact .errors he hd

theorem Connective.apply_agree (o : Connective) {l l' : Except Error Bool}
    {r r' : Unit → Except Error Bool} (hl : Agree P l l') (hr : Agree P (r ()) (r' ())) :
    Agree P (o.apply l r) (o.apply l' r') := by
  refine hl.bind fun v => ?_
  cases o <;> cases v
  all_goals first | exact hr | exact .refl _ | exact hr.bind fun _ => .refl _

def Meaning.Agree (P : Error → Prop) (m n : Meaning w) : Prop :=
  ∀ bound, FieldBuffers.Agree P (m.truth bound) (n.truth bound) ∧
    FieldBuffers.Agree P (m.value bound) (n.value bound)

theorem Meaning.ofTruth_agree {s t : Bindings w → Except Error Bool}
    (hst : ∀ bound, FieldBuffers.Agree P (s bound) (t bound)) :
    (Meaning.ofTruth s).Agree P (.ofTruth t) :=
  fun bound => ⟨hst bound, (hst bound).map _⟩

theorem Reference.meaning_agree (h : Reads P c a b) (r : Reference w) :
    (r.meaning c a).Agree P (r.meaning c b) := by
  refine fun bound => ⟨?_, h.fetch r _⟩
  simp only [Reference.meaning, Buffer.has, h.count]
  exact .refl _

variable (hP : ∀ f k, ¬ P (.notPresent f k)) (h : Reads P c a b)
include hP h

theorem quantified_agree (fs : List (FieldId w)) {s t : Bindings w → Except Error Bool}
    (hst : ∀ bound, Agree P (s bound) (t bound)) (bound : Bindings w) :
    Agree P (quantified a fs s bound) (quantified b fs t bound) := by
  have hcount : (unbound bound fs).map a.count = (unbound bound fs).map b.count :=
    List.map_congr_left fun f _ => h.count f
  rw [quantified, quantified]
  simp only [hcount, holdsSome]
  split
  · exact .refl _
  · exact holdsFrom_agree hP _ (fun ds => hst _) _ _

theorem Meaning.ofValue_agree (fs : List (FieldId w)) {s t : Bindings w → Except Error Scalar}
    (hst : ∀ bound, FieldBuffers.Agree P (s bound) (t bound)) :
    (Meaning.ofValue a fs s).Agree P (.ofValue b fs t) :=
  fun bound => ⟨quantified_agree hP h fs (fun bound => (hst bound).map _) bound, hst bound⟩

theorem meaning_agree (e : Expr w) : (e.meaning c a).Agree P (e.meaning c b) := by
  -- each node asks its operands under the same bindings, and goes through the same combinations
  induction e with
  | number word => exact Meaning.ofValue_agree hP h _ fun _ => .refl _
  | text s => exact Meaning.ofValue_agree hP h _ fun _ => .refl _
  | field r => exact r.meaning_agree h
  | signed s e ih =>
    cases s with
    | not => exact Meaning.ofTruth_agree fun bound => (ih bound).1.map _
    | minus | plus =>
      exact Meaning.ofValue_agree hP h _ fun bound =>
        (ih bound).2.bind fun _ => .refl _
  | binary o l r ihl ihr =>
    cases o with
    | connective o =>
      exact Meaning.ofTruth_agree fun bound => o.apply_agree (ihl bound).1 (ihr bound).1
    | relation o =>
      exact Meaning.ofTruth_agree <| quantified_agree hP h _ fun bound =>
        (ihl bound).2.bind fun _ => (ihr bound).2.bind fun _ => .refl _
    | arithmetic o =>
      exact Meaning.ofValue_agree hP h _ fun bound =>
        (ihl bound).2.bind fun _ => .bind (.refl _) fun _ => (ihr bound).2.bind fun _ => .refl _
  | like negated e source pattern ih =>
    exact Meaning.ofTruth_agree <| quantified_agree hP h _ fun bound =>
      (ih bound).2.bind fun _ => .refl _

theorem test_agree (e : Expr w) : Agree P (e.test c a) (e.test c b) :=
  (meaning_agree hP h e []).1

theorem compute_agree (e : Expr w) : Agree P (e.compute c a) (e.compute c b) :=
  (meaning_agree hP h e []).2.bind fun _ => .refl _

end Expr

namespace Buffer

variable {b : Buffer w} {xs : List (Item w)} {indexed : Bool}

theorem Offers.map_item_occurrences (h : b.Offers xs indexed) (f : FieldId w) :
    (b.occurrences f).map Entry.item = ofField f xs := by
  obtain ⟨s, rfl, hs, -⟩ | ⟨rfl, rfl, -⟩ := h
  · rw [occurrences, hs.occurrences_eq, map_item_filter_layout]
  · rfl

theorem Offers.length_occurrences (h : b.Offers xs indexed) (f : FieldId w) :
    (b.occurrences f).length = (ofField f xs).length := by
  rw [← h.map_item_occurrences, List.length_map]

theorem Offers.mem_of_mem_occurrences (h : b.Offers xs indexed) {f : FieldId w} {e : Entry w}
    (he : e ∈ b.occurrences f) : e.item ∈ xs := by
  have hmem := List.mem_map_of_mem (f := Entry.item) he
  rw [h.map_item_occurrences] at hmem
  exact (mem_ofField.1 hmem).1

theorem Offers.map_item_entries (h : b.Offers xs indexed) : b.entries.map Entry.item = xs := by
  obtain ⟨s, rfl, hs, -⟩ | ⟨rfl, rfl, -⟩ := h
  · rw [entries, hs.entries_eq, map_item_layout]
  · rfl

end Buffer

namespace Value

theorem isReadable_of_decode {c : ArenaConfig} {offset : Nat} {bs : Bytes} {v : Value}
    (h : decode c .fml offset bs = .ok v) : Region.isReadable c bs = true := by
  rw [Region.isReadable]
  by_cases hne : bs = []
  · subst hne
    rfl
  · obtain ⟨g, hg⟩ := (decode_fml_eq_ok_iff hne).1 h
    rw [(decode_fml_eq_ok_iff hne).2 ⟨g, hg⟩]
    rfl

theorem exists_decode_of_isReadable {c : ArenaConfig} {bs : Bytes}
    (h : Region.isReadable c bs = true) (offset : Nat) :
    ∃ b, decode c .fml offset bs = .ok (.fml b) := by
  by_cases hne : bs = []
  · subst hne
    exact ⟨_, decode_fml_nil ..⟩
  · rw [Region.isReadable] at h
    cases hd : decode c .fml 0 bs with
    | error e =>
      rw [hd] at h
      cases h
    | ok v =>
      obtain ⟨g, hg, hs, hn, hr, -⟩ := (decode_fml_eq_ok_iff hne).1 hd
      exact ⟨_, (decode_fml_eq_ok_iff hne).2 ⟨g, hg, hs, hn, hr, rfl⟩⟩

end Value

namespace Expr

variable {P : Error → Prop} {c : ArenaConfig} {a b : Buffer w} {xs ys : List (Item w)}
  {x y : Item w}

theorem Reference.fetch_eq (r : Reference w) (n : Nat) :
    r.fetch c b n = match (b.occurrences r.id)[n]? with
      | some e => e.decode c >>= r.scalar
      | none => .error (.notPresent (.named r.name) n) := by
  rw [fetch, Buffer.value?]
  cases (b.occurrences r.id)[n]? with
  | none => rfl
  | some e =>
    dsimp only
    cases e.decode c <;> rfl

end Expr

theorem Buffer.Offers.same_iff {c : ArenaConfig} {a b : Buffer w} {xs ys : List (Item w)}
    {i j : Bool} (ha : a.Offers xs i) (hb : b.Offers ys j) : a.same c b = true ↔
      a.isNull = b.isNull ∧ ∀ f, List.Forall₂ (Item.Same c) (ofField f xs) (ofField f ys) := by
  obtain ⟨s, rfl, hs, -⟩ | ⟨rfl, rfl, -⟩ := ha
  · obtain ⟨t, rfl, ht, -⟩ | ⟨rfl, rfl, -⟩ := hb
    · rw [← forall₂_sort_iff fun _ _ h => h.id, ← hs.items_region, ← ht.items_region]
      exact (Region.same_iff ..).trans (and_iff_right rfl).symm
    · exact iff_of_false nofun nofun
  · obtain ⟨t, rfl, ht, -⟩ | ⟨rfl, rfl, -⟩ := hb
    · exact iff_of_false nofun nofun
    · exact iff_of_true rfl ⟨rfl, fun _ => .nil⟩

theorem Item.Sound.isReadable {c : ArenaConfig} {x : Item w} (hx : x.Sound) (ht : x.id.type = .fml)
    (hroom : x.value.length ≤ c.ceiling) : Region.isReadable c x.value = true := by
  by_cases hne : x.value = []
  · rw [hne]
    rfl
  · have hlt := (hx.value.nested ht hne).length_lt
    obtain ⟨v, hv⟩ := hx.value.decode_eq_ok ⟨hlt, hroom⟩ 0
    exact Value.isReadable_of_decode (ht ▸ hv)

theorem Entry.exists_decode_of_sound {c : ArenaConfig} {e : Entry w} (hs : e.item.Sound)
    (hroom : e.id.type = .fml → e.value.length ≤ c.ceiling) : ∃ v, e.decode c = .ok v := by
  by_cases ht : e.id.type = .fml
  · obtain ⟨n, hn⟩ := Value.exists_decode_of_isReadable (hs.isReadable ht (hroom ht)) e.valueOffset
    rw [Entry.decode, ht]
    exact ⟨_, hn⟩
  · obtain ⟨v, hv⟩ := hs.value.flat ht
    rw [Entry.decode, Value.decode_of_ne_fml ht]
    exact ⟨v, Value.decodeFlat_eq_ok _ hv⟩

structure Change.Plain (d : Change w) : Prop where
  value (b : Buffer .wide) : d.value? ≠ some (.fml b)
  other (b : Buffer w) : d.other? ≠ some b

theorem Change.plain_of_flat {d : Change w} (hv : ∀ v ∈ d.value?, v.type ≠ .fml)
    (ho : d.other? = none) : d.Plain where
  value _ hb := hv _ hb rfl
  other b hb := by
    rw [ho] at hb
    cases hb

/-- The place that several changes leave, one after another. -/
def Place.afterAll (p : Place w) (ds : List (Change w)) : Place w :=
  ds.foldl (fun p d => d.after p) p

theorem Change.config_after {d : Change w} {p : Place w} (hc : p.arena.config.Stated)
    (hb : Reachable ArenaConfig.Stated p.buffer) (hd : d.Plain) :
    (d.after p).arena.config = p.arena.config := by
  have h := sound_invariant.changed (c := d) hc (sound_invariant.of_reachable hb)
    (fun b h => absurd h (hd.value b)) fun b h => absurd h (hd.other b)
  rw [Ends] at h
  rw [Change.after]
  cases hrun : d.run p with
  | ok n q =>
    rw [hrun] at h
    exact h.2
  | error e q =>
    rw [hrun] at h
    exact h.2

theorem Reachable.afterAll {p : Place w} (hc : p.arena.config.Stated)
    (hb : Reachable ArenaConfig.Stated p.buffer) {ds : List (Change w)} (hd : ∀ d ∈ ds, d.Plain) :
    Reachable ArenaConfig.Stated (p.afterAll ds).buffer := by
  induction ds generalizing p with
  | nil => exact hb
  | cons d ds ih =>
    obtain ⟨hd, hds⟩ := List.forall_mem_cons.1 hd
    refine ih (p := d.after p) ?_ ?_ hds
    · rwa [Change.config_after hc hb hd]
    · exact .after hc hb (fun b h => absurd h (hd.value b)) fun b h => absurd h (hd.other b)

/-- The nested buffers among the entries are within the ceiling of an arena. -/
def Buffer.NestsUnder (b : Buffer w) (c : ArenaConfig) : Prop :=
  ∀ e ∈ b.entries, e.id.type = .fml → e.value.length ≤ c.ceiling

instance (b : Buffer w) (c : ArenaConfig) : Decidable (b.NestsUnder c) :=
  inferInstanceAs (Decidable (∀ e ∈ b.entries, _))

theorem Buffer.same_after_buildIndex (c : ArenaConfig) {p : Place w}
    (hb : Reachable ArenaConfig.Stated p.buffer) (hn : p.buffer.isNull = false) (interval : Nat) :
    p.buffer.same c ((Change.buildIndex interval).after p).buffer = true := by
  obtain ⟨xs, indexed, hx⟩ := Buffer.holds_of_reachable hb hn
  have h := Edit.buildIndex_leaves hx interval
  rw [Leaves, Ends] at h
  cases hrun : Edit.buildIndex interval p with
  | error e q =>
    rw [hrun] at h
    exact h.elim
  | ok u q =>
    rw [hrun] at h
    obtain ⟨⟨t, ht, hy, -⟩, -⟩ := h
    obtain ⟨s, hs, hx, -⟩ := hx
    have hafter : (Change.buildIndex interval).after p = q := by
      rw [Change.after, Change.run, bind_of_ok hrun]
      rfl
    rw [hafter, hs, ht]
    exact hx.same hy.toStores (sort_eq_self (sorted_sort xs)).symm c

namespace Expr

variable {c : ArenaConfig} {a b : Buffer w}

theorem eq_of_reads (h : Reads (fun _ => False) c a b) (e : Expr w) :
    e.test c a = e.test c b ∧ e.compute c a = e.compute c b :=
  have hF : FieldRef → Nat → ¬ False := fun _ _ hf => hf
  ⟨(test_agree hF h e).eq, (compute_agree hF h e).eq⟩

end Expr

end FieldBuffers
