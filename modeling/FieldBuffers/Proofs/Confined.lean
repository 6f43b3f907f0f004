import FieldBuffers.Proofs.Combinations
import FieldBuffers.Proofs.Logical

/-! The errors of an evaluation. Every entry of a buffer can be read, so what is left are values of
the wrong type and fields that are absent; a test takes absence for not holding. -/

namespace FieldBuffers

variable {w : Width}

/-- Every entry of a reachable buffer reads as a value, where nested buffers have room. -/
theorem Buffer.exists_value_of_reachable {c : ArenaConfig} {b : Buffer w} {f : FieldId w}
    {e : Entry w} (hb : Reachable ArenaConfig.Stated b) (hroom : b.NestsUnder c)
    (he : e ∈ b.occurrences f) : ∃ v, e.decode c = .ok v := by
  obtain ⟨xs, i, hx⟩ := sound_invariant.of_reachable hb
  have hmem := hx.mem_of_mem_occurrences he
  refine Entry.exists_decode_of_sound (hx.sound _ hmem) fun ht => ?_
  rw [← hx.map_item_entries] at hmem
  obtain ⟨d, hd, hde⟩ := List.mem_map.1 hmem
  obtain ⟨hid, hvalue⟩ := Item.mk.inj hde
  rw [← hvalue]
  exact hroom d hd (hid ▸ ht)

namespace Expr

variable {c : ArenaConfig} {b : Buffer w} {e : Expr w} {bound : Bindings w}

/-- A field is read for its value outside every comparison, match, connective and negation. -/
inductive Bare (r : Reference w) : Expr w → Prop
  | field : Bare r (.field r)
  | signed {s : Sign} {e : Expr w} : s ≠ .not → Bare r e → Bare r (.signed s e)
  | left {o : Arithmetic} {l r' : Expr w} : Bare r l → Bare r (.binary (.arithmetic o) l r')
  | right {o : Arithmetic} {l r' : Expr w} : Bare r r' → Bare r (.binary (.arithmetic o) l r')

/-- An error for a field that is read bare and that the buffer does not have. -/
def Misses (b : Buffer w) (bound : Bindings w) (e : Expr w) (x : Error) : Prop :=
  ∃ r, e.Bare r ∧ x = .notPresent (.named r.name) ((r.chosen bound).getD 0) ∧
    b.has r.id ((r.chosen bound).getD 0) = false

theorem Misses.mono {e e' : Expr w} {x : Error} (h : e.Misses b bound x)
    (he : ∀ r, e.Bare r → e'.Bare r) : e'.Misses b bound x := by
  obtain ⟨r, hr, hx⟩ := h
  exact ⟨r, he r hr, hx⟩

theorem Scalar.toNumber_failsOnly (s : Scalar) : FailsOnly Error.IsMismatch s.toNumber := by
  cases s with
  | number word => exact .ok _ word
  | text s =>
    rw [toNumber]
    split
    · exact .ok _ _
    · exact .error ⟨_, _, _, rfl⟩

theorem Scalar.compare_failsOnly (o : Relation) (s t : Scalar) :
    FailsOnly Error.IsMismatch (Scalar.compare o s t) := by
  cases s <;> cases t
  case text.text => exact .ok _ _
  all_goals exact (toNumber_failsOnly _).bind fun _ => (toNumber_failsOnly _).bind fun _ => .ok _ _

theorem Reference.scalar_failsOnly (r : Reference w) (v : Value) :
    FailsOnly Error.IsMismatch (r.scalar v) := by
  rw [scalar]
  split
  · exact .ok _ _
  · exact .ok _ _
  · exact .error ⟨_, _, _, rfl⟩

theorem Connective.apply_failsOnly {P : Error → Prop} (o : Connective) {l : Except Error Bool}
    {r : Unit → Except Error Bool} (hl : FailsOnly P l) (hr : FailsOnly P (r ())) :
    FailsOnly P (o.apply l r) := by
  refine hl.bind fun v => ?_
  cases o <;> cases v
  all_goals first | exact hr | exact .ok _ _ | exact hr.bind fun _ => .ok _ _

/-- A search over combinations hands on no error for an absent occurrence. -/
theorem quantified_failsOnly {P : Error → Prop} (b : Buffer w) (fs : List (FieldId w))
    {test : Bindings w → Except Error Bool}
    (h : ∀ bound, FailsOnly (fun x => P x ∨ ∃ f k, x = .notPresent f k) (test bound))
    (bound : Bindings w) : FailsOnly P (quantified b fs test bound) := by
  intro x hx
  rw [quantified, holdsSome_eq_search] at hx
  obtain ⟨d, -, hd, hne⟩ := exists_of_search_eq_error hx
  rcases h _ x hd with hP | ⟨f, k, rfl⟩
  · exact hP
  · exact absurd rfl (hne f k)

/-- What can go wrong with an expression, asked as a test and asked for a value. -/
structure Meaning.Confined (b : Buffer w) (e : Expr w) (m : Meaning w) : Prop where
  truth (bound : Bindings w) : FailsOnly Error.IsMismatch (m.truth bound)
  value (bound : Bindings w) :
    FailsOnly (fun x => x.IsMismatch ∨ e.Misses b bound x) (m.value bound)

namespace Meaning.Confined

theorem ofTruth {truth : Bindings w → Except Error Bool}
    (h : ∀ bound, FailsOnly Error.IsMismatch (truth bound)) : Confined b e (.ofTruth truth) :=
  ⟨h, fun bound => ((h bound).map _).mono fun _ => .inl⟩

theorem ofValue (fs : List (FieldId w)) {value : Bindings w → Except Error Scalar}
    (h : ∀ bound, FailsOnly (fun x => x.IsMismatch ∨ e.Misses b bound x) (value bound)) :
    Confined b e (.ofValue b fs value) := by
  refine ⟨quantified_failsOnly b fs fun bound => ((h bound).map _).mono ?_, h⟩
  rintro x (hx | ⟨r, -, hx, -⟩)
  · exact .inl hx
  · exact .inr ⟨_, _, hx⟩

/-- An operand's bare fields are those of the whole. -/
theorem inside {m : Meaning w} {e' : Expr w} (h : Confined b e m) (he : ∀ r, e.Bare r → e'.Bare r)
    (bound : Bindings w) :
    FailsOnly (fun x => x.IsMismatch ∨ e'.Misses b bound x) (m.value bound) :=
  (h.value bound).mono fun _ => .imp_right fun h => h.mono he

/-- Around an operand of a test absence is not handed on. -/
theorem operand {m : Meaning w} (h : Confined b e m) (bound : Bindings w) :
    FailsOnly (fun x => x.IsMismatch ∨ ∃ f k, x = .notPresent f k) (m.value bound) :=
  (h.value bound).mono fun _ => .imp_right fun ⟨_, _, hx, _⟩ => ⟨_, _, hx⟩

end Meaning.Confined

section Reading

variable (hread : ∀ f, ∀ d ∈ b.occurrences f, ∃ v, d.decode c = .ok v)
include hread

theorem Reference.confined (r : Reference w) : (r.meaning c b).Confined b (.field r) := by
  refine ⟨fun bound => .ok _ _, fun bound => ?_⟩
  change FailsOnly _ (r.fetch c b ((r.chosen bound).getD 0))
  rw [r.fetch_eq]
  cases hk : (b.occurrences r.id)[(r.chosen bound).getD 0]? with
  | none =>
    have habsent : b.has r.id ((r.chosen bound).getD 0) = false := by
      rw [Buffer.has, Buffer.count, decide_eq_false_iff_not, Nat.not_lt]
      exact List.getElem?_eq_none_iff.1 hk
    exact .error (.inr ⟨r, .field, rfl, habsent⟩)
  | some d =>
    obtain ⟨v, hv⟩ := hread r.id d (List.mem_of_getElem? hk)
    dsimp only
    rw [hv]
    exact (r.scalar_failsOnly v).mono fun _ => .inl

theorem meaning_confined (e : Expr w) : (e.meaning c b).Confined b e := by
  have hnumber : ∀ {e : Expr w} (bound : Bindings w) (x : Scalar),
      FailsOnly (fun y => y.IsMismatch ∨ e.Misses b bound y) x.toNumber :=
    fun _ x => x.toNumber_failsOnly.mono fun _ => .inl
  -- absence goes up through signs and arithmetic, and every test above it stops it
  induction e with
  | number word => exact .ofValue _ fun _ => .ok _ _
  | text s => exact .ofValue _ fun _ => .ok _ _
  | field r => exact r.confined hread
  | signed s e ih =>
    cases s with
    | not => exact .ofTruth fun bound => (ih.truth bound).map _
    | minus | plus =>
      exact .ofValue _ fun bound =>
        (ih.inside (fun r hr => .signed (by decide) hr) bound).bind fun x =>
          (hnumber bound x).bind fun _ => .ok _ _
  | binary o l r ihl ihr =>
    cases o with
    | connective o =>
      exact .ofTruth fun bound => o.apply_failsOnly (ihl.truth bound) (ihr.truth bound)
    | relation o =>
      exact .ofTruth <| quantified_failsOnly b _ fun bound =>
        (ihl.operand bound).bind fun x => (ihr.operand bound).bind fun y =>
          (Scalar.compare_failsOnly o x y).mono fun _ => .inl
    | arithmetic o =>
      exact .ofValue _ fun bound =>
        (ihl.inside (fun r => .left) bound).bind fun x => (hnumber bound x).bind fun _ =>
          (ihr.inside (fun r => .right) bound).bind fun y => (hnumber bound y).bind fun _ => .ok _ _
  | like negated e source pattern ih =>
    refine .ofTruth <| quantified_failsOnly b _ fun bound => (ih.operand bound).bind fun x => ?_
    cases x with
    | text s => exact .ok _ _
    | number word => exact .error (.inl ⟨_, _, _, rfl⟩)

end Reading

/-- How the evaluations of an expression on a buffer can end. -/
structure EndsWell (c : ArenaConfig) (b : Buffer w) (e : Expr w) : Prop where
  test : (∃ v, e.test c b = .ok v) ∨ ∃ x, e.test c b = .error x ∧ x.IsMismatch
  compute : (∃ n, e.compute c b = .ok n) ∨ (∃ x, e.compute c b = .error x ∧ x.IsMismatch) ∨
    ∃ r k, e.Bare r ∧ e.compute c b = .error (.notPresent (.named r.name) k) ∧
      (r.occurrence = .at k ∨ r.occurrence = .any ∧ k = 0) ∧ b.has r.id k = false

theorem Reference.occurrence_of_chosen_nil (r : Reference w) :
    r.occurrence = .at ((r.chosen []).getD 0) ∨ r.occurrence = .any ∧ (r.chosen []).getD 0 = 0 := by
  rw [chosen]
  cases r.occurrence with
  | «at» n => exact .inl rfl
  | any => exact .inr ⟨rfl, rfl⟩

/-- A test of a reachable buffer ends with a truth value or a type mismatch, whatever fields are
absent. A formula may besides lack a field that it reads outside all tests. -/
theorem endsWell_of_reachable {c : ArenaConfig} {b : Buffer w}
    (hb : Reachable ArenaConfig.Stated b) (hroom : b.NestsUnder c) (e : Expr w) :
    e.EndsWell c b := by
  have h := meaning_confined (c := c) (fun f d hd => Buffer.exists_value_of_reachable hb hroom hd) e
  refine ⟨(h.truth []).exists_ok_or, ?_⟩
  have hnumber := (h.value []).bind fun x => x.toNumber_failsOnly.mono fun _ => .inl
  rcases hnumber.exists_ok_or with hok | ⟨x, hx, hmismatch | ⟨r, hr, rfl, habsent⟩⟩
  · exact .inl hok
  · exact .inr (.inl ⟨x, hx, hmismatch⟩)
  · exact .inr (.inr ⟨r, _, hr, hx, r.occurrence_of_chosen_nil, habsent⟩)

/-- A field that is absent does not hold in a comparison, and beside it the sum has no value. -/
theorem endsWell_without_age :
    let inner : FieldId .wide := ⟨.fml, 2, by decide, by decide, by decide⟩
    let note : FieldId .wide := ⟨.string, 3, by decide, by decide, by decide⟩
    let age : Reference .wide := ⟨⟨.short, 1, by decide, by decide, by decide⟩, "AGE", .any⟩
    let a : Arena := { config := ⟨32, 256⟩ }
    let n := ((Change.append note (.string "x")).after ⟨a, .null⟩).buffer
    let b := ((Change.append inner (.fml n)).after ⟨a, .null⟩).buffer
    let young : Expr .wide := .binary (.relation .lt) (.field age) (.number 0)
    let e : Expr .wide := .binary (.arithmetic .add) (.signed .not young) (.field age)
    (e.test ⟨32, 256⟩ b).toOption = some false ∧ (e.compute ⟨32, 256⟩ b).toOption = none ∧
      e.EndsWell ⟨32, 256⟩ b := by
  intro inner note age a n b young e
  have hstated : a.config.Stated := show 256 < 2 ^ 32 by decide
  have hn : Reachable ArenaConfig.Stated n := .after hstated .null nofun nofun
  have hb : Reachable ArenaConfig.Stated b := .after hstated .null hn.of_written nofun
  have hroom : b.NestsUnder ⟨32, 256⟩ := by decide +kernel
  exact ⟨by decide +kernel, by decide +kernel, endsWell_of_reachable hb hroom e⟩

end Expr

end FieldBuffers
