import FieldBuffers.Proofs.Algebra
import FieldBuffers.Proofs.Lockstep
import FieldBuffers.Proofs.Nested
import FieldBuffers.Proofs.Transport

/-! Operations do not tell equal buffers apart, in whatever order, room and state of the index: they
give the same results and equal buffers, unless an arena refuses one of them a block. -/

namespace FieldBuffers

open Item

variable {w : Width} {c : ArenaConfig} {f : FieldId w} {x y : Item w} {xs ys as bs : List (Item w)}
  {i j : Bool}

namespace Merge

variable {α β : Type} {R : α → β → Prop}

theorem forall₂_overlay {as as' : List α} {bs bs' : List β} (h : List.Forall₂ R as bs)
    (h' : List.Forall₂ R as' bs') : List.Forall₂ R (overlay as as') (overlay bs bs') := by
  induction h generalizing as' bs' with
  | nil => rwa [overlay_nil_left, overlay_nil_left]
  | cons hab h ih =>
    cases h' with
    | nil => exact .cons hab h
    | cons hab' h' => exact .cons hab' (ih h')

theorem forall₂_merge (m : Merge) {as as' : List α} {bs bs' : List β} (h : List.Forall₂ R as bs)
    (h' : List.Forall₂ R as' bs') : List.Forall₂ R (m.merge as as') (m.merge bs bs') := by
  cases m with
  | concat => exact List.rel_append h h'
  | join =>
    cases h with
    | nil => exact .nil
    | cons => exact h'
  | outerJoin =>
    cases h with
    | nil => exact .nil
    | cons hab h =>
      cases h' with
      | nil => exact .cons hab h
      | cons hab' h' => exact .cons hab' h'
  | update => exact forall₂_overlay h h'

end Merge

namespace Item.SameFields

theorem put (h : SameFields c xs ys) (hxy : Same c x y) (hx : x.id = f) (hi : i → Sorted xs)
    (hj : j → Sorted ys) : SameFields c (put i f [x] xs) (put j f [y] ys) := by
  have hone : ∀ z : Item w, z.id = f → ∀ u ∈ [z], u.id = f := by simp
  have hy : y.id = f := hxy.id ▸ hx
  intro g
  by_cases hg : g = f
  · subst hg
    rw [ofField_put hi (hone x hx), ofField_put hj (hone y hy)]
    exact List.rel_append (h g) (.cons hxy .nil)
  · rw [ofField_put_ne (hone x hx) hg, ofField_put_ne (hone y hy) hg]
    exact h g

theorem concat (h : SameFields c xs ys) (hxy : Same c x y) :
    SameFields c (xs ++ [x]) (ys ++ [y]) := by
  have hput := h.put (i := false) (j := false) hxy rfl nofun nofun
  simpa [Item.put, before, after] using hput

theorem filter (h : SameFields c xs ys) (keep : FieldId w → Bool) :
    SameFields c (xs.filter fun x => keep x.id) (ys.filter fun y => keep y.id) := by
  intro f
  rw [ofField_filter, ofField_filter]
  split
  · exact h f
  · exact .nil

theorem countP (h : SameFields c xs ys) (p : FieldId w → Bool) :
    (xs.countP fun x => p x.id) = ys.countP fun y => p y.id := by
  have hperm := (map_id_perm h).countP_eq p
  rwa [List.countP_map, List.countP_map] at hperm

theorem merge (m : Merge) (h : SameFields c xs ys) (h' : SameFields c as bs) :
    SameFields c
      (Item.sort ((m.entries (layout Header.size xs) (layout Header.size as)).map Entry.item))
      (Item.sort ((m.entries (layout Header.size ys) (layout Header.size bs)).map Entry.item)) := by
  intro f
  rw [ofField_sort, ofField_sort, m.ofField_entries, m.ofField_entries]
  exact m.forall₂_merge (h f) (h' f)

end Item.SameFields

/-! Writes. -/

/-- The buffers of two places are equal. -/
def Place.Same (c : ArenaConfig) (p q : Place w) : Prop := p.buffer.same c q.buffer = true

theorem Buffer.Offers.cases_of_same {a b : Buffer w} (ha : a.Offers xs i) (hb : b.Offers ys j)
    (h : a.same c b = true) :
    a = .null ∧ b = .null ∨ a.Holds xs i ∧ b.Holds ys j ∧ SameFields c xs ys := by
  obtain ⟨hnull, hfields⟩ := (ha.same_iff hb).1 h
  rcases ha with ha | ⟨rfl, -⟩
  · rcases hb with hb | ⟨rfl, -⟩
    · exact .inr ⟨ha, hb, hfields⟩
    · obtain ⟨s, rfl, -⟩ := ha
      cases hnull
  · rcases hb with ⟨t, rfl, -⟩ | ⟨rfl, -⟩
    · cases hnull
    · exact .inl ⟨rfl, rfl⟩

namespace Edit

variable {p q : Place w} {v u : Value} {b d : Buffer w}

theorem inStep_ofExcept {α β γ : Type} {S : α → β → Prop} {R : Place w → Place w → Prop}
    {x : Except Error α} {y : Except Error β} {m : α → Edit w γ} {n : β → Edit w γ}
    (hxy : Paired S x y) (h : R p q) (hmn : ∀ a b, S a b → InStep R (m a p) (n b q)) :
    InStep R ((do m (← ofExcept x) : Edit w γ) p) ((do n (← ofExcept y) : Edit w γ) q) := by
  cases hxy with
  | error e => exact .error h
  | ok hab => exact hmn _ _ hab

theorem inStep_of_makes {m n : Edit w Unit} {zs zs' : List (Item w)} {k l : Bool}
    (hm : Makes m p zs k) (hn : Makes n q zs' l) (h : SameFields c zs zs') :
    InStep (Place.Same c) (m p) (n q) :=
  .of_ends hm hn (fun _ _ hp hq => (hp.1.same_iff hq.1).2 h) (fun _ _ he => he.1.isRefusal)
    fun _ _ he => he.1.isRefusal

theorem retain_ends {operation : String} {keep : FieldId w → Bool} (hp : p.buffer.Holds xs i) :
    Ends (retain operation keep) p (fun n q => n = (xs.countP fun x => !keep x.id) ∧
      q.buffer.Holds (xs.filter fun x => keep x.id) i) fun _ _ => False := by
  have hcount : Ends (retain operation keep) p (fun n _ => n = xs.countP fun x => !keep x.id)
      fun _ _ => True := by
    obtain ⟨s, hs, hx, -⟩ := hp
    rw [Ends, retain, bind_of_ok (storage_of_allocated operation hs)]
    change (s.compaction keep s.entries).removed = _
    rw [s.compaction_removed, hx.entries_eq, ← map_item_layout Header.size xs, List.countP_map,
      map_item_layout]
    rfl
  exact ((retain_leaves hp).and hcount).mono (fun _ _ hq => ⟨hq.2, hq.1.1⟩) fun _ _ he => he.1

variable (hp : p.buffer.Offers xs i) (hq : q.buffer.Offers ys j) (hcp : p.arena.config.Stated)
  (hcq : q.arena.config.Stated) (h : p.Same c q)
include hp hq h

section Values

variable (hv : v.Built) (hu : u.Built) (hvu : v.Like c u)
include hcp hcq hv hu hvu

theorem add_inStep (f : FieldId w) : InStep (Place.Same c) (add f v p) (add f u q) := by
  have hfields := ((hp.same_iff hq).1 h).2
  have hcoerce := (hvu.coerce f.type (.ident w f)).mono_of_ok fun v' u' hv' hu' hlike =>
    And.intro hlike (And.intro (Value.coerce_eq_ok hv').1 (And.intro (Value.coerce_eq_ok hu').1
      (And.intro (Value.built_coerce hv' hv) (Value.built_coerce hu' hu))))
  refine inStep_ofExcept hcoerce h fun v' u' hlike => ?_
  obtain ⟨hlike, htv, htu, hbv, hbu⟩ := hlike
  refine inStep_ofExcept (hlike.encodeEntry hbv hbu htv htu) h fun _ _ hentries => ?_
  obtain ⟨x, y, hx, hy, hid, hxy, rfl, rfl⟩ := hentries
  exact inStep_of_makes (insert_makes hp hcp hx hid) (insert_makes hq hcq hy (hxy.id ▸ hid))
    (SameFields.put hfields hxy hid hp.sorted hq.sorted)

theorem append_inStep (f : FieldId w) : InStep (Place.Same c) (append f v p) (append f u q) := by
  have hfields := ((hp.same_iff hq).1 h).2
  rw [append, append, hvu.type_eq]
  by_cases ht : u.type = f.type
  · rw [if_neg (not_not.2 ht), if_neg (not_not.2 ht)]
    have hencode := hvu.encodeEntry hv hu (hvu.type_eq.trans ht) ht
    refine inStep_ofExcept hencode h fun _ _ hentries => ?_
    obtain ⟨x, y, hx, hy, hid, hxy, rfl, rfl⟩ := hentries
    exact inStep_of_makes (push_makes hp hcp hx) (push_makes hq hcq hy)
      (SameFields.concat hfields hxy)
  · rw [if_pos ht, if_pos ht]
    exact .error h

end Values

theorem retain_inStep (operation : String) (keep : FieldId w → Bool) :
    InStep (Place.Same c) (retain operation keep p) (retain operation keep q) := by
  obtain ⟨hpn, hqn⟩ | ⟨hp, hq, hfields⟩ := hp.cases_of_same hq h
  · rw [retain, bind_of_error (storage_of_null operation hpn),
      bind_of_error (storage_of_null operation hqn)]
    exact .error h
  · refine .of_ends_eq (retain_ends hp) (retain_ends hq) ?_ (fun _ _ he => he.elim)
      fun _ _ he => he.elim
    rintro _ _ p' q' ⟨rfl, hp'⟩ ⟨rfl, hq'⟩
    exact ⟨hfields.countP fun f => !keep f, (hp'.same_iff hq').2 (hfields.filter keep)⟩

include hcp hcq in
theorem merge_inStep {k l : Bool} (m : Merge) (hb : b.Offers as k) (hd : d.Offers bs l)
    (hbd : b.same c d = true) : InStep (Place.Same c) (merge m b p) (merge m d q) := by
  obtain ⟨hpn, hqn⟩ | ⟨hp, hq, hfields⟩ := hp.cases_of_same hq h
  · rw [merge, merge, bind_of_error (storage_of_null m.name hpn),
      bind_of_error (storage_of_null m.name hqn)]
    exact .error h
  · obtain ⟨rfl, rfl⟩ | ⟨hb, hd, hothers⟩ := hb.cases_of_same hd hbd
    · obtain ⟨s, hs, -⟩ := hp
      obtain ⟨t, ht, -⟩ := hq
      rw [merge, bind_of_ok (storage_of_allocated m.name hs),
        bind_of_ok (storage_of_allocated m.name ht)]
      exact .error h
    · exact inStep_of_makes (merge_makes hp hb hcp) (merge_makes hq hd hcq)
        (hfields.merge m hothers)

end Edit

/-! Copies and exports. -/

namespace Buffer

variable {a b d : Buffer w} {arena arena' : Arena}

/-- Two results that are equal buffers, or one of which is that a block was refused. -/
inductive Fetched (c : ArenaConfig) :
    Except Error (Buffer w × Arena) → Except Error (Buffer w × Arena) → Prop
  | ok {a b : Buffer w} {arena arena' : Arena} :
      a.same c b = true → Fetched c (.ok (a, arena)) (.ok (b, arena'))
  | left {e : Error} {y : Except Error (Buffer w × Arena)} : e.IsRefusal → Fetched c (.error e) y
  | right {e : Error} {x : Except Error (Buffer w × Arena)} : e.IsRefusal → Fetched c x (.error e)

/-- A result is a buffer equal to another, or that a block was refused. -/
def Restores (b : Buffer w) (x : Except Error (Buffer w × Arena)) : Prop :=
  (∀ d arena, x = .ok (d, arena) → ∀ c, b.same c d = true) ∧ FailsOnly Error.IsRefusal x

theorem Restores.fetched {x y : Except Error (Buffer w × Arena)} (hx : a.Restores x)
    (hy : b.Restores y) (h : a.same c b = true) : Fetched c x y := by
  cases x with
  | error e => exact .left (hx.2 e rfl)
  | ok r =>
    cases y with
    | error e => exact .right (hy.2 e rfl)
    | ok t =>
      exact .ok (same_trans (same_symm (hx.1 _ _ rfl c)) (same_trans h (hy.1 _ _ rfl c)))

theorem Offers.copy_restores (hb : b.Offers xs i) (arena : Arena) : b.Restores (b.copy arena) := by
  refine ⟨fun d arena' h c => ?_, fun e h => ?_⟩
  · refine (hb.same_iff (hb.copy h)).2 ⟨?_, fun f => ?_⟩
    · obtain ⟨⟨d', arena''⟩, hd, h⟩ := ok_bind_iff.1 h
      obtain ⟨rfl, rfl⟩ | ⟨s, rfl, rfl⟩ := snapshot_eq_ok hd
      · obtain ⟨rfl, -⟩ := Prod.mk.inj (Except.ok.inj h)
        rfl
      · obtain ⟨rfl, -⟩ := Prod.mk.inj (Except.ok.inj h)
        rfl
    · rw [ofField_sort]
      exact List.forall₂_same.2 fun x _ => .of_self (Region.same_refl c x.value)
  · rcases error_bind_iff.1 h with h | ⟨⟨d, arena'⟩, -, h⟩
    · exact isRefusal_of_snapshot h
    · cases d <;> cases h

theorem Offers.import_restores (hb : b.Offers xs i) (m : ExportMode) (arena : Arena) :
    b.Restores (imported w m (b.exported m) arena) := by
  obtain ⟨s, rfl, hs, -⟩ | ⟨rfl, -⟩ := hb
  · have hlen : s.standalone.length < 2 ^ 32 := hs.length_standalone ▸ s.header.used.toNat_lt
    have himport : imported w m (exported m (.allocated s)) arena = ofRegion w s.standalone arena :=
      imported_exported (b := .allocated s) m arena hlen
    rw [himport]
    refine ⟨fun d arena' h c => ?_, fun e h => ?_⟩
    · obtain ⟨g, handle, -, -, -, hroom, -⟩ := exists_of_ofRegion h
      obtain ⟨t, arena'', ht, hx, -⟩ :=
        hs.ofRegion_standalone (hs.length_standalone ▸ hroom.granted)
      obtain ⟨rfl, -⟩ := Prod.mk.inj (Except.ok.inj (h.symm.trans ht))
      exact hs.same hx.toStores (sort_eq_self (sorted_sort xs)).symm c
    · refine ((ofRegion_eq_error h).2 hs.sound_standalone ?_).isRefusal
      exact (Region.nestingDepth_le_iff_nestsWithin _).1 hs.nestingDepth_le
  · have himport : imported w m (exported m .null) arena = .ok (.null, arena) :=
      imported_exported (b := .null) m arena (show 0 < 2 ^ 32 by decide)
    rw [himport]
    refine ⟨fun d arena' h c => ?_, .ok _ _⟩
    obtain ⟨rfl, -⟩ := Prod.mk.inj (Except.ok.inj h)
    rfl

end Buffer

/-- The same change of some kinds, with equal operands. -/
inductive Change.Like (c : ArenaConfig) : Change w → Change w → Prop
  | add {v u : Value} (f : FieldId w) : v.Like c u → Like c (.add f v) (.add f u)
  | append {v u : Value} (f : FieldId w) : v.Like c u → Like c (.append f v) (.append f u)
  | eraseAll (f : FieldId w) : Like c (.eraseAll f) (.eraseAll f)
  | eraseMany (fs : List (FieldId w)) : Like c (.eraseMany fs) (.eraseMany fs)
  | project (fs : List (FieldId w)) : Like c (.project fs) (.project fs)
  | merge {b d : Buffer w} (m : Merge) : b.same c d = true → Like c (.merge m b) (.merge m d)

/-- The buffers that take part in a change are such as operations leave. -/
structure Change.Reaches (d : Change w) : Prop where
  value (b : Buffer .wide) : d.value? = some (.fml b) → Reachable ArenaConfig.Stated b
  other (b : Buffer w) : d.other? = some b → Reachable ArenaConfig.Stated b

theorem InStep.map {σ α β : Type} {R : σ → σ → Prop} {x y : EStateM Error σ α} {p q : σ}
    (h : InStep R (x p) (y q)) (g : α → β) :
    InStep R ((do return g (← x)) p) ((do return g (← y)) q) :=
  h.bind fun _ _ _ hpq => .ok hpq

theorem Change.inStep {p q : Place w} {d d' : Change w} (hp : p.buffer.Offers xs i)
    (hq : q.buffer.Offers ys j) (hcp : p.arena.config.Stated) (hcq : q.arena.config.Stated)
    (h : p.Same c q) (hdd : d.Like c d') (hd : d.Reaches) (hd' : d'.Reaches) :
    InStep (Place.Same c) (d.run p) (d'.run q) := by
  have hbuilt : ∀ {d : Change w} {v : Value}, d.Reaches → d.value? = some v → v.Built :=
    fun hd hv b hb => sound_invariant.of_reachable (hd.value b (hb ▸ hv))
  cases hdd with
  | add f hvu =>
    exact (Edit.add_inStep hp hq hcp hcq h (hbuilt hd rfl) (hbuilt hd' rfl) hvu f).map _
  | append f hvu =>
    exact (Edit.append_inStep hp hq hcp hcq h (hbuilt hd rfl) (hbuilt hd' rfl) hvu f).map _
  | eraseAll f => exact (Edit.retain_inStep hp hq h _ _).map _
  | eraseMany fs => exact (Edit.retain_inStep hp hq h _ _).map _
  | project fs => exact (Edit.retain_inStep hp hq h _ _).map _
  | merge m hbd =>
    obtain ⟨_, _, hb⟩ := sound_invariant.of_reachable (hd.other _ rfl)
    obtain ⟨_, _, hb'⟩ := sound_invariant.of_reachable (hd'.other _ rfl)
    exact (Edit.merge_inStep hp hq hcp hcq h m hb hb' hbd).map _

/-- What is made of a buffer in one place is made of the buffer in another, as far as no block is
refused: the same results, errors and counts, and equal buffers. -/
structure Place.Congruent (c : ArenaConfig) (p q : Place w) : Prop where
  change {d d' : Change w} : d.Like c d' → d.Reaches → d'.Reaches →
    InStep (Place.Same c) (d.run p) (d'.run q)
  copy (a a' : Arena) : Buffer.Fetched c (p.buffer.copy a) (q.buffer.copy a')
  carry (m m' : ExportMode) (a a' : Arena) :
    Buffer.Fetched c (Buffer.imported w m (p.buffer.exported m) a)
      (Buffer.imported w m' (q.buffer.exported m') a')

/-- Equality of buffers is an equivalence and a congruence, and where nested buffers fit the arena in
which they are read it is told by the values of each field. -/
theorem Buffer.same_congruence (c : ArenaConfig) :
    (Equivalence fun a b : Buffer w => a.same c b = true) ∧
    (∀ a b : Buffer w, Reachable ArenaConfig.Stated a → Reachable ArenaConfig.Stated b →
      a.NestsUnder c → (a.same c b = true ↔ Region.Equals w a.region b.region)) ∧
    ∀ p q : Place w, p.arena.config.Stated → q.arena.config.Stated →
      Reachable ArenaConfig.Stated p.buffer → Reachable ArenaConfig.Stated q.buffer →
      p.Same c q → p.Congruent c q := by
  refine ⟨⟨same_refl c, same_symm, same_trans⟩, fun a b ha hb hfit => ?_,
    fun p q hcp hcq hp hq h => ?_⟩
  · obtain ⟨xs, i, ha⟩ := sound_invariant.of_reachable ha
    obtain ⟨ys, j, hb⟩ := sound_invariant.of_reachable hb
    exact ha.same_iff_equals hb hfit
  · obtain ⟨xs, i, hp⟩ := sound_invariant.of_reachable hp
    obtain ⟨ys, j, hq⟩ := sound_invariant.of_reachable hq
    refine ⟨fun hdd hd hd' => Change.inStep hp hq hcp hcq h hdd hd hd', fun a a' => ?_,
      fun m m' a a' => ?_⟩
    · exact (hp.copy_restores a).fetched (hq.copy_restores a') h
    · exact (hp.import_restores m a).fetched (hq.import_restores m' a') h

theorem Place.congruent_after_buildIndex :
    let f : FieldId .wide := ⟨.short, 1, by decide, by decide, by decide⟩
    let g : FieldId .wide := ⟨.char, 2, by decide, by decide, by decide⟩
    let empty : Place .wide := ⟨{ config := ⟨32, 128⟩ }, .null⟩
    let ds := [Change.append g (.char 65), .append f (.short 7)]
    let p := empty.afterAll ds
    let q := (Change.buildIndex 1).after p
    p.buffer ≠ q.buffer ∧ Region.Equals .wide p.buffer.region q.buffer.region ∧
      p.Congruent {} q := by
  intro f g empty ds p q
  have hc : empty.arena.config.Stated := show 128 < 2 ^ 32 by decide
  have hplain : ∀ d ∈ ds, d.Plain := fun d hd =>
    have hflat : ∀ d ∈ ds, (∀ v ∈ d.value?, v.type ≠ .fml) ∧ d.other? = none := by decide
    Change.plain_of_flat (hflat d hd).1 (hflat d hd).2
  have hp : Reachable ArenaConfig.Stated p.buffer := .afterAll hc .null hplain
  have hcp : p.arena.config.Stated := show p.arena.config.ceiling < 2 ^ 32 by decide +kernel
  have hcq : q.arena.config.Stated := show q.arena.config.ceiling < 2 ^ 32 by decide +kernel
  have hq : Reachable ArenaConfig.Stated q.buffer := .after hcp hp nofun nofun
  have hsame : p.Same {} q := Buffer.same_after_buildIndex {} hp (by decide +kernel) 1
  obtain ⟨-, hequals, hcongruent⟩ := Buffer.same_congruence (w := .wide) {}
  exact ⟨by decide +kernel, (hequals _ _ hp hq (by decide +kernel)).1 hsame,
    hcongruent p q hcp hcq hp hq hsame⟩

/-- Of two equal buffers one may grow where the other is refused, and two that are equal because
what they nest does not fit need not nest as deep. -/
theorem Buffer.not_congruent :
    let f : FieldId .wide := ⟨.fml, 1, by decide, by decide, by decide⟩
    let g : FieldId .wide := ⟨.short, 1, by decide, by decide, by decide⟩
    let p : Place .wide := ⟨{ config := ⟨16, 30⟩ }, .allocated (Storage.fresh .wide 1 26)⟩
    let q : Place .wide := ⟨{ config := ⟨16, 30⟩ }, .allocated (Storage.fresh .wide 1 20)⟩
    let d : Change .wide := .add g (.short 7)
    (Reachable ArenaConfig.Stated p.buffer ∧ Reachable ArenaConfig.Stated q.buffer ∧
      p.Same {} q ∧ ¬ (d.after p).Same {} (d.after q)) ∧
    Reachable ArenaConfig.Stated (Buffer.chain f 63) ∧
      Reachable ArenaConfig.Stated (Buffer.chain f 64) ∧
      (Buffer.chain f 63).same ⟨8, 15⟩ (Buffer.chain f 64) = true ∧
      ¬ Region.Equals .wide (Buffer.chain f 63).region (Buffer.chain f 64).region ∧
      (∃ entry, (Value.fml (Buffer.chain f 63)).encodeEntry f = .ok entry) ∧
      ¬ ∃ entry, (Value.fml (Buffer.chain f 64)).encodeEntry f = .ok entry := by
  intro f g p q d
  have hp : Reachable ArenaConfig.Stated p.buffer := .allocated
    (show Buffer.allocate .wide 26 { config := ⟨16, 30⟩ } = .ok (p.buffer, _) from rfl)
  have hq : Reachable ArenaConfig.Stated q.buffer := .allocated
    (show Buffer.allocate .wide 20 { config := ⟨16, 30⟩ } = .ok (q.buffer, _) from rfl)
  refine ⟨⟨hp, hq, ?_, ?_⟩, Buffer.reachable_chain f 63, Buffer.reachable_chain f 64,
    Buffer.same_chain rfl (m := 62) (n := 63) (by decide) (by decide) (by decide),
    Buffer.not_equals_chain rfl (by decide) (by decide) (by decide),
    (Buffer.encodeEntry_chain_iff rfl (by decide)).2 (by decide),
    mt (Buffer.encodeEntry_chain_iff rfl (by decide)).1 (by decide)⟩
  · exact show p.buffer.same {} q.buffer = true by decide +kernel
  · exact show ¬ (d.after p).buffer.same {} (d.after q).buffer = true by decide +kernel

end FieldBuffers
