import FieldBuffers.Proofs.Ample
import FieldBuffers.Proofs.Equality

/-! Nested buffers as operands. Of two equal ones a field takes both or none, and stores items that
are equal (`Value.Like.encodeEntry`), provided that what they nest can be read: buffers that nest
others than can be read are equal to any depth (`Buffer.same_chain`). -/

namespace FieldBuffers

open Item

variable {w : Width} {c : ArenaConfig} {f : FieldId w} {xs ys : List (Item w)} {i j : Bool}

/-- The same value, or one of two equal nested buffers that can be read as far as they go. -/
inductive Value.Like (c : ArenaConfig) : Value → Value → Prop
  | refl (v : Value) : Like c v v
  | nested {b d : Buffer .wide} : b.same c d = true → b.NestsUnder c → Like c (.fml b) (.fml d)

/-- The same error, or results that are related. -/
inductive Paired {α β : Type} (R : α → β → Prop) : Except Error α → Except Error β → Prop
  | ok {a : α} {b : β} : R a b → Paired R (.ok a) (.ok b)
  | error (e : Error) : Paired R (.error e) (.error e)

namespace Paired

variable {α β γ δ : Type} {R : α → β → Prop} {S : γ → δ → Prop} {x : Except Error α}
  {y : Except Error β}

theorem refl {R : α → α → Prop} (x : Except Error α) (h : ∀ a, x = .ok a → R a a) :
    Paired R x x := by
  cases x with
  | error e => exact .error e
  | ok a => exact .ok (h a rfl)

theorem bind {f : α → Except Error γ} {g : β → Except Error δ} (h : Paired R x y)
    (hf : ∀ a b, R a b → Paired S (f a) (g b)) : Paired S (x >>= f) (y >>= g) := by
  cases h with
  | error e => exact .error e
  | ok hab => exact hf _ _ hab

theorem mono_of_ok {S : α → β → Prop} (h : Paired R x y)
    (hS : ∀ a b, x = .ok a → y = .ok b → R a b → S a b) : Paired S x y := by
  cases h with
  | error e => exact .error e
  | ok hab => exact .ok (hS _ _ rfl rfl hab)

end Paired

namespace Buffer.Offers

variable {a b : Buffer w}

theorem items_standalone (h : b.Offers xs i) : Region.items w b.standalone = xs := by
  obtain ⟨s, rfl, hs, -⟩ | ⟨rfl, rfl, -⟩ := h
  · exact Region.items_of_layout hs.entries_standalone
  · exact Region.items_nil w

theorem standalone_eq_nil_iff (h : b.Offers xs i) : b.standalone = [] ↔ b.region = [] := by
  obtain ⟨s, rfl, hs, -⟩ | ⟨rfl, rfl, -⟩ := h
  · exact iff_of_false hs.standalone_ne_nil (mt (isNull_iff (.allocated s)).2 nofun)
  · exact Iff.rfl

theorem equals_standalone (ha : a.Offers xs i) (hb : b.Offers ys j)
    (h : Region.Equals w a.region b.region) : Region.Equals w a.standalone b.standalone := by
  rw [Region.equals_iff] at h ⊢
  rw [ha.items_standalone, hb.items_standalone, ha.standalone_eq_nil_iff, hb.standalone_eq_nil_iff]
  rwa [ha.items_region, hb.items_region] at h

theorem sound_standalone (h : b.Offers xs i) (hne : b.standalone ≠ []) :
    Region.Sound w b.standalone := by
  obtain ⟨s, rfl, hs, -⟩ | ⟨rfl, -⟩ := h
  · exact hs.sound_standalone
  · exact absurd rfl hne

theorem nestingDepth_standalone_le (h : b.Offers xs i) :
    nestingDepth w b.standalone ≤ maxNesting := by
  rw [nestingDepth_le_iff]
  intro e he ht hv
  have hmem : e.item ∈ xs := h.items_standalone ▸ List.mem_map_of_mem he
  exact (h.sound _ hmem).value.shallow ht hv

/-- A nested buffer takes as many bytes as one that is equal to it, and both are read alike. -/
theorem same_standalone {b d : Buffer .wide} {as bs : List (Item .wide)} (hb : b.Offers as i)
    (hd : d.Offers bs j) (h : b.same c d = true) (hfit : b.NestsUnder c) (ht : f.type = .fml) :
    b.standalone.length = d.standalone.length ∧
      Same c (Item.mk f b.standalone) (Item.mk f d.standalone) := by
  have hequals := hb.equals_standalone hd ((hb.same_iff_equals hd hfit).1 h)
  have hlen := hequals.length_eq hb.sound_standalone hd.sound_standalone
  refine ⟨hlen, ⟨rfl, fun hf => absurd ht hf, fun _ => ?_⟩, fun _ _ => hequals.eq_nil_iff,
    fun _ _ _ => ?_⟩
  · change Region.isReadable c b.standalone = Region.isReadable c d.standalone
    by_cases hne : b.standalone = []
    · rw [hequals.eq_nil_iff.1 hne, hne]
    · have hne' := mt hequals.eq_nil_iff.2 hne
      rw [Bool.eq_iff_iff,
        (hb.sound_standalone hne).isReadable_iff c hb.nestingDepth_standalone_le hne,
        (hd.sound_standalone hne').isReadable_iff c hd.nestingDepth_standalone_le hne', hlen]
  · rw [Region.same_iff, hb.items_standalone, hd.items_standalone,
      forall₂_sort_iff fun _ _ h => h.id]
    exact ((hb.same_iff hd).1 h).2

end Buffer.Offers

namespace Value

variable {b d : Buffer .wide} {as bs : List (Item .wide)}

theorem checkEncodable_nested (hb : b.Offers as i) (hd : d.Offers bs j) (h : b.same c d = true)
    (hfit : b.NestsUnder c) (f : FieldId w) :
    (fml b).checkEncodable f = (fml d).checkEncodable f := by
  have hequals := hb.equals_standalone hd ((hb.same_iff_equals hd hfit).1 h)
  have hdepth : nestingDepth .wide b.standalone = nestingDepth .wide d.standalone :=
    Nat.le_antisymm (hequals.symm.nestingDepth_le hd.nestingDepth_standalone_le)
      (hequals.nestingDepth_le hb.nestingDepth_standalone_le)
  cases b with
  | null =>
    cases d with
    | null => rfl
    | allocated t => cases h
  | allocated s =>
    cases d with
    | null => cases h
    | allocated t =>
      have hdepth : nestingDepth .wide s.region = nestingDepth .wide t.region := by
        rw [← s.nestingDepth_standalone, ← t.nestingDepth_standalone]
        exact hdepth
      rw [checkEncodable, checkEncodable, hdepth]

theorem coerce_fml (b : Buffer .wide) (t : FieldType) (field : FieldRef) :
    (fml b).coerce t field = if t = .fml then .ok (fml b)
      else .error (.typeMismatch field t.keyword FieldType.fml.keyword) := by
  cases t <;> rfl

variable {v u : Value}

theorem Like.type_eq (h : v.Like c u) : v.type = u.type := by
  cases h <;> rfl

/-- What a field stores of one operand is like what it stores of the other. -/
theorem Like.coerce (h : v.Like c u) (t : FieldType) (field : FieldRef) :
    Paired (fun v' u' => v'.Like c u') (v.coerce t field) (u.coerce t field) := by
  cases h with
  | refl v => exact .refl _ fun v' _ => .refl v'
  | nested h hfit =>
    rw [coerce_fml, coerce_fml]
    split
    · exact .ok (.nested h hfit)
    · exact .error _

/-- Two entries of a field that equality does not tell apart. -/
def Entries (c : ArenaConfig) (f : FieldId w) (p q : Bytes) : Prop :=
  ∃ x y : Item w, x.Sound ∧ y.Sound ∧ x.id = f ∧ Same c x y ∧ p = x.encode ∧ q = y.encode

theorem Like.encodeEntry (h : v.Like c u) (hv : v.Built) (hu : u.Built) (htv : v.type = f.type)
    (htu : u.type = f.type) : Paired (Entries c f) (v.encodeEntry f) (u.encodeEntry f) := by
  cases h with
  | refl v =>
    refine .refl _ fun entry he => ?_
    obtain ⟨hs, rfl⟩ := sound_item htv hv he
    exact ⟨_, _, hs, hs, rfl, .of_self (Region.same_refl c _), rfl, rfl⟩
  | @nested b d h hfit =>
    obtain ⟨as, i, hb⟩ := hv _ rfl
    obtain ⟨bs, j, hd⟩ := hu _ rfl
    obtain ⟨hlen, hsame⟩ := hb.same_standalone (f := f) hd h hfit htv.symm
    have hpaired : Paired (fun _ _ => True) ((fml b).encodeEntry f) ((fml d).encodeEntry f) := by
      rw [Value.encodeEntry, Value.encodeEntry, checkEncodable_nested hb hd h hfit f]
      refine (Paired.refl (R := fun _ _ => True) _ fun _ _ => trivial).bind fun _ _ _ => ?_
      have hbytes : (fml b).encode.length = (fml d).encode.length := hlen
      dsimp only
      rw [hbytes]
      split
      · exact .ok trivial
      · exact .error _
    refine hpaired.mono_of_ok fun p q hp hq _ => ?_
    obtain ⟨hsx, rfl⟩ := sound_item htv hv hp
    obtain ⟨hsy, rfl⟩ := sound_item htu hu hq
    exact ⟨_, _, hsx, hsy, rfl, hsame, rfl, rfl⟩

end Value

/-! Buffers nested in one another. -/

namespace Buffer

/-- An empty buffer that stands in another, which stands in another, and so on. -/
def chain (f : FieldId .wide) : Nat → Buffer .wide
  | 0 => ((Change.reallocate 16).after ⟨{}, .null⟩).buffer
  | n + 1 => ((Change.add f (.fml (chain f n))).after ⟨{}, .null⟩).buffer

variable {f : FieldId .wide} {n : Nat}

theorem reachable_chain (f : FieldId .wide) (n : Nat) :
    Reachable ArenaConfig.Stated (chain f n) := by
  have hc : ArenaConfig.Stated {} := show 64 * 1024 * 1024 < 2 ^ 32 by decide
  induction n with
  | zero => exact .after (p := ⟨{}, .null⟩) hc .null nofun nofun
  | succ n ih => exact .after (p := ⟨{}, .null⟩) hc .null ih.of_written nofun

/-- What a chain of so many nested buffers comes to. -/
structure IsChain (f : FieldId .wide) (n : Nat) (b : Buffer .wide) : Prop where
  holds : ∃ xs, b.Holds xs true ∧ ∀ m, n = m + 1 → xs = [⟨f, (chain f m).standalone⟩]
  length : b.standalone.length = 16 + 24 * n
  nests (m : Nat) : Region.NestsWithin m .wide b.standalone ↔ n ≤ m

theorem IsChain.shallow {b : Buffer .wide} (h : IsChain f n b) :
    (Value.fml b).Shallow ↔ n < maxNesting := by
  obtain ⟨xs, ⟨s, rfl, -⟩, -⟩ := h.holds
  have hlt : nestingDepth .wide s.region < maxNesting ↔ n ≤ maxNesting - 1 := by
    rw [← s.nestingDepth_standalone, nestingDepth_lt_iff]
    exact h.nests _
  exact hlt.trans (Nat.lt_iff_le_pred (by decide)).symm

theorem IsChain.standalone_ne_nil {b : Buffer .wide} (h : IsChain f n b) : b.standalone ≠ [] := by
  apply List.ne_nil_of_length_pos
  rw [h.length]
  omega

theorem IsChain.stated {b : Buffer .wide} (h : IsChain f n b) (hn : n ≤ maxNesting) :
    (Item.mk f b.standalone).Stated := by
  have hsmall : n ≤ 64 := hn
  change b.standalone.length ≤ 2 ^ 32 - 1
  rw [h.length]
  omega

theorem IsChain.not_isReadable {b : Buffer .wide} (h : IsChain f n b)
    (hc : c.ceiling < Header.size) : Region.isReadable c b.standalone = false := by
  obtain ⟨xs, hb, -⟩ := h.holds
  have hs := Offers.sound_standalone (.inl hb) h.standalone_ne_nil
  refine Bool.eq_false_iff.2 fun hr => ?_
  have hroom := (hs.isReadable_iff c (Offers.nestingDepth_standalone_le (.inl hb))
    h.standalone_ne_nil).1 hr
  have hgrant := hroom.granted
  rw [h.length] at hgrant
  exact absurd hc (Nat.not_lt.2 (Nat.le_trans (Nat.le_add_right ..) hgrant))

theorem Holds.isChain {b : Buffer .wide} {xs : List (Item .wide)} (h : b.Holds xs true)
    (hxs : ∀ m, n = m + 1 → xs = [⟨f, (chain f m).standalone⟩])
    (hlen : regionSize xs = 16 + 24 * n) (hn : ∀ m, (∀ x ∈ xs, x.NestsBelow m) ↔ n ≤ m) :
    IsChain f n b := by
  refine ⟨⟨xs, h, hxs⟩, ?_, fun m => ?_⟩
  · obtain ⟨s, rfl, hs, -⟩ := h
    exact hs.length_standalone.trans (hs.used.trans hlen)
  · rw [nestsWithin_iff_items, Offers.items_standalone (.inl h)]
    exact hn m

theorem regionSize_singleton (x : Item .wide) : regionSize [x] = 24 + x.value.length := by
  rw [regionSize, encodeAll_cons, encodeAll_nil, List.append_nil, length_encode, Item.size]
  change 16 + (8 + _) = _
  omega

theorem IsChain.holds_succ (hf : f.type = .fml) (hn : n < maxNesting)
    (h : IsChain f n (chain f n)) :
    (chain f (n + 1)).Holds [⟨f, (chain f n).standalone⟩] true := by
  have hc : ArenaConfig.Stated {} := show 64 * 1024 * 1024 < 2 ^ 32 by decide
  obtain ⟨xs, hb, -⟩ := h.holds
  have hbuilt : (Value.fml (chain f n)).Built := fun _ hb' =>
    Value.fml.inj hb' ▸ ⟨xs, true, .inl hb⟩
  have hample : ({} : ArenaConfig).Ample (regionSize [⟨f, (chain f n).standalone⟩]) := by
    refine ⟨by decide, ?_⟩
    have hsmall : n < 64 := hn
    rw [regionSize_singleton, h.length]
    change 2 * _ ≤ 64 * 1024 * 1024
    omega
  have hadd := Edit.add_put_ends (p := ⟨{}, .null⟩) (x := ⟨f, (chain f n).standalone⟩)
    (.inr ⟨rfl, rfl, rfl⟩) hc hbuilt hf.symm trivial (h.shallow.2 hn)
    (h.stated hn.le) rfl
  rw [Ends] at hadd
  cases hrun : Edit.add f (.fml (chain f n)) ⟨{}, .null⟩ with
  | error e q =>
    simp only [hrun] at hadd
    exact absurd hample hadd.2.1
  | ok u q =>
    simp only [hrun] at hadd
    have hchain : chain f (n + 1) = q.buffer := by
      rw [chain, Change.after, Change.run, bind_of_ok hrun]
      rfl
    rw [hchain]
    exact hadd.1

theorem isChain_chain (hf : f.type = .fml) (hn : n ≤ maxNesting) : IsChain f n (chain f n) := by
  induction n with
  | zero =>
    have hfresh : (Storage.fresh .wide 1 16).Holds [] :=
      (Storage.fresh_holds .wide 1 (by decide) (by decide)).1
    exact Holds.isChain ⟨_, rfl, hfresh, rfl⟩ nofun rfl fun m => iff_of_true nofun (Nat.zero_le m)
  | succ n ih =>
    have ih := ih (Nat.le_of_succ_le hn)
    refine Holds.isChain (ih.holds_succ hf hn) (fun m hm => Nat.succ.inj hm ▸ rfl) ?_ fun m => ?_
    · rw [regionSize_singleton, ih.length]
      omega
    · rw [List.forall_mem_singleton]
      constructor
      · intro h
        obtain ⟨k, rfl, hk⟩ := h hf ih.standalone_ne_nil
        exact Nat.succ_le_succ ((ih.nests k).1 hk)
      · intro h _ _
        obtain ⟨k, rfl⟩ : ∃ k, m = k + 1 := ⟨m - 1, by omega⟩
        exact ⟨k, rfl, (ih.nests k).2 (Nat.le_of_succ_le_succ h)⟩

/-- Where what they nest does not fit, chains of any depth are equal. -/
theorem same_chain (hf : f.type = .fml) {m : Nat} (hm : m < maxNesting) (hn : n < maxNesting)
    (hc : c.ceiling < Header.size) : (chain f (m + 1)).same c (chain f (n + 1)) = true := by
  have hm' := isChain_chain hf hm.le
  have hn' := isChain_chain hf hn.le
  refine ((hm'.holds_succ hf hm).same_iff (hn'.holds_succ hf hn)).2
    ((forall₂_sort_iff fun _ _ h => h.id).1 ?_)
  rw [sort_eq_self (List.pairwise_singleton ..), sort_eq_self (List.pairwise_singleton ..)]
  refine .cons ?_ .nil
  have hread := (hm'.not_isReadable hc).trans (hn'.not_isReadable hc).symm
  have hfalse : ¬ Region.isReadable c (chain f m).standalone = true :=
    Bool.eq_false_iff.1 (hm'.not_isReadable hc)
  exact ⟨⟨rfl, fun h => absurd hf h, fun _ => hread⟩, fun _ h => absurd h hfalse,
    fun _ h => absurd h hfalse⟩

theorem not_equals_chain (hf : f.type = .fml) {m : Nat} (hm : m ≤ maxNesting) (hn : n ≤ maxNesting)
    (hmn : m ≠ n) : ¬ Region.Equals .wide (chain f m).region (chain f n).region := by
  intro h
  have hm' := isChain_chain hf hm
  have hn' := isChain_chain hf hn
  obtain ⟨xs, hxs, -⟩ := hm'.holds
  obtain ⟨ys, hys, -⟩ := hn'.holds
  have hlen := (Offers.equals_standalone (.inl hxs) (.inl hys) h).length_eq
    (Offers.sound_standalone (.inl hxs)) (Offers.sound_standalone (.inl hys))
  rw [hm'.length, hn'.length] at hlen
  omega

theorem encodeEntry_chain_iff (hf : f.type = .fml) (hn : n ≤ maxNesting) :
    (∃ entry, (Value.fml (chain f n)).encodeEntry f = .ok entry) ↔ n < maxNesting := by
  have h := isChain_chain hf hn
  simp only [Value.encodeEntry_eq_ok_iff, exists_and_left, exists_eq, and_true, h.shallow]
  exact ⟨fun h => h.2.1, fun hlt => ⟨trivial, hlt, h.stated hn⟩⟩

end Buffer

end FieldBuffers
