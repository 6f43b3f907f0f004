import FieldBuffers.Proofs.Logical

/-! Laws of the operations on whole buffers. Each follows, one field at a time, from a law of the
lists of occurrences, since equality is told by the occurrences of each field. -/

namespace FieldBuffers

open Item

variable {w : Width} {α : Type}

namespace Merge

variable {m : Merge}

@[simp] theorem overlay_nil_right (as : List α) : overlay as [] = as := by cases as <;> rfl

@[simp] theorem overlay_nil_left (bs : List α) : overlay [] bs = bs := by cases bs <;> rfl

theorem overlay_assoc (as bs cs : List α) :
    overlay (overlay as bs) cs = overlay as (overlay bs cs) := by
  induction as generalizing bs cs with
  | nil => rw [overlay_nil_left, overlay_nil_left]
  | cons a as ih =>
    cases bs with
    | nil => rw [overlay_nil_right, overlay_nil_left]
    | cons b bs =>
      cases cs with
      | nil => rw [overlay_nil_right, overlay_nil_right]
      | cons c cs => rw [overlay, overlay, overlay, overlay, ih]

theorem overlay_self (as : List α) : overlay as as = as := by
  induction as with
  | nil => rfl
  | cons a as ih => rw [overlay, ih]

theorem merge_assoc (h : m ≠ .outerJoin) (as bs cs : List α) :
    m.merge (m.merge as bs) cs = m.merge as (m.merge bs cs) := by
  cases m with
  | concat => exact List.append_assoc as bs cs
  | join => cases as <;> cases bs <;> rfl
  | outerJoin => exact absurd rfl h
  | update => exact overlay_assoc as bs cs

theorem merge_nil_right (h : m ≠ .join) (as : List α) : m.merge as [] = as := by
  cases m with
  | concat => exact List.append_nil as
  | join => exact absurd rfl h
  | outerJoin => cases as <;> rfl
  | update => exact overlay_nil_right as

theorem merge_nil_left (h : m = .concat ∨ m = .update) (as : List α) : m.merge [] as = as := by
  rcases h with rfl | rfl
  · rfl
  · exact overlay_nil_left as

theorem join_nil (as : List α) : join.merge as [] = [] ∧ join.merge [] as = [] := by
  cases as <;> exact ⟨rfl, rfl⟩

theorem merge_self (h : m ≠ .concat) (as : List α) : m.merge as as = as := by
  cases m with
  | concat => exact absurd rfl h
  | join => cases as <;> rfl
  | outerJoin => cases as <;> rfl
  | update => exact overlay_self as

theorem outerJoin_again (as bs : List α) :
    outerJoin.merge (outerJoin.merge as bs) bs = outerJoin.merge as bs := by
  cases as <;> cases bs <;> rfl

theorem outerJoin_eq (as bs : List α) : outerJoin.merge as bs
    = concat.merge (join.merge as bs) (if bs.isEmpty then as else []) := by
  cases as <;> cases bs <;> simp [merge]

end Merge

namespace Buffer

variable {m : Merge} {a b c e : Buffer w} {g h : FieldId w → List (Item w)} {fs : List (FieldId w)}
  {Q : Buffer w → Prop}

/-- An allocated buffer with these items for each field. -/
def Has (b : Buffer w) (g : FieldId w → List (Item w)) : Prop :=
  ∃ xs indexed, b.Holds xs indexed ∧ ∀ f, ofField f xs = g f

/-- Whatever arena a buffer is in, merging another into it is refused room or leaves a buffer that
`Q` holds of. -/
def Merged (m : Merge) (a b : Buffer w) (Q : Buffer w → Prop) : Prop :=
  ∀ arena : Arena, arena.config.Stated →
    Ends (Edit.merge m b) ⟨arena, a⟩ (fun _ q => Q q.buffer) fun e _ => arena.config.Refuses e

def Erased (a : Buffer w) (fs : List (FieldId w)) (Q : Buffer w → Prop) : Prop :=
  ∀ arena : Arena, Ends (Edit.eraseMany fs) ⟨arena, a⟩ (fun _ q => Q q.buffer) fun _ _ => False

def Equal (a b : Buffer w) : Prop := ∀ d, same d a b = true

/-- The buffer itself or a copy of it. -/
def Copies (a b : Buffer w) : Prop := b = a ∨ ∃ arena arena', a.copy arena = .ok (b, arena')

theorem has_of_reachable (hb : Reachable ArenaConfig.Stated b) (hn : b.isNull = false) :
    ∃ g, b.Has g := by
  obtain ⟨xs, indexed, hx⟩ := holds_of_reachable hb hn
  exact ⟨fun f => ofField f xs, xs, indexed, hx, fun _ => rfl⟩

theorem Has.congr (hb : b.Has g) (hgh : ∀ f, g f = h f) : b.Has h := funext hgh ▸ hb

theorem Has.eq_nil_of_entries (hb : b.Has g) (hempty : b.entries = []) : g = fun _ => [] := by
  obtain ⟨xs, i, ⟨s, rfl, hs, -⟩, hx⟩ := hb
  obtain rfl := hs.eq_nil_of_entries hempty
  exact funext fun f => (hx f).symm

theorem Has.equal (ha : a.Has g) (hb : b.Has g) : a.Equal b := by
  obtain ⟨xs, i, ⟨s, rfl, hs, -⟩, hx⟩ := ha
  obtain ⟨ys, j, ⟨t, rfl, ht, -⟩, hy⟩ := hb
  refine fun d => hs.same ht.toStores (eq_of_sorted (sorted_sort xs) (sorted_sort ys) fun f => ?_) d
  rw [ofField_sort, ofField_sort, hx, hy]

theorem Has.merged (ha : a.Has g) (hb : b.Has h)
    (hQ : ∀ c : Buffer w, c.Has (fun f => m.merge (g f) (h f)) → Q c) : Merged m a b Q := by
  obtain ⟨xs, i, ha, hx⟩ := ha
  obtain ⟨ys, j, hb, hy⟩ := hb
  intro arena hc
  refine (Edit.merge_makes (p := ⟨arena, a⟩) ha hb hc).mono (fun _ q hq => ?_) fun _ _ he => he.1
  refine hQ _ ⟨_, true, hq.1, fun f => ?_⟩
  rw [ofField_sort, Merge.ofField_entries, hx, hy]

theorem Has.erased (ha : a.Has g)
    (hQ : ∀ c : Buffer w, c.Has (fun f => if fs.contains f then [] else g f) → Q c) :
    a.Erased fs Q := by
  obtain ⟨xs, i, ha, hx⟩ := ha
  intro arena
  refine (Edit.retain_leaves (p := ⟨arena, a⟩) ha).mono (fun _ q hq => ?_) fun _ _ h => h
  refine hQ _ ⟨_, i, hq.1, fun f => ?_⟩
  rw [ofField_filter (fun f => !fs.contains f), hx]
  beta_reduce
  cases fs.contains f <;> rfl

theorem Has.contains_fields (hb : b.Has h) (f : FieldId w) :
    b.fields.contains f = !(h f).isEmpty := by
  obtain ⟨ys, j, ⟨t, rfl, ht, -⟩, hy⟩ := hb
  have hentries : (allocated t).entries = layout Header.size ys := ht.entries_eq
  rw [← hy, ← map_item_filter_layout Header.size, List.isEmpty_map, fields, hentries,
    Bool.eq_iff_iff]
  simp

theorem Has.copied (ha : a.Has g) (hb : Copies a b) : b.Has g := by
  obtain rfl | ⟨arena, arena', h⟩ := hb
  · exact ha
  obtain ⟨xs, i, ⟨s, rfl, hs, -⟩, hx⟩ := ha
  obtain ⟨⟨d, a1⟩, hd, h⟩ := ok_bind_iff.1 h
  obtain ⟨hnull, -⟩ | ⟨r, hr, rfl⟩ := snapshot_eq_ok hd
  · cases hnull
  obtain rfl := allocated.inj hr
  obtain ⟨rfl, -⟩ := Prod.mk.inj (Except.ok.inj h)
  refine ⟨sort xs, true, ⟨_, rfl, ((hs.moved _).indexed _).1, rfl⟩, fun f => ?_⟩
  rw [ofField_sort, hx]

/-- The laws, of three buffers and an empty one. -/
structure Laws (a b c e : Buffer w) : Prop where
  assoc (m : Merge) : m ≠ .outerJoin → Merged m a b fun ab => Merged m ab c fun left =>
    Merged m b c fun bc => Merged m a bc fun right => left.Equal right
  right_identity (m : Merge) : m ≠ .join → Merged m a e fun r => r.Equal a
  left_identity (m : Merge) : m = .concat ∨ m = .update → Merged m e a fun r => r.Equal a
  annihilator : (Merged .join a e fun r => r.Equal e) ∧ Merged .join e a fun r => r.Equal e
  idempotent (m : Merge) : m ≠ .concat → ∀ a', Copies a a' → Merged m a a' fun r => r.Equal a
  outerJoin_again : Merged .outerJoin a b fun r => Merged .outerJoin r b fun r' => r'.Equal r
  outerJoin_eq : Merged .outerJoin a b fun left => Merged .join a b fun joined =>
    a.Erased b.fields fun rest => Merged .concat joined rest fun right => left.Equal right

theorem laws_of_reachable (ha : Reachable ArenaConfig.Stated a) (han : a.isNull = false)
    (hb : Reachable ArenaConfig.Stated b) (hbn : b.isNull = false)
    (hc : Reachable ArenaConfig.Stated c) (hcn : c.isNull = false)
    (he : Reachable ArenaConfig.Stated e) (hen : e.isNull = false) (hempty : e.entries = []) :
    Laws a b c e := by
  obtain ⟨g, ha⟩ := has_of_reachable ha han
  obtain ⟨h, hb⟩ := has_of_reachable hb hbn
  obtain ⟨k, hc⟩ := has_of_reachable hc hcn
  obtain ⟨n, he⟩ := has_of_reachable he hen
  obtain rfl : n = fun _ => [] := he.eq_nil_of_entries hempty
  constructor
  case assoc =>
    intro m hm
    refine ha.merged hb fun ab hab => hab.merged hc fun left hleft => ?_
    refine hb.merged hc fun bc hbc => ha.merged hbc fun right hright => ?_
    exact (hleft.congr fun f => Merge.merge_assoc hm ..).equal hright
  case right_identity =>
    intro m hm
    exact ha.merged he fun r hr => (hr.congr fun f => Merge.merge_nil_right hm _).equal ha
  case left_identity =>
    intro m hm
    exact he.merged ha fun r hr => (hr.congr fun f => Merge.merge_nil_left hm _).equal ha
  case annihilator =>
    exact ⟨ha.merged he fun r hr => (hr.congr fun f => (Merge.join_nil _).1).equal he,
      he.merged ha fun r hr => (hr.congr fun f => (Merge.join_nil _).2).equal he⟩
  case idempotent =>
    intro m hm a' ha'
    exact ha.merged (ha.copied ha') fun r hr => (hr.congr fun f => Merge.merge_self hm _).equal ha
  case outerJoin_again =>
    refine ha.merged hb fun r hr => hr.merged hb fun r' hr' => ?_
    exact (hr'.congr fun f => Merge.outerJoin_again ..).equal hr
  case outerJoin_eq =>
    refine ha.merged hb fun left hleft => ha.merged hb fun joined hjoined => ?_
    refine ha.erased fun rest hrest => hjoined.merged hrest fun right hright => ?_
    refine (hleft.congr fun f => ?_).equal hright
    rw [Merge.outerJoin_eq, hb.contains_fields]
    cases (h f).isEmpty <;> rfl

theorem laws_after_writes :
    let f : FieldId .wide := ⟨.short, 1, by decide, by decide, by decide⟩
    let g : FieldId .wide := ⟨.char, 2, by decide, by decide, by decide⟩
    let p : Place .wide := ⟨{ config := ⟨32, 128⟩ }, .null⟩
    let a := (p.afterAll [.append g (.char 65), .append f (.short 7)]).buffer
    let b := (p.afterAll [.add f (.short 8), .add f (.short 9)]).buffer
    let c := (p.afterAll [.add g (.char 66)]).buffer
    let e := (p.afterAll [.reallocate 64]).buffer
    a.fields = [g, f] ∧ b.count f = 2 ∧ c.fields = [g] ∧ Laws a b c e := by
  intro f g p a b c e
  have hreach : ∀ ds : List (Change .wide),
      (∀ d ∈ ds, (∀ v ∈ d.value?, v.type ≠ .fml) ∧ d.other? = none) →
      Reachable ArenaConfig.Stated (p.afterAll ds).buffer := fun ds hds =>
    .afterAll (p := p) (show 128 < 2 ^ 32 by decide) .null fun d hd =>
      Change.plain_of_flat (hds d hd).1 (hds d hd).2
  have hlaws : Laws a b c e :=
    laws_of_reachable (hreach _ (by decide)) (by decide +kernel) (hreach _ (by decide))
      (by decide +kernel) (hreach _ (by decide)) (by decide +kernel) (hreach _ (by decide))
      (by decide +kernel) (by decide +kernel)
  exact ⟨by decide +kernel, by decide +kernel, by decide +kernel, hlaws⟩

end Buffer

end FieldBuffers
