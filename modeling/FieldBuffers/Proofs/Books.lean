import Mathlib.Algebra.Order.BigOperators.Group.Multiset
import Mathlib.Algebra.Order.Group.Nat
import Mathlib.Logic.Relation
import FieldBuffers.Arena.Basic
import FieldBuffers.Proofs.Outcome

/-! The accounts of an arena. Every change of them on behalf of whoever has a block keeps them in
agreement with the blocks that are out (`Books.Sound`). -/

namespace FieldBuffers

/-- An arena, with the handles and sizes of the blocks that are out. -/
structure Books where
  arena : Arena
  out : Multiset (Nat × Nat)

namespace Books

/-- The bytes that are out. -/
def bytes (b : Books) : Nat := (b.out.map Prod.snd).sum

/-- One change of the accounts. -/
inductive Update : Books → Books → Prop
  | reserve {a a' : Arena} {kind : BlockKind} {handle size : Nat} {out : Multiset (Nat × Nat)} :
      a.reserve kind size = .ok (handle, a') → Update ⟨a, out⟩ ⟨a', (handle, size) ::ₘ out⟩
  | extend {a a' : Arena} {handle old new : Nat} {out : Multiset (Nat × Nat)} :
      old < new → a.extend handle old new = .ok a' →
      Update ⟨a, (handle, old) ::ₘ out⟩ ⟨a', (handle, new) ::ₘ out⟩
  | reduce {a : Arena} {handle old new : Nat} {out : Multiset (Nat × Nat)} :
      new < old → Update ⟨a, (handle, old) ::ₘ out⟩ ⟨a.reduce handle old new, (handle, new) ::ₘ out⟩
  | release {a : Arena} {handle size : Nat} {out : Multiset (Nat × Nat)} :
      Update ⟨a, (handle, size) ::ₘ out⟩ ⟨a.release handle, out⟩

/-- The accounts agree with what is out. -/
structure Sound (b : Books) : Prop where
  live : (b.arena.tracker.live : Multiset Allocation).map (fun x => (x.handle, x.size)) = b.out
  nodup : (b.out.map Prod.fst).Nodup
  fresh : ∀ x ∈ b.out, x.1 < b.arena.nextHandle
  liveBytes : b.arena.tracker.liveBytes = b.bytes
  total : b.arena.tracker.total + 1 = b.arena.nextHandle

/-- Accounts kept from the opening of an arena on, one update after another. What was before is
listed with the latest first. -/
inductive History (c : ArenaConfig) : Books → List Books → Prop
  | opened : History c ⟨{ config := c }, 0⟩ []
  | updated {b b' : Books} {past : List Books} :
      History c b past → Update b b' → History c b' (b :: past)

/-- The most bytes that were ever out. -/
def highest (bs : List Books) : Nat := (bs.map bytes).foldr max 0

variable {a a' : Arena} {b b' : Books} {out : Multiset (Nat × Nat)} {handle size old new : Nat}

@[simp] theorem bytes_cons (a : Arena) (x : Nat × Nat) (out : Multiset (Nat × Nat)) :
    bytes ⟨a, x ::ₘ out⟩ = x.2 + (out.map Prod.snd).sum := by simp [bytes]

theorem sound_opened (c : ArenaConfig) : Sound ⟨{ config := c }, 0⟩ where
  live := rfl
  nodup := Multiset.nodup_zero
  fresh := nofun
  liveBytes := rfl
  total := rfl

namespace Sound

theorem notMem (h : Sound ⟨a, (handle, size) ::ₘ out⟩) : handle ∉ out.map Prod.fst := by
  have hnodup := h.nodup
  rw [Multiset.map_cons, Multiset.nodup_cons] at hnodup
  exact hnodup.1

/-- Leaving a handle out of the accounts leaves its block out of those that are out. -/
theorem without_eq (h : Sound ⟨a, out⟩) (handle : Nat) :
    (a.tracker.without handle : Multiset Allocation).map (fun x => (x.handle, x.size))
      = out.filter (·.1 ≠ handle) := by
  have hlive : ((a.tracker.live : Multiset Allocation).map fun x => (x.handle, x.size)) = out :=
    h.live
  have hkept : a.tracker.without handle
      = a.tracker.live.filter fun x => decide (x.handle ≠ handle) := by
    refine List.filter_congr fun x _ => ?_
    by_cases hx : x.handle = handle <;> simp [hx]
  rw [← hlive, Multiset.filter_map, hkept, ← Multiset.filter_coe]
  rfl

theorem filter_eq_self (h : handle ∉ out.map Prod.fst) : out.filter (·.1 ≠ handle) = out := by
  refine Multiset.filter_eq_self.2 fun x hx hname => h ?_
  exact hname ▸ Multiset.mem_map_of_mem Prod.fst hx

/-- A block that is out has its size in the accounts. -/
theorem exists_get? (h : Sound ⟨a, (handle, size) ::ₘ out⟩) :
    ∃ x, a.tracker.get? handle = some x ∧ x.handle = handle ∧ x.size = size ∧
      (a.tracker.without handle : Multiset Allocation).map (fun x => (x.handle, x.size)) = out := by
  have hwithout := h.without_eq handle
  rw [Multiset.filter_cons_of_neg _ (by simp), filter_eq_self h.notMem] at hwithout
  have hlive : ((a.tracker.live : Multiset Allocation).map fun x => (x.handle, x.size))
      = (handle, size) ::ₘ out := h.live
  have hmem : (handle, size)
      ∈ (a.tracker.live : Multiset Allocation).map fun x => (x.handle, x.size) :=
    hlive ▸ Multiset.mem_cons_self ..
  obtain ⟨y, hy, hpair⟩ := Multiset.mem_map.1 hmem
  obtain ⟨x, hx⟩ : ∃ x, a.tracker.get? handle = some x := by
    rw [← Option.isSome_iff_exists, Tracker.get?, List.find?_isSome]
    exact ⟨y, hy, by simp [(Prod.mk.inj hpair).1]⟩
  have hname : x.handle = handle := by simpa using List.find?_some hx
  have hin : (x.handle, x.size) ∈ (handle, size) ::ₘ out :=
    hlive ▸ Multiset.mem_map_of_mem _ (List.mem_of_find?_eq_some hx)
  refine ⟨x, hx, hname, ?_, hwithout⟩
  rcases Multiset.mem_cons.1 hin with heq | hout
  · exact (Prod.mk.inj heq).2
  · exact absurd (hname ▸ Multiset.mem_map_of_mem Prod.fst hout) h.notMem

theorem reserve {kind : BlockKind} (h : Sound ⟨a, out⟩)
    (hres : a.reserve kind size = .ok (handle, a')) : Sound ⟨a', (handle, size) ::ₘ out⟩ := by
  obtain ⟨⟨⟩, -, hres⟩ := ok_bind_iff.1 hres
  obtain ⟨rfl, rfl⟩ := Prod.mk.inj (Except.ok.inj hres)
  have hnew : a.nextHandle ∉ out.map Prod.fst := by
    rintro hmem
    obtain ⟨x, hx, hname⟩ := Multiset.mem_map.1 hmem
    exact Nat.ne_of_lt (h.fresh x hx) hname
  constructor
  case live =>
    have hwithout := h.without_eq a.nextHandle
    rw [filter_eq_self hnew] at hwithout
    exact congrArg ((a.nextHandle, size) ::ₘ ·) hwithout
  case nodup =>
    rw [Multiset.map_cons, Multiset.nodup_cons]
    exact ⟨hnew, h.nodup⟩
  case fresh =>
    intro x hx
    rcases Multiset.mem_cons.1 hx with rfl | hx
    · exact Nat.lt_succ_self _
    · exact Nat.lt_succ_of_lt (h.fresh x hx)
  case liveBytes =>
    have hbytes : a.tracker.liveBytes = (out.map Prod.snd).sum := h.liveBytes
    rw [bytes_cons, Nat.add_comm size]
    exact congrArg (· + size) hbytes
  case total => exact congrArg (· + 1) h.total

theorem resize (h : Sound ⟨a, (handle, old) ::ₘ out⟩) (new : Nat) :
    Sound ⟨{ a with tracker := a.tracker.resize handle new }, (handle, new) ::ₘ out⟩ := by
  obtain ⟨x, hx, rfl, rfl, hwithout⟩ := h.exists_get?
  have hbytes : a.tracker.liveBytes = x.size + (out.map Prod.snd).sum :=
    h.liveBytes.trans (bytes_cons ..)
  have hresize : a.tracker.resize x.handle new = Tracker.addBytes
      { a.tracker with
        live := { x with size := new, resizes := x.resizes + 1 } :: a.tracker.without x.handle
        liveBytes := a.tracker.liveBytes - x.size } new := by
    rw [Tracker.resize, hx]
  rw [hresize]
  constructor
  case live => exact congrArg ((x.handle, new) ::ₘ ·) hwithout
  case nodup =>
    have hnodup := h.nodup
    rw [Multiset.map_cons] at hnodup ⊢
    exact hnodup
  case fresh =>
    intro y hy
    rcases Multiset.mem_cons.1 hy with rfl | hy
    · exact h.fresh (x.handle, x.size) (Multiset.mem_cons_self ..)
    · exact h.fresh y (Multiset.mem_cons_of_mem hy)
  case liveBytes =>
    simp only [Tracker.addBytes, bytes_cons, hbytes, Nat.add_sub_cancel_left]
    exact Nat.add_comm ..
  case total => exact h.total

theorem release (h : Sound ⟨a, (handle, size) ::ₘ out⟩) : Sound ⟨a.release handle, out⟩ := by
  obtain ⟨x, hx, rfl, rfl, hwithout⟩ := h.exists_get?
  have hbytes : a.tracker.liveBytes = x.size + (out.map Prod.snd).sum :=
    h.liveBytes.trans (bytes_cons ..)
  have hrelease : a.tracker.release x.handle = { a.tracker with
      live := a.tracker.without x.handle, liveBytes := a.tracker.liveBytes - x.size } := by
    rw [Tracker.release, hx]
  rw [Arena.release, hrelease]
  constructor
  case live => exact hwithout
  case nodup =>
    have hnodup := h.nodup
    rw [Multiset.map_cons, Multiset.nodup_cons] at hnodup
    exact hnodup.2
  case fresh => exact fun y hy => h.fresh y (Multiset.mem_cons_of_mem hy)
  case liveBytes =>
    simp only [hbytes, Nat.add_sub_cancel_left]
    rfl
  case total => exact h.total

theorem update (h : b.Sound) (hb : Update b b') : b'.Sound := by
  cases hb with
  | reserve hres => exact h.reserve hres
  | @extend _ _ _ _ new _ hlt hext =>
    rw [Arena.extend, if_neg (Nat.not_le.2 hlt)] at hext
    obtain ⟨⟨⟩, -, hext⟩ := ok_bind_iff.1 hext
    exact Except.ok.inj hext ▸ h.resize new
  | @reduce _ _ _ new _ hlt =>
    rw [Arena.reduce, if_neg (Nat.not_le.2 hlt)]
    exact h.resize new
  | release => exact h.release

end Sound

theorem total_resize (t : Tracker) (handle size : Nat) : (t.resize handle size).total = t.total := by
  rw [Tracker.resize]
  split <;> rfl

theorem total_release (t : Tracker) (handle : Nat) : (t.release handle).total = t.total := by
  rw [Tracker.release]
  split <;> rfl

theorem tracker_of_reserve {kind : BlockKind} (h : a.reserve kind size = .ok (handle, a')) :
    a'.tracker = a.tracker.allocate handle kind size := by
  obtain ⟨⟨⟩, -, h⟩ := ok_bind_iff.1 h
  obtain ⟨rfl, rfl⟩ := Prod.mk.inj (Except.ok.inj h)
  rfl

theorem tracker_of_extend (hlt : old < new) (h : a.extend handle old new = .ok a') :
    a'.tracker = a.tracker.resize handle new := by
  rw [Arena.extend, if_neg (Nat.not_le.2 hlt)] at h
  obtain ⟨⟨⟩, -, h⟩ := ok_bind_iff.1 h
  exact Except.ok.inj h ▸ rfl

theorem tracker_reduce (a : Arena) (handle : Nat) (hlt : new < old) :
    (a.reduce handle old new).tracker = a.tracker.resize handle new := by
  rw [Arena.reduce, if_neg (Nat.not_le.2 hlt)]

theorem Update.total_le (h : Update b b') : b.arena.tracker.total ≤ b'.arena.tracker.total := by
  cases h with
  | reserve hres => exact tracker_of_reserve hres ▸ Nat.le_succ _
  | extend hlt hext => exact (tracker_of_extend hlt hext ▸ total_resize ..).ge
  | reduce hlt => exact (tracker_reduce _ _ hlt ▸ total_resize ..).ge
  | release => exact (total_release ..).ge

namespace History

variable {c : ArenaConfig} {past : List Books}

theorem sound (h : History c b past) : ∀ x ∈ b :: past, x.Sound := by
  induction h with
  | opened =>
    intro x hx
    exact List.mem_singleton.1 hx ▸ sound_opened c
  | @updated b b' past h hb ih =>
    rintro x hx
    rcases List.mem_cons.1 hx with rfl | hx
    · exact (ih b List.mem_cons_self).update hb
    · exact ih x hx

theorem extend (h : History c b past) (hb : Relation.ReflTransGen Update b b') :
    ∃ past', History c b' past' ∧ b :: past ⊆ b' :: past' := by
  induction hb with
  | refl => exact ⟨past, h, List.Subset.refl _⟩
  | @tail d e _ hde ih =>
    obtain ⟨past', h', hsub⟩ := ih
    exact ⟨d :: past', h'.updated hde, fun x hx => List.mem_cons_of_mem _ (hsub hx)⟩

end History

/-- Any number of changes of the accounts. -/
abbrev Updates : Books → Books → Prop := Relation.ReflTransGen Update

theorem Updates.total_le (h : Updates b b') :
    b.arena.tracker.total ≤ b'.arena.tracker.total := by
  induction h with
  | refl => exact Nat.le_refl _
  | tail _ hb ih => exact Nat.le_trans ih hb.total_le

theorem updates_extend (h : a.extend handle old new = .ok a') (out : Multiset (Nat × Nat)) :
    Updates ⟨a, (handle, old) ::ₘ out⟩ ⟨a', (handle, max old new) ::ₘ out⟩ := by
  rcases Nat.lt_or_ge old new with hlt | hle
  · rw [Nat.max_eq_right (Nat.le_of_lt hlt)]
    exact .single (.extend hlt h)
  · rw [Arena.extend, if_pos hle] at h
    rw [Nat.max_eq_left hle, ← Except.ok.inj h]

theorem updates_reduce (a : Arena) (handle old new : Nat) (out : Multiset (Nat × Nat)) :
    Updates ⟨a, (handle, old) ::ₘ out⟩ ⟨a.reduce handle old new, (handle, min old new) ::ₘ out⟩ := by
  rcases Nat.lt_or_ge new old with hlt | hle
  · rw [Nat.min_eq_right (Nat.le_of_lt hlt)]
    exact .single (.reduce hlt)
  · rw [Arena.reduce, if_pos hle, Nat.min_eq_left hle]

/-! Blocks by themselves. -/

variable {x y : Block}

theorem updates_allocate {kind : BlockKind} {subtype : String}
    (h : a.allocate kind subtype size = .ok (x, a')) (out : Multiset (Nat × Nat)) :
    Updates ⟨a, out⟩ ⟨a', (x.handle, x.capacity) ::ₘ out⟩ := by
  obtain ⟨⟨handle, a1⟩, hres, h⟩ := ok_bind_iff.1 h
  obtain ⟨rfl, rfl⟩ := Prod.mk.inj (Except.ok.inj h)
  rw [Block.capacity, Bytes.length_zeros]
  exact .single (.reserve hres)

theorem updates_grow (h : a.grow x size = .ok (y, a')) (out : Multiset (Nat × Nat)) :
    Updates ⟨a, (x.handle, x.capacity) ::ₘ out⟩ ⟨a', (y.handle, y.capacity) ::ₘ out⟩ := by
  obtain ⟨a1, hext, h⟩ := ok_bind_iff.1 h
  obtain ⟨rfl, rfl⟩ := Prod.mk.inj (Except.ok.inj h)
  have hcap : (x.data ++ Bytes.zeros (size - x.data.length)).length = max x.data.length size := by
    rw [List.length_append, Bytes.length_zeros]
    omega
  simp only [Block.capacity, hcap]
  exact updates_extend hext out

theorem updates_shrink (a : Arena) (x : Block) (size : Nat) (out : Multiset (Nat × Nat)) :
    Updates ⟨a, (x.handle, x.capacity) ::ₘ out⟩
      ⟨(a.shrink x size).2, ((a.shrink x size).1.handle, (a.shrink x size).1.capacity) ::ₘ out⟩ := by
  simp only [Arena.shrink, Block.capacity, List.length_take, Nat.min_comm size]
  exact updates_reduce ..

theorem capacity_write (x : Block) (start : Nat) (bs : Bytes) :
    (x.write start bs).capacity = x.capacity := by
  simp only [Block.capacity, Block.write, List.length_take, List.length_append, List.length_drop]
  omega

end Books

end FieldBuffers
