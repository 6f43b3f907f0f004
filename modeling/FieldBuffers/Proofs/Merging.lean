import FieldBuffers.Session
import FieldBuffers.Proofs.WellFormed

/-! Whole-buffer operations, one field at a time. The occurrences of a field after a merge are made
of those it had in the two buffers as the operation says (`Merge.Yields`), and the second buffer is
what it was. -/

namespace FieldBuffers

open Item

variable {w : Width} {α β : Type}

namespace Merge

/-- What an operation makes of a field's occurrences in two buffers. -/
def Yields (m : Merge) (ours theirs out : List α) : Prop :=
  match m with
  | concat => out = ours ++ theirs
  | join => out = if ours ≠ [] ∧ theirs ≠ [] then theirs else []
  | outerJoin => out = if ours ≠ [] ∧ theirs ≠ [] then theirs else if ours ≠ [] then ours else []
  | update => out.length = max ours.length theirs.length ∧
      ∀ k, out[k]? = if k < theirs.length then theirs[k]? else ours[k]?

theorem length_overlay (as bs : List α) : (overlay as bs).length = max as.length bs.length := by
  induction as generalizing bs with
  | nil => cases bs <;> simp [overlay]
  | cons a as ih => cases bs <;> simp [overlay, ih]

theorem getElem?_overlay (as bs : List α) (k : Nat) :
    (overlay as bs)[k]? = if k < bs.length then bs[k]? else as[k]? := by
  induction as generalizing bs k with
  | nil =>
    cases bs with
    | nil => simp [overlay]
    | cons b bs =>
      by_cases hk : k < (b :: bs).length
      · rw [if_pos hk, overlay]
        simp
      · rw [if_neg hk, overlay, List.getElem?_eq_none (Nat.le_of_not_lt hk)]
        · simp
        · simp
  | cons a as ih =>
    cases bs with
    | nil => simp [overlay]
    | cons b bs => cases k <;> simp [overlay, ih]

theorem yields_merge (m : Merge) (as bs : List α) : m.Yields as bs (m.merge as bs) := by
  cases m with
  | concat => rfl
  | join => cases as <;> cases bs <;> simp [Yields, merge]
  | outerJoin => cases as <;> cases bs <;> simp [Yields, merge]
  | update => exact ⟨length_overlay as bs, getElem?_overlay as bs⟩

theorem map_overlay (g : α → β) (as bs : List α) :
    (overlay as bs).map g = overlay (as.map g) (bs.map g) := by
  induction as generalizing bs with
  | nil => cases bs <;> rfl
  | cons a as ih =>
    cases bs with
    | nil => rfl
    | cons b bs => simp [overlay, ih]

theorem map_merge (m : Merge) (g : α → β) (as bs : List α) :
    (m.merge as bs).map g = m.merge (as.map g) (bs.map g) := by
  cases m with
  | concat => exact List.map_append
  | join => cases as <;> simp [merge]
  | outerJoin => cases as <;> cases bs <;> simp [merge]
  | update => exact map_overlay g as bs

theorem merge_nil (m : Merge) : m.merge [] [] = ([] : List α) := by cases m <;> rfl

theorem nodup_eraseDups [DecidableEq α] (l : List α) : l.eraseDups.Nodup := by
  induction hn : l.length using Nat.strongRecOn generalizing l with
  | ind n ih =>
    cases l with
    | nil => simp
    | cons a as =>
      have hle : (as.filter fun b => !b == a).length < n := by
        rw [← hn]
        exact Nat.lt_succ_of_le (List.length_filter_le ..)
      rw [List.eraseDups_cons, List.nodup_cons]
      refine ⟨?_, ih _ hle _ rfl⟩
      simp

theorem nodup_fields (es : List (Entry w)) : (fields es).Nodup :=
  (List.mergeSort_perm _ _).nodup_iff.2 (nodup_eraseDups _)

theorem mem_fields {es : List (Entry w)} {f : FieldId w} : f ∈ fields es ↔ ∃ e ∈ es, e.id = f := by
  simp [fields]

/-- Of the occurrences of several fields, one after another, those of one field are its own. -/
theorem filter_flatMap {g : FieldId w → List (Entry w)} (hg : ∀ f, ∀ e ∈ g f, e.id = f)
    {fs : List (FieldId w)} (hfs : fs.Nodup) (f : FieldId w) :
    (fs.flatMap g).filter (·.id = f) = if f ∈ fs then g f else [] := by
  induction fs with
  | nil => rfl
  | cons h fs ih =>
    obtain ⟨hh, hfs⟩ := List.nodup_cons.1 hfs
    rw [List.flatMap_cons, List.filter_append, ih hfs]
    by_cases hf : h = f
    · subst hf
      have hself : (g h).filter (·.id = h) = g h := by
        rw [List.filter_eq_self]
        intro e he
        simpa using hg h e he
      rw [hself, if_neg hh, if_pos (List.mem_cons_self ..), List.append_nil]
    · have hnone : (g h).filter (·.id = f) = [] := by
        rw [List.filter_eq_nil_iff]
        intro e he
        simpa [hg h e he] using hf
      rw [hnone, List.nil_append]
      simp [Ne.symm hf]

theorem filter_entries (m : Merge) (es ds : List (Entry w)) (f : FieldId w) :
    (m.entries es ds).filter (·.id = f) = m.merge (es.filter (·.id = f)) (ds.filter (·.id = f)) := by
  have hg : ∀ f, ∀ e ∈ m.merge (es.filter (·.id = f)) (ds.filter (·.id = f)), e.id = f := by
    intro f e he
    rcases mem_of_merge he with he | he
    · simpa using (List.mem_filter.1 he).2
    · simpa using (List.mem_filter.1 he).2
  rw [entries, filter_flatMap hg (nodup_fields _)]
  split
  · rfl
  · rename_i hf
    have hnone : ∀ as : List (Entry w), (∀ e ∈ as, e ∈ es ++ ds) → as.filter (·.id = f) = [] := by
      intro as has
      rw [List.filter_eq_nil_iff]
      intro e he hid
      exact hf (mem_fields.2 ⟨e, has e he, by simpa using hid⟩)
    rw [hnone es fun e he => List.mem_append_left _ he,
      hnone ds fun e he => List.mem_append_right _ he, merge_nil]

end Merge

/-- The bytes of the entries of a field, in order. -/
def Buffer.rawOccurrences (b : Buffer w) (f : FieldId w) : List Bytes :=
  (b.entries.filter (·.id = f)).map Entry.encode

theorem Storage.Stores.rawOccurrences_eq {s : Storage w} {xs : List (Item w)} (h : s.Stores xs)
    (f : FieldId w) : (Buffer.allocated s).rawOccurrences f = (ofField f xs).map Item.encode := by
  have he : (Buffer.allocated s).entries = layout Header.size xs := h.entries_eq
  rw [Buffer.rawOccurrences, he, ← map_item_filter_layout Header.size, List.map_map]
  rfl

theorem Merge.ofField_entries (m : Merge) (xs ys : List (Item w)) (f : FieldId w) :
    ofField f ((m.entries (layout Header.size xs) (layout Header.size ys)).map Entry.item)
      = m.merge (ofField f xs) (ofField f ys) :=
  calc ofField f ((m.entries (layout Header.size xs) (layout Header.size ys)).map Entry.item)
      = ((m.entries (layout Header.size xs) (layout Header.size ys)).filter (·.id = f)).map
          Entry.item := by
        rw [ofField, List.filter_map]
        rfl
    _ = m.merge (ofField f xs) (ofField f ys) := by
        rw [filter_entries, map_merge, map_item_filter_layout, map_item_filter_layout]

theorem Merge.yields_ofField (m : Merge) (xs ys : List (Item w)) (f : FieldId w) :
    m.Yields ((ofField f xs).map Item.encode) ((ofField f ys).map Item.encode)
      ((ofField f (sort ((m.entries (layout Header.size xs) (layout Header.size ys)).map
        Entry.item))).map Item.encode) := by
  rw [ofField_sort, ofField_entries, map_merge]
  exact yields_merge m _ _

namespace Session

theorem lookup_filter_ne {κ : Type} [DecidableEq κ] {k j : κ} (h : j ≠ k) (xs : List (κ × β)) :
    (xs.filter (·.1 != k)).lookup j = xs.lookup j := by
  induction xs with
  | nil => rfl
  | cons x xs ih =>
    obtain ⟨i, b⟩ := x
    by_cases hi : i = k
    · subst hi
      have hji : (j == i) = false := beq_eq_false_iff_ne.2 h
      simp [List.lookup_cons, ih, hji]
    · simp [List.lookup_cons, ih, hi]

theorem lookup_assign_self {κ : Type} [DecidableEq κ] (k : κ) (b : β) (xs : List (κ × β)) :
    (assign k b xs).lookup k = some b := by simp [assign]

theorem lookup_assign_ne {κ : Type} [DecidableEq κ] {k j : κ} (h : j ≠ k) (b : β)
    (xs : List (κ × β)) : (assign k b xs).lookup j = xs.lookup j := by
  rw [assign, List.lookup_cons, beq_eq_false_iff_ne.2 h]
  exact lookup_filter_ne h xs

variable {s : Session w} {name other : String}

theorem buffer_setSlot_self (arena : Option String) (b : Buffer w) :
    (s.setSlot name arena b).buffer name = b := by
  simp [buffer, slot, setSlot, lookup_assign_self]

theorem buffer_setSlot_ne (h : other ≠ name) (arena : Option String) (b : Buffer w) :
    (s.setSlot name arena b).buffer other = s.buffer other := by
  simp [buffer, slot, setSlot, lookup_assign_ne h]

/-- An edit of one buffer of a session ends as it would by itself, and the others stay. -/
theorem edit_ends {e : Edit w α} {Q : α → Place w → Prop} {E : Error → Place w → Prop}
    (h : Ends e ⟨s.arena (s.slot name).arena, s.buffer name⟩ Q E) :
    Ends (edit name e) s
      (fun a t => (∃ q, Q a q ∧ t.buffer name = q.buffer) ∧
        ∀ other, other ≠ name → t.buffer other = s.buffer other)
      fun e t => (∃ q, E e q ∧ t.buffer name = q.buffer) ∧
        ∀ other, other ≠ name → t.buffer other = s.buffer other := by
  simp only [Ends, edit, buffer] at h ⊢
  cases he : e ⟨s.arena (s.slot name).arena, (s.slot name).buffer⟩ with
  | ok a q =>
    rw [he] at h
    exact ⟨⟨q, h, buffer_setSlot_self ..⟩, fun other ho => buffer_setSlot_ne ho ..⟩
  | error x q =>
    rw [he] at h
    exact ⟨⟨q, h, buffer_setSlot_self ..⟩, fun other ho => buffer_setSlot_ne ho ..⟩

theorem merge_run (m : Merge) (h : other ≠ name) :
    merge m name other s = edit name (Edit.merge m (s.buffer other)) s := by
  have ho : operand name other s = .ok (s.buffer other) s := by
    rw [operand, if_neg h]
    rfl
  exact bind_of_ok ho

end Session

theorem Edit.merge_yields {p : Place w} {m : Merge} {b : Buffer w} {xs ys : List (Item w)}
    {indexed other : Bool} (hp : p.buffer.Holds xs indexed) (hb : b.Holds ys other)
    (hc : p.arena.config.Stated) :
    Ends (Edit.merge m b) p
      (fun _ q => (∀ f, m.Yields (p.buffer.rawOccurrences f) (b.rawOccurrences f)
          (q.buffer.rawOccurrences f)) ∧
        ∃ t, q.buffer = .allocated t ∧ t.WellFormed ∧ t.index.isSome)
      fun e q => p.arena.config.Refuses e ∧ q.buffer = p.buffer := by
  apply (merge_makes hp hb hc).mono
  · intro _ q hq
    obtain ⟨⟨t, ht, hz, hi⟩, -⟩ := hq
    obtain ⟨s, hs, hx, -⟩ := hp
    obtain ⟨r, rfl, hy, -⟩ := hb
    refine ⟨fun f => ?_, t, ht, hz.wellFormed, hi⟩
    rw [hs, ht, hx.rawOccurrences_eq, hy.rawOccurrences_eq, hz.rawOccurrences_eq]
    exact m.yields_ofField xs ys f
  · exact fun e q he => ⟨he.1, he.2.1⟩

theorem Buffer.holds_of_reachable {b : Buffer w} (h : Reachable ArenaConfig.Stated b)
    (hn : b.isNull = false) : ∃ xs indexed, b.Holds xs indexed := by
  obtain ⟨xs, indexed, hx | ⟨rfl, -⟩⟩ := sound_invariant.of_reachable h
  · exact ⟨xs, indexed, hx⟩
  · simp [isNull, storage?] at hn

/-- A merge of two allocated buffers gives every field the occurrences that the operation makes of
its occurrences in both. The entries of the result are those and no others, ascending by field and
indexed. Nothing but a lack of room can prevent it, and the second buffer is left alone. -/
theorem merge_of_reachable {s : Session w} {m : Merge} {name other : String} (hne : other ≠ name)
    (ha : Reachable ArenaConfig.Stated (s.buffer name)) (han : (s.buffer name).isNull = false)
    (hb : Reachable ArenaConfig.Stated (s.buffer other)) (hbn : (s.buffer other).isNull = false)
    (hc : (s.arena (s.slot name).arena).config.Stated) :
    Ends (Session.merge m name other) s
      (fun _ t => (∀ f, m.Yields ((s.buffer name).rawOccurrences f)
          ((s.buffer other).rawOccurrences f) ((t.buffer name).rawOccurrences f)) ∧
        (∃ r, t.buffer name = .allocated r ∧ r.index.isSome ∧
          r.entries.Pairwise (fun d e => d.id.raw ≤ e.id.raw) ∧
          r.live = r.entries.flatMap Entry.encode ∧ r.WellFormed) ∧
        t.buffer other = s.buffer other)
      fun e t => (s.arena (s.slot name).arena).config.Refuses e ∧
        t.buffer name = s.buffer name ∧ t.buffer other = s.buffer other := by
  obtain ⟨xs, indexed, hx⟩ := Buffer.holds_of_reachable ha han
  obtain ⟨ys, indexed', hy⟩ := Buffer.holds_of_reachable hb hbn
  have h := Edit.merge_yields (m := m)
    (p := ⟨s.arena (s.slot name).arena, s.buffer name⟩) hx hy hc
  apply (ends_congr (Session.merge_run m hne)).2
  apply (Session.edit_ends h).mono
  · rintro _ t ⟨⟨q, ⟨hyields, r, hr, hwf, hi⟩, hq⟩, hrest⟩
    rw [hq]
    exact ⟨hyields, ⟨r, hr, hi, hwf.sorted hi, hwf.live, hwf⟩, hrest other hne⟩
  · rintro e t ⟨⟨q, ⟨he, hsame⟩, hq⟩, hrest⟩
    exact ⟨he, hq.trans hsame, hrest other hne⟩

theorem update_after_adds :
    let f : FieldId .wide := ⟨.short, 1, by decide, by decide, by decide⟩
    let x := (Change.add f (.short 7)).after ⟨{ config := ⟨32, 64⟩ }, .null⟩
    let y := ((Change.append f (.short 8)).after x).buffer
    let s : Session .wide := ({ files := fun _ => .error "" } : Session .wide)
      |>.setSlot "a" none x.buffer |>.setSlot "b" none y
    ∃ t, Session.merge .update "a" "b" s = .ok () t ∧ t.buffer "b" = y ∧
      ((t.buffer "a").rawOccurrences f).length = 2 ∧
      ((t.buffer "a").rawOccurrences f)[1]? = (y.rawOccurrences f)[1]? := by
  intro f x y s
  have hx : Reachable ArenaConfig.Stated x.buffer := by
    refine .after (show 64 < 2 ^ 32 by decide) .null (fun b hb => ?_) fun b hb => ?_
    · simp [Change.value?] at hb
    · simp [Change.other?] at hb
  have hy : Reachable ArenaConfig.Stated y := by
    have hc : x.arena.config.ceiling = 64 := by decide +kernel
    refine .after (show x.arena.config.ceiling < 2 ^ 32 by rw [hc]; decide) hx
      (fun b hb => ?_) fun b hb => ?_
    · simp [Change.value?] at hb
    · simp [Change.other?] at hb
  have hsx : s.buffer "a" = x.buffer := rfl
  have hsy : s.buffer "b" = y := rfl
  have hlen : (x.buffer.rawOccurrences f).length = 1 ∧ (y.rawOccurrences f).length = 2 := by
    decide +kernel
  have hnull : x.buffer.isNull = false ∧ y.isNull = false := by decide +kernel
  have hok : (Session.merge .update "a" "b").run' s = some () := by decide +kernel
  have h : Ends (Session.merge .update "a" "b") s _ _ := merge_of_reachable (by decide)
    hx hnull.1 hy hnull.2 (show 64 * 1024 * 1024 < 2 ^ 32 by decide)
  rw [Ends] at h
  cases ht : Session.merge .update "a" "b" s with
  | error e t =>
    delta EStateM.run' EStateM.run at hok
    rw [ht] at hok
    cases hok
  | ok u t =>
    rw [ht] at h
    obtain ⟨hyields, -, hb⟩ := h
    obtain ⟨hcount, hat⟩ := hyields f
    rw [hsx, hsy, hlen.1, hlen.2] at hcount
    refine ⟨t, rfl, hb.trans hsy, hcount, ?_⟩
    rw [hat 1, hsy, if_pos (by rw [hlen.2]; decide)]

end FieldBuffers
