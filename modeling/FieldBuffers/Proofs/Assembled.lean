import FieldBuffers.Proofs.Transport

/-! Buffers put together in the library, none of them taken from foreign bytes. Every item of such a
buffer is what some value is written as (`consists_of_assembled`). -/

namespace FieldBuffers

open Item

variable {w : Width}

/-- What the entry of a value is, nested buffers included. -/
inductive Item.Written : {w : Width} → Item w → Prop
  | flat {w : Width} {x : Item w} {v : Value} : v.type = x.id.type → v.type ≠ .fml → v.Named →
      x.value = v.encode → Written x
  | null {w : Width} {x : Item w} : x.id.type = .fml → x.value = [] → Written x
  | nested {w : Width} {x : Item w} {s : Storage .wide} {ys : List (Item .wide)} :
      x.id.type = .fml → s.Holds ys → x.value = s.standalone → (∀ y ∈ ys, Written y) → Written x

/-- The buffers that changes of null and of empty buffers leave, with values and other sides that
are buffers of this sort. -/
inductive Assembled (ok : ArenaConfig → Prop) : {w : Width} → Buffer w → Prop
  | null {w : Width} : Assembled ok (.null : Buffer w)
  | allocated {w : Width} {size : Nat} {a a' : Arena} {b : Buffer w} :
      Buffer.allocate w size a = .ok (b, a') → Assembled ok b
  | copied {w : Width} {a a' : Arena} {b c : Buffer w} :
      Assembled ok b → b.copy a = .ok (c, a') → Assembled ok c
  | nested {w : Width} {b : Buffer w} {e : Entry w} {c : ArenaConfig} {n : Buffer .wide} :
      Assembled ok b → e ∈ b.entries → e.decode c = .ok (.fml n) → Assembled ok n
  | changed {w : Width} {c : Change w} {p : Place w} : ok p.arena.config →
      Assembled ok p.buffer → (∀ b, c.value? = some (.fml b) → Assembled ok b) →
      (∀ b, c.other? = some b → Assembled ok b) → Assembled ok (c.after p).buffer

theorem Stays.after {P : Item w → Prop} {c : Change w} {p : Place w} (h : Stays P c.run p) :
    (c.after p).buffer.Consists P := by
  rw [Change.after]
  rw [Stays, Ends] at h
  cases hrun : c.run p with
  | ok n q =>
    rw [hrun] at h
    exact h.1
  | error e q =>
    rw [hrun] at h
    exact h.1

/-- The buffer that is read from what another wrote out. -/
theorem Value.decode_standalone {s : Storage .wide} {ys : List (Item .wide)} (h : s.Holds ys)
    {c : ArenaConfig} {offset : Nat} {v : Value} (hv : decode c .fml offset s.standalone = .ok v) :
    ∃ t, v = fml (.allocated t) ∧ t.Holds (sort ys) := by
  obtain ⟨g, hg, -, -, -, rfl⟩ := (decode_fml_eq_ok_iff h.standalone_ne_nil).1 hv
  obtain rfl := Except.ok.inj (hg.symm.trans h.header_standalone)
  refine ⟨_, rfl, ?_⟩
  have hstorage := Region.storage_holds h.check_standalone h.used h.sound 0
  rw [← h.live_eq] at hstorage
  exact hstorage.1

namespace Item

theorem written_default (f : FieldId w) : (Item.of f (Value.default f.type)).Written := by
  by_cases ht : f.type = .fml
  · refine .null ht ?_
    change (Value.default f.type).encode = []
    rw [ht]
    rfl
  · refine .flat (Value.type_default f.type) (fun h => ht ?_) ?_ rfl
    · rw [← Value.type_default f.type, h]
    · cases f.type <;> simp [Value.default, Value.Named]

theorem written_of_accepts {f : FieldId w} {v u : Value}
    (hv : ∀ b, v = .fml b → b.Consists Written) (h : Edit.Accepts f v u) :
    (Item.of f u).Written := by
  obtain ⟨hcoerce, entry, hentry⟩ := h
  obtain ⟨hnamed, -, -, -⟩ := (Value.encodeEntry_eq_ok_iff ..).1 hentry
  obtain ⟨ht, hu⟩ := Value.coerce_eq_ok hcoerce
  by_cases hfml : f.type = .fml
  · obtain rfl := hu.resolve_right (absurd hfml)
    cases u with
    | fml b =>
      obtain ⟨ys, r, ⟨s, rfl, hs, -⟩ | ⟨rfl, -⟩, hys⟩ := hv b rfl
      · exact .nested hfml hs rfl hys
      · exact .null hfml rfl
    | _ => exact absurd (ht.trans hfml) (by simp [Value.type])
  · exact .flat ht (ht ▸ hfml) hnamed rfl

end Item

theorem consists_of_decode {x : Item w} (hx : x.Written) {c : ArenaConfig} {offset : Nat}
    {n : Buffer .wide} (h : Value.decode c x.id.type offset x.value = .ok (.fml n)) :
    n.Consists Written := by
  have ht : x.id.type = .fml := (Value.type_decode h).symm
  cases hx with
  | flat hvt hne => exact absurd (hvt.trans ht) hne
  | null _ hvalue =>
    rw [ht, hvalue, Value.decode_fml_nil] at h
    obtain rfl := Value.fml.inj (Except.ok.inj h)
    exact consists_null
  | @nested _ _ s ys _ hs hvalue hys =>
    rw [ht, hvalue] at h
    obtain ⟨t, hn, ht⟩ := Value.decode_standalone hs h
    obtain rfl := Value.fml.inj hn
    exact ⟨sort ys, _, .inl ⟨t, rfl, ht, rfl⟩, fun y hy => hys y ((sort_perm ys).mem_iff.1 hy)⟩

theorem Buffer.Consists.copy {P : Item w → Prop} {b c : Buffer w} {a a' : Arena}
    (hb : b.Consists P) (h : b.copy a = .ok (c, a')) : c.Consists P := by
  obtain ⟨xs, r, hx, hxs⟩ := hb
  exact ⟨sort xs, true, hx.copy h, fun x hx => hxs x ((sort_perm xs).mem_iff.1 hx)⟩

theorem Buffer.Offers.mem_of_mem_entries {b : Buffer w} {xs : List (Item w)} {indexed : Bool}
    (h : b.Offers xs indexed) {e : Entry w} (he : e ∈ b.entries) : e.item ∈ xs := by
  obtain ⟨s, rfl, hs, -⟩ | ⟨rfl, -⟩ := h
  · rw [Buffer.entries, hs.entries_eq] at he
    exact mem_of_mem_layout he
  · cases he

theorem consists_of_assembled {b : Buffer w} (h : Assembled ArenaConfig.Stated b) :
    b.Consists Written := by
  induction h with
  | null => exact consists_null
  | allocated h =>
    obtain ⟨rfl, -, hroom⟩ := Buffer.allocate_eq_ok h
    exact ⟨[], _, .inl ⟨_, rfl, (Storage.fresh_holds _ _ (Nat.le_max_right ..) hroom.stated).1,
      rfl⟩, by simp⟩
  | copied _ h ih => exact ih.copy h
  | nested _ he hdecode ih =>
    obtain ⟨xs, r, hx, hxs⟩ := ih
    exact consists_of_decode (hxs _ (hx.mem_of_mem_entries he)) hdecode
  | changed hc _ _ _ ihb ihv iho =>
    refine (Change.stays ihb hc written_default (fun v hv => ⟨?_, fun f u ha => ?_⟩) iho).after
    · rintro b rfl
      exact (ihv b hv).sound
    · exact written_of_accepts (fun b hb => ihv b (hb ▸ hv)) ha

end FieldBuffers
