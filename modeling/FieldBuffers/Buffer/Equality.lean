import FieldBuffers.Value.Codec
import FieldBuffers.Binary.Arithmetic

/-!
When two buffers are equal: both are null, or each field has the same occurrences in both, in
whatever order the fields stand. Nested buffers are compared by the same rule.
-/

namespace FieldBuffers

theorem Entry.length_value_lt_of_mem {w : Width} {offset : Nat} {bs : Bytes} {e : Entry w}
    (h : e ∈ Entry.scan w offset bs) : e.value.length < bs.length := by
  rw [Entry.scan] at h
  split at h
  · simp at h
  · rename_i d rest hn
    rcases List.mem_cons.1 h with rfl | h
    · unfold Entry.next? at hn
      split at hn
      · simp at hn
      · rename_i p hp
        split at hn
        · simp at hn
        · obtain ⟨id, _, hid⟩ := Option.map_eq_some_iff.1 hn
          simp only [Prod.mk.injEq] at hid
          rw [← hid.1]
          exact Entry.length_value_lt hp
    · have := Entry.length_value_lt_of_mem h
      have := Entry.next?_lt hn
      omega
termination_by bs.length
decreasing_by exact Entry.next?_lt ‹_›

theorem Entry.length_value_lt_of_mem_sorted {w : Width} {region : Bytes} {e : Entry w}
    (h : e ∈ Storage.sortEntries (Entry.ofRegion w region)) : e.value.length < region.length := by
  have h' := Entry.length_value_lt_of_mem (List.mem_mergeSort.1 h)
  simp only [List.length_drop] at h'
  omega

/-- Whether bytes are a nested buffer that can be read. -/
def Region.isReadable (c : ArenaConfig) (bs : Bytes) : Bool :=
  (Value.decode c .fml 0 bs).toBool

/-- Compares the entries of two regions, sorted by identifier. -/
def Region.same (c : ArenaConfig) (w : Width) (a b : Bytes) : Bool :=
  let x := Storage.sortEntries (Entry.ofRegion w a)
  let y := Storage.sortEntries (Entry.ofRegion w b)
  x.length == y.length && (x.attach.zip y).all fun (⟨e, he⟩, f) =>
    have := Entry.length_value_lt_of_mem_sorted he
    e.id == f.id &&
      if e.id.type = .fml then
        let r := isReadable c e.value
        r == isReadable c f.value &&
          (!r || if e.value.isEmpty || f.value.isEmpty then e.value.isEmpty && f.value.isEmpty
            else same c .wide e.value f.value)
      else e.value == f.value
termination_by a.length

def Buffer.same {w : Width} (c : ArenaConfig) (a b : Buffer w) : Bool :=
  match a, b with
  | .null, .null => true
  | .allocated s, .allocated t => Region.same c w s.region t.region
  | _, _ => false

/-- Equality of values: numbers by what they stand for, nested buffers as buffers, all else as it
is written. -/
def Value.same (c : ArenaConfig) (u v : Value) : Bool :=
  match u, v with
  | .float a, .float b => Binary.binary32.compare? a.toNat b.toNat == some .eq
  | .double a, .double b => Binary.binary64.compare? a.toNat b.toNat == some .eq
  | .fml a, .fml b => a.same c b
  | u, v => u = v

end FieldBuffers
