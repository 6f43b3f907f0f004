import FieldBuffers.Index
import Mathlib.Data.List.Flatten
import Mathlib.Tactic.Common

/-! The entries of a region without their places. Bytes made of entries are scanned back into them
(`scan_encodeAll`), and whatever is scanned was at the front of the bytes (`exists_scan`). -/

namespace FieldBuffers

variable {w : Width}

/-- A field with the bytes of one of its values. -/
structure Item (w : Width) where
  id : FieldId w
  value : Bytes
  deriving DecidableEq

def Entry.item (e : Entry w) : Item w := ⟨e.id, e.value⟩

namespace Item

def encode (x : Item w) : Bytes :=
  w.encodeWord x.id.raw ++ w.encodeWord x.value.length ++ x.value

def size (x : Item w) : Nat := w.overhead + x.value.length

/-- The length word can state the value's length. -/
def Stated (x : Item w) : Prop := x.value.length ≤ w.maxValueLength

def entry (offset : Nat) (x : Item w) : Entry w := ⟨x.id, offset, x.value⟩

def encodeAll (xs : List (Item w)) : Bytes := xs.flatMap encode

/-- The entries one after another from an offset on. -/
def layout : Nat → List (Item w) → List (Entry w)
  | _, [] => []
  | offset, x :: xs => x.entry offset :: layout (offset + x.size) xs

@[simp] theorem length_encode (x : Item w) : x.encode.length = x.size := by
  simp only [encode, size, List.length_append, Width.length_encodeWord, Width.overhead]
  omega

theorem size_pos (x : Item w) : 0 < x.size := by
  have := w.wordBytes_pos
  simp only [size, Width.overhead]
  omega

theorem isEmpty_encode_append (x : Item w) (rest : Bytes) :
    (x.encode ++ rest).isEmpty = false := by
  have hpos := x.size_pos
  rw [← x.length_encode] at hpos
  rw [List.isEmpty_eq_false_iff]
  exact List.append_ne_nil_of_left_ne_nil (List.ne_nil_of_length_pos hpos) rest

@[simp] theorem encodeAll_nil : encodeAll ([] : List (Item w)) = [] := rfl

@[simp] theorem encodeAll_cons (x : Item w) (xs : List (Item w)) :
    encodeAll (x :: xs) = x.encode ++ encodeAll xs := rfl

@[simp] theorem encodeAll_append (xs ys : List (Item w)) :
    encodeAll (xs ++ ys) = encodeAll xs ++ encodeAll ys := List.flatMap_append ..

theorem length_encodeAll_perm {xs ys : List (Item w)} (h : xs.Perm ys) :
    (encodeAll xs).length = (encodeAll ys).length := (h.flatMap_right _).length_eq

theorem length_encodeAll_sublist {xs ys : List (Item w)} (h : xs.Sublist ys) :
    (encodeAll xs).length ≤ (encodeAll ys).length := (h.flatMap _).length_le

theorem length_value_lt_encodeAll {x : Item w} {xs : List (Item w)} (h : x ∈ xs) :
    x.value.length < (encodeAll xs).length := by
  induction xs with
  | nil => simp at h
  | cons y xs ih =>
    rw [encodeAll_cons, List.length_append, length_encode]
    rcases List.mem_cons.1 h with rfl | h
    · have := w.wordBytes_pos
      simp only [size, Width.overhead]
      omega
    · have := ih h
      omega

@[simp] theorem layout_nil (offset : Nat) : layout offset ([] : List (Item w)) = [] := rfl

theorem layout_cons (offset : Nat) (x : Item w) (xs : List (Item w)) :
    layout offset (x :: xs) = x.entry offset :: layout (offset + x.size) xs := rfl

theorem layout_append (offset : Nat) (xs ys : List (Item w)) :
    layout offset (xs ++ ys)
      = layout offset xs ++ layout (offset + (encodeAll xs).length) ys := by
  induction xs generalizing offset with
  | nil => simp
  | cons x xs ih =>
    simp only [List.cons_append, layout_cons, ih, encodeAll_cons, List.length_append, length_encode,
      Nat.add_assoc]

@[simp] theorem map_item_layout (offset : Nat) (xs : List (Item w)) :
    (layout offset xs).map Entry.item = xs := by
  induction xs generalizing offset with
  | nil => rfl
  | cons x xs ih => rw [layout_cons, List.map_cons, ih]; rfl

@[simp] theorem length_layout (offset : Nat) (xs : List (Item w)) :
    (layout offset xs).length = xs.length := by
  rw [← List.length_map Entry.item, map_item_layout]

theorem mem_of_mem_layout {offset : Nat} {xs : List (Item w)} {e : Entry w}
    (h : e ∈ layout offset xs) : e.item ∈ xs := by
  rw [← map_item_layout offset xs]
  exact List.mem_map_of_mem h

theorem length_word_lt (x : Item w) (hx : x.Stated) : x.value.length < 256 ^ w.wordBytes :=
  Width.lt_word_iff.2 hx

theorem parts?_encode (x : Item w) (hx : x.Stated) (rest : Bytes) :
    Entry.parts? w (x.encode ++ rest) = some ⟨x.id.raw, x.value.length, x.value, rest⟩ := by
  have hid : Bytes.ofLittle (w.encodeWord x.id.raw) = x.id.raw := by
    rw [Width.encodeWord, Bytes.ofLittle_little, Nat.mod_eq_of_lt x.id.raw_lt]
  have hlen : Bytes.ofLittle (w.encodeWord x.value.length) = x.value.length := by
    rw [Width.encodeWord, Bytes.ofLittle_little, Nat.mod_eq_of_lt (x.length_word_lt hx)]
  simp [Entry.parts?, encode, List.append_assoc, hid, hlen]

theorem next?_encode (x : Item w) (hx : x.Stated) (offset : Nat) (rest : Bytes) :
    Entry.next? w offset (x.encode ++ rest) = some (x.entry offset, rest) := by
  simp [Entry.next?, parts?_encode x hx, FieldId.ofRaw?_raw, entry]

end Item

namespace Entry

open Item

theorem flatMap_encode (es : List (Entry w)) :
    es.flatMap Entry.encode = encodeAll (es.map Entry.item) := by
  rw [encodeAll, List.flatMap_map]
  rfl

theorem scan_of_next?_eq_some {offset : Nat} {bs rest : Bytes} {e : Entry w}
    (h : next? w offset bs = some (e, rest)) : scan w offset bs = e :: scan w e.stop rest := by
  rw [scan]
  split <;> simp_all

theorem scan_of_next?_eq_none {offset : Nat} {bs : Bytes} (h : next? w offset bs = none) :
    scan w offset bs = [] := by
  rw [scan]
  split <;> simp_all

theorem next?_nil (offset : Nat) : next? w offset [] = none := by
  have := w.wordBytes_pos
  simp [next?, parts?, this]

theorem scan_encodeAll (offset : Nat) (xs : List (Item w)) (h : ∀ x ∈ xs, x.Stated) :
    scan w offset (encodeAll xs) = layout offset xs := by
  induction xs generalizing offset with
  | nil => exact scan_of_next?_eq_none (next?_nil offset)
  | cons x xs ih =>
    have hx := x.next?_encode (h x (List.mem_cons_self ..)) offset (encodeAll xs)
    rw [encodeAll_cons, scan_of_next?_eq_some hx, ih _ fun y hy => h y (List.mem_cons_of_mem _ hy)]
    rfl

theorem eq_of_encodeAll_eq {xs ys : List (Item w)} (hx : ∀ x ∈ xs, x.Stated)
    (hy : ∀ y ∈ ys, y.Stated) (h : encodeAll xs = encodeAll ys) : xs = ys := by
  rw [← map_item_layout 0 xs, ← map_item_layout 0 ys, ← scan_encodeAll 0 xs hx,
    ← scan_encodeAll 0 ys hy, h]

theorem parts?_eq_some {bs : Bytes} {p : Parts} (h : parts? w bs = some p)
    (hv : ¬ p.value.length < p.length) {id : FieldId w} (hid : FieldId.ofRaw? w p.raw = some id) :
    bs = (Item.mk id p.value).encode ++ p.rest ∧ (Item.mk id p.value).Stated := by
  simp only [parts?] at h
  split at h
  · simp at h
  · rename_i hl
    obtain rfl := Option.some.inj h
    simp only [List.length_take, List.length_drop] at hl hv hid
    have hraw := FieldId.raw_of_ofRaw? hid
    have hidw : w.encodeWord id.raw = bs.take w.wordBytes := by
      have := Bytes.little_ofLittle (bs.take w.wordBytes)
      rw [List.length_take, Nat.min_eq_left (by omega)] at this
      rw [hraw, Width.encodeWord, this]
    have hword := Bytes.ofLittle_lt ((bs.drop w.wordBytes).take w.wordBytes)
    have hlenw := Bytes.little_ofLittle ((bs.drop w.wordBytes).take w.wordBytes)
    rw [List.length_take, List.length_drop, Nat.min_eq_left (by omega)] at hword hlenw
    have hlen : (((bs.drop w.wordBytes).drop w.wordBytes).take
        (Bytes.ofLittle ((bs.drop w.wordBytes).take w.wordBytes))).length
        = Bytes.ofLittle ((bs.drop w.wordBytes).take w.wordBytes) := by
      rw [List.length_take]
      simp only [List.length_drop]
      omega
    constructor
    · simp only [Item.encode, hidw, hlen]
      simp only [Width.encodeWord, hlenw, List.append_assoc, List.take_append_drop]
    · rw [Stated, hlen]
      exact Width.lt_word_iff.1 hword

theorem next?_eq_some {offset : Nat} {bs rest : Bytes} {e : Entry w}
    (h : next? w offset bs = some (e, rest)) :
    bs = e.item.encode ++ rest ∧ e.item.Stated ∧ e.offset = offset := by
  rw [next?] at h
  split at h
  · simp at h
  · rename_i p hp
    split at h
    · simp at h
    · rename_i hv
      obtain ⟨id, hid, he⟩ := Option.map_eq_some_iff.1 h
      obtain ⟨rfl, rfl⟩ := Prod.mk.inj he
      obtain ⟨hb, hs⟩ := parts?_eq_some hp hv hid
      exact ⟨hb, hs, rfl⟩

theorem exists_scan (offset : Nat) (bs : Bytes) :
    ∃ xs rest, bs = encodeAll xs ++ rest ∧ (∀ x ∈ xs, x.Stated) ∧
      scan w offset bs = layout offset xs := by
  induction hn : bs.length using Nat.strongRecOn generalizing offset bs with
  | ind n ih =>
    cases h : next? w offset bs with
    | none => exact ⟨[], bs, rfl, by simp, scan_of_next?_eq_none h⟩
    | some r =>
      obtain ⟨e, rest⟩ := r
      obtain ⟨hb, hs, rfl⟩ := next?_eq_some h
      obtain ⟨xs, tail, hrest, hxs, hscan⟩ := ih rest.length (hn ▸ next?_lt h) e.stop rest rfl
      refine ⟨e.item :: xs, tail, ?_, ?_, ?_⟩
      · rw [hb, encodeAll_cons, List.append_assoc, ← hrest]
      · simpa using ⟨hs, hxs⟩
      · rw [scan_of_next?_eq_some h, hscan]
        rfl

end Entry

end FieldBuffers
