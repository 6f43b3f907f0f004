import FieldBuffers.Value.Basic

/-!
Values as bytes, and regions of bytes that are accepted as buffers. A nested buffer is the region
of a buffer of its own, without free room; a null one has no bytes. Buffers nest at most
`maxNesting` levels deep.
-/

namespace FieldBuffers

/-- The levels of nested buffers that one buffer may contain. -/
def maxNesting : Nat := 64

/-- The longest name that a value carries, in bytes. -/
def maxName : Nat := 255

/-- The nested regions among some entries. -/
def Entry.nestedRegions {w : Width} (es : List (Entry w)) : List Bytes :=
  es.filterMap fun e => if e.id.type = .fml ∧ e.value ≠ [] then some e.value else none

/-- The longest chain of nested buffers below a region, as far as `limit` levels. -/
def nesting : Nat → (w : Width) → Bytes → Nat
  | 0, _, _ => 0
  | limit + 1, w, region =>
    ((Entry.nestedRegions (Entry.ofRegion w region)).map fun r => nesting limit .wide r + 1).foldl
      max 0

/-- The longest chain, or one more than is allowed. -/
def nestingDepth (w : Width) (region : Bytes) : Nat := nesting (maxNesting + 1) w region

namespace Value

/-- A name of at most 255 bytes after its length. -/
def encodeName (s : String) : Bytes := UInt8.ofNat s.utf8ByteSize :: Bytes.ofText s

def encode : Value → Bytes
  | short v => Bytes.little 2 v.toUInt16.toNat
  | long v => Bytes.little 8 v.toUInt64.toNat
  | char v => [v]
  | float v => Bytes.little 4 v.toNat
  | double v => Bytes.little 8 v.toNat
  | int v => Bytes.little 4 v.toUInt32.toNat
  | string s => Bytes.ofText s ++ [0]
  | carray data => data
  | mbstring encoding data => encodeName encoding ++ data
  | fml b => b.standalone
  | ptr address ownership => Bytes.little 8 address.toNat ++ [ownership.toByte]
  | view name data => encodeName name ++ data

/-- Whether a value of the field's kind can be written as one. -/
def checkEncodable {w : Width} (f : FieldId w) (v : Value) : Except Error Unit :=
  match v with
  | mbstring encoding _ => name "encoding" encoding
  | view record _ => name "record" record
  | fml (.allocated s) =>
    let levels := nestingDepth .wide s.region + 1
    if levels ≤ maxNesting then .ok ()
    else .error (.mismatch f s!"at most {maxNesting} nested levels" s!"{levels} levels")
  | _ => .ok ()
where
  name (what s : String) : Except Error Unit :=
    if s.utf8ByteSize ≤ maxName then .ok ()
    else .error (.mismatch f s!"{what} name of at most {maxName} bytes" s!"{s.utf8ByteSize} bytes")

/-- A value of the field's kind as an entry. -/
def encodeEntry {w : Width} (f : FieldId w) (v : Value) : Except Error Bytes := do
  v.checkEncodable f
  let bytes := v.encode
  if bytes.length ≤ w.maxValueLength then
    return w.encodeWord f.raw ++ w.encodeWord bytes.length ++ bytes
  else
    throw (.mismatch f s!"value of at most {w.maxValueLength} bytes" s!"{bytes.length} bytes")

/-- A name and what follows it. -/
def splitName (offset : Nat) : Bytes → Except Error (String × Bytes)
  | [] => .error (.corrupt offset "missing name length")
  | n :: rest =>
    let name := rest.take n.toNat
    if name.length < n.toNat then .error (.corrupt offset "name overruns value")
    else
      match Bytes.toText? name with
      | none => .error (.corrupt (offset + 1) "name is not valid UTF-8")
      | some s => .ok (s, rest.drop n.toNat)

/-- A text without the null that ends it. -/
def dropTerminator (bs : Bytes) : Bytes := if bs.getLast? = some 0 then bs.dropLast else bs

/-- The value that bytes stand for, where they are no nested buffer. -/
def decodeFlat (t : FieldType) (offset : Nat) (bs : Bytes) : Except Error Value :=
  match t with
  | .short => sized 2 (short (UInt16.ofNat (Bytes.ofLittle bs)).toInt16)
  | .long => sized 8 (long (UInt64.ofNat (Bytes.ofLittle bs)).toInt64)
  | .char => sized 1 (char (UInt8.ofNat (Bytes.ofLittle bs)))
  | .float => sized 4 (float (UInt32.ofNat (Bytes.ofLittle bs)))
  | .double => sized 8 (double (UInt64.ofNat (Bytes.ofLittle bs)))
  | .int => sized 4 (int (UInt32.ofNat (Bytes.ofLittle bs)).toInt32)
  | .ptr => do
    let address ← sized 9 (UInt64.ofNat (Bytes.ofLittle (bs.take 8)))
    match (bs[8]?).bind Ownership.ofByte? with
    | some ownership => return ptr address ownership
    | none => throw (.corrupt (offset + 8) "invalid pointer ownership")
  | .string =>
    match Bytes.toText? (dropTerminator bs) with
    | some s => .ok (string s)
    | none => .error (.corrupt offset "string is not valid UTF-8")
  | .carray => .ok (carray bs)
  | .mbstring => (splitName offset bs).map fun (encoding, data) => mbstring encoding data
  | .view => (splitName offset bs).map fun (name, data) => view name data
  | .fml => .ok (fml .null)
where
  sized {α : Type} (n : Nat) (a : α) : Except Error α :=
    if (bs.take (n + 1)).length = n then .ok a
    else .error (.corrupt offset s!"{t.keyword} value must be {n} bytes, found {bs.length}")

end Value

namespace Region

/-- The header of a region, if it is one of the family's and speaks of just these bytes. -/
def header (w : Width) (region : Bytes) : Except Error Header := do
  let h ← Header.decode region
  h.check w.wordBytes
  if h.used.toNat = region.length then return h
  else throw (.corrupt 12 s!"header records {h.used} bytes used, region has {region.length}")

/-- What is wrong inside a nested buffer, told from outside it. -/
def fromOutside (offset : Nat) : Error → Error
  | .corrupt inner cause => .corrupt (offset + inner) s!"nested buffer: {cause}"
  | e => e

/-- Room for a buffer of some bytes. -/
def checkRoom (c : ArenaConfig) (size : Nat) : Except Error Unit :=
  if 2 ^ 32 - 1 < size then .error (.arenaCapacity size (2 ^ 32 - 1)) else c.check size

/-- Looks at every entry of a region, and of the regions nested in it, from an offset on. -/
def checkEntries (c : ArenaConfig) (w : Width) (offset : Nat) (bs : Bytes) : Except Error Unit :=
  if bs.isEmpty then .ok ()
  else
    match hp : Entry.parts? w bs with
    | none => .error (.corrupt offset "truncated entry header")
    | some p =>
      match FieldId.ofRaw? w p.raw with
      | none => .error (.corrupt offset s!"invalid field identifier {p.raw}")
      | some id =>
        if p.value.length < p.length then
          .error (.corrupt offset s!"value of {p.length} bytes overruns region")
        else
          have hrest := Entry.length_rest_lt hp
          have hvalue := Entry.length_value_lt hp
          have hnested : (p.value.drop Header.size).length < bs.length :=
            Nat.lt_of_le_of_lt (by simp) hvalue
          let start := offset + w.overhead
          let checked : Except Error Unit :=
            if id.type = .fml ∧ p.value ≠ [] then
              (do
                let _ ← header .wide p.value
                checkEntries c .wide Header.size (p.value.drop Header.size)
                checkRoom c p.value.length).mapError (fromOutside start)
            else (Value.decodeFlat id.type start p.value).map fun _ => ()
          match checked with
          | .error e => .error e
          | .ok () => checkEntries c w (start + p.length) p.rest
termination_by bs.length

/-- The header of a region that is a buffer of the family. -/
def check (c : ArenaConfig) (w : Width) (region : Bytes) : Except Error Header := do
  let h ← header w region
  if maxNesting < nestingDepth w region then
    throw (.corrupt Header.size s!"buffers nested more than {maxNesting} levels deep")
  checkEntries c w Header.size (region.drop Header.size)
  return h

/-- The buffer that a region is, sorted and indexed. -/
def storage {w : Width} (handle : Nat) (h : Header) (region : Bytes) : Storage w :=
  Storage.indexed
    { handle
      header := { h with capacity := UInt32.ofNat region.length }
      body := region.drop Header.size
      index := none
      interval := Index.defaultInterval }
    Index.defaultInterval

end Region

/-- The value that bytes stand for; a nested buffer needs room under the ceiling. -/
def Value.decode (c : ArenaConfig) (t : FieldType) (offset : Nat) (bs : Bytes) :
    Except Error Value :=
  if t = FieldType.fml ∧ bs ≠ [] then
    (do
      let h ← Region.check c .wide bs
      Region.checkRoom c bs.length
      return Value.fml (.allocated (Region.storage 0 h bs))).mapError (Region.fromOutside offset)
  else Value.decodeFlat t offset bs

/-- The value of an entry. -/
def Entry.decode {w : Width} (c : ArenaConfig) (e : Entry w) : Except Error Value :=
  Value.decode c e.id.type e.valueOffset e.value

end FieldBuffers
