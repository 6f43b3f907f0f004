import FieldBuffers.Buffer.Edit
import FieldBuffers.Base64
import FieldBuffers.Text.Blank

/-!
Frames, in which buffers travel: four letters, a version, a flag for null buffers, the kind of
buffer and its subtype, the length of the payload and the payload, a region without free room. A
frame travels as it is or, where only text passes, in base 64.
-/

namespace FieldBuffers

inductive ExportMode where
  | binary | textSafe
  deriving DecidableEq, Repr

namespace Frame

/-- The letters `FMLX`. -/
def magic : Bytes := [0x46, 0x4D, 0x4C, 0x58]

def version : UInt8 := 1

def nullFlag : UInt8 := 1

def shortText (s : String) : Bytes := UInt8.ofNat s.utf8ByteSize :: Bytes.ofText s

/-- The frame of a buffer. -/
def ofBuffer {w : Width} (b : Buffer w) : Bytes :=
  let payload := b.standalone
  magic ++ version :: (if b.isNull then nullFlag else 0) :: (shortText w.blockKind.name
    ++ shortText "" ++ Bytes.little 4 payload.length ++ payload)

/-- A text after its length, and the bytes after it. -/
def splitText (what : String) : Bytes → Except Error (String × Bytes)
  | [] => .error (.transport s!"truncated {what}")
  | n :: rest =>
    let text := rest.take n.toNat
    if text.length < n.toNat then .error (.transport s!"truncated {what}")
    else
      match Bytes.toText? text with
      | none => .error (.transport s!"{what} is not UTF-8")
      | some s => .ok (s, rest.drop n.toNat)

/-- The flags of a frame, and what follows them. -/
def splitHead (bs : Bytes) : Except Error (UInt8 × Bytes) :=
  if (bs.take 4).length < 4 then .error (.transport "truncated frame header")
  else if bs.take 4 ≠ magic then .error (.transport "bad frame magic")
  else
    match bs.drop 4 with
    | [] => .error (.transport "truncated frame header")
    | v :: rest =>
      if v ≠ version then .error (.transport s!"unsupported frame version {v}")
      else
        match rest with
        | [] => .error (.transport "truncated frame header")
        | flags :: rest => .ok (flags, rest)

/-- The payload, whose length has to be the stated one. -/
def splitPayload (bs : Bytes) : Except Error Bytes :=
  let word := bs.take 4
  if word.length < 4 then .error (.transport "truncated payload length")
  else
    let stated := Bytes.ofLittle word
    let payload := bs.drop 4
    if payload.length = stated then .ok payload
    else
      .error (.transport
        s!"payload length {stated} does not match {payload.length} bytes present")

/-- The region in a frame of the family's buffers; none for a null buffer. -/
def region? (w : Width) (bs : Bytes) : Except Error (Option Bytes) := do
  let (flags, bs) ← splitHead bs
  let (name, bs) ← splitText "buffer kind" bs
  let kind ← BlockKind.ofName name
  if kind ≠ w.blockKind then
    throw (.transport s!"expected {w.blockKind.name} buffer, frame holds {kind.name}")
  let (_, bs) ← splitText "subtype" bs
  let payload ← splitPayload bs
  if flags &&& nullFlag = 0 then return some payload
  else if payload.isEmpty then return none
  else throw (.transport "null buffer frame carries a payload")

end Frame

namespace ExportMode

def name : ExportMode → String
  | binary => "binary"
  | textSafe => "text"

/-- The mode of a word, in any mix of ASCII case. -/
def ofName (s : String) : Except Error ExportMode :=
  let lower := String.ofList (s.toList.map Char.toLower)
  if lower = "binary" ∨ lower = "bin" then .ok .binary
  else if lower = "text" ∨ lower = "text-safe" ∨ lower = "base64" then .ok .textSafe
  else .error (.transport s!"unknown export mode '{lower}'")

/-- The mode in which bytes were exported, by the letters they start with. -/
def detect (bs : Bytes) : ExportMode := if Frame.magic.isPrefixOf bs then .binary else .textSafe

def wrap (m : ExportMode) (frame : Bytes) : Bytes :=
  match m with
  | binary => frame
  | textSafe => (Base64.encode frame).map fun c => UInt8.ofNat c.toNat

/-- The frame in exported bytes; blanks around the text of one do not count. -/
def unwrap (m : ExportMode) (bs : Bytes) : Except Error Bytes :=
  match m with
  | binary => .ok bs
  | textSafe =>
    match Bytes.toText? bs with
    | none => .error (.transport "text-safe input is not UTF-8")
    | some s =>
      match Base64.decode (Text.trim s.toList) with
      | none => .error (.transport "invalid base64")
      | some frame => .ok frame

end ExportMode

namespace Buffer

variable {w : Width}

def exported (m : ExportMode) (b : Buffer w) : Bytes := m.wrap (Frame.ofBuffer b)

/-- The exported bytes over the start of some others, and how many they are. -/
def exportInto (m : ExportMode) (b : Buffer w) (target : Bytes) : Except Error (Nat × Bytes) :=
  let bs := b.exported m
  if target.length < bs.length then .error (.spaceExhausted bs.length target.length)
  else .ok (bs.length, bs ++ target.drop bs.length)

/-- The buffer in exported bytes. -/
def imported (w : Width) (m : ExportMode) (bs : Bytes) (a : Arena) :
    Except Error (Buffer w × Arena) := do
  match ← Frame.region? w (← m.unwrap bs) with
  | none => return (.null, a)
  | some region => Buffer.ofRegion w region a

end Buffer

end FieldBuffers
