import FieldBuffers.Expr.Wildcard
import FieldBuffers.Buffer.Read
import FieldBuffers.Binary.Arithmetic

/-!
What expressions mean on a buffer. Comparisons, matches and bare values are tests; a test with
wildcards holds if it holds for some choice of occurrences.
-/

namespace FieldBuffers.Expr

open Binary (binary64)

variable {w : Width}

/-- What a value is to an expression. -/
inductive Scalar where
  /-- The word of a number of double precision. -/
  | number (word : Nat)
  | text (s : String)
deriving DecidableEq

namespace Scalar

def ofBool (b : Bool) : Scalar := number (binary64.ofInt (if b then 1 else 0))

/-- The number, or the number that a text writes. -/
def toNumber : Scalar → Except Error Nat
  | number word => .ok word
  | text s =>
    match Decimal.word? binary64 (Text.trim s.toList) with
    | some word => .ok word
    | none => .error (.typeMismatch (.named s!"'{s}'") "number" "text")

/-- Numbers other than zero and texts other than the empty one hold. -/
def holds : Scalar → Bool
  | number word => !binary64.isZero word
  | text s => !s.isEmpty

def compareText (s t : String) : Ordering :=
  if s < t then .lt else if s = t then .eq else .gt

/-- Two texts compare as such, and all else as numbers. -/
def compare (r : Relation) : Scalar → Scalar → Except Error Bool
  | text s, text t => .ok (r.accepts (some (compareText s t)))
  | a, b => do
    let x ← a.toNumber
    let y ← b.toNumber
    return r.accepts (binary64.compare? x y)

end Scalar

/-- A field's value as an expression sees it. -/
def Reference.scalar (r : Reference w) (v : Value) : Except Error Scalar :=
  match v.toDouble?, v.text? with
  | some word, _ => .ok (.number word)
  | none, some s => .ok (.text s)
  | none, none => .error (.typeMismatch (.named r.name) "number or text" v.type.keyword)

def Arithmetic.apply (a : Arithmetic) (x y : Nat) : Nat :=
  match a with
  | add => binary64.add x y
  | sub => binary64.sub x y
  | mul => binary64.mul x y
  | div => binary64.div x y
  | rem => binary64.rem x y

/-- The second operand is asked only where the first does not decide. -/
def Connective.apply (c : Connective) (l : Except Error Bool) (r : Unit → Except Error Bool) :
    Except Error Bool := do
  match c, ← l with
  | or, true => return true
  | and, false => return false
  | xor, true => return !(← r ())
  | _, _ => r ()

/-- What an expression gives under bindings, asked as a test and asked for a value. -/
structure Meaning (w : Width) where
  truth : Bindings w → Except Error Bool
  value : Bindings w → Except Error Scalar

/-- A test counts as one or zero where a value is asked for. -/
def Meaning.ofTruth (truth : Bindings w → Except Error Bool) : Meaning w :=
  ⟨truth, fun bound => (truth bound).map Scalar.ofBool⟩

variable (c : ArenaConfig) (b : Buffer w)

/-- A test, for some choice of the occurrences of fields that are not bound. -/
def quantified (fs : List (FieldId w)) (test : Bindings w → Except Error Bool)
    (bound : Bindings w) : Except Error Bool :=
  let free := unbound bound fs
  holdsSome (free.map b.count) fun ds => test (bound ++ free.zip ds)

/-- A value holds as a test if it does for some choice of its wildcards. -/
def Meaning.ofValue (fs : List (FieldId w)) (value : Bindings w → Except Error Scalar) :
    Meaning w :=
  ⟨quantified b fs fun bound => (value bound).map Scalar.holds, value⟩

/-- A field as a test asks whether the buffer has it; as a value it reads the first occurrence
where its wildcard is not bound. -/
def Reference.meaning (r : Reference w) : Meaning w where
  truth bound := .ok <|
    match r.chosen bound with
    | some n => b.has r.id n
    | none => 0 < b.count r.id
  value bound := do
    let n := (r.chosen bound).getD 0
    match ← b.value? c r.id n with
    | some v => r.scalar v
    | none => throw (.notPresent (.named r.name) n)

def meaning : Expr w → Meaning w
  | number word => .ofValue b [] fun _ => .ok (.number word)
  | text s => .ofValue b [] fun _ => .ok (.text s)
  | field r => r.meaning c b
  | signed .not e => .ofTruth fun bound => (e.meaning.truth bound).map (!·)
  | signed .minus e => .ofValue b e.wildcards fun bound => do
      return .number (binary64.negate (← (← e.meaning.value bound).toNumber))
  | signed .plus e => .ofValue b e.wildcards fun bound => do
      return .number (← (← e.meaning.value bound).toNumber)
  | binary (.connective o) l r => .ofTruth fun bound =>
      o.apply (l.meaning.truth bound) fun _ => r.meaning.truth bound
  | binary (.relation o) l r => .ofTruth <|
      quantified b (l.wildcards ++ r.wildcards) fun bound => do
        let x ← l.meaning.value bound
        let y ← r.meaning.value bound
        Scalar.compare o x y
  | binary (.arithmetic o) l r => .ofValue b (l.wildcards ++ r.wildcards) fun bound => do
      let x ← (← l.meaning.value bound).toNumber
      let y ← (← r.meaning.value bound).toNumber
      return .number (o.apply x y)
  | like negated e _ pattern => .ofTruth <|
      quantified b e.wildcards fun bound => do
        match ← e.meaning.value bound with
        | .text s => return pattern.found s.toList != negated
        | .number word =>
          let shown := String.ofList (Decimal.text binary64 word)
          throw (.typeMismatch (.named e.toText) "text" shown)

/-- Whether the expression holds. -/
def test (e : Expr w) : Except Error Bool := (e.meaning c b).truth []

/-- The number that the expression gives. -/
def compute (e : Expr w) : Except Error Nat := do (← (e.meaning c b).value []).toNumber

end FieldBuffers.Expr
