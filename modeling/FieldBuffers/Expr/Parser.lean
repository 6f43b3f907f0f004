import FieldBuffers.Expr.Token
import FieldBuffers.Expr.Basic

/-!
Reading expressions from tokens. Operators of one level group to the left, except that relations do
not follow one another. Parentheses and signs nest to a bounded depth, and so do trees.
-/

namespace FieldBuffers.Expr

variable {w : Width}

/-- An expression with its height. -/
structure Sized (w : Width) where
  expr : Expr w
  depth : Nat

/-- A step that reads an expression off the tokens and leaves the others. -/
abbrev Reader (w : Width) := List Lexeme → Except Fault (Sized w × List Lexeme)

/-- What a parse depends on besides the tokens: the length of the text, and the fields that names
stand for. -/
structure Context (w : Width) where
  finish : Nat
  known : String → Option (FieldId w)

namespace Context

variable (cx : Context w)

/-- The place of the next token, or the end of the text. -/
def position : List Lexeme → Nat
  | [] => cx.finish
  | t :: _ => t.position

def fail {α : Type} (ts : List Lexeme) (cause : Cause) : Except Fault α :=
  .error (.malformed (cx.position ts) cause)

/-- A tree with its height, which is refused past the limit. -/
def sized (e : Expr w) (depth : Nat) (ts : List Lexeme) : Except Fault (Sized w × List Lexeme) :=
  if maxDepth < depth then cx.fail ts .tooDeep else .ok (⟨e, depth⟩, ts)

def binary (o : Operator) (l r : Sized w) (ts : List Lexeme) :
    Except Fault (Sized w × List Lexeme) :=
  cx.sized (.binary o l.expr r.expr) (max l.depth r.depth + 1) ts

/-- The operands that follow a first one, as long as operators of one level join them. -/
def chainFrom (level : Nat) (operand : Reader w) : Nat → Sized w → Reader w
  | 0, l, ts => .ok (l, ts)
  | fuel + 1, l, ts =>
    match ts with
    | ⟨.operator o, _⟩ :: rest =>
      if o.level = level then do
        let (r, rest) ← operand rest
        let (e, rest) ← cx.binary o l r rest
        chainFrom level operand fuel e rest
      else .ok (l, ts)
    | _ => .ok (l, ts)

def chain (level : Nat) (operand : Reader w) : Reader w := fun ts => do
  let (l, rest) ← operand ts
  cx.chainFrom level operand rest.length l rest

/-- The pattern of a match, which is a quoted text. -/
def like (negated : Bool) (l : Sized w) : Reader w := fun ts =>
  match ts with
  | ⟨.text source, _⟩ :: rest =>
    match Pattern.anchored? source with
    | some p => cx.sized (.like negated l.expr source p) (l.depth + 1) rest
    | none => cx.fail ts .badPattern
  | _ => cx.fail ts .noPattern

/-- One operand, or two with a relation between them, or one with a pattern. -/
def comparison (operand : Reader w) : Reader w := fun ts => do
  let (l, rest) ← operand ts
  match rest with
  | ⟨.operator (.relation r), _⟩ :: rest =>
    let (e, rest) ← operand rest
    cx.binary (.relation r) l e rest
  | ⟨.like negated, _⟩ :: rest => cx.like negated l rest
  | _ => return (l, rest)

def close (token : Token) (text : String) (ts : List Lexeme) : Except Fault (List Lexeme) :=
  match ts with
  | t :: rest => if t.token = token then .ok rest else cx.fail ts (.notClosed text)
  | [] => cx.fail ts (.notClosed text)

/-- A number without a fraction, as a count that is held at the greatest word. -/
def count? (word : Nat) : Option Nat :=
  match Binary.binary64.decode word with
  | .finite negative m e =>
    let whole := if 0 ≤ e then true else m % 2 ^ (-e).toNat == 0
    if whole && (!negative || m == 0) then
      some (Binary.binary64.toIntClamped 0 (2 ^ 64 - 1) word).toNat
    else none
  | _ => none

/-- What stands in the brackets after a name; `start` is the text from the opening one. -/
def subscript (start ts : List Lexeme) : Except Fault (Occurrence × List Lexeme) :=
  match ts with
  | ⟨.question, _⟩ :: rest => return (.any, rest)
  | ⟨.number word, _⟩ :: rest =>
    match count? word with
    | some n => return (.at n, rest)
    | none => cx.fail ts .badOccurrence
  | [] => cx.fail start .badOccurrence
  | _ => cx.fail ts .badOccurrence

/-- A field by its name, and what may follow the name. -/
def field (name : String) : Reader w := fun ts =>
  match cx.known name with
  | none => .error (.unknownName name)
  | some id =>
    match ts with
    | ⟨.openBracket, _⟩ :: rest => do
      let (occurrence, rest) ← cx.subscript ts rest
      let rest ← cx.close .closeBracket "]" rest
      return (⟨.field ⟨id, name, occurrence⟩, 1⟩, rest)
    | _ => return (⟨.field ⟨id, name, .at 0⟩, 1⟩, ts)

/-- A sign before an operand, or an operand; `deeper` and `inner` read one level down. -/
def unaryOver (deeper inner : Reader w) : Reader w := fun ts =>
  match ts with
  | ⟨.bang, _⟩ :: rest => signed .not rest
  | ⟨.operator (.arithmetic .sub), _⟩ :: rest => signed .minus rest
  | ⟨.operator (.arithmetic .add), _⟩ :: rest => signed .plus rest
  | ⟨.number word, _⟩ :: rest => return (⟨.number word, 1⟩, rest)
  | ⟨.text s, _⟩ :: rest => return (⟨.text s, 1⟩, rest)
  | ⟨.openParen, _⟩ :: rest => do
    let (e, rest) ← inner rest
    return (e, ← cx.close .closeParen ")" rest)
  | ⟨.name s, _⟩ :: rest => cx.field s rest
  | _ => cx.fail ts .noOperand
where
  signed (s : Sign) : Reader w := fun ts => do
    let (e, rest) ← deeper ts
    cx.sized (.signed s e.expr) (e.depth + 1) rest

/-- All levels of operators over operands of some kind. -/
def levels (operand : Reader w) : Reader w :=
  cx.chain 0 (cx.chain 1 (cx.chain 2 (cx.comparison (cx.chain 4 (cx.chain 5 operand)))))

def tooDeep : Reader w := fun ts => cx.fail ts .tooDeep

/-- An operand in which parentheses and signs nest `n` levels at most. -/
def unary : Nat → Reader w
  | 0 => cx.unaryOver cx.tooDeep cx.tooDeep
  | n + 1 => cx.unaryOver (unary n) (cx.levels (unary n))

/-- An expression that takes up all tokens. -/
def parse (ts : List Lexeme) : Except Fault (Expr w) := do
  let (e, rest) ← cx.levels (cx.unary maxDepth) ts
  match rest with
  | [] => return e.expr
  | _ => cx.fail rest .trailing

end Context

/-- The expression that a text writes, where `known` tells the fields that names stand for. -/
def ofText (known : String → Option (FieldId w)) (text : String) : Except Fault (Expr w) := do
  Context.parse ⟨byteLength text.toList, known⟩ (← Lexeme.scan text.toList)

end FieldBuffers.Expr
