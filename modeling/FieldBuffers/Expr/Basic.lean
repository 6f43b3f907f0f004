import FieldBuffers.Expr.Operator
import FieldBuffers.FieldId
import FieldBuffers.Pattern.Parser
import FieldBuffers.Decimal.Shortest

/-!
Expressions over the fields of a buffer, and their canonical text, which has parentheses around
every operation of two operands.
-/

namespace FieldBuffers

/-- Which occurrence of a field is meant. -/
inductive Expr.Occurrence where
  | at (n : Nat)
  /-- Whichever occurrence makes the test hold. -/
  | any
deriving DecidableEq

/-- A field as it is written in an expression. -/
structure Expr.Reference (w : Width) where
  id : FieldId w
  name : String
  occurrence : Occurrence
deriving DecidableEq

inductive Expr (w : Width) where
  /-- A number of double precision, as its word. -/
  | number (word : Nat)
  | text (s : String)
  | field (r : Expr.Reference w)
  | signed (s : Expr.Sign) (e : Expr w)
  | binary (o : Expr.Operator) (l r : Expr w)
  /-- Whether a text is, as a whole, what a pattern describes. -/
  | like (negated : Bool) (subject : Expr w) (source : String) (pattern : Pattern)
deriving DecidableEq

namespace Expr

variable {w : Width}

def height : Expr w → Nat
  | number _ | text _ | field _ => 1
  | signed _ e => e.height + 1
  | binary _ l r => max l.height r.height + 1
  | like _ e _ _ => e.height + 1

/-- A character between quotes. -/
def escaped : Char → List Char
  | '\'' => ['\\', '\'']
  | '\\' => ['\\', '\\']
  | '\n' => ['\\', 'n']
  | '\t' => ['\\', 't']
  | c => [c]

def quote (s : String) : List Char := '\'' :: s.toList.flatMap escaped ++ ['\'']

def Reference.canonical (r : Reference w) : List Char :=
  r.name.toList ++
    match r.occurrence with
    | .at 0 => []
    | .at n => '[' :: Nat.toDigits 10 n ++ [']']
    | .any => "[?]".toList

def canonical : Expr w → List Char
  | number word => Decimal.text Binary.binary64 word
  | text s => quote s
  | field r => r.canonical
  | signed s e => s.symbol.toList ++ e.canonical
  | binary o l r =>
    '(' :: l.canonical ++ ' ' :: o.symbol.toList ++ ' ' :: r.canonical ++ [')']
  | like negated e source _ =>
    '(' :: e.canonical ++ ' ' :: (likeSymbol negated).toList ++ ' ' :: quote source ++ [')']

/-- The canonical text. -/
def toText (e : Expr w) : String := String.ofList e.canonical

end Expr

end FieldBuffers
