/-!
The operators of expressions. A connective joins truth values, a relation compares, and arithmetic
computes; each has a symbol and a level, and a lower level binds more loosely.
-/

namespace FieldBuffers.Expr

inductive Connective where
  | or | and | xor
deriving DecidableEq

inductive Relation where
  | eq | ne | lt | le | gt | ge
deriving DecidableEq

inductive Arithmetic where
  | add | sub | mul | div | rem
deriving DecidableEq

inductive Operator where
  | connective (c : Connective)
  | relation (r : Relation)
  | arithmetic (a : Arithmetic)
deriving DecidableEq

inductive Sign where
  | not | minus | plus
deriving DecidableEq

def Connective.symbol : Connective → String
  | or => "||"
  | and => "&&"
  | xor => "^"

def Relation.symbol : Relation → String
  | eq => "=="
  | ne => "!="
  | lt => "<"
  | le => "<="
  | gt => ">"
  | ge => ">="

def Arithmetic.symbol : Arithmetic → String
  | add => "+"
  | sub => "-"
  | mul => "*"
  | div => "/"
  | rem => "%"

def Operator.symbol : Operator → String
  | connective c => c.symbol
  | relation r => r.symbol
  | arithmetic a => a.symbol

def Sign.symbol : Sign → String
  | not => "!"
  | minus => "-"
  | plus => "+"

def Operator.level : Operator → Nat
  | connective .or => 0
  | connective .and => 1
  | connective .xor => 2
  | relation _ => 3
  | arithmetic .add | arithmetic .sub => 4
  | arithmetic .mul | arithmetic .div | arithmetic .rem => 5

/-- What a comparison says of two things in some order, or in none. -/
def Relation.accepts (r : Relation) (o : Option Ordering) : Bool :=
  match r with
  | eq => o == some .eq
  | ne => o != some .eq
  | lt => o == some .lt
  | le => o == some .lt || o == some .eq
  | gt => o == some .gt
  | ge => o == some .gt || o == some .eq

/-- The symbol of a match, or of its denial. -/
def likeSymbol (negated : Bool) : String := if negated then "!%" else "%%"

end FieldBuffers.Expr
