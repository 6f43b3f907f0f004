import FieldBuffers.Expr.Parser
import FieldBuffers.Catalog.Basic

/-!
Compiled expressions: a tree with the text it is from. The catalog is asked only if a name is met
before anything that is malformed.
-/

namespace FieldBuffers

/-- What is asked of an expression: whether it holds, or what number it gives. -/
inductive Expr.Kind where
  | predicate | formula
deriving DecidableEq

structure Expr.Compiled (w : Width) where
  source : String
  root : Expr w

namespace Expr

variable {w : Width}

def Fault.error (source : String) : Fault → Error
  | .malformed position cause => .malformedExpression source position cause.message
  | .unknownName name => .unknownName name

def resolved (known : String → Option (FieldId w)) (source : String) :
    Except Error (Compiled w) :=
  ((ofText known source).map (⟨source, ·⟩)).mapError (Fault.error source)

/-- The expression with its names looked up in the catalog. -/
def compile (files : Files) (source : String) : Resolving w (Compiled w) :=
  match ofText (w := w) (fun _ => none) source with
  | .error (.unknownName _) => do
    let names ← Catalog.table files
    match resolved names.ident? source with
    | .ok e => return e
    | .error e => throw e
  | .error fault => throw (fault.error source)
  | .ok root => return ⟨source, root⟩

end Expr

end FieldBuffers
