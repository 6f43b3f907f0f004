/-!
Blank characters, those with the Unicode property White_Space, and cutting text at them.
-/

namespace FieldBuffers.Text

def isBlank (c : Char) : Bool :=
  let n := c.toNat
  (9 ≤ n && n ≤ 13) || n == 0x20 || n == 0x85 || n == 0xA0 || n == 0x1680
    || (0x2000 ≤ n && n ≤ 0x200A) || n == 0x2028 || n == 0x2029 || n == 0x202F || n == 0x205F
    || n == 0x3000

/-- What is left after dropping from the end while `p` holds. -/
def dropEndWhile {α : Type} (p : α → Bool) (cs : List α) : List α :=
  (cs.reverse.dropWhile p).reverse

def trim (cs : List Char) : List Char := dropEndWhile isBlank (cs.dropWhile isBlank)

def trimmed (s : String) : String := String.ofList (trim s.toList)

/-- The pieces between the characters that satisfy `p`, empty ones included. -/
def pieces {α : Type} (p : α → Bool) (cs : List α) : List (List α) :=
  let (last, done) := cs.foldr
    (fun c (cur, acc) => if p c then ([], cur :: acc) else (c :: cur, acc)) ([], [])
  last :: done

/-- The runs of characters that are not blank. -/
def words (cs : List Char) : List (List Char) := (pieces isBlank cs).filter (!·.isEmpty)

/-- The parts before and after the first character equal to `sep`. -/
def splitOnce (sep : Char) (cs : List Char) : Option (List Char × List Char) :=
  match cs.dropWhile (· != sep) with
  | [] => none
  | _ :: rest => some (cs.takeWhile (· != sep), rest)

/-- A line without the carriage return that may end it. -/
def chomp {α : Type} [BEq α] (cr : α) (l : List α) : List α :=
  match l.getLast? with
  | some c => if c == cr then l.dropLast else l
  | none => l

/-- The lines of a text: what newlines end, and what is left if it is not empty. -/
def linesBy {α : Type} [BEq α] (newline cr : α) (cs : List α) : List (List α) :=
  let ps := pieces (· == newline) cs
  let ended := if (ps.getLast?.getD []).isEmpty then ps.dropLast else ps
  let closed := ps.length - 1
  ended.mapIdx fun i l => if i < closed then chomp cr l else l

end FieldBuffers.Text
