import FieldBuffers.Expr.Operator
import FieldBuffers.Decimal.Reading

/-!
The tokens of an expression with the places where they start. Blanks between them are of ASCII, and
quoted text may hold any character.
-/

namespace FieldBuffers.Expr

inductive Token where
  /-- A numeral, as the word nearest to it. -/
  | number (word : Nat)
  | text (s : String)
  | name (s : String)
  | openParen | closeParen | openBracket | closeBracket
  | question | bang
  | like (negated : Bool)
  | operator (o : Operator)
deriving DecidableEq

/-- A token with the place of its first byte. -/
structure Lexeme where
  token : Token
  position : Nat
deriving DecidableEq

/-- Why a text is no expression. -/
inductive Cause where
  | unterminated
  | badNumber (text : String)
  | expectedSymbol (symbol : String)
  | unexpected (c : Char)
  | trailing
  | noOperand
  | notClosed (bracket : String)
  | badOccurrence
  | noPattern
  | badPattern
  | tooDeep
deriving DecidableEq

def maxDepth : Nat := 128

/-- The first byte of a character in UTF-8, taken for a character by itself. -/
def leadByte (c : Char) : Char :=
  Char.ofNat ((String.singleton c).toUTF8.data.toList.head?.getD 0).toNat

def Cause.message : Cause → String
  | unterminated => "unterminated string literal"
  | badNumber text => s!"invalid number '{text}'"
  | expectedSymbol symbol => s!"expected '{symbol}'"
  | unexpected c => s!"unexpected character '{leadByte c}'"
  | trailing => "unexpected trailing input"
  | noOperand => "expected a number, string, field or '('"
  | notClosed bracket => s!"expected '{bracket}'"
  | badOccurrence => "occurrence must be a non-negative integer or '?'"
  | noPattern => "regular expression must be a string literal"
  | badPattern => "invalid regex"
  | tooDeep => s!"expression nested deeper than {maxDepth} levels"

/-- Why a text does not compile: it is malformed at some place, or a name in it is not known. -/
inductive Fault where
  | malformed (position : Nat) (cause : Cause)
  | unknownName (name : String)
deriving DecidableEq

namespace Token

def isSpace (c : Char) : Bool :=
  c == ' ' || c == '\t' || c == '\n' || c == '\x0c' || c == '\r'

def isNameStart (c : Char) : Bool := c.isAlpha || c == '_'

def isNameRest (c : Char) : Bool := c.isAlphanum || c == '_'

/-- What a character after a backslash stands for. -/
def unescaped : Char → Char
  | 'n' => '\n'
  | 't' => '\t'
  | c => c

/-- The text up to a closing quote, and what follows the quote. -/
def quoted? (quote : Char) : List Char → Option (List Char × List Char)
  | [] => none
  | [c] => if c = quote then some ([], []) else none
  | c :: d :: rest =>
    if c = quote then some ([], d :: rest)
    else if c = '\\' then (quoted? quote rest).map fun (body, rest) => (unescaped d :: body, rest)
    else (quoted? quote (d :: rest)).map fun (body, rest) => (c :: body, rest)

/-- The exponent that a text starts with, if digits follow its sign. -/
def exponent (cs : List Char) : List Char :=
  match cs with
  | e :: s :: rest =>
    if e == 'e' || e == 'E' then
      if s == '+' || s == '-' then
        match rest.takeWhile Char.isDigit with
        | [] => []
        | ds => e :: s :: ds
      else
        match (s :: rest).takeWhile Char.isDigit with
        | [] => []
        | ds => e :: ds
    else []
  | _ => []

/-- The characters of a numeral, well formed or not, at the start of a text. -/
def numeral (cs : List Char) : List Char :=
  let body := cs.takeWhile fun c => c.isDigit || c == '.'
  body ++ exponent (cs.drop body.length)

/-- A symbol of two characters, or else the token for the first one alone. -/
def pair (second : Char) (both : Token) (alone : Except Cause Token) (rest : List Char) :
    Except Cause (Token × List Char) :=
  match rest with
  | c :: more => if c = second then .ok (both, more) else alone.map (·, rest)
  | [] => alone.map (·, rest)

/-- The token that starts with `c`, and what follows it. -/
def read (c : Char) (rest : List Char) : Except Cause (Token × List Char) :=
  if c = '\'' ∨ c = '"' then
    match quoted? c rest with
    | some (body, rest) => .ok (.text (String.ofList body), rest)
    | none => .error .unterminated
  else if c.isDigit ∨ c = '.' then
    let body := numeral (c :: rest)
    match Decimal.word? Binary.binary64 body with
    | some word => .ok (.number word, (c :: rest).drop body.length)
    | none => .error (.badNumber (String.ofList body))
  else if isNameStart c then
    .ok (.name (String.ofList (c :: rest.takeWhile isNameRest)), rest.dropWhile isNameRest)
  else
    match c with
    | '(' => .ok (.openParen, rest)
    | ')' => .ok (.closeParen, rest)
    | '[' => .ok (.openBracket, rest)
    | ']' => .ok (.closeBracket, rest)
    | '?' => .ok (.question, rest)
    | '^' => .ok (.operator (.connective .xor), rest)
    | '+' => .ok (.operator (.arithmetic .add), rest)
    | '-' => .ok (.operator (.arithmetic .sub), rest)
    | '*' => .ok (.operator (.arithmetic .mul), rest)
    | '/' => .ok (.operator (.arithmetic .div), rest)
    | '|' => pair '|' (.operator (.connective .or)) (.error (.expectedSymbol "||")) rest
    | '&' => pair '&' (.operator (.connective .and)) (.error (.expectedSymbol "&&")) rest
    | '=' => pair '=' (.operator (.relation .eq)) (.error (.expectedSymbol "==")) rest
    | '<' => pair '=' (.operator (.relation .le)) (.ok (.operator (.relation .lt))) rest
    | '>' => pair '=' (.operator (.relation .ge)) (.ok (.operator (.relation .gt))) rest
    | '%' => pair '%' (.like false) (.ok (.operator (.arithmetic .rem))) rest
    | '!' =>
      match rest with
      | '=' :: more => .ok (.operator (.relation .ne), more)
      | '%' :: more => .ok (.like true, more)
      | _ => .ok (.bang, rest)
    | _ => .error (.unexpected c)

end Token

/-- The length of a text in UTF-8. -/
def byteLength (cs : List Char) : Nat := (cs.map Char.utf8Size).sum

namespace Lexeme

/-- The tokens of the end of a text that is `finish` bytes long. -/
def scanFrom (finish : Nat) : Nat → List Char → Except Fault (List Lexeme)
  | 0, _ => .ok []
  | fuel + 1, cs =>
    match cs.dropWhile Token.isSpace with
    | [] => .ok []
    | c :: rest =>
      let position := finish - byteLength (c :: rest)
      match Token.read c rest with
      | .error cause => .error (.malformed position cause)
      | .ok (token, rest) => (scanFrom finish fuel rest).map (⟨token, position⟩ :: ·)

def scan (cs : List Char) : Except Fault (List Lexeme) := scanFrom (byteLength cs) cs.length cs

end Lexeme

end FieldBuffers.Expr
