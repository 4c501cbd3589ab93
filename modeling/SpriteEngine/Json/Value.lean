import SpriteEngine.Json.Numeral
import SpriteEngine.Json.Quoted

/-!
# Expected and unexpected values

`Json.unsigned` reads a natural number up to a limit. Every other value is refused: a value of
another kind is read as far as it takes to know its kind, so a mistake inside a word, a number or a
string is reported in place of the unexpected value (`Json.refuse`).
-/

namespace SpriteEngine.Json

/-- The error of a reader, or a mismatch if it succeeds. -/
def mismatchAfter {α : Type} : Except ReadError α → ReadError
  | .error e => e
  | .ok _ => .mismatch

/-- Why the value at the front of a text is refused, whatever it is. -/
def refuse : List Char → ReadError
  | [] => .endOfText
  | c :: rest =>
    match c with
    | 'n' => mismatchAfter (word "ull".toList rest)
    | 't' => mismatchAfter (word "rue".toList rest)
    | 'f' => mismatchAfter (word "alse".toList rest)
    | '"' => mismatchAfter (quoted rest)
    | '-' => mismatchAfter (magnitude rest)
    | '[' => .mismatch
    | '{' => .mismatch
    | c => if c.isDigit then mismatchAfter (magnitude (c :: rest)) else .malformed

/-- Read a natural number of at most `limit`, after blanks. -/
def unsigned (limit : Nat) (s : List Char) : Except ReadError (Nat × List Char) :=
  let s := skipBlanks s
  if (s.head?.map Char.isDigit).getD false then do
    match ← magnitude s with
    | (.natural n, rest) => if n ≤ limit then .ok (n, rest) else .error .mismatch
    | (.other, _) => .error .mismatch
  else
    .error (refuse s)

end SpriteEngine.Json
