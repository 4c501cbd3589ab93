/-!
# Reading JSON from left to right

A reader takes the characters that are left and returns what it has read with the characters after
it, or the first thing that went wrong (`ReadError`). It never looks back, so of two mistakes in a
text the first one is reported.

This module has the smallest readers, those for blanks and for fixed words.
-/

namespace SpriteEngine

/-- Why a text cannot be read. -/
inductive ReadError where
  /-- The text ends too early. -/
  | endOfText
  /-- The text is not JSON. -/
  | malformed
  /-- The text is JSON so far, but something else was expected here. -/
  | mismatch
deriving DecidableEq, Repr

namespace Json

/-- The four characters that may stand between tokens. -/
def isBlank (c : Char) : Bool :=
  c == ' ' || c == '\t' || c == '\n' || c == '\r'

/-- Pass over blanks. -/
def skipBlanks (s : List Char) : List Char :=
  s.dropWhile isBlank

/-- What is wrong when a token is expected and something else stands there: the end of the text, or
any other character. -/
def unexpectedAt : List Char → ReadError
  | [] => .endOfText
  | _ :: _ => .malformed

/-- Pass over blanks and one character. -/
def expect (c : Char) (s : List Char) : Except ReadError (List Char) :=
  match skipBlanks s with
  | [] => .error .endOfText
  | d :: rest => if d = c then .ok rest else .error .malformed

/-- Read the characters of a word, one by one. -/
def word : List Char → List Char → Except ReadError (List Char)
  | [], s => .ok s
  | _ :: _, [] => .error .endOfText
  | c :: cs, d :: s => if d = c then word cs s else .error .malformed

end Json

end SpriteEngine
