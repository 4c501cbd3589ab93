import SpriteEngine.Json.Scan

/-!
# JSON numbers

`Json.magnitude` reads a number after its sign. A number is read to its end before anything is
decided about it. If it is a plain string of digits below 2^64 it is a `Numeral.natural`; every
other number is `Numeral.other`, and its value does not matter here, except that it has to be in the
range of a floating-point number with 64 bits.

That range is decided on an approximation. The digits are gathered in a 64-bit significand as long
as they fit, which leaves a power of ten (`Json.absorb`). Significand and power are rounded to 53
bits each, and the number is out of range if their product is rounded to infinity
(`Json.outOfRange`).
-/

namespace SpriteEngine.Json

/-- A number as far as it matters. -/
inductive Numeral where
  /-- A string of digits below 2^64. -/
  | natural (n : Nat)
  /-- A number with a fraction or an exponent, or with too many digits. -/
  | other
deriving DecidableEq, Repr

/-- The value of a decimal digit. -/
def digitValue (c : Char) : Nat :=
  c.toNat - '0'.toNat

/-- The value of a string of digits. -/
def digitsValue (s : List Char) : Nat :=
  s.foldl (fun n c => n * 10 + digitValue c) 0

/-- Append digits to a number as long as it stays below 2^64. The result is the number and how many
digits were appended. -/
def absorb (n : Nat) : List Char → Nat × Nat
  | [] => (n, 0)
  | c :: cs =>
    if n * 10 + digitValue c < 18446744073709551616 then
      let (m, used) := absorb (n * 10 + digitValue c) cs
      (m, used + 1)
    else
      (n, 0)

/-- Round a number to 53 significant bits, a half to the even neighbor. -/
def roundTo53 (n : Nat) : Nat :=
  let unit := Nat.pow 2 (n.log2 - 52)
  let (q, r) := (n / unit, n % unit)
  if unit < 2 * r ∨ (unit = 2 * r ∧ q % 2 = 1) then (q + 1) * unit else q * unit

/-- Whether `n * 10 ^ e` is too large for a floating-point number. From 2^1024 - 2^970 on a product
is rounded to infinity. -/
def outOfRange (n : Nat) (e : Int) : Bool :=
  n ≠ 0 && 0 ≤ e && (308 < e ||
    Nat.pow 2 1024 - Nat.pow 2 970 ≤ roundTo53 n * roundTo53 (Nat.pow 10 e.toNat))

/-- The end of a number that is not a plain string of digits. -/
def inRange (n : Nat) (e : Int) (rest : List Char) : Except ReadError (Numeral × List Char) :=
  if outOfRange n e then .error .malformed else .ok (.other, rest)

/-- Read the exponent of a number after its `e`. -/
def exponent (n : Nat) (e : Int) (s : List Char) : Except ReadError (Numeral × List Char) :=
  let (negative, s) : Bool × List Char :=
    match s with
    | '+' :: s => (false, s)
    | '-' :: s => (true, s)
    | s => (false, s)
  let digits := s.takeWhile Char.isDigit
  let rest := s.dropWhile Char.isDigit
  if digits.isEmpty then
    .error (unexpectedAt rest)
  else if negative then
    inRange n (e - digitsValue digits) rest
  else
    inRange n (e + digitsValue digits) rest

/-- Read the fraction of a number after its point, and an exponent if there is one. -/
def fraction (n : Nat) (e : Int) (s : List Char) : Except ReadError (Numeral × List Char) :=
  let digits := s.takeWhile Char.isDigit
  let rest := s.dropWhile Char.isDigit
  if digits.isEmpty then
    .error (unexpectedAt rest)
  else
    let (n, used) := absorb n digits
    match rest with
    | 'e' :: rest | 'E' :: rest => exponent n (e - used) rest
    | rest => inRange n (e - used) rest

/-- Read a number after its sign. A leading zero stands alone. -/
def magnitude (s : List Char) : Except ReadError (Numeral × List Char) :=
  let digits := s.takeWhile Char.isDigit
  let rest := s.dropWhile Char.isDigit
  match digits with
  | [] => .error (unexpectedAt rest)
  | '0' :: _ :: _ => .error .malformed
  | digits =>
    let (n, used) := absorb 0 digits
    let e := digits.length - used
    match rest with
    | '.' :: rest => fraction n e rest
    | 'e' :: rest | 'E' :: rest => exponent n e rest
    | rest => if e = 0 then .ok (.natural n, rest) else inRange n e rest

end SpriteEngine.Json
