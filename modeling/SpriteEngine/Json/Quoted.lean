import SpriteEngine.Json.Scan

/-!
# JSON strings

`Json.quoted` reads the rest of a string after its opening quote and returns the characters it
stands for. An escape is a backslash with one character, or with `u` and four hexadecimal digits;
characters beyond the first 65536 take two of those, a leading and a trailing surrogate.

A `u` needs four bytes of text after it, whatever they are: with fewer the text ends too early, and
otherwise they have to be digits.
-/

namespace SpriteEngine.Json

/-- The value of a hexadecimal digit. -/
def hexDigit? (c : Char) : Option Nat :=
  if '0' ≤ c ∧ c ≤ '9' then some (c.toNat - '0'.toNat)
  else if 'a' ≤ c ∧ c ≤ 'f' then some (c.toNat - 'a'.toNat + 10)
  else if 'A' ≤ c ∧ c ≤ 'F' then some (c.toNat - 'A'.toNat + 10)
  else none

/-- The number of bytes of a text. -/
def byteCount (s : List Char) : Nat :=
  s.foldl (fun n c => n + c.utf8Size) 0

/-- Read four hexadecimal digits. -/
def fourHex : List Char → Except ReadError (Nat × List Char)
  | a :: b :: c :: d :: rest =>
    match hexDigit? a, hexDigit? b, hexDigit? c, hexDigit? d with
    | some a, some b, some c, some d => .ok (((a * 16 + b) * 16 + c) * 16 + d, rest)
    | _, _, _, _ => .error .malformed
  | s => if byteCount s < 4 then .error .endOfText else .error .malformed

/-- Whether a number is the first half of a pair of surrogates. -/
def isLeading (n : Nat) : Bool :=
  0xD800 ≤ n && n ≤ 0xDBFF

/-- Whether a number is the second half of a pair of surrogates. -/
def isTrailing (n : Nat) : Bool :=
  0xDC00 ≤ n && n ≤ 0xDFFF

/-- Read the trailing surrogate that has to follow the leading one `n`. -/
def surrogatePair (n : Nat) : List Char → Except ReadError (Char × List Char)
  | '\\' :: 'u' :: rest => do
    let (m, rest) ← fourHex rest
    if isTrailing m then
      .ok (Char.ofNat ((n - 0xD800) * 0x400 + (m - 0xDC00) + 0x10000), rest)
    else
      .error .malformed
  | '\\' :: rest => .error (unexpectedAt rest)
  | rest => .error (unexpectedAt rest)

/-- Read the digits of an escape by number. -/
def unicodeEscape (s : List Char) : Except ReadError (Char × List Char) := do
  let (n, rest) ← fourHex s
  if isTrailing n then .error .malformed
  else if isLeading n then surrogatePair n rest
  else .ok (Char.ofNat n, rest)

/-- Read an escape after its backslash. -/
def escape : List Char → Except ReadError (Char × List Char)
  | [] => .error .endOfText
  | c :: rest =>
    match c with
    | '"' | '\\' | '/' => .ok (c, rest)
    | 'b' => .ok ('\x08', rest)
    | 'f' => .ok ('\x0c', rest)
    | 'n' => .ok ('\n', rest)
    | 'r' => .ok ('\r', rest)
    | 't' => .ok ('\t', rest)
    | 'u' => unicodeEscape rest
    | _ => .error .malformed

/-! ### Reading makes progress -/

theorem fourHex_length {s rest : List Char} {n : Nat} (h : fourHex s = .ok (n, rest)) :
    rest.length < s.length := by
  unfold fourHex at h
  split at h
  · split at h
    · simp only [Except.ok.injEq, Prod.mk.injEq] at h
      simp only [← h.2, List.length_cons]
      omega
    · simp at h
  · split at h <;> simp at h

theorem surrogatePair_length {n : Nat} {s rest : List Char} {c : Char}
    (h : surrogatePair n s = .ok (c, rest)) : rest.length < s.length := by
  unfold surrogatePair at h
  split at h
  · rename_i tail
    cases hd : fourHex tail with
    | error e => simp [hd, bind, Except.bind] at h
    | ok p =>
      obtain ⟨m, after⟩ := p
      have hlt := fourHex_length hd
      simp only [hd, bind, Except.bind] at h
      split at h
      · simp only [Except.ok.injEq, Prod.mk.injEq] at h
        simp only [← h.2, List.length_cons]
        omega
      · simp at h
  · simp at h
  · simp at h

theorem unicodeEscape_length {s rest : List Char} {c : Char}
    (h : unicodeEscape s = .ok (c, rest)) : rest.length < s.length := by
  unfold unicodeEscape at h
  cases hd : fourHex s with
  | error e => simp [hd, bind, Except.bind] at h
  | ok p =>
    obtain ⟨n, tail⟩ := p
    have hlt := fourHex_length hd
    simp only [hd, bind, Except.bind] at h
    split at h
    · simp at h
    · split at h
      · have := surrogatePair_length h
        omega
      · simp only [Except.ok.injEq, Prod.mk.injEq] at h
        simpa [← h.2] using hlt

/-- An escape takes at least one character. -/
theorem escape_length {s rest : List Char} {c : Char} (h : escape s = .ok (c, rest)) :
    rest.length < s.length := by
  cases s with
  | nil => simp [escape] at h
  | cons d tail =>
    simp only [escape] at h
    split at h
    any_goals
      simp only [Except.ok.injEq, Prod.mk.injEq] at h
      simp [← h.2]
    · have := unicodeEscape_length h
      simp only [List.length_cons]
      omega
    · simp at h

/-! ### Strings -/

/-- Read a string after its opening quote. Control characters may only stand in it as escapes. -/
def quoted (s : List Char) : Except ReadError (List Char × List Char) :=
  match s with
  | [] => .error .endOfText
  | c :: rest =>
    if c = '"' then
      .ok ([], rest)
    else if c = '\\' then
      match h : escape rest with
      | .error e => .error e
      | .ok (d, after) =>
        have : after.length < rest.length := escape_length h
        (quoted after).map fun (text, rest) => (d :: text, rest)
    else if c.toNat < 0x20 then
      .error .malformed
    else
      (quoted rest).map fun (text, rest) => (c :: text, rest)
termination_by s.length
decreasing_by all_goals (simp only [List.length_cons]; omega)

end SpriteEngine.Json
