import Mathlib.Data.List.Basic
import Mathlib.Data.List.TakeWhile
import SpriteEngine.Json.Value

/-!
# JSON texts

The grammar of JSON as a description of texts, and what the readers make of such texts. The text
between the quotes of a string stands for certain characters (`Json.Spells`), a number has the form
`Json.IsNumber`, and `Json.IsValue` is the form of any value. Blanks may stand around every value,
key and colon (`Json.Item`, `Json.Member`). `Json.IsObjectText` is a text that has nothing but an
object with the given members.

A string is read as the characters that it stands for (`Json.Spells.quoted`). Of values, only plain
numbers can be read: `Json.unsigned_toDigits` says that they are, and
`Json.IsValue.rest_of_unsigned` that what is read of a value is all of it.
-/

namespace SpriteEngine.Json

variable {b s t rest : List Char} {c : Char}

/-! ### Blanks -/

/-- The text has nothing but blanks. -/
def Blank (b : List Char) : Prop :=
  ∀ c ∈ b, isBlank c = true

instance (b : List Char) : Decidable (Blank b) :=
  decidable_of_iff (b.all isBlank = true) List.all_eq_true

theorem Blank.skipBlanks (h : Blank b) (s : List Char) :
    Json.skipBlanks (b ++ s) = Json.skipBlanks s :=
  List.dropWhile_append_of_pos h

/-- Skipping ends at the first character that is no blank. -/
theorem Blank.skipBlanks_cons (h : Blank b) (c : Char) (hc : isBlank c = false) (s : List Char) :
    Json.skipBlanks (b ++ c :: s) = c :: s := by
  rw [h.skipBlanks, Json.skipBlanks, List.dropWhile_cons_of_neg (by simp [hc])]

theorem Blank.skipBlanks_eq_nil (h : Blank b) : Json.skipBlanks b = [] :=
  List.dropWhile_eq_nil_iff.2 h

/-- A character that is expected may have blanks before it. -/
theorem Blank.expect (h : Blank b) (c : Char) (hc : isBlank c = false) (s : List Char) :
    Json.expect c (b ++ c :: s) = .ok s := by
  rw [Json.expect, h.skipBlanks_cons c hc]
  exact if_pos rfl

private theorem isBlank_of_isDigit (h : c.isDigit = true) : isBlank c = false := by
  by_contra hblank
  simp only [isBlank, Bool.not_eq_false, Bool.or_eq_true, beq_iff_eq] at hblank
  rcases hblank with ((rfl | rfl) | rfl) | rfl <;> simp at h

/-! ### Strings -/

/-- Whether a character stands for itself. -/
def isPlain (c : Char) : Bool :=
  c != '"' && c != '\\' && 0x20 ≤ c.toNat

/-- The characters that can stand after a backslash, with what the two stand for. -/
def shortEscapes : List (Char × Char) :=
  [('"', '"'), ('\\', '\\'), ('/', '/'), ('b', '\x08'), ('f', '\x0c'), ('n', '\n'), ('r', '\r'),
    ('t', '\t')]

/-- The number with the given hexadecimal digits. -/
def hexValue? (digits : List Char) : Option Nat :=
  digits.foldlM (fun n c => (hexDigit? c).map (n * 16 + ·)) 0

/-- The text between two quotes and the characters that it stands for. -/
inductive Spells : List Char → List Char → Prop
  | nil : Spells [] []
  | plain {c : Char} {t s : List Char} (hc : isPlain c = true) (h : Spells t s) :
      Spells (c :: t) (c :: s)
  | short {c d : Char} {t s : List Char} (hd : (c, d) ∈ shortEscapes) (h : Spells t s) :
      Spells ('\\' :: c :: t) (d :: s)
  | unicode {a b c d : Char} {n : Nat} {t s : List Char} (hn : hexValue? [a, b, c, d] = some n)
      (hrange : n < 0xD800 ∨ 0xDFFF < n) (h : Spells t s) :
      Spells ('\\' :: 'u' :: a :: b :: c :: d :: t) (Char.ofNat n :: s)
  | surrogates {a b c d a' b' c' d' : Char} {n m : Nat} {t s : List Char}
      (hn : hexValue? [a, b, c, d] = some n) (hm : hexValue? [a', b', c', d'] = some m)
      (hleading : 0xD800 ≤ n ∧ n ≤ 0xDBFF) (htrailing : 0xDC00 ≤ m ∧ m ≤ 0xDFFF)
      (h : Spells t s) :
      Spells ('\\' :: 'u' :: a :: b :: c :: d :: '\\' :: 'u' :: a' :: b' :: c' :: d' :: t)
        (Char.ofNat ((n - 0xD800) * 0x400 + (m - 0xDC00) + 0x10000) :: s)

/-- Characters that need no escape may stand in front of any spelling. -/
theorem Spells.append_plain {t' s' : List Char} (h : Spells t' s') (ht : t.all isPlain = true) :
    Spells (t ++ t') (t ++ s') := by
  induction t with
  | nil => exact h
  | cons c t ih =>
    rw [List.all_cons, Bool.and_eq_true] at ht
    exact .plain ht.1 (ih ht.2)

theorem spells_self (ht : t.all isPlain = true) : Spells t t := by
  simpa using Spells.nil.append_plain ht

private theorem fourHex_of_hexValue? {a b c d : Char} {n : Nat}
    (h : hexValue? [a, b, c, d] = some n) (rest : List Char) :
    fourHex (a :: b :: c :: d :: rest) = .ok (n, rest) := by
  simp only [hexValue?, List.foldlM_cons, List.foldlM_nil, Option.bind_eq_bind,
    Option.bind_eq_some_iff, Option.map_eq_some_iff, Option.pure_def, Option.some.injEq] at h
  obtain ⟨_, ⟨va, ha, rfl⟩, _, ⟨vb, hb, rfl⟩, _, ⟨vc, hc, rfl⟩, _, ⟨vd, hd, rfl⟩, rfl⟩ := h
  simp [fourHex, ha, hb, hc, hd]

/-- An escape of one character. -/
private theorem escape_short {c d : Char} (h : (c, d) ∈ shortEscapes) (rest : List Char) :
    escape (c :: rest) = .ok (d, rest) := by
  simp only [shortEscapes, List.mem_cons, List.not_mem_nil, or_false, Prod.mk.injEq] at h
  rcases h with ⟨rfl, rfl⟩ | ⟨rfl, rfl⟩ | ⟨rfl, rfl⟩ | ⟨rfl, rfl⟩ | ⟨rfl, rfl⟩ | ⟨rfl, rfl⟩ |
    ⟨rfl, rfl⟩ | ⟨rfl, rfl⟩ <;> rfl

/-- An escape for one character of the basic plane. -/
private theorem escape_unicode {a b c d : Char} {n : Nat} (hn : hexValue? [a, b, c, d] = some n)
    (hrange : n < 0xD800 ∨ 0xDFFF < n) (rest : List Char) :
    escape ('u' :: a :: b :: c :: d :: rest) = .ok (Char.ofNat n, rest) := by
  have htrailing : isTrailing n = false := by
    simp only [isTrailing, Bool.and_eq_false_iff, decide_eq_false_iff_not]
    omega
  have hleading : isLeading n = false := by
    simp only [isLeading, Bool.and_eq_false_iff, decide_eq_false_iff_not]
    omega
  simp [escape, unicodeEscape, fourHex_of_hexValue? hn, bind, Except.bind, htrailing, hleading]

/-- Two escapes that stand for one character, by the formula for surrogates. -/
private theorem escape_surrogates {a b c d a' b' c' d' : Char} {n m : Nat}
    (hn : hexValue? [a, b, c, d] = some n) (hm : hexValue? [a', b', c', d'] = some m)
    (hleading : 0xD800 ≤ n ∧ n ≤ 0xDBFF) (htrailing : 0xDC00 ≤ m ∧ m ≤ 0xDFFF)
    (rest : List Char) :
    escape ('u' :: a :: b :: c :: d :: '\\' :: 'u' :: a' :: b' :: c' :: d' :: rest) =
      .ok (Char.ofNat ((n - 0xD800) * 0x400 + (m - 0xDC00) + 0x10000), rest) := by
  have hnot : isTrailing n = false := by
    simp only [isTrailing, Bool.and_eq_false_iff, decide_eq_false_iff_not]
    omega
  have hleading : isLeading n = true := by
    simpa [isLeading] using hleading
  have htrailing : isTrailing m = true := by
    simpa [isTrailing] using htrailing
  simp [escape, unicodeEscape, surrogatePair, fourHex_of_hexValue? hn, fourHex_of_hexValue? hm,
    bind, Except.bind, hnot, hleading, htrailing]

private theorem quoted_quote (s : List Char) : quoted ('"' :: s) = .ok ([], s) := by
  rw [quoted, if_pos rfl]

private theorem quoted_plain (hc : isPlain c = true) (s : List Char) :
    quoted (c :: s) = (quoted s).map fun (text, rest) => (c :: text, rest) := by
  obtain ⟨⟨hquote, hbackslash⟩, hcontrol⟩ : (c ≠ '"' ∧ c ≠ '\\') ∧ 0x20 ≤ c.toNat := by
    simpa [isPlain] using hc
  rw [quoted, if_neg hquote, if_neg hbackslash, if_neg (by omega)]

/-- An escape stands for one character, and the string goes on after it. -/
private theorem quoted_escape {d : Char} (h : escape s = .ok (d, rest)) :
    quoted ('\\' :: s) = (quoted rest).map fun (text, rest) => (d :: text, rest) := by
  rw [quoted, if_neg (by decide), if_pos rfl]
  split
  · rename_i e he
    cases h.symm.trans he
  · rename_i d' after hafter
    cases h.symm.trans hafter
    rfl

/-- A string is read as the characters it stands for, and up to its closing quote. -/
theorem Spells.quoted (h : Spells t s) (rest : List Char) :
    Json.quoted (t ++ '"' :: rest) = .ok (s, rest) := by
  induction h with
  | nil => exact quoted_quote rest
  | plain hc _ ih =>
    rw [List.cons_append, quoted_plain hc, ih]
    rfl
  | short hd _ ih =>
    simp only [List.cons_append]
    rw [quoted_escape (escape_short hd _), ih]
    rfl
  | unicode hn hrange _ ih =>
    simp only [List.cons_append]
    rw [quoted_escape (escape_unicode hn hrange _), ih]
    rfl
  | surrogates hn hm hleading htrailing _ ih =>
    simp only [List.cons_append]
    rw [quoted_escape (escape_surrogates hn hm hleading htrailing _), ih]
    rfl

/-! ### Numbers -/

/-- At least one digit, and nothing else. -/
structure IsDigits (t : List Char) : Prop where
  ne_nil : t ≠ []
  isDigit : ∀ c ∈ t, c.isDigit = true

/-- Digits without a leading zero. -/
structure IsInteger (t : List Char) : Prop extends IsDigits t where
  eq_zero : t.head? = some '0' → t = ['0']

/-- The fraction of a number, if there is one. -/
inductive IsFraction : List Char → Prop
  | none : IsFraction []
  | point {t : List Char} (h : IsDigits t) : IsFraction ('.' :: t)

/-- The exponent of a number, if there is one. -/
inductive IsExponent : List Char → Prop
  | none : IsExponent []
  | mark {c : Char} {sign t : List Char} (hmark : c = 'e' ∨ c = 'E')
      (hsign : sign = [] ∨ sign = ['+'] ∨ sign = ['-']) (h : IsDigits t) :
      IsExponent (c :: (sign ++ t))

/-- A number of any form. -/
inductive IsNumber : List Char → Prop
  | mk {sign t fraction exponent : List Char} (hsign : sign = [] ∨ sign = ['-'])
      (h : IsInteger t) (hfraction : IsFraction fraction) (hexponent : IsExponent exponent) :
      IsNumber (sign ++ (t ++ (fraction ++ exponent)))

/-- No number that stands before the text goes on in it. -/
structure Ends (s : List Char) : Prop where
  digit : ∀ c ∈ s.head?, c.isDigit = false
  point : s.head? ≠ some '.'
  mark : s.head? ≠ some 'e' ∧ s.head? ≠ some 'E'

/-- A number ends where the next character can be no part of it. -/
private theorem ends_cons (hdigit : c.isDigit = false) (hpoint : c ≠ '.')
    (hmark : c ≠ 'e' ∧ c ≠ 'E') (s : List Char) : Ends (c :: s) where
  digit := by simpa using hdigit
  point := by simpa using hpoint
  mark := by simpa using hmark

/-- Inside an object a number ends before a comma or a brace, with or without blanks between. -/
theorem Blank.ends (h : Blank b) (hc : c = ',' ∨ c = '}') (s : List Char) :
    Ends (b ++ c :: s) := by
  cases b with
  | nil => rcases hc with rfl | rfl <;> exact ends_cons (by decide) (by decide) (by decide) s
  | cons d b =>
    have hd : isBlank d = true := h d List.mem_cons_self
    simp only [isBlank, Bool.or_eq_true, beq_iff_eq] at hd
    rcases hd with ((rfl | rfl) | rfl) | rfl <;>
      exact ends_cons (by decide) (by decide) (by decide) _

/-- Of a text after digits, the digits are taken and the rest is left. -/
private theorem IsDigits.span (h : IsDigits t) (hs : ∀ c ∈ s.head?, c.isDigit = false) :
    (t ++ s).takeWhile Char.isDigit = t ∧ (t ++ s).dropWhile Char.isDigit = s := by
  rw [List.takeWhile_append_of_pos h.isDigit, List.dropWhile_append_of_pos h.isDigit]
  cases s with
  | nil => simp
  | cons c s => simp [hs c rfl]

/-! #### Plain numbers -/

private theorem le_ofDigitChars (t : List Char) (n : Nat) : n ≤ Nat.ofDigitChars 10 t n := by
  induction t generalizing n with
  | nil => exact Nat.le_refl n
  | cons c t ih =>
    rw [Nat.ofDigitChars_cons]
    have hle := ih (10 * n + (c.toNat - '0'.toNat))
    omega

/-- Digits whose value fits into 64 bits are all absorbed. -/
private theorem absorb_of_lt {n : Nat} (h : Nat.ofDigitChars 10 t n < 18446744073709551616) :
    absorb n t = (Nat.ofDigitChars 10 t n, t.length) := by
  induction t generalizing n with
  | nil => rfl
  | cons c t ih =>
    have heq : n * 10 + digitValue c = 10 * n + (c.toNat - '0'.toNat) := by
      rw [digitValue, Nat.mul_comm]
    rw [Nat.ofDigitChars_cons, ← heq] at h ⊢
    have hlt := Nat.lt_of_le_of_lt (le_ofDigitChars t _) h
    rw [absorb, if_pos hlt, ih h, List.length_cons]

/-- The digits of a number do not start with a zero, unless the number is zero. -/
private theorem head?_toDigits_ne {n : Nat} (hn : n ≠ 0) :
    (Nat.toDigits 10 n).head? ≠ some '0' := by
  induction n using Nat.strongRecOn with
  | ind n ih =>
    have hdigit : ∀ d < 10, d ≠ 0 → d.digitChar ≠ '0' := by decide
    rcases Nat.lt_or_ge n 10 with hlt | hge
    · rw [Nat.toDigits_of_lt_base hlt]
      simpa using hdigit n hlt hn
    · have hhead := ih (n / 10) (by omega) (by omega)
      rw [Nat.toDigits_of_base_le (by decide) hge,
        List.head?_append_of_ne_nil _ Nat.toDigits_ne_nil]
      exact hhead

/-- The digits of a number are written without leading zeros. -/
private theorem isInteger_toDigits (n : Nat) : IsInteger (Nat.toDigits 10 n) where
  ne_nil := Nat.toDigits_ne_nil
  isDigit _ hc := Nat.isDigit_of_mem_toDigits (by decide) (by decide) hc
  eq_zero hzero := by
    have hn : n = 0 := by_contra fun hn => head?_toDigits_ne hn hzero
    rw [hn]
    rfl

/-- An integer is read as its value if that fits into 64 bits. -/
private theorem magnitude_of_isInteger (h : IsInteger t)
    (hlt : Nat.ofDigitChars 10 t 0 < 18446744073709551616) (hs : Ends s) :
    magnitude (t ++ s) = .ok (.natural (Nat.ofDigitChars 10 t 0), s) := by
  obtain ⟨htake, hdrop⟩ := h.span hs.digit
  simp only [magnitude, htake, hdrop]
  split
  · exact absurd rfl h.ne_nil
  · exact absurd (h.eq_zero rfl) (by simp)
  · rw [absorb_of_lt hlt]
    split
    · exact absurd rfl hs.point
    · exact absurd rfl hs.mark.1
    · exact absurd rfl hs.mark.2
    · simp

/-- The digits of a number within the limit are read as that number. -/
theorem unsigned_toDigits {n limit : Nat} (hb : Blank b) (hn : n ≤ limit)
    (hlt : n < 18446744073709551616) (hs : Ends s) :
    unsigned limit (b ++ (Nat.toDigits 10 n ++ s)) = .ok (n, s) := by
  have hvalue : Nat.ofDigitChars 10 (Nat.toDigits 10 n) 0 = n :=
    Nat.ofDigitChars_toDigits (by decide) (by decide)
  have hint := isInteger_toDigits n
  obtain ⟨c, t, ht⟩ := List.exists_cons_of_ne_nil hint.ne_nil
  have hc : c.isDigit = true := hint.isDigit c (by simp [ht])
  have hblank : isBlank c = false := isBlank_of_isDigit hc
  have hread := magnitude_of_isInteger hint (hvalue.symm ▸ hlt) hs
  rw [hvalue, ht, List.cons_append] at hread
  rw [ht, List.cons_append, unsigned]
  simp [hb.skipBlanks_cons c hblank, hc, hread, hn, bind, Except.bind]

/-! #### Numbers of other forms -/

private theorem inRange_ne_natural {n m : Nat} {e : Int} :
    inRange n e s ≠ .ok (.natural m, rest) := by
  rw [inRange]
  split <;> simp

/-- A number with an exponent is no natural number, even if its value is. -/
private theorem exponent_ne_natural {n m : Nat} {e : Int} :
    exponent n e s ≠ .ok (.natural m, rest) := by
  unfold exponent
  split
  dsimp only
  split
  · simp
  · split <;> exact inRange_ne_natural

private theorem fraction_ne_natural {n m : Nat} {e : Int} :
    fraction n e s ≠ .ok (.natural m, rest) := by
  simp only [fraction]
  split
  · simp
  · split
    · exact exponent_ne_natural
    · exact exponent_ne_natural
    · exact inRange_ne_natural

/-- If a number is read as natural, then it has neither a fraction nor an exponent. -/
private theorem magnitude_natural {n : Nat} (h : magnitude s = .ok (.natural n, rest)) :
    rest = s.dropWhile Char.isDigit ∧ Ends rest := by
  simp only [magnitude] at h
  split at h
  · simp at h
  · simp at h
  · split at h
    · exact absurd h fraction_ne_natural
    · exact absurd h exponent_ne_natural
    · exact absurd h exponent_ne_natural
    · rename_i hpoint hmark hMark
      split at h
      · simp only [Except.ok.injEq, Prod.mk.injEq] at h
        obtain rfl := h.2
        refine ⟨rfl, ⟨fun c hc => ?_, ?_, ?_, ?_⟩⟩
        · have hnot := List.head?_dropWhile_not Char.isDigit s
          rwa [Option.mem_def.1 hc] at hnot
        · simpa [List.head?_eq_some_iff] using hpoint
        · simpa [List.head?_eq_some_iff] using hmark
        · simpa [List.head?_eq_some_iff] using hMark
      · exact absurd h inRange_ne_natural

/-- What is read as a natural number starts with a digit and goes on to the end of its digits. -/
private theorem unsigned_ok {limit n : Nat} (hb : Blank b) (hblank : isBlank c = false)
    (h : unsigned limit (b ++ c :: s) = .ok (n, rest)) :
    c.isDigit = true ∧ rest = (c :: s).dropWhile Char.isDigit ∧ Ends rest := by
  simp only [unsigned, hb.skipBlanks_cons c hblank, List.head?_cons, Option.map_some,
    Option.getD_some] at h
  split at h
  · rename_i hc
    cases hread : magnitude (c :: s) with
    | error e => simp [hread, bind, Except.bind] at h
    | ok p =>
      obtain ⟨_ | _, after⟩ := p
      · simp only [hread, bind, Except.bind] at h
        split at h
        · simp only [Except.ok.injEq, Prod.mk.injEq] at h
          exact ⟨hc, magnitude_natural (h.2 ▸ hread)⟩
        · simp at h
      · simp [hread, bind, Except.bind] at h
  · simp at h

/-- After an integer was read, the text goes on right behind its digits. -/
private theorem IsInteger.rest_of_unsigned {limit n : Nat} (ht : IsInteger t) (hb : Blank b)
    (hs : ∀ c ∈ s.head?, c.isDigit = false)
    (h : unsigned limit (b ++ (t ++ s)) = .ok (n, rest)) : rest = s ∧ Ends s := by
  obtain ⟨c, t', ht'⟩ := List.exists_cons_of_ne_nil ht.ne_nil
  have hc : c.isDigit = true := ht.isDigit c (by simp [ht'])
  rw [ht', List.cons_append] at h
  obtain ⟨-, hrest, hends⟩ := unsigned_ok hb (isBlank_of_isDigit hc) h
  rw [← List.cons_append, ← ht', (ht.span hs).2] at hrest
  exact ⟨hrest, hrest ▸ hends⟩

/-- The same for any number: if it is accepted at all, it was read to its end. -/
private theorem IsNumber.rest_of_unsigned {limit n : Nat} (ht : IsNumber t) (hb : Blank b)
    (hs : Ends s) (h : unsigned limit (b ++ (t ++ s)) = .ok (n, rest)) : rest = s := by
  obtain ⟨hsign, hinteger, hfraction, hexponent⟩ := ht
  rcases hsign with rfl | rfl
  · -- the integer is read up to a point or a mark, and there no natural number can end
    simp only [List.nil_append, List.append_assoc] at h
    cases hfraction with
    | none =>
      cases hexponent with
      | none => exact (hinteger.rest_of_unsigned hb hs.digit h).1
      | mark hmark _ _ =>
        rcases hmark with rfl | rfl
        · obtain ⟨-, hends⟩ := hinteger.rest_of_unsigned hb (by simp) h
          exact absurd rfl hends.mark.1
        · obtain ⟨-, hends⟩ := hinteger.rest_of_unsigned hb (by simp) h
          exact absurd rfl hends.mark.2
    | point _ =>
      obtain ⟨-, hends⟩ := hinteger.rest_of_unsigned hb (by simp) h
      exact absurd rfl hends.point
  · exact absurd (unsigned_ok hb (by decide) h).1 (by decide)

/-! ### Values -/

/-- A value with the blanks around it. -/
structure Item where
  before : List Char
  value : List Char
  after : List Char

namespace Item

/-- The text of a value with the blanks around it. -/
def text (i : Item) : List Char :=
  i.before ++ (i.value ++ i.after)

theorem text_append (i : Item) (s : List Char) :
    i.text ++ s = i.before ++ (i.value ++ (i.after ++ s)) := by
  simp [text]

/-- There are only blanks around the value. -/
structure IsSpaced (i : Item) : Prop where
  before : Blank i.before
  after : Blank i.after

end Item

/-- A member of an object: a key, with its spelling and the blanks around it, and a value. -/
structure Member where
  before : List Char
  spelling : List Char
  key : List Char
  after : List Char
  item : Item

namespace Member

/-- The text of a member. -/
def text (m : Member) : List Char :=
  m.before ++ ('"' :: m.spelling ++ '"' :: (m.after ++ ':' :: m.item.text))

/-- The text of a member, in front of other text, in the order it is read. -/
theorem text_append (m : Member) (s : List Char) :
    m.text ++ s =
      m.before ++ '"' :: (m.spelling ++ '"' :: (m.after ++ ':' :: (m.item.text ++ s))) := by
  simp [text]

/-- The key is what its spelling stands for, with only blanks around it and around the value. -/
structure IsWritten (m : Member) : Prop where
  before : Blank m.before
  spells : Spells m.spelling m.key
  after : Blank m.after
  item : m.item.IsSpaced

end Member

/-- The text of an array, with commas between its items. An empty array can have blanks in it. -/
def arrayText (inside : List Char) (items : List Item) : List Char :=
  '[' :: (inside ++ ([','].intercalate (items.map Item.text) ++ [']']))

/-- The text of an object, with commas between its members. An empty object can have blanks in it.
-/
def objectText (inside : List Char) (members : List Member) : List Char :=
  '{' :: (inside ++ ([','].intercalate (members.map Member.text) ++ ['}']))

/-- A value of any kind. -/
inductive IsValue : List Char → Prop
  | null : IsValue "null".toList
  | true : IsValue "true".toList
  | false : IsValue "false".toList
  | number {t : List Char} (h : IsNumber t) : IsValue t
  | string {t s : List Char} (h : Spells t s) : IsValue ('"' :: (t ++ ['"']))
  | array {inside : List Char} {items : List Item} (hinside : Blank inside)
      (hspaced : ∀ i ∈ items, i.IsSpaced) (hvalue : ∀ i ∈ items, IsValue i.value) :
      IsValue (arrayText inside items)
  | object {inside : List Char} {members : List Member} (hinside : Blank inside)
      (hwritten : ∀ m ∈ members, m.IsWritten) (hvalue : ∀ m ∈ members, IsValue m.item.value) :
      IsValue (objectText inside members)

theorem isValue_toDigits (n : Nat) : IsValue (Nat.toDigits 10 n) := by
  have hnumber := IsNumber.mk (.inl rfl) (isInteger_toDigits n) .none .none
  simpa using IsValue.number hnumber

/-- The text has an object with the given members, and nothing else but blanks. -/
def IsObjectText (text : List Char) (members : List Member) : Prop :=
  ∃ before inside after, Blank before ∧ Blank inside ∧ Blank after ∧
    (∀ m ∈ members, m.IsWritten ∧ IsValue m.item.value) ∧
    text = before ++ (objectText inside members ++ after)

/-- What is read of a value is all of it. -/
theorem IsValue.rest_of_unsigned {v : List Char} {limit n : Nat} (hv : IsValue v) (hb : Blank b)
    (hs : Ends s) (h : unsigned limit (b ++ (v ++ s)) = .ok (n, rest)) : rest = s := by
  cases hv with
  | number hnumber => exact hnumber.rest_of_unsigned hb hs h
  | null | true | false | string | array | object =>
    exact absurd (unsigned_ok hb (by decide) h).1 (by decide)

end SpriteEngine.Json
