import SourceEvolution.Json.Numeral
import SourceEvolution.Text.Hexadecimal

/-!
# JSON tokens

Between the characters of a JSON text and the value it stands for lie its tokens: brackets, commas,
colons, names, numbers and strings. This module writes tokens as characters and cuts characters into
tokens.

* `Token` and `Token.render`: a token and its text. In a string, the quotation mark, the backslash
  and the control characters are escaped, and nothing else is.
* `Token.scan`: the tokens of a text. Blanks between tokens are skipped; a text that is cut off in a
  token, a number with a leading zero and a raw control character in a string are refused. A string
  that escapes half of a surrogate pair is a token of its own, since it stands for no text.
-/

namespace SourceEvolution

/-- A token of a JSON text. -/
inductive Token where
  | openArray
  | closeArray
  | openObject
  | closeObject
  | comma
  | colon
  | null
  | bool (value : Bool)
  /-- A number without sign, fraction and exponent. -/
  | natural (value : Nat)
  /-- Any other number, as it is written. -/
  | number (literal : String)
  | string (value : String)
  /-- A string with half of a surrogate pair, which stands for no text. -/
  | brokenString
deriving DecidableEq, Repr

namespace Token

/-! ## Writing -/

/-- A character as it is written in a string. -/
def escapeChar (c : Char) : List Char :=
  if c = '\x22' then ['\\', '\x22']
  else if c = '\\' then ['\\', '\\']
  else if c = '\x08' then ['\\', 'b']
  else if c = '\x0c' then ['\\', 'f']
  else if c = '\n' then ['\\', 'n']
  else if c = '\r' then ['\\', 'r']
  else if c = '\t' then ['\\', 't']
  else if c.toNat < 0x20 then
    ['\\', 'u', '0', '0'] ++ [c.toNat / 16, c.toNat % 16].map Hexadecimal.digitChar
  else [c]

/-- A string between quotation marks. -/
def quote (s : String) : List Char :=
  '\x22' :: (s.toList.flatMap escapeChar ++ ['\x22'])

/-- The text of a token. -/
def render : Token → List Char
  | openArray => ['[']
  | closeArray => [']']
  | openObject => ['\x7b']
  | closeObject => ['\x7d']
  | comma => [',']
  | colon => [':']
  | null => ['n', 'u', 'l', 'l']
  | bool true => ['t', 'r', 'u', 'e']
  | bool false => ['f', 'a', 'l', 's', 'e']
  | natural value => Decimal.digits value
  | number literal => literal.toList
  | string value => quote value
  | brokenString => ['\x22', '\\', 'u', 'd', '8', '0', '0', '\x22']

/-! ## Strings -/

/-- The number that a text starts with, written in four hexadecimal digits. -/
def hexWord? : List Char → Option Nat
  | a :: b :: c :: d :: _ => Hexadecimal.value? [a, b, c, d]
  | _ => none

/-- The character beyond the first plane that two halves of a surrogate pair stand for. -/
def joined (high low : Nat) : Char :=
  Char.ofNat (0x10000 + (high - 0xD800) * 0x400 + (low - 0xDC00))

/-- The second half of a surrogate pair, if a text starts with its escape. -/
def lowHalf? : List Char → Option Nat
  | '\\' :: 'u' :: cs => (hexWord? cs).filter fun low => 0xDC00 ≤ low ∧ low < 0xE000
  | _ => none

/-- The character of an escape by number, read after `\u`, and how many characters it takes. A
character beyond the first plane is written as two numbers, each with its own `\u`; one of them
alone stands for no character. -/
def codePoint? (cs : List Char) : Option (Option Char × Nat) := do
  let unit ← hexWord? cs
  if 0xD800 ≤ unit ∧ unit < 0xE000 then
    match lowHalf? (cs.drop 4) with
    | some low => if unit < 0xDC00 then some (some (joined unit low), 10) else some (none, 4)
    | none => some (none, 4)
  else some (some (Char.ofNat unit), 4)

/-- The character of an escape, read after its backslash, and how many characters it takes. -/
def escaped? : List Char → Option (Option Char × Nat)
  | [] => none
  | c :: cs =>
    if c = '\x22' then some ('\x22', 1)
    else if c = '\\' then some ('\\', 1)
    else if c = '/' then some ('/', 1)
    else if c = 'b' then some ('\x08', 1)
    else if c = 'f' then some ('\x0c', 1)
    else if c = 'n' then some ('\n', 1)
    else if c = 'r' then some ('\r', 1)
    else if c = 't' then some ('\t', 1)
    else if c = 'u' then (codePoint? cs).map fun (point, used) => (point, used + 1)
    else none

/-- Reads a string from behind its opening quotation mark; gives its characters and the text behind
its closing one. Half of a surrogate pair is no character. -/
def scanString : List Char → Option (List (Option Char) × List Char)
  | [] => none
  | c :: cs =>
    if c = '\x22' then some ([], cs)
    else if c = '\\' then do
      let (point, used) ← escaped? cs
      let (s, rest) ← scanString (cs.drop used)
      return (point :: s, rest)
    else if c.toNat < 0x20 then none
    else do
      let (s, rest) ← scanString cs
      return (some c :: s, rest)
termination_by cs => cs.length
decreasing_by
  · simp only [List.length_drop, List.length_cons]; omega
  · simp

/-- Reading a string uses up part of the text. -/
theorem length_lt_of_scanString {cs rest : List Char} {s : List (Option Char)}
    (h : scanString cs = some (s, rest)) : rest.length < cs.length := by
  fun_induction scanString cs generalizing s with
  | case1 => simp at h
  | case2 cs =>
    obtain ⟨-, rfl⟩ : [] = s ∧ cs = rest := by simpa using h
    simp
  | case3 cs hc ih =>
    simp only [Option.bind_eq_bind, Option.bind_eq_some_iff, Prod.exists] at h
    obtain ⟨point, used, -, t, r, ht, hr⟩ := h
    obtain ⟨-, rfl⟩ : point :: t = s ∧ r = rest := by simpa using hr
    have := ih _ ht
    simp only [List.length_drop, List.length_cons] at this ⊢
    omega
  | case4 => simp at h
  | case5 c cs h1 h2 h3 ih =>
    simp only [Option.bind_eq_bind, Option.bind_eq_some_iff, Prod.exists] at h
    obtain ⟨t, r, ht, hr⟩ := h
    obtain ⟨-, rfl⟩ : some c :: t = s ∧ r = rest := by simpa using hr
    have := ih ht
    simp only [List.length_cons]
    omega

/-- The token of a string with the given characters. -/
def ofChars (chars : List (Option Char)) : Token :=
  match chars.mapM id with
  | some cs => .string (String.ofList cs)
  | none => .brokenString

/-! ## Numbers -/

/-- The token of a number. -/
def numeral? (cs : List Char) : Option Token :=
  if Numeral.isWhole cs then some (.natural (Decimal.value cs))
  else if Numeral.isNumber cs then some (.number (String.ofList cs))
  else none

/-! ## Texts -/

/-- The token of a word. -/
def word? (cs : List Char) : Option Token :=
  [null, bool true, bool false].find? fun token => token.render == cs

/-- The token of a single character. -/
def mark? (c : Char) : Option Token :=
  [openArray, closeArray, openObject, closeObject, comma, colon].find? fun token =>
    token.render == [c]

/-- Reads the longest run of characters of a class as one token; gives the text behind it. -/
def scanRun (p : Char → Bool) (read : List Char → Option Token) (cs : List Char) :
    Option (Token × List Char) :=
  (read (cs.takeWhile p)).map fun token => (token, cs.dropWhile p)

/-- Reads one token; gives the text behind it. -/
def scanToken : List Char → Option (Token × List Char)
  | [] => none
  | c :: cs =>
    match mark? c with
    | some token => some (token, cs)
    | none =>
      if c = '\x22' then (scanString cs).map fun (s, rest) => (ofChars s, rest)
      else if c.isAlpha then scanRun Char.isAlpha word? (c :: cs)
      else scanRun Numeral.isNumberChar numeral? (c :: cs)

/-- The blanks that may stand between tokens. -/
def isSpace (c : Char) : Bool :=
  c == ' ' || c == '\t' || c == '\n' || c == '\r'

/-- Reading a run uses up part of the text, if nothing is read from an empty run. -/
theorem length_lt_of_scanRun {p : Char → Bool} {read : List Char → Option Token}
    {cs rest : List Char} {token : Token} (hread : read [] = none)
    (h : scanRun p read cs = some (token, rest)) : rest.length < cs.length := by
  obtain ⟨found, hfound, heq⟩ := Option.map_eq_some_iff.1 h
  obtain ⟨-, rfl⟩ := Prod.mk.inj heq
  have hpos : 0 < (cs.takeWhile p).length := by
    cases hrun : cs.takeWhile p with
    | nil => simp [hrun, hread] at hfound
    | cons => simp
  have hsum : (cs.takeWhile p).length + (cs.dropWhile p).length = cs.length := by
    rw [← List.length_append, List.takeWhile_append_dropWhile]
  omega

/-- Reading a token uses up part of the text. -/
theorem length_lt_of_scanToken {cs rest : List Char} {token : Token}
    (h : scanToken cs = some (token, rest)) : rest.length < cs.length := by
  cases cs with
  | nil => simp [scanToken] at h
  | cons c cs =>
    simp only [scanToken] at h
    split at h
    · obtain ⟨-, rfl⟩ := Prod.mk.inj (Option.some.inj h)
      exact Nat.lt_succ_self _
    split at h
    · obtain ⟨⟨s, r⟩, hs, hr⟩ := Option.map_eq_some_iff.1 h
      obtain ⟨-, rfl⟩ := Prod.mk.inj hr
      exact Nat.lt_succ_of_lt (length_lt_of_scanString hs)
    split at h
    · exact length_lt_of_scanRun rfl h
    · exact length_lt_of_scanRun rfl h

/-- The tokens of a text. -/
def scan : List Char → Option (List Token)
  | [] => some []
  | c :: cs =>
    if isSpace c then scan cs
    else match _h : scanToken (c :: cs) with
      | none => none
      | some (token, rest) => (scan rest).map (token :: ·)
termination_by cs => cs.length
decreasing_by
  · simp
  · exact length_lt_of_scanToken _h

end Token

end SourceEvolution
