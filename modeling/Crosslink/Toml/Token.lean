import Crosslink.Text.Scan

/-!
# TOML tokens

The words of a configuration file: quoted texts in their four forms, bare
runs, punctuation and line ends. Comments count as blanks. Texts are
already freed from quotes and escapes.
-/

namespace Crosslink.Toml

/-- The two kinds of brackets. -/
inductive Bracket where
  | square
  | brace
deriving Repr, DecidableEq

inductive Token where
  | blank (c : Char)
  | lineEnd
  | bare (run : List Char)
  | dot
  | equals
  | comma
  | opening (bracket : Bracket)
  | closing (bracket : Bracket)
  | text (value : List Char) (multiline : Bool)
deriving Repr, DecidableEq

/-! ## Characters -/

/-- Characters that may stand in comments and texts as they are. -/
def isPlain (c : Char) : Bool :=
  c == '\t' || (0x20 ≤ c.toNat && c.toNat != 0x7f)

/-- Characters of a bare run: those of bare keys, numbers and dates, but
not the dot. -/
def isBare (c : Char) : Bool :=
  c.isAlphanum || c == '_' || c == '-' || c == '+' || c == ':'

/-- The value of a hexadecimal digit. -/
def hexValue? (c : Char) : Option Nat :=
  if c.isDigit then some (c.toNat - '0'.toNat)
  else if 'a' ≤ c && c ≤ 'f' then some (c.toNat - 'a'.toNat + 10)
  else if 'A' ≤ c && c ≤ 'F' then some (c.toNat - 'A'.toNat + 10)
  else none

/-- The number written by hexadecimal digits. -/
def hexNumber? : List Char → (value : Nat) → Option Nat
  | [], value => some value
  | c :: cs, value =>
    match hexValue? c with
    | some digit => hexNumber? cs (16 * value + digit)
    | none => none

/-! ## Texts

What may stand between the quotes, piece by piece; no piece is the closing
quote. -/

/-- The result of scanning a part of a text. -/
abbrev Scanned := Option (Option (List Char) × List Char)

/-- The character with the number written by the first `count` digits. -/
def scanCodePoint (count : Nat) (cs : List Char) : Scanned :=
  match hexNumber? (cs.take count) 0 with
  | some n =>
    if (cs.take count).length = count ∧ n.isValidChar then
      some (some [Char.ofNat n], cs.drop count)
    else none
  | none => none

/-- An escape, after its backslash. -/
def scanEscape : List Char → Scanned
  | 'b' :: cs => some (some ['\x08'], cs)
  | 't' :: cs => some (some ['\t'], cs)
  | 'n' :: cs => some (some ['\n'], cs)
  | 'f' :: cs => some (some ['\x0c'], cs)
  | 'r' :: cs => some (some ['\r'], cs)
  | '"' :: cs => some (some ['"'], cs)
  | '\\' :: cs => some (some ['\\'], cs)
  | 'u' :: cs => scanCodePoint 4 cs
  | 'U' :: cs => scanCodePoint 8 cs
  | _ => none

/-- A character that stands for itself. -/
def scanPlain : List Char → Scanned
  | c :: cs => if isPlain c then some (some [c], cs) else none
  | [] => none

/-- A part of a text in double quotes. -/
def scanBasic : List Char → Scanned
  | '"' :: cs => some (none, cs)
  | '\\' :: cs => scanEscape cs
  | cs => scanPlain cs

/-- A part of a text in single quotes. -/
def scanLiteral : List Char → Scanned
  | '\'' :: cs => some (none, cs)
  | cs => scanPlain cs

/-- Quotes inside or at the end of a text in triple quotes. Up to two of
them may stand right before the closing ones. -/
def scanQuotes (quote : Char) (cs : List Char) : Scanned :=
  let count := (cs.takeWhile (· = quote)).length
  if count = 3 then some (none, cs.drop 3)
  else if count < 6 then some (some [quote], cs.drop 1)
  else none

def dropLineSpace : List Char → List Char
  | ' ' :: cs => dropLineSpace cs
  | '\t' :: cs => dropLineSpace cs
  | '\n' :: cs => dropLineSpace cs
  | '\r' :: '\n' :: cs => dropLineSpace cs
  | cs => cs

/-- A backslash at the end of a line: what follows it up to the next
visible character is left out. -/
def scanLineJoin (cs : List Char) : Scanned :=
  match cs.dropWhile fun c => c == ' ' || c == '\t' with
  | '\n' :: cs => some (some [], dropLineSpace cs)
  | '\r' :: '\n' :: cs => some (some [], dropLineSpace cs)
  | _ => none

/-- A part of a text in triple double quotes. -/
def scanMultilineBasic : List Char → Scanned
  | '"' :: cs => scanQuotes '"' ('"' :: cs)
  | '\\' :: cs =>
    match scanEscape cs with
    | some piece => some piece
    | none => scanLineJoin cs
  | '\r' :: '\n' :: cs => some (some ['\n'], cs)
  | '\n' :: cs => some (some ['\n'], cs)
  | cs => scanPlain cs

/-- A part of a text in triple single quotes. -/
def scanMultilineLiteral : List Char → Scanned
  | '\'' :: cs => scanQuotes '\'' ('\'' :: cs)
  | '\r' :: '\n' :: cs => some (some ['\n'], cs)
  | '\n' :: cs => some (some ['\n'], cs)
  | cs => scanPlain cs

/-- Leaves out the line end right after opening triple quotes. -/
def skipLineEnd : List Char → List Char
  | '\n' :: cs => cs
  | '\r' :: '\n' :: cs => cs
  | cs => cs

/-- Reads a text up to its closing quote. -/
def scanText (multiline : Bool) (scan : List Char → Scanned)
    (cs : List Char) : Option (Option Token × List Char) :=
  (Text.scanUntil scan cs).map fun (pieces, rest) =>
    (some (.text pieces.flatten multiline), rest)

/-! ## Tokens -/

/-- The token at the start of a text. -/
def scanToken : List Char → Option (Option Token × List Char)
  | [] => some (none, [])
  | '\n' :: cs => some (some .lineEnd, cs)
  | '\r' :: '\n' :: cs => some (some .lineEnd, cs)
  | '"' :: '"' :: '"' :: cs => scanText true scanMultilineBasic (skipLineEnd cs)
  | '"' :: cs => scanText false scanBasic cs
  | '\'' :: '\'' :: '\'' :: cs =>
    scanText true scanMultilineLiteral (skipLineEnd cs)
  | '\'' :: cs => scanText false scanLiteral cs
  | c :: cs =>
    if c = ' ' ∨ c = '\t' then some (some (.blank c), cs)
    else if c = '#' then some (some (.blank c), cs.dropWhile isPlain)
    else if c = '.' then some (some .dot, cs)
    else if c = '=' then some (some .equals, cs)
    else if c = ',' then some (some .comma, cs)
    else if c = '[' then some (some (.opening .square), cs)
    else if c = ']' then some (some (.closing .square), cs)
    else if c = '\x7b' then some (some (.opening .brace), cs)
    else if c = '\x7d' then some (some (.closing .brace), cs)
    else if isBare c then
      some (some (.bare (c :: cs.takeWhile isBare)), cs.dropWhile isBare)
    else none

/-- The tokens of a file. A byte order mark in front is left out. -/
def tokens (cs : List Char) : Option (List Token) :=
  let cs := if cs.head? = some '\ufeff' then cs.drop 1 else cs
  (Text.scanUntil scanToken cs).map (·.1)

end Crosslink.Toml
