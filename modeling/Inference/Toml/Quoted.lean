import Inference.Toml.Character

set_option autoImplicit false
set_option relaxedAutoImplicit false

/-!
# Quoted texts

TOML has four ways to quote a text: between quotation marks, with escapes; between apostrophes,
as it stands; and both over several lines, between three of the marks. This file reads all four
and chooses the one in which a text is written.

## Main definitions

* `Toml.basicBody`, `Toml.literalBody`, `Toml.multiBasicBody`, `Toml.multiLiteralBody` — what
  stands after an opening mark, up to the closing one.
* `Toml.quotedText` — a quoted text in any of the four ways.
* `Toml.Style`, `Toml.styleOf` — the way in which a text is written.
* `Toml.writeQuoted` — a text in quotes.
-/

namespace Inference

namespace Toml

/-! ## Escapes -/

/-- The value of a hexadecimal digit in either case. -/
def hexValue? (c : Char) : Option Nat :=
  if c.isDigit then some (c.toNat - 48)
  else if 'a' ≤ c && c ≤ 'f' then some (c.toNat - 87)
  else if 'A' ≤ c && c ≤ 'F' then some (c.toNat - 55)
  else none

/-- The value of a run of hexadecimal digits, appended to the digits read so far. -/
def hexNumber? : List Char → Nat → Option Nat
  | [], value => some value
  | c :: rest, value =>
    match hexValue? c with
    | some digit => hexNumber? rest (16 * value + digit)
    | none => none

/-- The character with a given hexadecimal number; absent if the number is no character's. -/
def unicodeEscape? (digits : List Char) : Option Char :=
  match hexNumber? digits 0 with
  | some n => if n.isValidChar then some (Char.ofNat n) else none
  | none => none

/-- The character that a letter after a backslash stands for. -/
def letterEscape? (letter : Char) : Option Char :=
  if letter = 'b' then some '\x08'
  else if letter = 't' then some '\t'
  else if letter = 'n' then some '\n'
  else if letter = 'f' then some '\x0c'
  else if letter = 'r' then some '\r'
  else if letter = quote then some quote
  else if letter = backslash then some backslash
  else none

/-- Puts a character in front of what is read after it. -/
def push (c : Char) (read : Option (List Char × List Char)) : Option (List Char × List Char) :=
  read.map fun (text, rest) => (c :: text, rest)

/-! ## Reading -/

/-- The text up to the closing quotation mark, with escapes replaced. -/
def basicBody : List Char → Option (List Char × List Char)
  | [] => none
  | c :: rest =>
    if c = quote then some ([], rest)
    else if c = backslash then
      match rest with
      | [] => none
      | 'u' :: a :: b :: c :: d :: rest =>
        match unicodeEscape? [a, b, c, d] with
        | some char => push char (basicBody rest)
        | none => none
      | 'U' :: a :: b :: c :: d :: e :: f :: g :: h :: rest =>
        match unicodeEscape? [a, b, c, d, e, f, g, h] with
        | some char => push char (basicBody rest)
        | none => none
      | letter :: rest =>
        match letterEscape? letter with
        | some char => push char (basicBody rest)
        | none => none
    else if isForbidden c then none
    else push c (basicBody rest)

/-- The text up to the closing apostrophe, as it stands. -/
def literalBody : List Char → Option (List Char × List Char)
  | [] => none
  | c :: rest =>
    if c = apostrophe then some ([], rest)
    else if isForbidden c then none
    else push c (literalBody rest)

/-- What follows three closing marks: up to two marks in front of them belong to the text. -/
def closing (mark : Char) (rest : List Char) : Option (List Char × List Char) :=
  let more := rest.takeWhile (· = mark)
  if more.length ≤ 2 then some (more, rest.drop more.length) else none

/-- Where a text over several lines stands. -/
inductive LineState where
  /-- In the text. -/
  | within
  /-- After a backslash that must end its line. -/
  | afterBackslash
  /-- After the end of such a line, before the next character that is no blank. -/
  | joining
deriving DecidableEq

/-- The text up to three closing quotation marks, with escapes replaced. A backslash at the end of
a line joins it with the next character that is no blank. -/
def multiBasicBody : LineState → List Char → Option (List Char × List Char)
  | _, [] => none
  | .afterBackslash, c :: rest =>
    if isLineBlank c then multiBasicBody .afterBackslash rest
    else if c = '\n' then multiBasicBody .joining rest
    else if c = '\r' then
      match rest with
      | '\n' :: rest => multiBasicBody .joining rest
      | _ => none
    else none
  | state, c :: rest =>
    if state = .joining && (isLineBlank c || c = '\n') then multiBasicBody .joining rest
    else if c = '\r' then
      match rest with
      | '\n' :: rest =>
        if state = .joining then multiBasicBody .joining rest
        else push '\n' (multiBasicBody .within rest)
      | _ => none
    else if c = '\n' then push '\n' (multiBasicBody .within rest)
    else if c = quote then
      match rest with
      | '\x22' :: '\x22' :: rest => closing quote rest
      | _ => push quote (multiBasicBody .within rest)
    else if c = backslash then
      match rest with
      | [] => none
      | 'u' :: a :: b :: c :: d :: rest =>
        match unicodeEscape? [a, b, c, d] with
        | some char => push char (multiBasicBody .within rest)
        | none => none
      | 'U' :: a :: b :: c :: d :: e :: f :: g :: h :: rest =>
        match unicodeEscape? [a, b, c, d, e, f, g, h] with
        | some char => push char (multiBasicBody .within rest)
        | none => none
      | letter :: rest =>
        match letterEscape? letter with
        | some char => push char (multiBasicBody .within rest)
        | none => multiBasicBody .afterBackslash (letter :: rest)
    else if isForbidden c then none
    else push c (multiBasicBody .within rest)

/-- The text up to three closing apostrophes, as it stands. -/
def multiLiteralBody : List Char → Option (List Char × List Char)
  | [] => none
  | c :: rest =>
    if c = '\r' then
      match rest with
      | '\n' :: rest => push '\n' (multiLiteralBody rest)
      | _ => none
    else if c = '\n' then push '\n' (multiLiteralBody rest)
    else if c = apostrophe then
      match rest with
      | '\x27' :: '\x27' :: rest => closing apostrophe rest
      | _ => push apostrophe (multiLiteralBody rest)
    else if isForbidden c then none
    else push c (multiLiteralBody rest)

/-- A text without the line end it starts with, if it starts with one. -/
def dropNewline (text : List Char) : List Char :=
  (newline? text).getD text

/-- A quoted text on one line. -/
def lineText : Reader (List Char)
  | '\x22' :: rest => basicBody rest
  | '\x27' :: rest => literalBody rest
  | _ => none

/-- A quoted text, on one line or over several. A line end right after three opening marks does
not belong to the text. -/
def quotedText : Reader (List Char)
  | '\x22' :: '\x22' :: '\x22' :: rest => multiBasicBody .within (dropNewline rest)
  | '\x27' :: '\x27' :: '\x27' :: rest => multiLiteralBody (dropNewline rest)
  | text => lineText text

/-! ## Writing -/

/-- The ways to quote a text. -/
inductive Style where
  | basic
  | literal
  | multiBasic
  | multiLiteral
deriving DecidableEq

/-- The length of the longest run of a character in a text that comes after `run` of them. -/
def longestRun (mark : Char) (run : Nat) : List Char → Nat
  | [] => run
  | c :: rest =>
    if c = mark then longestRun mark (run + 1) rest else max run (longestRun mark 0 rest)

/-- A character that can only be written as an escape. -/
def needsEscape (c : Char) : Bool :=
  isForbidden c && c != '\n'

/-- The way in which a text is written. Escapes are avoided where possible, then several lines,
then apostrophes. -/
def styleOf (text : List Char) : Style :=
  let escapes := text.any needsEscape
  let lines := text.contains '\n'
  let backslashes := text.contains backslash
  let quotes := longestRun quote 0 text
  let apostrophes := longestRun apostrophe 0 text
  if !escapes && !backslashes && quotes = 0 && !lines then .basic
  else if !escapes && apostrophes = 0 && !lines then .literal
  else if !escapes && !backslashes && quotes ≤ 2 then .multiBasic
  else if !escapes && apostrophes ≤ 2 then .multiLiteral
  else if lines then .multiBasic
  else .basic

/-- An upper-case hexadecimal digit. -/
def upperHexDigit (n : Nat) : Char :=
  if n < 10 then Char.ofNat (48 + n) else Char.ofNat (55 + n)

/-- The escape of a control character. -/
def controlEscape (c : Char) : List Char :=
  if c = '\x08' then [backslash, 'b']
  else if c = '\t' then [backslash, 't']
  else if c = '\n' then [backslash, 'n']
  else if c = '\x0c' then [backslash, 'f']
  else if c = '\r' then [backslash, 'r']
  else [backslash, 'u', '0', '0', upperHexDigit (c.toNat / 16), upperHexDigit (c.toNat % 16)]

/-- A text between quotation marks that comes after `run` of them. Over several lines, line ends
and up to two quotation marks in a row stand as they are. -/
def writeBasicBody (lines : Bool) (run : Nat) : List Char → List Char
  | [] => []
  | c :: rest =>
    if c = quote then
      if lines && run < 2 then c :: writeBasicBody lines (run + 1) rest
      else backslash :: quote :: writeBasicBody lines 0 rest
    else if c = backslash then backslash :: backslash :: writeBasicBody lines 0 rest
    else if lines && c = '\n' then c :: writeBasicBody lines 0 rest
    else if isControl c then controlEscape c ++ writeBasicBody lines 0 rest
    else c :: writeBasicBody lines 0 rest

/-- A text in quotes, written in a given way. A text with line ends starts on a line of its
own. -/
def writeStyled (style : Style) (text : List Char) : List Char :=
  let start := if text.contains '\n' then ['\n'] else []
  let quotes := List.replicate 3 quote
  let apostrophes := List.replicate 3 apostrophe
  match style with
  | .basic => quote :: writeBasicBody false 0 text ++ [quote]
  | .literal => apostrophe :: text ++ [apostrophe]
  | .multiBasic => quotes ++ start ++ writeBasicBody true 0 text ++ quotes
  | .multiLiteral => apostrophes ++ start ++ text ++ apostrophes

/-- A text in quotes. -/
def writeQuoted (text : List Char) : List Char :=
  writeStyled (styleOf text) text

end Toml

end Inference
