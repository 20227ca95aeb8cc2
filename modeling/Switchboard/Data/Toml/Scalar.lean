import Switchboard.Data.Datum
import Switchboard.Data.Json.Reader

/-!
The values of TOML that hold no other values: texts in four kinds of quotes, and numbers.
-/
namespace Switchboard.Toml

/-- Why a document cannot be read. -/
inductive Fault where
  /-- It is not valid. -/
  | malformed
  /-- It holds a decimal integer of more digits than a whole number may have. -/
  | tooLong (digits : Nat)
deriving DecidableEq, Repr

/-- What was read, and what follows it. -/
abbrev Reading (α : Type) := Except Fault (α × List Char)

/-- A reading that can only fail because the document is not valid. -/
def Reading.ofOption {α : Type} : Option (α × List Char) → Reading α
  | some found => .ok found
  | none => .error .malformed

/-- Blanks within a line. -/
def isSpace (c : Char) : Bool :=
  c == ' ' || c == '\t'

/-- What follows the blanks within a line. -/
def skipSpace (cs : List Char) : List Char :=
  cs.dropWhile isSpace

/-- The control characters that stand neither in texts of one line nor in comments. -/
def isControl (c : Char) : Bool :=
  (c.toNat < 0x20 && c != '\t') || c.toNat == 0x7F

/-- The control characters that do not stand in texts of several lines. -/
def isLongControl (c : Char) : Bool :=
  isControl c && c != '\n'

/-- The character that an escape of one letter stands for. -/
def escapedChar? : Char → Option Char
  | 'b' => some '\x08'
  | 't' => some '\t'
  | 'n' => some '\n'
  | 'f' => some '\x0c'
  | 'r' => some '\r'
  | '"' => some '"'
  | '\\' => some '\\'
  | _ => none

/-- The character whose code point is spelled by hexadecimal digits; a surrogate is none. -/
def codePoint? (digits : List Char) : Option Char := do
  let values ← digits.mapM Json.hexValue?
  let n := values.foldl (fun n d => 16 * n + d) 0
  if n < 0xD800 ∨ (0xE000 ≤ n ∧ n < 0x110000) then some (Char.ofNat n) else none

/-- A result with one more character in front. -/
def prepend (c : Char) : Option (List Char × List Char) → Option (List Char × List Char) :=
  Option.map fun (cs, after) => (c :: cs, after)

/-- Reads a text up to the closing double quote on its line. -/
def readBasic : List Char → Option (List Char × List Char)
  | [] => none
  | '"' :: rest => some ([], rest)
  | '\\' :: 'u' :: a :: b :: c :: d :: rest =>
    match codePoint? [a, b, c, d] with
    | none => none
    | some x => prepend x (readBasic rest)
  | '\\' :: 'U' :: a :: b :: c :: d :: e :: f :: g :: h :: rest =>
    match codePoint? [a, b, c, d, e, f, g, h] with
    | none => none
    | some x => prepend x (readBasic rest)
  | '\\' :: e :: rest =>
    match escapedChar? e with
    | none => none
    | some x => prepend x (readBasic rest)
  | c :: rest => if isControl c ∨ c = '\\' then none else prepend c (readBasic rest)

/-- Up to two quotes right after the closing three belong to the text. -/
def readExtraQuotes (mark : Char) : List Char → List Char × List Char
  | [] => ([], [])
  | [a] => if a = mark then ([a], []) else ([], [a])
  | a :: b :: rest =>
    if a = mark then if b = mark then ([a, b], rest) else ([a], b :: rest)
    else ([], a :: b :: rest)

/-- Where the reading of a text of several lines stands: in the text, after a backslash that still
needs the end of its line, or in the blanks that such a backslash removes. -/
inductive Fold where
  | none
  | awaited
  | open
deriving DecidableEq

/-- Reads a text up to the closing three double quotes. -/
def readLongBasic : Fold → List Char → Option (List Char × List Char)
  | _, [] => .none
  | .awaited, c :: rest =>
    if isSpace c then readLongBasic .awaited rest
    else if c = '\n' then readLongBasic .open rest
    else .none
  | .open, ' ' :: rest => readLongBasic .open rest
  | .open, '\t' :: rest => readLongBasic .open rest
  | .open, '\n' :: rest => readLongBasic .open rest
  | _, '"' :: '"' :: '"' :: rest => some (readExtraQuotes '"' rest)
  | _, '\\' :: ' ' :: rest => readLongBasic .awaited rest
  | _, '\\' :: '\t' :: rest => readLongBasic .awaited rest
  | _, '\\' :: '\n' :: rest => readLongBasic .open rest
  | _, '\\' :: 'u' :: a :: b :: c :: d :: rest =>
    match codePoint? [a, b, c, d] with
    | .none => .none
    | some x => prepend x (readLongBasic .none rest)
  | _, '\\' :: 'U' :: a :: b :: c :: d :: e :: f :: g :: h :: rest =>
    match codePoint? [a, b, c, d, e, f, g, h] with
    | .none => .none
    | some x => prepend x (readLongBasic .none rest)
  | _, '\\' :: e :: rest =>
    match escapedChar? e with
    | .none => .none
    | some x => prepend x (readLongBasic .none rest)
  | _, c :: rest =>
    if isLongControl c ∨ c = '\\' then .none else prepend c (readLongBasic .none rest)

/-- Reads a text up to the closing single quote on its line; nothing is escaped. -/
def readLiteral : List Char → Option (List Char × List Char)
  | [] => none
  | '\'' :: rest => some ([], rest)
  | c :: rest => if isControl c then none else prepend c (readLiteral rest)

/-- Reads a text up to the closing three single quotes; nothing is escaped. -/
def readLongLiteral : List Char → Option (List Char × List Char)
  | [] => none
  | '\'' :: '\'' :: '\'' :: rest => some (readExtraQuotes '\'' rest)
  | c :: rest => if isLongControl c then none else prepend c (readLongLiteral rest)

/-- A line feed right after the opening three quotes is no part of the text. -/
def dropFirstNewline : List Char → List Char
  | '\n' :: rest => rest
  | cs => cs

/-- A row of digits in which single underscores may stand between two digits. -/
def digitRow (isDigit : Char → Bool) : List Char → List Char × List Char
  | [] => ([], [])
  | c :: '_' :: d :: rest =>
    if isDigit c ∧ isDigit d then
      let (digits, after) := digitRow isDigit (d :: rest)
      (c :: digits, after)
    else if isDigit c then ([c], '_' :: d :: rest)
    else ([], c :: '_' :: d :: rest)
  | c :: rest =>
    if isDigit c then
      let (digits, after) := digitRow isDigit rest
      (c :: digits, after)
    else ([], c :: rest)

def inBase (base : Nat) (digits : List Char) : Nat :=
  digits.foldl (fun n c => base * n + (Json.hexValue? c).getD 0) 0

/-- The base that the letter after a zero stands for, and the digits of that base. -/
def baseOf? : Char → Option (Nat × (Char → Bool))
  | 'x' => some (16, fun c => (Json.hexValue? c).isSome)
  | 'o' => some (8, fun c => '0' ≤ c && c ≤ '7')
  | 'b' => some (2, fun c => c == '0' || c == '1')
  | _ => none

/-- Reads a whole number in base sixteen, eight or two. -/
def readBased : List Char → Option (Document × List Char)
  | '0' :: letter :: rest => do
    let (base, isDigit) ← baseOf? letter
    match digitRow isDigit rest with
    | ([], _) => none
    | (digits, after) => return (.int (inBase base digits), after)
  | _ => none

/-- Reads the digits in front of the point: a zero, or a row that does not start with one. -/
def readWhole : List Char → List Char × List Char
  | '0' :: rest => (['0'], rest)
  | cs => digitRow Char.isDigit cs

/-- Reads the fraction part of a number, if there is one. -/
def readFraction : List Char → List Char × List Char
  | '.' :: rest =>
    match digitRow Char.isDigit rest with
    | ([], _) => ([], '.' :: rest)
    | (digits, after) => (digits, after)
  | cs => ([], cs)

/-- Reads the exponent of a number, if there is one. -/
def readExponent : List Char → Option Int × List Char
  | [] => (none, [])
  | e :: rest =>
    if e = 'e' ∨ e = 'E' then
      match digitRow Char.isDigit (readSign rest).2 with
      | ([], _) => (none, e :: rest)
      | (digits, after) =>
        let size : Int := inBase 10 digits
        (some (if (readSign rest).1 then -size else size), after)
    else (none, e :: rest)

/-- Reads a decimal number: an integer unless it has a fraction part or an exponent. -/
def readDecimal (cs : List Char) : Reading Document :=
  let (negative, unsigned) := readSign cs
  match readWhole unsigned with
  | ([], _) => .error .malformed
  | (whole, afterWhole) =>
    let (fraction, afterFraction) := readFraction afterWhole
    let (exponent, after) := readExponent afterFraction
    if fraction = [] ∧ exponent = none then
      if wholeNumberDigits < whole.length then .error (.tooLong whole.length)
      else
        let size : Int := inBase 10 whole
        .ok (.int (if negative then -size else size), after)
    else
      let numeral : Numeral :=
        { negative, whole := Json.digitValues whole, fraction := Json.digitValues fraction,
          exponent := exponent.getD 0 }
      .ok (.real (.ofNumeral numeral), after)

/-- Reads the name of an infinity or of the value that is no number. -/
def readNamedNumber (cs : List Char) : Option (Document × List Char) :=
  let (negative, unsigned) := readSign cs
  match unsigned with
  | 'i' :: 'n' :: 'f' :: after => some (.real (.infinity negative), after)
  | 'n' :: 'a' :: 'n' :: after => some (.real .nan, after)
  | _ => none

def readNumber (cs : List Char) : Reading Document :=
  match (readBased cs).or (readNamedNumber cs) with
  | some found => .ok found
  | none => readDecimal cs

end Switchboard.Toml
