import Switchboard.Data.Datum

/-!
Reading JSON text. Beyond the standard the names of the infinities and of the value that is no
number are read; of several fields with one key the last value counts.
-/
namespace Switchboard.Json

/-- The blanks between the parts of a text. -/
def isSpace (c : Char) : Bool :=
  c == ' ' || c == '\n' || c == '\t' || c == '\r'

/-- What follows the blanks. -/
def skipSpace (cs : List Char) : List Char :=
  cs.dropWhile isSpace

/-- The value of a hexadecimal digit. -/
def hexValue? (c : Char) : Option Nat :=
  if '0' ≤ c ∧ c ≤ '9' then some (c.toNat - '0'.toNat)
  else if 'a' ≤ c ∧ c ≤ 'f' then some (c.toNat - 'a'.toNat + 10)
  else if 'A' ≤ c ∧ c ≤ 'F' then some (c.toNat - 'A'.toNat + 10)
  else none

/-- The value of four hexadecimal digits. -/
def unitValue? (a b c d : Char) : Option Nat := do
  return ((((← hexValue? a) * 16 + (← hexValue? b)) * 16 + (← hexValue? c)) * 16 + (← hexValue? d))

/-- A piece of a text between quotes: a character, or a code unit that was written as an escape. -/
inductive Piece where
  | char (c : Char)
  | unit (n : Nat)

/-- The characters that the pieces spell. Two escapes that form a pair of surrogates spell one
character; a surrogate without its partner stands for no character and is replaced. -/
def joinPieces : List Piece → List Char
  | [] => []
  | .char c :: rest => c :: joinPieces rest
  | .unit high :: .unit low :: rest =>
    if 0xD800 ≤ high ∧ high < 0xDC00 ∧ 0xDC00 ≤ low ∧ low < 0xE000 then
      Char.ofNat (0x10000 + (high - 0xD800) * 0x400 + (low - 0xDC00)) :: joinPieces rest
    else unitChar high :: joinPieces (.unit low :: rest)
  | .unit n :: rest => unitChar n :: joinPieces rest
where
  /-- The character for a code unit that has no partner. -/
  unitChar (n : Nat) : Char :=
    if 0xD800 ≤ n ∧ n < 0xE000 then '\uFFFD' else Char.ofNat n

/-- The character that an escape of one letter stands for. -/
def escapedChar? : Char → Option Char
  | '"' => some '"'
  | '\\' => some '\\'
  | '/' => some '/'
  | 'b' => some '\x08'
  | 'f' => some '\x0c'
  | 'n' => some '\n'
  | 'r' => some '\r'
  | 't' => some '\t'
  | _ => none

/-- Reads the pieces of a text up to its closing quote; control characters must be escaped. -/
def readPieces : List Char → Option (List Piece × List Char)
  | [] => none
  | '"' :: rest => some ([], rest)
  | '\\' :: 'u' :: a :: b :: c :: d :: rest =>
    match unitValue? a b c d with
    | none => none
    | some n => (readPieces rest).map fun (pieces, after) => (.unit n :: pieces, after)
  | '\\' :: e :: rest =>
    match escapedChar? e with
    | none => none
    | some c => (readPieces rest).map fun (pieces, after) => (.char c :: pieces, after)
  | c :: rest =>
    if c.toNat < 0x20 ∨ c = '\\' then none
    else (readPieces rest).map fun (pieces, after) => (.char c :: pieces, after)

/-- Reads a text up to its closing quote. -/
def readText (cs : List Char) : Option (String × List Char) :=
  (readPieces cs).map fun (pieces, after) => (String.ofList (joinPieces pieces), after)

/-- The longest row of ASCII digits that starts a text. -/
def asciiDigits (cs : List Char) : List Char × List Char :=
  (cs.takeWhile Char.isDigit, cs.dropWhile Char.isDigit)

def digitValues (cs : List Char) : List Nat :=
  cs.map fun c => c.toNat - '0'.toNat

/-- Reads the fraction part of a number, if there is one. -/
def readFraction : List Char → List Char × List Char
  | '.' :: rest =>
    match asciiDigits rest with
    | ([], _) => ([], '.' :: rest)
    | (digits, after) => (digits, after)
  | cs => ([], cs)

/-- Reads the exponent of a number, if there is one. -/
def readExponent : List Char → Option Int × List Char
  | [] => (none, [])
  | e :: rest =>
    if e = 'e' ∨ e = 'E' then
      match asciiDigits (readSign rest).2 with
      | ([], _) => (none, e :: rest)
      | (digits, after) =>
        let size : Int := digitsValue (digitValues digits)
        (some (if (readSign rest).1 then -size else size), after)
    else (none, e :: rest)

/-- Reads the digits in front of the point: a zero, or a row that does not start with one. -/
def readWhole : List Char → List Char × List Char
  | '0' :: rest => (['0'], rest)
  | cs => asciiDigits cs

/-- Reads a number behind its sign: an integer unless it has a fraction part or an exponent. -/
def readUnsigned (negative : Bool) (cs : List Char) : Option (Document × List Char) :=
  match readWhole cs with
  | ([], _) => none
  | (whole, afterWhole) =>
    let (fraction, afterFraction) := readFraction afterWhole
    let (exponent, after) := readExponent afterFraction
    if fraction = [] ∧ exponent = none then
      if whole.length ≤ wholeNumberDigits then
        let size : Int := digitsValue (digitValues whole)
        some (.int (if negative then -size else size), after)
      else none
    else
      let numeral : Numeral :=
        { negative, whole := digitValues whole, fraction := digitValues fraction,
          exponent := exponent.getD 0 }
      some (.real (.ofNumeral numeral), after)

/-- Reads a number, which may be negative. -/
def readNumber : List Char → Option (Document × List Char)
  | '-' :: rest => readUnsigned true rest
  | cs => readUnsigned false cs

mutual

/-- Reads a value that starts at the first character, with `fuel` levels and separators left. -/
def readValue : Nat → List Char → Option (Document × List Char)
  | 0, _ => none
  | _ + 1, 'n' :: 'u' :: 'l' :: 'l' :: rest => some (.null, rest)
  | _ + 1, 't' :: 'r' :: 'u' :: 'e' :: rest => some (.bool true, rest)
  | _ + 1, 'f' :: 'a' :: 'l' :: 's' :: 'e' :: rest => some (.bool false, rest)
  | _ + 1, 'N' :: 'a' :: 'N' :: rest => some (.real .nan, rest)
  | _ + 1, 'I' :: 'n' :: 'f' :: 'i' :: 'n' :: 'i' :: 't' :: 'y' :: rest =>
    some (.real (.infinity false), rest)
  | _ + 1, '-' :: 'I' :: 'n' :: 'f' :: 'i' :: 'n' :: 'i' :: 't' :: 'y' :: rest =>
    some (.real (.infinity true), rest)
  | _ + 1, '"' :: rest =>
    (readText rest).map fun (s, after) => (.text s, after)
  | fuel + 1, '[' :: rest =>
    match skipSpace rest with
    | ']' :: after => some (.list [], after)
    | body => (readItems fuel body).map fun (items, after) => (.list items, after)
  | fuel + 1, '{' :: rest =>
    match skipSpace rest with
    | '}' :: after => some (.table [], after)
    | body =>
      (readFields fuel body).map fun (fields, after) => (.table (Table.ofList fields), after)
  | _ + 1, cs => readNumber cs

def readItems : Nat → List Char → Option (List Document × List Char)
  | 0, _ => none
  | fuel + 1, cs =>
    match readValue fuel cs with
    | none => none
    | some (item, rest) =>
      match skipSpace rest with
      | ']' :: after => some ([item], after)
      | ',' :: more =>
        (readItems fuel (skipSpace more)).map fun (items, after) => (item :: items, after)
      | _ => none

/-- Reads the fields of a table up to its closing brace. -/
def readFields : Nat → List Char → Option (List (String × Document) × List Char)
  | fuel + 1, '"' :: rest =>
    match readText rest with
    | none => none
    | some (key, afterKey) =>
      match skipSpace afterKey with
      | ':' :: afterColon =>
        match readValue fuel (skipSpace afterColon) with
        | none => none
        | some (value, afterValue) =>
          let field := (key, value)
          match skipSpace afterValue with
          | '}' :: after => some ([field], after)
          | ',' :: more =>
            (readFields fuel (skipSpace more)).map fun (fields, after) => (field :: fields, after)
          | _ => none
      | _ => none
  | _, _ => none

end

/-- Reads a whole text as one document. Every level and every separator takes a character, so the
length of the text is fuel enough. -/
def parse? (s : String) : Option Document :=
  match readValue (s.length + 1) (skipSpace s.toList) with
  | some (d, rest) => if skipSpace rest = [] then some d else none
  | none => none

end Switchboard.Json
