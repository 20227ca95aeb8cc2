import Switchboard.Data.Toml.Moment

/-!
Keys, arrays and inline tables of TOML.
-/
namespace Switchboard.Toml

/-- The keys that lead to a value, outermost first. -/
abbrev KeyPath := List String

/-- The characters of a key without quotes. -/
def isBareKeyChar (c : Char) : Bool :=
  c.isAlphanum || c == '-' || c == '_'

/-- Reads one key: a row of plain characters, or a text of one line in quotes. -/
def readSimpleKey (cs : List Char) : Option (String × List Char) :=
  match cs with
  | '"' :: rest => (readBasic rest).map fun (key, after) => (String.ofList key, after)
  | '\'' :: rest => (readLiteral rest).map fun (key, after) => (String.ofList key, after)
  | _ =>
    match cs.takeWhile isBareKeyChar with
    | [] => none
    | key => some (String.ofList key, cs.dropWhile isBareKeyChar)

/-- Reads keys with dots between them, and the blanks after the last; `fuel` keys are left. -/
def readKeyWithin : Nat → List Char → Option (KeyPath × List Char)
  | 0, _ => none
  | fuel + 1, cs =>
    match readSimpleKey cs with
    | none => none
    | some (key, afterKey) =>
      match skipSpace afterKey with
      | '.' :: more =>
        (readKeyWithin fuel (skipSpace more)).map fun (keys, after) => (key :: keys, after)
      | after => some ([key], after)

/-- Reads keys with dots between them, and the blanks after the last. -/
def readKey (cs : List Char) : Option (KeyPath × List Char) :=
  readKeyWithin cs.length cs

/-- What follows blanks, line feeds and comments inside an array. -/
def skipLines (comment : Bool) : List Char → Option (List Char)
  | [] => some []
  | c :: rest =>
    if comment then
      if c = '\n' then skipLines false rest
      else if isControl c then none
      else skipLines true rest
    else if isSpace c ∨ c = '\n' then skipLines false rest
    else if c = '#' then skipLines true rest
    else some (c :: rest)

/-- Changes the table at the end of a path, making the tables on the way that are missing. A list on
the way stands for its last item, if `lists` admits that; no other value can be on the way. -/
def alter (lists : Bool) (path : KeyPath)
    (f : Table Document → Option (Table Document)) (t : Table Document) :
    Option (Table Document) :=
  match path with
  | [] => f t
  | key :: keys =>
    match t.get? key with
    | none => (alter lists keys f []).map fun inner => t.insert key (.table inner)
    | some (.table fields) =>
      (alter lists keys f fields).map fun inner => t.insert key (.table inner)
    | some (.list items) =>
      match lists, items.getLast? with
      | true, some (.table fields) =>
        (alter lists keys f fields).map fun inner =>
          t.insert key (.list (items.dropLast ++ [.table inner]))
      | _, _ => none
    | some _ => none

def setNew (key : String) (value : Document) (t : Table Document) : Option (Table Document) :=
  if t.contains key then none else some (t.insert key value)

/-- The keys in front of the last one. -/
def pathTo (path : KeyPath) : KeyPath :=
  path.dropLast

def lastKey (path : KeyPath) : String :=
  path.getLast?.getD ""

/-- Whether a path lies at or below one of the given paths. -/
def isBelow (paths : List KeyPath) (path : KeyPath) : Bool :=
  paths.any fun above => above.isPrefixOf path

/-- Whether a value holds others. -/
def isContainer : Document → Bool
  | .list _ | .table _ => true
  | _ => false

def textOf (found : Option (List Char × List Char)) : Reading Document :=
  (Reading.ofOption found).map fun (cs, after) => (.text (String.ofList cs), after)

mutual

/-- Reads a value, with `fuel` levels and separators left. -/
def readValue : Nat → List Char → Reading Document
  | 0, _ => .error .malformed
  | _ + 1, '"' :: '"' :: '"' :: rest => textOf (readLongBasic .none (dropFirstNewline rest))
  | _ + 1, '"' :: rest => textOf (readBasic rest)
  | _ + 1, '\'' :: '\'' :: '\'' :: rest => textOf (readLongLiteral (dropFirstNewline rest))
  | _ + 1, '\'' :: rest => textOf (readLiteral rest)
  | _ + 1, 't' :: 'r' :: 'u' :: 'e' :: rest => .ok (.bool true, rest)
  | _ + 1, 'f' :: 'a' :: 'l' :: 's' :: 'e' :: rest => .ok (.bool false, rest)
  | fuel + 1, '[' :: rest => (readItems fuel rest).map fun (items, after) => (.list items, after)
  | fuel + 1, '{' :: rest =>
    match skipSpace rest with
    | '}' :: after => .ok (.table [], after)
    | body => (readFields fuel body [] []).map fun (fields, after) => (.table fields, after)
  | _ + 1, cs => (readMoment? cs).getD (readNumber cs)

/-- Reads the items of an array up to its closing bracket; a comma may follow the last one. -/
def readItems : Nat → List Char → Reading (List Document)
  | 0, _ => .error .malformed
  | fuel + 1, cs =>
    match skipLines false cs with
    | none => .error .malformed
    | some (']' :: after) => .ok ([], after)
    | some body =>
      match readValue fuel body with
      | .error fault => .error fault
      | .ok (item, rest) =>
        match skipLines false rest with
        | some (']' :: after) => .ok ([item], after)
        | some (',' :: more) =>
          (readItems fuel more).map fun (items, after) => (item :: items, after)
        | _ => .error .malformed

/-- Reads the fields of an inline table up to its closing brace. `frozen` holds the keys whose
values are finished: nothing can be put below them. -/
def readFields : Nat → List Char → Table Document → List KeyPath → Reading (Table Document)
  | 0, _, _, _ => .error .malformed
  | fuel + 1, cs, fields, frozen =>
    match readKey cs with
    | some (path, '=' :: afterEquals) =>
      match readValue fuel (skipSpace afterEquals) with
      | .error fault => .error fault
      | .ok (value, rest) =>
        if isBelow frozen path then .error .malformed
        else
          match alter false (pathTo path) (setNew (lastKey path) value) fields with
          | none => .error .malformed
          | some fields =>
            match skipSpace rest with
            | '}' :: after => .ok (fields, after)
            | ',' :: more =>
              readFields fuel (skipSpace more) fields
                (if isContainer value then path :: frozen else frozen)
            | _ => .error .malformed
    | _ => .error .malformed

end

end Switchboard.Toml
