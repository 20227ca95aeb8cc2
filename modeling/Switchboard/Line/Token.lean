import Switchboard.Line.Reference
import Switchboard.Text.Blank

/-!
Splitting a line into tokens. Blanks outside of quotes separate tokens, quotes and backslashes take
characters literally, and references to variables are replaced by their values. A value is never
read again: nothing in it opens a quote, splits a token or refers to a variable.
-/
namespace Switchboard

/-- The quotes that are still open where a line ends. -/
structure QuoteFlags where
  double : Bool := false
  single : Bool := false
deriving DecidableEq, Repr

namespace Line

/-- The kinds of quotes. -/
inductive Quote where
  | double
  | single
deriving DecidableEq, Repr

/-- The character that opens and closes a quote. -/
def Quote.mark : Quote → Char
  | .double => '"'
  | .single => '\''

/-- The characters that a backslash takes literally between double quotes. -/
def isDoubleEscape (c : Char) : Bool :=
  c == '"' || c == '\\' || c == '$'

/-- What a scan has found so far. Both lists start with what was found last, so that a scan takes
time in proportion to the line. -/
structure Scan where
  /-- The finished tokens. -/
  finished : List String := []
  /-- The characters of the token that is open, if there is one. -/
  letters : Option (List Char) := none
  /-- The quote that is open. -/
  quote : Option Quote := none
deriving DecidableEq, Repr

namespace Scan

/-- The finished tokens, in the order of the line. -/
def tokens (scan : Scan) : List String :=
  scan.finished.reverse

/-- The token that is open, if there is one. -/
def word? (scan : Scan) : Option (List Char) :=
  scan.letters.map List.reverse

/-- Adds characters to the open token; opens one if there is none. -/
def push (scan : Scan) (cs : List Char) : Scan :=
  { scan with letters := some (cs.reverseAux (scan.letters.getD [])) }

/-- Adds the value of a variable. Outside of quotes an empty value opens no token. -/
def pushValue (scan : Scan) (value : String) : Scan :=
  if value = "" ∧ scan.quote = none then scan else scan.push value.toList

/-- Opens a quote, which opens a token even if nothing follows. -/
def openQuote (scan : Scan) (quote : Quote) : Scan :=
  { scan.push [] with quote := some quote }

def closeQuote (scan : Scan) : Scan :=
  { scan with quote := none }

/-- Finishes the open token, if there is one. -/
def finish (scan : Scan) : Scan :=
  match scan.word? with
  | none => scan
  | some cs => { scan with finished := String.ofList cs :: scan.finished, letters := none }

/-- The flag of the quote that is still open. -/
def flags (scan : Scan) : QuoteFlags :=
  { double := scan.quote = some .double, single := scan.quote = some .single }

@[simp] theorem tokens_push (scan : Scan) (cs : List Char) :
    (scan.push cs).tokens = scan.tokens := rfl

@[simp] theorem word?_push (scan : Scan) (cs : List Char) :
    (scan.push cs).word? = some (scan.word?.getD [] ++ cs) := by
  cases held : scan.letters <;> simp [word?, push, held, List.reverseAux_eq]

@[simp] theorem quote_push (scan : Scan) (cs : List Char) :
    (scan.push cs).quote = scan.quote := rfl

/-- Finishing moves the open token behind the finished ones. -/
@[simp] theorem tokens_finish (scan : Scan) :
    scan.finish.tokens = scan.tokens ++ (scan.word?.map String.ofList).toList := by
  cases held : scan.letters <;> simp [finish, tokens, word?, held]

@[simp] theorem word?_finish (scan : Scan) : scan.finish.word? = none := by
  cases held : scan.letters <;> simp [finish, word?, held]

end Scan

/-- Goes on with a scan over the characters of a line. -/
def scanFrom (env : Table String) (scan : Scan) (cs : List Char) : Scan :=
  match cs with
  | [] => scan
  | c :: rest =>
    match scan.quote with
    | some .single =>
      if c = '\'' then scanFrom env scan.closeQuote rest else scanFrom env (scan.push [c]) rest
    | some .double =>
      if c = '"' then scanFrom env scan.closeQuote rest
      else if c = '\\' then
        match rest with
        | e :: after =>
          if isDoubleEscape e then scanFrom env (scan.push [e]) after
          else scanFrom env (scan.push [c]) (e :: after)
        | [] => scan.push [c]
      else if c = '$' then
        match found : reference? rest with
        | some (name, after) =>
          have := reference?_length found
          scanFrom env (scan.pushValue ((env.get? name).getD "")) after
        | none => scanFrom env (scan.push [c]) rest
      else scanFrom env (scan.push [c]) rest
    | none =>
      if Text.isBlank c then scanFrom env scan.finish rest
      else if c = '"' then scanFrom env (scan.openQuote .double) rest
      else if c = '\'' then scanFrom env (scan.openQuote .single) rest
      else if c = '\\' then
        match rest with
        | e :: after => scanFrom env (scan.push [e]) after
        | [] => scan.push [c]
      else if c = '$' then
        match found : reference? rest with
        | some (name, after) =>
          have := reference?_length found
          scanFrom env (scan.pushValue ((env.get? name).getD "")) after
        | none => scanFrom env (scan.push [c]) rest
      else scanFrom env (scan.push [c]) rest
termination_by cs.length

/-- The tokens of a line and the quotes that it leaves open. An open quote is no error here: what it
holds belongs to the last token. -/
def tokenize (env : Table String) (line : String) : List String × QuoteFlags :=
  let scan := scanFrom env {} line.toList
  (scan.finish.tokens, scan.flags)

end Line
end Switchboard
