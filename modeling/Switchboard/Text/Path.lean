import Switchboard.Text.Quoted
import Switchboard.Text.Segment

/-!
File paths as texts: the plain form of a path, joining paths, and the short-hands for the home
directory and for environment variables.
-/
namespace Switchboard

/-- A path: its root (empty for a relative path, one slash, or exactly two) and its parts, none of
which is empty or a single dot. -/
structure Path where
  root : String := ""
  parts : List String := []
deriving DecidableEq, Repr

namespace Path

/-- The path that a text spells. Repeated slashes, parts that are a single dot and a final slash
mean nothing, except that exactly two leading slashes are a root of their own. -/
def ofText (s : String) : Path :=
  let cs := s.toList
  let root := match cs with
    | '/' :: '/' :: '/' :: _ => "/"
    | '/' :: '/' :: _ => "//"
    | '/' :: _ => "/"
    | _ => ""
  { root, parts := (Text.segments '/' s).filter fun part => part ≠ "" ∧ part ≠ "." }

/-- The plain form of a path; the empty relative path is a dot. -/
def text (path : Path) : String :=
  if path.root = "" ∧ path.parts = [] then "." else path.root ++ "/".intercalate path.parts

/-- Whether the path starts at a root. -/
def isAbsolute (path : Path) : Bool :=
  path.root ≠ ""

/-- `path` seen from `base`; an absolute path stands for itself. -/
def join (base path : Path) : Path :=
  if path.isAbsolute then path else { base with parts := base.parts ++ path.parts }

/-- The directory that holds the path; a root and the empty path hold themselves. -/
def parent (path : Path) : Path :=
  { path with parts := path.parts.dropLast }

/-- The last part, empty if there is none. -/
def name (path : Path) : String :=
  path.parts.getLast?.getD ""

/-- The path with another last part. -/
def withName (path : Path) (name : String) : Path :=
  { path with parts := path.parts.dropLast ++ [name] }

/-- The number of bytes that a whole path may have. -/
def maxSize : Nat := 4095

/-- The number of bytes that one part of a path may have. -/
def maxPartSize : Nat := 255

/-- Whether a null character, which no file has in its name, stands in the path. -/
def hasNull (path : Path) : Bool :=
  path.text.toList.contains '\x00'

/-- What the system says about a path, with the number of the cause. -/
def systemMessage (path : Path) (number : Nat) (cause : String) : String :=
  "[Errno " ++ toString number ++ "] " ++ cause ++ ": " ++ Text.quoted path.text

end Path

/-- Why nothing can be at a path. -/
inductive Obstacle where
  /-- The path or one of its parts has too many bytes. -/
  | tooLong
  /-- A part that should lead further is a file. -/
  | notDirectory
  /-- A null character stands in the path. -/
  | nullCharacter
deriving DecidableEq, Repr

namespace Obstacle

def message (path : Path) : Obstacle → String
  | .tooLong => path.systemMessage 36 "File name too long"
  | .notDirectory => path.systemMessage 20 "Not a directory"
  | .nullCharacter => "embedded null byte"

end Obstacle

/-- What paths may refer to. -/
structure Environment where
  /-- The values of variables by their names. -/
  bindings : List (String × String) := []
  /-- The home directories of users by the users' names. -/
  homes : List (String × String) := []
  /-- The home directory of the user who runs the program. -/
  ownHome : Option String := none

/-- A user in the list of those that a machine knows. -/
structure Account where
  name : String
  number : String
  home : String

namespace Account

/-- The users in a text with one of them on each line, as seven fields with colons between them. -/
def listOfText (s : String) : List Account :=
  (Text.segments '\n' s).filterMap fun line =>
    match Text.segments ':' line with
    | [name, _, number, _, _, home, _] => some { name, number, home }
    | _ => none

end Account

namespace Environment

/-- The variables in a text that lists them as `NAME=VALUE`, each followed by a null character. -/
def bindingsOfText (s : String) : List (String × String) :=
  (Text.segments '\x00' s).filterMap fun entry =>
    match Text.cutText '=' entry with
    | (name, some value) => some (name, value)
    | (_, none) => none

/-- The environment of the user with a number among the users of a machine. -/
def ofAccounts (bindings : List (String × String)) (accounts : List Account)
    (number : Option String) : Environment where
  bindings
  homes := accounts.map fun account => (account.name, account.home)
  ownHome := (accounts.find? fun account => some account.number = number).map Account.home

def value? (env : Environment) (name : String) : Option String :=
  env.bindings.lookup name

/-- The characters of a variable name that follows a dollar sign. -/
def isNameChar (c : Char) : Bool :=
  c.isAlphanum || c == '_'

/-- The name of a reference that starts after a dollar sign, and what follows the reference. -/
def reference? : List Char → Option (List Char × List Char)
  | '{' :: rest =>
    match rest.dropWhile (· ≠ '}') with
    | _ :: after => some (rest.takeWhile (· ≠ '}'), after)
    | [] => none
  | cs =>
    match cs.takeWhile isNameChar with
    | [] => none
    | name => some (name, cs.dropWhile isNameChar)

/-- Puts the values of variables in the place of `$NAME` and `${NAME}`. References to unknown names
stay as they are written, and neither they nor the values are searched again: `skip` characters
belong to a reference that was already dealt with. -/
def expandFrom (env : Environment) : Nat → List Char → List Char
  | _, [] => []
  | skip + 1, _ :: rest => expandFrom env skip rest
  | 0, '$' :: rest =>
    match reference? rest with
    | none => '$' :: expandFrom env 0 rest
    | some (name, after) =>
      let size := rest.length - after.length
      let replacement := match env.value? (String.ofList name) with
        | some value => value.toList
        | none => '$' :: rest.take size
      replacement ++ expandFrom env size rest
  | 0, c :: rest => c :: expandFrom env 0 rest

/-- A text with its references to known variables replaced by their values. -/
def expandVariables (env : Environment) (s : String) : String :=
  String.ofList (env.expandFrom 0 s.toList)

/-- The home directory of the named user; an empty name stands for the user who runs the program,
whose home may be set by a variable. -/
def home? (env : Environment) (user : String) : Option String :=
  if user = "" then (env.value? "HOME").or env.ownHome else env.homes.lookup user

/-- Puts a home directory in the place of a leading tilde and the name of a user that may follow it.
What names no known user stays as it is written, save that a null character is in no name. -/
def expandHome (env : Environment) (s : String) : Except Obstacle String :=
  match s.toList with
  | '~' :: rest =>
    let user := rest.takeWhile (· ≠ '/')
    let below := rest.dropWhile (· ≠ '/')
    if '\x00' ∈ user then .error .nullCharacter
    else
      match env.home? (String.ofList user) with
      | none => .ok s
      | some home =>
        let base := (home.toList.reverse.dropWhile (· = '/')).reverse
        .ok (if base ++ below = [] then "/" else String.ofList (base ++ below))
  | _ => .ok s

/-- The path that a text spells after its short-hands are expanded. -/
def path (env : Environment) (s : String) : Except Obstacle Path :=
  (env.expandHome s).map fun expanded => Path.ofText (env.expandVariables expanded)

end Environment
end Switchboard
