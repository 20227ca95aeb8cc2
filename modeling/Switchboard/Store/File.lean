import Switchboard.Text.Path

/-!
The state file: what stands at its path, and the time at which that was put there. Times come from a
clock that never repeats itself.
-/
namespace Switchboard

/-- What can stand at the path of the state file. -/
inductive Content where
  | text (s : String)
  /-- Bytes that spell no text. -/
  | undecodable
  | directory
  /-- Nothing can be there. -/
  | barred (obstacle : Obstacle)
deriving DecidableEq, Repr

/-- The content that a file of these bytes has. -/
def Content.ofBytes (bytes : ByteArray) : Content :=
  (String.fromUTF8? bytes).elim .undecodable .text

/-- The state file over time. -/
structure StateFile where
  path : Path := {}
  content : Option Content := none
  /-- The time of the content. -/
  stamp : Nat := 0
  /-- The latest time that was given; zero if none was. -/
  clock : Nat := 0
deriving DecidableEq, Repr

namespace StateFile

/-- The time of the file, if there is one. -/
def time? (file : StateFile) : Option Nat :=
  file.content.map fun _ => file.stamp

/-- Puts content at the path, at a new time. -/
def replace (file : StateFile) (content : Content) : StateFile :=
  { file with content := some content, stamp := file.clock + 1, clock := file.clock + 1 }

/-- Puts content at the path at the time that was given last. -/
def replaceUnnoticed (file : StateFile) (content : Content) : StateFile :=
  if file.clock = 0 then file.replace content
  else { file with content := some content, stamp := file.clock }

/-- Removes what stands at the path. -/
def remove (file : StateFile) : StateFile :=
  { file with content := none }

/-- The text of the file, if it is a file with a text. -/
def text? (file : StateFile) : Option String :=
  match file.content with
  | some (.text s) => some s
  | _ => none

/-- What keeps anyone from looking at the path. -/
def obstacle? (file : StateFile) : Option Obstacle :=
  match file.content with
  | some (.barred obstacle) => some obstacle
  | _ => none

/-- The file beside the state file that a new content is written to first. Eight characters of its
name are chosen by chance. -/
def draft (file : StateFile) (chance : String) : Path :=
  file.path.withName ("." ++ file.path.name ++ "." ++ chance ++ ".tmp")

def isDraftOverlong (file : StateFile) : Bool :=
  Path.maxPartSize < (file.draft "________").name.utf8ByteSize

end StateFile
end Switchboard
