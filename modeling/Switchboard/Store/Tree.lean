import Switchboard.Store.File

/-!
Trees of files, and where the paths lead in them.
-/
namespace Switchboard

/-- A file, or a directory of named trees. -/
inductive FileTree where
  | file (content : Content)
  | directory (entries : List (String × FileTree))

namespace FileTree

/-- The tree under a name; a file has none under it. -/
def entry? : FileTree → String → Option FileTree
  | .file _, _ => none
  | .directory entries, name => entries.lookup name

/-- Where the parts of a path lead from a tree that stands in `parents`, the nearest of them first.
Two dots lead to the nearest parent; the topmost tree is its own parent. -/
def follow (parents : List FileTree) (here : FileTree) :
    List String → Except Obstacle (Option FileTree)
  | [] => .ok (some here)
  | part :: rest =>
    match here, parents with
    | .file _, _ => .error .notDirectory
    | .directory _, parents =>
      if part = ".." then
        match parents with
        | [] => follow [] here rest
        | parent :: above => follow above parent rest
      else if Path.maxPartSize < part.utf8ByteSize then .error .tooLong
      else
        match here.entry? part with
        | none => .ok none
        | some next => follow (here :: parents) next rest

/-- Where a path leads; a relative path is seen from the directory with the parts `base`. -/
def find? (top : FileTree) (base : List String) (path : Path) :
    Except Obstacle (Option FileTree) :=
  if path.hasNull then .error .nullCharacter
  else if Path.maxSize < path.text.utf8ByteSize then .error .tooLong
  else follow [] top (if path.isAbsolute then path.parts else base ++ path.parts)

def content? (top : FileTree) (base : List String) (path : Path) : Option Content :=
  match top.find? base path with
  | .error obstacle => some (.barred obstacle)
  | .ok none => none
  | .ok (some (.file content)) => some content
  | .ok (some (.directory _)) => some .directory

/-- The names in the directory at a path, if there is a directory. -/
def names? (top : FileTree) (base : List String) (path : Path) :
    Except Obstacle (Option (List String)) :=
  (top.find? base path).map fun
    | some (.directory entries) => some (entries.map Prod.fst)
    | _ => none

end FileTree
end Switchboard
