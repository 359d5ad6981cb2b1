import Propositional.CommandLine.Path
import Propositional.Text.Utf8

/-!
# Looking up files

A directory holds files and further directories by name. A path is followed name by name from the
working directory, or from the root if it starts with a slash, and the first name that cannot be
followed decides the error.

* `FileSystem.read` — the chunks of the file that a path leads to.
-/

namespace Propositional

/-- What a name in a directory stands for. -/
inductive FileTree where
  | file (bytes : List UInt8)
  | directory (entries : List (String × FileTree))

namespace FileTree

/-- What a directory holds; a file holds nothing. -/
def entries : FileTree → List (String × FileTree)
  | file _ => []
  | directory entries => entries

/-- Puts a file at a path of names, with the directories that lead to it. -/
def put (bytes : List UInt8) : List String → FileTree → FileTree
  | [], _ => file bytes
  | name :: rest, tree =>
    let child := (tree.entries.lookup name).getD (directory [])
    directory ((name, put bytes rest child) :: tree.entries.filter (·.1 != name))

/-- How many bytes a name may have. -/
def nameLimit : Nat := 255

/-- Follows names from a place in a tree: `here` is what stands there, `above` are the directories
that it lies in, nearest first. Nothing lies above the root. The path is the one to report. -/
def follow (path : String) (here : FileTree) (above : List FileTree) :
    List String → Except FileError FileTree
  | [] => .ok here
  | name :: rest =>
    match here with
    | file _ => .error (.notADirectory path)
    | directory entries =>
      if name = ".." then
        match above with
        | [] => follow path here [] rest
        | parent :: above => follow path parent above rest
      else if nameLimit < name.utf8ByteSize then .error (.nameTooLong path)
      else
        match entries.lookup name with
        | none => .error (.missing path)
        | some child => follow path child (here :: above) rest

end FileTree

/-- A working directory with the directories that it lies in, nearest first and the root last. -/
structure FileSystem where
  here : FileTree
  above : List FileTree

namespace FileSystem

/-- How many bytes a path may have. -/
def pathLimit : Nat := 4095

/-- The chunks of the file that a path leads to. -/
def read (fs : FileSystem) (path : String) : Except FileError (List Chunk) := do
  if path.toList.contains (Char.ofNat 0) then throw .embeddedNull
  if pathLimit < path.utf8ByteSize then throw (.nameTooLong path)
  let found ←
    if path.toList.head? = some '/' then
      FileTree.follow path (fs.above.getLast?.getD fs.here) [] (Path.names path)
    else FileTree.follow path fs.here fs.above (Path.names path)
  match found with
  | .file bytes => return chunksOf bytes
  | .directory _ => throw (.isADirectory path)

end FileSystem

end Propositional
