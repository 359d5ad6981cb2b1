import Propositional.Text.Quoted

/-!
# Paths of files

A path is a list of names between slashes. Empty names and single dots name nothing and are left
out; two slashes at the very beginning are kept apart from one.

* `Path.normalise` — the path without what names nothing.
* `FileError.message` — why a file cannot be opened.
-/

namespace Propositional

namespace Path

/-- The names between the slashes. -/
def split : List Char → List (List Char)
  | [] => [[]]
  | '/' :: rest => [] :: split rest
  | c :: rest =>
    match split rest with
    | name :: names => (c :: name) :: names
    | [] => [[c]]

/-- The slashes that a path starts with: none, one, or exactly two. -/
def root : List Char → List Char
  | '/' :: '/' :: '/' :: _ => ['/']
  | '/' :: '/' :: _ => ['/', '/']
  | '/' :: _ => ['/']
  | _ => []

/-- The names of a path that name something. -/
def names (path : String) : List String :=
  ((split path.toList).filter fun name => name ≠ [] && name ≠ ['.']).map String.ofList

/-- The path without what names nothing; a path that names nothing at all is a single dot. -/
def normalise (path : String) : String :=
  let normal := String.ofList (root path.toList) ++ "/".intercalate (names path)
  if normal.isEmpty then "." else normal

end Path

/-- Why a file cannot be opened. -/
inductive FileError where
  | missing (path : String)
  | forbidden (path : String)
  | notADirectory (path : String)
  | isADirectory (path : String)
  | nameTooLong (path : String)
  /-- The path holds the character that ends a text in memory. -/
  | embeddedNull
  /-- Any other reason, in the words of the system. -/
  | other (reason : String)
  deriving DecidableEq, Repr

def FileError.message : FileError → String
  | missing path => "[Errno 2] No such file or directory: " ++ quote path
  | forbidden path => "[Errno 13] Permission denied: " ++ quote path
  | notADirectory path => "[Errno 20] Not a directory: " ++ quote path
  | isADirectory path => "[Errno 21] Is a directory: " ++ quote path
  | nameTooLong path => "[Errno 36] File name too long: " ++ quote path
  | embeddedNull => "embedded null byte"
  | other reason => reason

end Propositional
