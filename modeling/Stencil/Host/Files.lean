import Stencil.Failure
import Stencil.Table

/-!
# Files

* `Files`            texts under their paths;
* `Files.fetch`      the text under a path;
* `joinPath`         a path below a folder; an absolute path stands for itself;
* `Folder`           the files of a system, seen from a folder;
* `Folder.fetch`     a text from a file of the system.
-/

namespace Stencil

abbrev Files := Table Text

def Files.fetch (files : Files) (path : Text) : Except Failure Text :=
  match Table.get? files path with
  | some t => .ok t
  | none => .error (.notFound path)

/-- a path below a folder: an absolute path stands for itself, and a slash is put between the two
unless the folder is empty or ends in one -/
def joinPath (root path : Text) : Text :=
  if path.head? = some '/' then path
  else if root = [] ∨ root.getLast? = some '/' then root ++ path
  else root ++ '/' :: path

/-- the files of a system under their full paths, and the folder that other paths start from -/
structure Folder where
  root : Option Text
  files : Files

namespace Folder

def systemFiles : Files := [("/dev/null".toList, [])]

def fullPath (f : Folder) (path : Text) : Text :=
  match f.root with
  | some root => joinPath root path
  | none => path

/-- the text of a file; no path can hold the character with code point zero -/
def fetch (f : Folder) (path : Text) : Except Failure Text :=
  if '\x00' ∈ f.fullPath path then
    .error (.unreadable (f.fullPath path) "file name contained an unexpected NUL byte")
  else Files.fetch f.files (f.fullPath path)

end Folder

end Stencil
