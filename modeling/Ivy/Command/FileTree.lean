import Ivy.Command.Failure

/-!
# File trees

The files that the command may read: a working directory with files and directories below it.
Above it there are directories about which nothing is known but that they have no other entries.

A path is resolved from left to right.  Every name but the last has to be that of a directory, a
name that is empty or a full stop stays where it is, and two full stops go up.
-/

namespace Ivy

/-- What a name of a file tree stands for. -/
inductive Entry
  | file (bytes : ByteArray)
  | directory

/-- A working directory, given by the names that lead to an entry. -/
structure FileTree where
  entries : List (List String × Entry)

/-- A place that a path leads to. -/
inductive Place
  /-- The entry of the working directory to which the names lead. -/
  | within (names : List String)
  /-- A directory outside the working directory. -/
  | outside
deriving DecidableEq

namespace ReadError

/-- There is no such entry. -/
def missing : ReadError := ⟨.notFound, "No such file or directory (os error 2)"⟩

/-- A file stands where a directory is needed. -/
def notDirectory : ReadError := ⟨.other, "Not a directory (os error 20)"⟩

/-- A directory stands where a file is needed. -/
def isDirectory : ReadError := ⟨.other, "Is a directory (os error 21)"⟩

/-- A name or a path has too many bytes. -/
def nameTooLong : ReadError := ⟨.other, "File name too long (os error 36)"⟩

/-- No path has a zero byte. -/
def nullInPath : ReadError := ⟨.other, "file name contained an unexpected NUL byte"⟩

end ReadError

/-- The largest number of bytes of a name. -/
def maxNameSize : Nat := 255

/-- The largest number of bytes of a path. -/
def maxPathSize : Nat := 4095

namespace FileTree

/-- The names of a path, which slashes separate. -/
def names (path : String) : List String := path.splitOn "/"

/-- What the names lead to.  A directory need not be listed if something below it is. -/
def find? (tree : FileTree) (names : List String) : Option Entry :=
  match tree.entries.find? (·.1 == names) with
  | some (_, entry) => some entry
  | none =>
    if names.isEmpty || tree.entries.any (names.isPrefixOf ·.1) then some .directory else none

/-- What there is at a place. -/
def entryAt? (tree : FileTree) : Place → Option Entry
  | .within names => tree.find? names
  | .outside => some .directory

/-- The place to which a name leads from `place`. -/
def enter (tree : FileTree) (place : Place) (name : String) : Except ReadError Place :=
  match tree.entryAt? place with
  | none => .error .missing
  | some (.file _) => .error .notDirectory
  | some .directory =>
    if name = "" ∨ name = "." then .ok place
    else if name = ".." then
      match place with
      | .within (n :: ns) => .ok (.within (n :: ns).dropLast)
      | _ => .ok .outside
    else if maxNameSize < name.utf8ByteSize then .error .nameTooLong
    else
      match place with
      | .within ns =>
        if (tree.find? (ns ++ [name])).isSome then .ok (.within (ns ++ [name]))
        else .error .missing
      | .outside => .error .missing

/-- The place to which a path leads. -/
def resolve (tree : FileTree) (path : String) : Except ReadError Place :=
  if path.contains '\x00' then .error .nullInPath
  else if path.isEmpty then .error .missing
  else if maxPathSize < path.utf8ByteSize then .error .nameTooLong
  else (names path).foldlM tree.enter (if path.startsWith "/" then .outside else .within [])

/-- The bytes of the file to which a path leads. -/
def read (tree : FileTree) (path : String) : Except ReadError ByteArray := do
  match tree.entryAt? (← tree.resolve path) with
  | none => .error .missing
  | some .directory => .error .isDirectory
  | some (.file bytes) => .ok bytes

end FileTree

end Ivy
