import Chip8.Error
import Chip8.Text.Path

/-!
# Directories

The files of a directory and of the directories below it. A step up from a directory leads to the
one that holds it. Of what lies outside nothing is known but that the directories on the way up are
there.
-/

namespace Chip8

open Chip8.Text

/-- Files and directories with the names that lead to them. -/
structure Directory where
  files : List (List String × List UInt8)
  directories : List (List String)

/-- Where a path leads. -/
inductive Place where
  /-- Down these names. -/
  | inside (names : List String)
  /-- To a directory further up. -/
  | above
  deriving DecidableEq, Repr

namespace Place

def parent : Place → Place
  | inside [] | above => above
  | inside (name :: names) => inside (name :: names).dropLast

end Place

namespace Directory

/-- The names that lead to each place on the way along a path. -/
def trail (here : List String) : List String → List (List String)
  | [] => [here]
  | name :: names =>
    here :: trail (if name = ".." then here.dropLast else here ++ [name]) names

/-- The directory of files given by their paths, with the directories on the way to them. Of two
files at one place the later one stays. -/
def ofFiles (files : List (String × List UInt8)) : Directory :=
  let trails := files.map fun (path, bytes) => (trail [] (Path.parse path).parts, bytes)
  ⟨trails.reverse.map fun (way, bytes) => (way.getLastD [], bytes),
    trails.flatMap fun (way, _) => way.dropLast⟩

/-- The most bytes of a name. -/
def longestName : Nat := 255

/-- The most bytes of a path. -/
def longestPath : Nat := 4095

def isDirectory (d : Directory) : Place → Bool
  | .above => true
  | .inside names => names.isEmpty || names ∈ d.directories

/-- The content of the file at a place. -/
def file? (d : Directory) : Place → Option (List UInt8)
  | .above => none
  | .inside names => d.files.lookup names

def child (d : Directory) (place : Place) (name : String) : Except Error Place :=
  if longestName < name.utf8ByteSize then .error .nameTooLong
  else match place with
    | .above => .error .fileMissing
    | .inside names =>
      let next := .inside (names ++ [name])
      if d.isDirectory next || (d.file? next).isSome then .ok next else .error .fileMissing

/-- Where names lead from a place. Every name but the last has to be that of a directory. -/
def walk (d : Directory) (place : Place) : List String → Except Error Place
  | [] => .ok place
  | name :: names =>
    if !d.isDirectory place then .error .notADirectory
    else if name = ".." then d.walk place.parent names
    else match d.child place name with
      | .ok next => d.walk next names
      | .error e => .error e

/-- Where a path leads. -/
def locate (d : Directory) (p : Path) : Except Error Place :=
  let text := p.render
  if text.toList.contains '\x00' then .error .embeddedNul
  else if longestPath < text.utf8ByteSize then .error .nameTooLong
  else d.walk (if p.root = "" then .inside [] else .above) p.parts

/-- The content of the file at a path. -/
def read (d : Directory) (p : Path) : Except Error (List UInt8) :=
  match d.locate p with
  | .error e => .error e
  | .ok place =>
    if d.isDirectory place then .error .fileIsDirectory
    else match d.file? place with
      | some bytes => .ok bytes
      | none => .error .fileMissing

/-- Whether there is a file or a directory at a path. Of a path that is too long that cannot be
told. -/
def contains (d : Directory) (p : Path) : Except Error Bool :=
  match d.locate p with
  | .ok _ => .ok true
  | .error .nameTooLong => .error .nameTooLong
  | .error _ => .ok false

end Directory

end Chip8
