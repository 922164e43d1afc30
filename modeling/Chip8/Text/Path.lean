import Chip8.Text.Blank

/-!
# Paths

Paths of files, as a root and the names below it. Empty names and single dots do not count; two
slashes at the start, and only two, are a root of their own.
-/

namespace Chip8.Text

structure Path where
  /-- Empty, one slash or two. -/
  root : String
  parts : List String
  deriving DecidableEq, Repr

namespace Path

/-- The root of a path whose text is given. -/
def rootOf (cs : List Char) : String :=
  match (cs.takeWhile (· = '/')).length with
  | 0 => ""
  | 2 => "//"
  | _ => "/"

def parse (text : String) : Path :=
  let cs := text.toList
  ⟨rootOf cs, ((splitAll '/' cs).map String.ofList).filter fun part => part ≠ "" ∧ part ≠ "."⟩

/-- The path as a text; the empty path is a single dot. -/
def render (p : Path) : String :=
  if p.root = "" ∧ p.parts = [] then "." else p.root ++ "/".intercalate p.parts

def name (p : Path) : String := p.parts.getLast?.getD ""

/-- The last name without its last extension. A dot at either end begins no extension. -/
def stem (p : Path) : String :=
  let cs := p.name.toList
  let extension := cs.reverse.takeWhile (· ≠ '.')
  let rest := cs.take (cs.length - extension.length - 1)
  if extension.length < cs.length ∧ extension ≠ [] ∧ rest ≠ [] then .ofList rest else p.name

end Path

end Chip8.Text
