import Chip8.Directory
import Chip8.Memory
import Chip8.Outcome

/-!
# Program images

An image is the raw bytes of a program with the name under which they were loaded. Every image that
is neither empty nor too long for a memory of the usual size is accepted.
-/

namespace Chip8

open Debug (Printer)

/-- The bytes of a program and its name. -/
structure ProgramImage where
  data : List UInt8
  name : String
  deriving DecidableEq, Repr

namespace ProgramImage

/-- How many bytes of a stream are read at most: one more than an image can have. -/
def readLimit : Nat := maxProgramSize + 1

/-- The image of a stream of bytes, of which no more are read than are needed to see that there are
too many. -/
def load (dbg : Printer) (stream : List UInt8) (name : String) :
    Except Error ProgramImage × List Debug.Line :=
  let data := stream.take readLimit
  if data.isEmpty then (.error .programEmpty, [])
  else if data.length > maxProgramSize then (.error (.programTooLong maxProgramSize), [])
  else
    match dbg.say "loader" "name=%s size=%d"
      [.text (if name = "" then "-" else name), .own data.length] with
    | .error e => (.error e, [])
    | .ok lines => (.ok ⟨data, name⟩, lines)

/-- The image of the file at a path, named after the file. -/
def loadFile (dbg : Printer) (d : Directory) (path : Text.Path) :
    Except Error ProgramImage × List Debug.Line :=
  match d.read path with
  | .error e => (.error e, [])
  | .ok bytes => load dbg bytes path.stem

def numbers (image : ProgramImage) : List Int := image.data.map fun b => (b.toNat : Int)

/-- Copies the image into memory and answers with its length. -/
def install (image : ProgramImage) (m : Memory) : Except Error Nat × Memory :=
  m.loadProgram image.numbers

end ProgramImage

end Chip8
