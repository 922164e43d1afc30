import Chip8.Text.Blank
import Chip8.Text.LowerCase
import Chip8.Text.Message

/-!
# Debug lines

Every part of the interpreter may print lines that belong to a category. A line is printed when its
category is switched on; a message that cannot be printed then fails, and with it whatever prints it
(`Printer.say`). The categories come from a setting, a list of names parted by commas in which
letter case and surrounding white space do not count and `all` switches on every category.

`Control` is the setting as the outside world sees it: the setting may change at any time, and the
categories are those it named at the first question after the last reload.
-/

namespace Chip8.Debug

open Chip8.Text

structure Line where
  category : String
  text : String
  deriving DecidableEq, Repr

/-- What stands before the text of a line. -/
def Line.mark (category : String) : String := "[CHIP8][" ++ category ++ "] "

def Line.render (l : Line) : String := mark l.category ++ l.text

/-- The line of a category with a text that can be encoded. -/
def Line.print (category : String) (text : List CodePoint) : Except Error Line :=
  (encode (mark category).length text).map fun cs => ⟨category, .ofList cs⟩

/-- The categories that are switched on, in lower case, each once and in order. -/
structure Categories where
  names : List String
  deriving DecidableEq, Repr

namespace Categories

def off : Categories := ⟨[]⟩

/-- The name that counts for a category. -/
def fold (name : String) : String := lowerText name

/-- The names in a setting: its parts between commas, trimmed, the empty ones left out. -/
def partsOf (setting : String) : List String :=
  ((splitAll ',' setting.toList).map (trim isBlank)).filter (· ≠ []) |>.map
    fun cs => fold (.ofList cs)

def parse (setting : String) : Categories :=
  ⟨((partsOf setting).mergeSort (fun a b => decide (a ≤ b))).eraseDups⟩

/-- Whether lines of a category are printed; without a category, whether any line can be. -/
def enabled (active : Categories) (category : Option String) : Bool :=
  if active.names.isEmpty then false
  else match category with
    | none => true
    | some name => active.names.contains "all" || active.names.contains (fold name)

end Categories

/-- What is printed: the lines of the categories that are switched on, as far as there is room for
them. -/
structure Printer where
  active : Categories
  room : Room
  deriving DecidableEq, Repr

namespace Printer

/-- Nothing is printed. -/
def off : Printer := ⟨.off, .full⟩

def enabled (dbg : Printer) (category : Option String) : Bool := dbg.active.enabled category

/-- The lines that a message of a category prints: itself if its category is on. The message is
not looked at otherwise. -/
def say (dbg : Printer) (category message : String) (values : List Value) :
    Except Error (List Line) :=
  if dbg.enabled (some category) then do
    let text ← compose dbg.room message values
    return [← Line.print category text]
  else .ok []

theorem say_of_off {dbg : Printer} {category : String} (h : dbg.enabled (some category) = false)
    (message : String) (values : List Value) : dbg.say category message values = .ok [] := by
  rw [say, h]
  rfl

theorem say_of_compose {dbg : Printer} {category message : String} {values : List Value}
    {text : List Char} (hon : dbg.enabled (some category) = true)
    (h : compose dbg.room message values = .ok (codePoints text)) :
    dbg.say category message values = .ok [⟨category, .ofList text⟩] := by
  rw [say, if_pos hon, h]
  show (Line.print category (codePoints text) >>= fun line => pure [line]) = _
  rw [Line.print, encode_codePoints]
  rfl

end Printer

/-- The setting and the categories that were read from it. -/
structure Control where
  setting : Option String
  /-- What the first question since the last reload found. -/
  read : Option Categories
  deriving DecidableEq, Repr

namespace Control

/-- The start: nothing has been read. -/
def start (setting : Option String) : Control := ⟨setting, none⟩

/-- Whether a text can be the setting: a NUL inside would end it there. -/
def admits (text : String) : Bool := !text.toList.contains '\x00'

def set (setting : Option String) (c : Control) : Control := { c with setting }

/-- The setting changes if it can be what is given. -/
def trySet (setting : Option String) (c : Control) : Except Error Unit × Control :=
  if setting.all admits then (.ok (), c.set setting) else (.error .embeddedNul, c)

/-- The next question reads the setting anew. -/
def reload (c : Control) : Control := { c with read := none }

/-- The categories that a question finds. -/
def active (c : Control) : Categories :=
  c.read.getD (.parse (c.setting.getD ""))

/-- The state after a question. -/
def asked (c : Control) : Control := { c with read := some c.active }

/-- What messages are printed with at a question. -/
def printer (room : Room) (c : Control) : Printer := ⟨c.active, room⟩

end Control

end Chip8.Debug
