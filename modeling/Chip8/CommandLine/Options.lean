import Chip8.App.Ui
import Chip8.Text.Integer
import Chip8.Text.Quoted

/-!
# Options of the command line

An option is given by its name or by the start of its name, if no other name starts alike. Its
value follows as the next argument or behind an equals sign. What looks like an option does not
count as a value, unless it is a negative number or holds a space. After a lone `--` nothing is an
option; behind an equals sign it leaves the option empty. The last of several values wins.
-/

namespace Chip8.CommandLine

open Chip8.Text

inductive Switch where
  | help
  | rom
  | scale
  | superChip
  | cyclesPerFrame
  | fullscreen
  | noGamepad
  | palette
  | seed
  deriving DecidableEq, Repr

namespace Switch

def names : Switch → List String
  | help => ["-h", "--help"]
  | rom => ["--rom"]
  | scale => ["--scale"]
  | superChip => ["--super-chip"]
  | cyclesPerFrame => ["--cycles-per-frame"]
  | fullscreen => ["--fullscreen"]
  | noGamepad => ["--no-gamepad"]
  | palette => ["--palette"]
  | seed => ["--seed"]

/-- The options in the order in which messages list them. -/
def all : List Switch :=
  [help, rom, scale, superChip, cyclesPerFrame, fullscreen, noGamepad, palette, seed]

def named : List (String × Switch) := all.flatMap fun s => s.names.map (·, s)

/-- The option as messages call it. -/
def title (s : Switch) : String := "/".intercalate s.names

def takesValue : Switch → Bool
  | rom | scale | cyclesPerFrame | palette | seed => true
  | help | superChip | fullscreen | noGamepad => false

end Switch

/-- What is wrong with the arguments. -/
inductive UsageError where
  | ambiguous (argument : String) (matching : List String)
  | valueMissing (option : Switch)
  | valueIgnored (option : Switch) (value : String)
  | notAnInteger (option : Switch) (value : String)
  | notAPalette (value : String)
  | romMissing
  | unrecognized (arguments : List String)
  | romNotFound (path : String)
  | scaleNotPositive
  | cyclesNotPositive
  deriving DecidableEq, Repr

namespace UsageError

def about (option : Switch) (problem : String) : String :=
  "argument " ++ option.title ++ ": " ++ problem

/-- The text that reports the error. -/
def message : UsageError → String
  | ambiguous argument matching =>
    "ambiguous option: " ++ argument ++ " could match " ++ ", ".intercalate matching
  | valueMissing option => about option "expected one argument"
  | valueIgnored option value => about option ("ignored explicit argument " ++ quoted value)
  | notAnInteger option value => about option ("invalid int value: " ++ quoted value)
  | notAPalette value =>
    about .palette ("invalid choice: " ++ quoted value ++ " (choose from " ++
      ", ".intercalate (Palette.named.map fun entry => quoted entry.1) ++ ")")
  | romMissing => "the following arguments are required: " ++ Switch.rom.title
  | unrecognized arguments => "unrecognized arguments: " ++ " ".intercalate arguments
  | romNotFound path => "ROM file not found: " ++ path
  | scaleNotPositive => "--scale must be positive"
  | cyclesNotPositive => "--cycles-per-frame must be positive"

end UsageError

/-! ## Arguments -/

inductive Token where
  | value (text : String)
  /-- The lone `--`. -/
  | separator
  /-- An option by one of its names, with the value that is part of the argument. -/
  | option (s : Switch) (name : String) (attached : Option String)
  | unknown (text : String)
  deriving DecidableEq, Repr

/-- The characters before the first equals sign, and those behind it if there is one. -/
def splitMark (cs : List Char) : List Char × Option (List Char) :=
  match cs.dropWhile (· ≠ '=') with
  | [] => (cs, none)
  | _ :: rest => (cs.takeWhile (· ≠ '='), some rest)

/-- The options that an argument can stand for. Long names may be cut short; a short name may be
followed by its value. -/
def candidates (cs : List Char) : List Token :=
  if ['-', '-'].isPrefixOf cs then
    let (start, rest) := splitMark cs
    Switch.named.filterMap fun (name, s) =>
      if start.isPrefixOf name.toList then
        some (.option s name (rest.map String.ofList))
      else none
  else
    Switch.named.filterMap fun (name, s) =>
      if name.toList = cs.take 2 then some (.option s name (some (.ofList (cs.drop 2))))
      else if cs.isPrefixOf name.toList then some (.option s name none)
      else none

def Token.name : Token → String
  | option _ name _ => name
  | value text | unknown text => text
  | separator => "--"

/-- What an argument is that begins with a dash and is no full name. -/
def classifyDashed (text : String) : Except UsageError Token :=
  match candidates text.toList with
  | [token] => .ok token
  | first :: second :: rest =>
    .error (.ambiguous text ((first :: second :: rest).map Token.name))
  | [] =>
    if isNegativeNumber text || text.toList.contains ' ' then .ok (.value text)
    else .ok (.unknown text)

def classify (text : String) : Except UsageError Token :=
  let cs := text.toList
  if cs.head? ≠ some '-' then .ok (.value text)
  else match Switch.named.lookup text with
    | some s => .ok (.option s text none)
    | none =>
      if cs.length = 1 then .ok (.value text)
      else
        let (start, rest) := splitMark cs
        match rest, Switch.named.lookup (.ofList start) with
        | some rest, some s => .ok (.option s (.ofList start) (some (.ofList rest)))
        | _, _ => classifyDashed text

def tokens : List String → Except UsageError (List Token)
  | [] => .ok []
  | text :: rest =>
    if text = "--" then .ok (.separator :: rest.map .value)
    else match classify text, tokens rest with
      | .error e, _ => .error e
      | _, .error e => .error e
      | .ok token, .ok others => .ok (token :: others)

/-! ## Settings -/

inductive Given (α : Type) where
  /-- The mark `--`, which is no value. -/
  | empty
  | value (a : α)
  deriving DecidableEq, Repr

def Given.value? {α : Type} : Given α → Option α
  | .empty => none
  | .value a => some a

structure Request where
  program : Given Path := .empty
  scale : Given Int := .value 10
  dialect : Dialect := .legacy
  cyclesPerFrame : Given Int := .value defaultCyclesPerFrame
  fullscreen : Bool := false
  gamepadEnabled : Bool := true
  palette : Given String := .value "mono"
  seed : Option (Given Int) := none
  deriving DecidableEq, Repr

/-- What the arguments say. -/
structure Settings where
  request : Request := {}
  hasProgram : Bool := false
  /-- The arguments that mean nothing. -/
  extras : List String := []
  deriving DecidableEq, Repr

/-- Why reading the arguments ended early. -/
inductive Stop where
  /-- Help was asked for. -/
  | help
  | usage (e : UsageError)
  deriving DecidableEq, Repr

namespace Settings

/-- The settings with other values. -/
def update (f : Request → Request) (s : Settings) : Settings := { s with request := f s.request }

/-- The settings with one more argument that means nothing. -/
def extra (text : String) (s : Settings) : Settings := { s with extras := s.extras ++ [text] }

/-- What an option is given by a text that is read as a value. -/
def given {α : Type} (read : String → Except Stop α) (text : String) : Except Stop (Given α) :=
  if text = "--" then .ok .empty else (read text).map .value

/-- The number that is the value of an option. -/
def integer (option : Switch) (text : String) : Except Stop Int :=
  match readInteger text with
  | some n => .ok n
  | none => .error (.usage (.notAnInteger option text))

def paletteName (text : String) : Except Stop String :=
  if (Palette.find? text).isSome then .ok text else .error (.usage (.notAPalette text))

def setProgram (s : Settings) (program : Given Path) : Settings :=
  { s with request := { s.request with program }, hasProgram := true }

def assign (s : Settings) (option : Switch) (text : String) : Except Stop Settings :=
  match option with
  | .rom => (given (fun path => .ok (Path.parse path)) text).map s.setProgram
  | .scale => (given (integer option) text).map fun n => s.update ({ · with scale := n })
  | .cyclesPerFrame =>
    (given (integer option) text).map fun n => s.update ({ · with cyclesPerFrame := n })
  | .seed => (given (integer option) text).map fun n => s.update ({ · with seed := some n })
  | .palette => (given paletteName text).map fun name => s.update ({ · with palette := name })
  | .help | .superChip | .fullscreen | .noGamepad => .ok s

/-- An option without a value. -/
def raise (s : Settings) (option : Switch) : Except Stop Settings :=
  match option with
  | .help => .error .help
  | .superChip => .ok (s.update ({ · with dialect := .superChip }))
  | .fullscreen => .ok (s.update ({ · with fullscreen := true }))
  | .noGamepad => .ok (s.update ({ · with gamepadEnabled := false }))
  | .rom | .scale | .cyclesPerFrame | .palette | .seed => .ok s

end Settings

/-- What follows the short name of the help option in the same argument: short names again, or
else a value, and help takes none. -/
def shortNames : List Char → Stop
  | [] => .help
  | 'h' :: cs => shortNames cs
  | cs => .usage (.valueIgnored .help (.ofList cs))

/-- An option without a value that has one in its argument. -/
def refuse (s : Switch) (name attached : String) : Stop :=
  if attached = "" ∨ ['-', '-'].isPrefixOf name.toList then .usage (.valueIgnored s attached)
  else shortNames attached.toList

/-- The settings that arguments lead to, one after the other. -/
def consume : List Token → Settings → Except Stop Settings
  | [], s => .ok s
  | .value text :: rest, s => consume rest (s.extra text)
  | .unknown text :: rest, s => consume rest (s.extra text)
  | .separator :: rest, s => consume rest (s.extra "--")
  | .option o name (some attached) :: rest, s =>
    if o.takesValue then
      match s.assign o attached with
      | .ok s => consume rest s
      | .error e => .error e
    else .error (refuse o name attached)
  | .option o _ none :: rest, s =>
    if o.takesValue then
      match rest with
      | .value text :: rest =>
        match s.assign o text with
        | .ok s => consume rest s
        | .error e => .error e
      | _ => .error (.usage (.valueMissing o))
    else match s.raise o with
      | .ok s => consume rest s
      | .error e => .error e

def parse (arguments : List String) : Except Stop Request :=
  match tokens arguments with
  | .error e => .error (.usage e)
  | .ok ts =>
    match consume ts {} with
    | .error e => .error e
    | .ok s =>
      if !s.hasProgram then .error (.usage .romMissing)
      else if s.extras ≠ [] then .error (.usage (.unrecognized s.extras))
      else .ok s.request

end Chip8.CommandLine
