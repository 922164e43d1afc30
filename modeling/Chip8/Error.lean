import Chip8.Text.Hex

/-!
# Errors

Everything that can go wrong, by its cause, and the text that reports it.
-/

namespace Chip8

open Chip8.Text

/-- What is missing when the multimedia library cannot be loaded. -/
inductive Facility where
  | window
  | sound
  | surface
  deriving DecidableEq, Repr

/-- Which picture a pixel was looked up in. -/
inductive Picture where
  | frameBuffer
  | image
  deriving DecidableEq, Repr

/-- What kind of thing a value is, which decides what can be done with it. -/
inductive ValueKind where
  | nothing
  | flag
  | whole
  | double
  | text
  | list
  | record
  /-- What a host reports about its devices. -/
  | report
  deriving DecidableEq, Repr

/-- A comparison of two values. -/
inductive Comparison where
  | below
  | above
  | atMost
  deriving DecidableEq, Repr

/-- Why a member of the processor does not take the operands of an instruction. -/
inductive Refusal where
  /-- It takes nothing but the processor. -/
  | noOperands (member : String)
  /-- It takes nothing at all. -/
  | noArguments (member : String)
  /-- It takes nothing and does not say whose member it is. -/
  | nothing
  /-- It takes two bytes. -/
  | twoBytes (member : String)
  /-- It takes a word. -/
  | aWord
  /-- It takes the bytes of a program. -/
  | aProgram
  /-- It takes the name of a member. -/
  | aName
  /-- It takes the name of a member and a value. -/
  | aNameAndValue
  /-- It takes the text of a format. -/
  | aFormat (member : String)
  /-- It takes a type of things. -/
  | aType (owner member : String)
  /-- It takes a whole number. -/
  | aNumber
  /-- It is a value and does nothing. -/
  | idle (type : String)
  deriving DecidableEq, Repr

/-- What the multimedia library raises when it refuses a call. -/
inductive LibraryError where
  /-- An error of its own. -/
  | failure (reason : String)
  /-- The values that it was given make no sense. -/
  | values (reason : String)
  deriving DecidableEq, Repr

/-- A failure and its cause. -/
inductive Error where
  /-- A memory of this size ends below the first program byte. -/
  | noRoomForPrograms (size : Int)
  | addressOutside (address : Int) (size : Nat)
  | negativeLength
  | programTooLarge (length capacity : Nat)
  /-- A program holds a number that is no byte. -/
  | notAByte
  /-- An instruction would be fetched from outside memory. -/
  | counterOutside (pc : Int) (limit : Nat)
  | stackOverflow (address : Int) (capacity : Nat)
  | stackUnderflow
  /-- The instruction table names a handler that does not exist. -/
  | noHandler (name : String)
  /-- The instruction table names a member of the processor that is no operation. -/
  | refused (why : Refusal)
  /-- A stack or a trace without room for an entry. -/
  | capacityNotPositive
  | keyOutOfRange (key : Int)
  /-- A key that has no counter. -/
  | noSuchCounter
  | noSuchRegister
  /-- A number of a counter or a register that does not even fit into 64 bits. -/
  | numberBeyondWord
  | sizeNotPositive
  | pixelOutside (x y : Int) (picture : Picture) (width height : Nat)
  /-- A pixel inside the bounds of an image whose rows are too short to hold it. -/
  | pixelMissing
  | paletteSize
  | paletteColour
  | scaleNotPositive
  | gridEmpty
  | maskOutOfRange (mask : Int)
  | patternOutsideMask (value mask : Int)
  /-- Two instructions claim a word. -/
  | wordTaken (word : Nat) (mnemonic : String)
  | programEmpty
  | programTooLong (limit : Nat)
  | cyclesNotPositive
  | frequencyZero
  /-- A whole number is divided by a frequency that is the whole number zero. -/
  | wholeFrequencyZero
  /-- A quotient of whole numbers beyond all floating-point numbers. -/
  | quotientTooGreat
  /-- An infinite number was to become a whole one. -/
  | infinityNotWhole
  /-- NaN was to become a whole number. -/
  | nanNotWhole
  | sampleTooGreat
  | sampleTooSmall
  /-- A sample that does not even fit into 64 bits. -/
  | sampleBeyondWord
  /-- A whole number beyond all floating-point numbers. -/
  | numberTooGreat
  /-- A width for a value in a message that is beyond 64 bits. -/
  | widthTooGreat
  /-- A precision for a value in a message that is beyond 32 bits. -/
  | precisionTooGreat
  /-- A precision that no number can be written with. -/
  | precisionTooLarge
  /-- More cells than can be counted. -/
  | countTooGreat
  /-- Copies of cells that are more than can be counted. -/
  | copiesTooMany
  /-- More cells than there is room for. -/
  | noRoom
  /-- A code point beyond all characters. -/
  | noSuchCharacter
  /-- A whole number that is too long to be written in base ten. -/
  | tooManyDigits
  /-- A text with surrogates, the first ones at these places, that was to be printed. -/
  | unencodable (surrogate first last : Nat)
  | fileMissing
  /-- A directory was to be read. -/
  | fileIsDirectory
  /-- A path leads through a file. -/
  | notADirectory
  | nameTooLong
  /-- A path or a setting with a NUL inside, which would end it there. -/
  | embeddedNul
  /-- A value has no member of a name. -/
  | memberLacking (owner : ValueKind) (member : String)
  /-- Values of two kinds have no order. -/
  | notOrdered (comparison : Comparison) (left right : ValueKind)
  /-- A value that has no parts was to be taken apart. -/
  | noParts (kind : ValueKind)
  /-- A value that should have two parts has fewer or more. -/
  | tooFewParts (count : Nat)
  | tooManyParts
  /-- A value of this kind cannot be looked up. -/
  | notAKey (kind : ValueKind)
  /-- A value of this kind does not number anything. -/
  | notANumber (kind : ValueKind)
  /-- The seed is no number. -/
  | seedUnusable
  | unknownPalette (name : String)
  /-- The multimedia library cannot be loaded. -/
  | libraryMissing (needed : Facility)
  /-- The multimedia library refuses a call. -/
  | library (e : LibraryError)
  | mixerNotReady
  | programRequired
  | programNotFound (path : String)
  | programRejected (path reason : String)
  /-- The report on a failed instruction. -/
  | faulted (report : String)
  deriving DecidableEq, Repr

/-- What the multimedia library is needed for. -/
def Facility.purpose : Facility → String
  | window => "to run the UI"
  | sound => "for audio output"
  | surface => "to build surfaces"

def Picture.title : Picture → String
  | frameBuffer => "frame buffer"
  | image => "image"

def ValueKind.name : ValueKind → String
  | nothing => "NoneType"
  | flag => "bool"
  | whole => "int"
  | double => "float"
  | text => "str"
  | list => "list"
  | record => "dict"
  | report => "types.SimpleNamespace"

def Comparison.sign : Comparison → String
  | below => "<"
  | above => ">"
  | atMost => "<="

def LibraryError.reason : LibraryError → String
  | failure reason | values reason => reason

/-- The text that reports the refusal. -/
def Refusal.message : Refusal → String
  | noOperands member => "Chip8CPU." ++ member ++ "() takes 1 positional argument but 2 were given"
  | noArguments member => "Chip8CPU." ++ member ++ "() takes no arguments (1 given)"
  | nothing => "expected 0 arguments, got 1"
  | twoBytes member => "Chip8CPU." ++ member ++ "() missing 1 required positional argument: 'y'"
  | aWord => "unsupported operand type(s) for &: 'Operands' and 'int'"
  | aProgram => "cannot convert 'Operands' object to bytes"
  | aName => "attribute name must be string, not 'Operands'"
  | aNameAndValue => " expected 2 arguments, got 1"
  | aFormat member => member ++ "() argument must be str, not Operands"
  | aType owner member => owner ++ "." ++ member ++ "(X): X is not a type object (Operands)"
  | aNumber => "'Operands' object cannot be interpreted as an integer"
  | idle type => "'" ++ type ++ "' object is not callable"

namespace Error

/-- The text that reports the error. -/
def message : Error → String
  | noRoomForPrograms size => "memory size " ++ toString size ++ " leaves no room for programs"
  | addressOutside address size =>
    "address " ++ addressText address ++ " outside memory 0x0000-" ++ addressText (size - 1)
  | negativeLength => "length must not be negative"
  | programTooLarge length capacity =>
    "program of " ++ toString length ++ " bytes exceeds " ++ toString capacity ++ " byte capacity"
  | notAByte => "bytes must be in range(0, 256)"
  | counterOutside pc limit =>
    "program counter " ++ addressText pc ++ " outside memory (limit " ++ addressText limit ++ ")"
  | stackOverflow address capacity =>
    "call stack overflow pushing " ++ addressText address ++ " (capacity " ++ toString capacity ++
      ")"
  | stackUnderflow => "return with empty call stack"
  | noHandler name => "handler '" ++ name ++ "' not implemented"
  | refused why => why.message
  | capacityNotPositive => "capacity must be positive"
  | keyOutOfRange key => "key index out of range: " ++ toString key
  | noSuchCounter => "list index out of range"
  | noSuchRegister => "list assignment index out of range"
  | numberBeyondWord => "cannot fit 'int' into an index-sized integer"
  | sizeNotPositive => "frame buffer dimensions must be positive"
  | pixelOutside x y picture width height =>
    "pixel (" ++ toString x ++ ", " ++ toString y ++ ") outside " ++ toString width ++ "x" ++
      toString height ++ " " ++ picture.title
  | pixelMissing => "bytearray index out of range"
  | paletteSize => "palette must contain exactly two colours (background and foreground)"
  | paletteColour => "palette entries must be RGB tuples"
  | scaleNotPositive => "scale must be positive"
  | gridEmpty => "grid must contain at least one row"
  | maskOutOfRange mask => "mask out of range: " ++ toString mask
  | patternOutsideMask value mask =>
    "pattern " ++ addressText value ++ " has bits outside mask " ++ addressText mask
  | wordTaken word mnemonic =>
    "opcode " ++ addressText word ++ " already registered as " ++ mnemonic
  | programEmpty => "program image is empty"
  | programTooLong limit => "program image exceeds " ++ toString limit ++ " bytes"
  | cyclesNotPositive => "cycles_per_frame must be positive"
  | frequencyZero => "float division by zero"
  | wholeFrequencyZero => "division by zero"
  | quotientTooGreat => "integer division result too large for a float"
  | infinityNotWhole => "cannot convert float infinity to integer"
  | nanNotWhole => "cannot convert float NaN to integer"
  | sampleTooGreat => "signed short integer is greater than maximum"
  | sampleTooSmall => "signed short integer is less than minimum"
  | sampleBeyondWord => "Python int too large to convert to C long"
  | numberTooGreat => "int too large to convert to float"
  | widthTooGreat => "Python int too large to convert to C ssize_t"
  | precisionTooGreat => "Python int too large to convert to C int"
  | precisionTooLarge => "precision too large"
  | countTooGreat => "cannot fit 'int' into an index-sized integer"
  | copiesTooMany => "repeated bytes are too long"
  | noRoom => ""
  | noSuchCharacter => "%c arg not in range(0x110000)"
  | tooManyDigits =>
    "Exceeds the limit (4300 digits) for integer string conversion; use " ++
      "sys.set_int_max_str_digits() to increase the limit"
  | unencodable surrogate first last =>
    "'utf-8' codec can't encode " ++
      (if first = last then "character '\\u" ++ hexNumeral ⟨4, false, false⟩ surrogate ++
        "' in position " ++ toString first
      else "characters in position " ++ toString first ++ "-" ++ toString last) ++
      ": surrogates not allowed"
  | fileMissing => "no such file or directory"
  | fileIsDirectory => "is a directory"
  | notADirectory => "not a directory"
  | nameTooLong => "file name too long"
  | embeddedNul => "embedded null byte"
  | memberLacking owner member =>
    "'" ++ owner.name ++ "' object has no attribute '" ++ member ++ "'"
  | notOrdered comparison left right =>
    "'" ++ comparison.sign ++ "' not supported between instances of '" ++ left.name ++ "' and '" ++
      right.name ++ "'"
  | noParts kind => "cannot unpack non-iterable " ++ kind.name ++ " object"
  | tooFewParts count => "not enough values to unpack (expected 2, got " ++ toString count ++ ")"
  | tooManyParts => "too many values to unpack (expected 2)"
  | notAKey kind => "unhashable type: '" ++ kind.name ++ "'"
  | notANumber kind => "list indices must be integers or slices, not " ++ kind.name
  | seedUnusable =>
    "The only supported seed types are: None,\nint, float, str, bytes, and bytearray."
  | unknownPalette name => "unknown palette '" ++ name ++ "'"
  | libraryMissing needed => "pygame is required " ++ needed.purpose
  | library e => e.reason
  | mixerNotReady => "pygame mixer must be initialised before creating SquareWaveBeeper"
  | programRequired => "ROM image is required; pass --rom <path>"
  | programNotFound path => "ROM file not found: " ++ path
  | programRejected path reason => "Failed to load ROM " ++ path ++ ": " ++ reason
  | faulted report => report

def isMemory : Error → Bool
  | noRoomForPrograms _ | addressOutside _ _ | negativeLength | programTooLarge _ _ => true
  | _ => false

def isProcessor : Error → Bool
  | counterOutside _ _ | stackOverflow _ _ | stackUnderflow | noHandler _ => true
  | _ => false

/-- The errors of numbers that are too great, or too small, for what they are needed for. -/
def isExcess : Error → Bool
  | infinityNotWhole | sampleTooGreat | sampleTooSmall | sampleBeyondWord | numberTooGreat
  | quotientTooGreat | widthTooGreat | precisionTooGreat | precisionTooLarge | countTooGreat
  | copiesTooMany | noSuchCharacter => true
  | _ => false

/-- The errors of a session that are its own: those that a report tells the user about. -/
def isSession : Error → Bool
  | programEmpty | programTooLong _ | libraryMissing _ | library (.failure _) | mixerNotReady
  | programRequired | programNotFound _ | programRejected _ _ | faulted _ => true
  | _ => false

/-- The errors with which an instruction fails. -/
def isFault (e : Error) : Bool := e.isMemory || e.isProcessor

end Error

end Chip8
