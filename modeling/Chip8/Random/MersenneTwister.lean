/-!
# The Mersenne Twister

The generator MT19937: 624 words of 32 bits, renewed all at once by a linear recurrence and
tempered one by one into the output. The seed is a list of words of any length.
-/

namespace Chip8.MersenneTwister

/-- The number of words of the state. -/
def stateSize : Nat := 624

/-- How far ahead the recurrence looks. -/
def lookAhead : Nat := 397

/-- The words of the state and the number of those already used. -/
structure State where
  words : Array UInt32
  used : Nat

/-- The state that a single word spreads to. -/
def spread (seed : UInt32) : Array UInt32 :=
  (List.range (stateSize - 1)).foldl (fun words i =>
    let last := words.getD i 0
    words.push ((1812433253 : UInt32) * (last ^^^ (last >>> 30)) + UInt32.ofNat (i + 1))) #[seed]

/-- Where the mixing of the seed stands: the next word of the state and the next of the seed. -/
structure Cursor where
  words : Array UInt32
  i : Nat
  j : Nat

/-- The cursor one word on. After the last word comes the second one; the first takes the value of
the last. -/
def Cursor.next (c : Cursor) : Cursor :=
  if c.i + 1 < stateSize then { c with i := c.i + 1 }
  else { c with words := c.words.setIfInBounds 0 (c.words.getD (stateSize - 1) 0), i := 1 }

/-- The word before the cursor, folded and multiplied, joined to the word at the cursor. -/
def Cursor.mixed (c : Cursor) (factor : UInt32) : UInt32 :=
  let last := c.words.getD (c.i - 1) 0
  c.words.getD c.i 0 ^^^ ((last ^^^ (last >>> 30)) * factor)

/-- Mixes one word of the seed in. -/
def Cursor.stir (seed : Array UInt32) (c : Cursor) : Cursor :=
  let word := c.mixed 1664525 + seed.getD c.j 0 + UInt32.ofNat c.j
  let c := Cursor.next { c with words := c.words.setIfInBounds c.i word }
  { c with j := if c.j + 1 < seed.size then c.j + 1 else 0 }

/-- Mixes one word of the state once more. -/
def Cursor.settle (c : Cursor) : Cursor :=
  let word := c.mixed 1566083941 - UInt32.ofNat c.i
  Cursor.next { c with words := c.words.setIfInBounds c.i word }

def State.ofWords (seed : Array UInt32) : State :=
  let c : Cursor := ⟨spread 19650218, 1, 0⟩
  let c := Nat.repeat (Cursor.stir seed) (max stateSize seed.size) c
  let c := Nat.repeat Cursor.settle (stateSize - 1) c
  ⟨c.words.setIfInBounds 0 0x80000000, stateSize⟩

/-- The digits of `n` in base `2 ^ 32`, the lowest first. -/
def seedWords (n : Nat) : List UInt32 :=
  if h : n < 4294967296 then [UInt32.ofNat n]
  else UInt32.ofNat n :: seedWords (n / 4294967296)
termination_by n
decreasing_by omega

/-- The state of a whole number, whose sign does not count. -/
def State.ofInt (seed : Int) : State := .ofWords (seedWords seed.natAbs).toArray

/-- The word `k` of the next state. -/
def twist (words : Array UInt32) (k : Nat) : UInt32 :=
  let joined := (words.getD k 0 &&& 0x80000000) |||
    (words.getD ((k + 1) % stateSize) 0 &&& 0x7FFFFFFF)
  let far := words.getD ((k + lookAhead) % stateSize) 0
  far ^^^ (joined >>> 1) ^^^ (if joined &&& 1 = 1 then 0x9908B0DF else 0)

/-- The next state. Each word is made from words that are in part already new. -/
def renew (words : Array UInt32) : Array UInt32 :=
  (List.range stateSize).foldl (fun words k => words.setIfInBounds k (twist words k)) words

/-- The output of a word. -/
def temper (y : UInt32) : UInt32 :=
  let y := y ^^^ (y >>> 11)
  let y := y ^^^ ((y <<< 7) &&& 0x9D2C5680)
  let y := y ^^^ ((y <<< 15) &&& 0xEFC60000)
  y ^^^ (y >>> 18)

def State.next (s : State) : UInt32 × State :=
  if s.used < stateSize then (temper (s.words.getD s.used 0), { s with used := s.used + 1 })
  else
    let words := renew s.words
    (temper (words.getD 0 0), ⟨words, 1⟩)

/-- The first of at most `attempts` outputs whose top nine bits are a number below 256, and that
number; zero if there is none. -/
def State.nextByteWithin : Nat → State → UInt8 × State
  | 0, s => (0, s)
  | attempts + 1, s =>
    let (word, s) := s.next
    let top := word >>> 23
    if top < 256 then (top.toUInt8, s) else nextByteWithin attempts s

/-- The next number from 0 to 255. The top bits of the outputs form a linear recurring sequence of
degree 19937, in which no run of ones is longer than that, so the attempts suffice. -/
def State.nextByte (s : State) : UInt8 × State := s.nextByteWithin 19938

end Chip8.MersenneTwister
