import Chip8.Cpu.Step
import Chip8.Host.Reading
import Chip8.Proofs.Text.Messages

/-!
# What the interpreter says

`Debug.Spoken` are the messages of the interpreter for its debug lines, with any values in them. All
of them can be printed, whatever is switched on and however little room there is (`Spoken.say`): no
directive in them can fail, and the texts that they show are made of characters.
Hence an operation that says one of them goes on behind it: it has the lines of the message and is
otherwise the operation without it (`Action.run_say`, `CpuOutcome.saying_eq`).
-/

namespace Chip8

namespace Debug

open Text (Value)

/-- A message for the debug lines. -/
structure Message where
  category : String
  text : String
  values : List Value

/-- The lines of a message that can be printed. -/
def Printer.lines (dbg : Printer) (category text : String) (values : List Value) : List Line :=
  (dbg.say category text values).toOption.getD []

def Message.lines (dbg : Printer) (m : Message) : List Line := dbg.lines m.category m.text m.values

/-- What the interpreter says. -/
inductive Spoken : Message → Prop where
  /-- A message without values. -/
  | plain (category text : String) : Spoken ⟨category, text, []⟩
  | keyWait (c : Cpu) :
    Spoken ⟨"cpu", "key wait pc=%04x register=V%X", [.own c.pc, c.reportedRegister]⟩
  | fetched (address word : Int) :
    Spoken ⟨"cpu", "pc=%04x opcode=%04x", [.own address, .own word]⟩
  | unknownWord (word pc : Int) :
    Spoken ⟨"cpu", "unknown opcode=%04x pc=%04x", [.own word, .own pc]⟩
  | ret (pc depth : Int) : Spoken ⟨"stack", "ret pc=%04x depth=%d", [.own pc, .own depth]⟩
  | call (pc depth : Int) : Spoken ⟨"stack", "call pc=%04x depth=%d", [.own pc, .own depth]⟩
  | key (index : Int) (pressed : Bool) :
    Spoken ⟨"input", "key=%X pressed=%s", [.own index, .flag pressed]⟩
  | unmappedPress (name : String) : Spoken ⟨"input", "unmapped_press=%s", [.text name]⟩
  | unmappedRelease (name : String) : Spoken ⟨"input", "unmapped_release=%s", [.text name]⟩
  | tone (active : Bool) : Spoken ⟨"audio", "tone=%s", [.flag active]⟩
  | frame (count executed pc delay sound : Int) :
    Spoken ⟨"perf", "frame=%d executed=%d pc=%04x dt=%d st=%d",
      [.own count, .own executed, .own pc, .own delay, .own sound]⟩
  | loaded (name : String) (size : Int) :
    Spoken ⟨"loader", "name=%s size=%d", [.text name, .own size]⟩
  | hostKey (key : Reading) (pressed : Bool) :
    Spoken ⟨"input", "event=%s pressed=%s", [key.label, .flag pressed]⟩
  | stickAttached (index : Int) (name : Reading) :
    Spoken ⟨"input", "joystick_attached index=%d name=%s", [.own index, name.label]⟩
  | sticksUnusable (reason : String) :
    Spoken ⟨"input", "joystick_init_failed=%s", [.text reason]⟩
  | stickUnusable (index : Int) (reason : String) :
    Spoken ⟨"input", "joystick_open_failed index=%d error=%s", [.own index, .text reason]⟩
  | stickDetached (id : Reading) : Spoken ⟨"input", "joystick_detached id=%s", [id.label]⟩
  | mixerUnusable (reason : String) : Spoken ⟨"audio", "mixer_init_failed=%s", [.text reason]⟩
  | beeperUnusable (reason : String) : Spoken ⟨"audio", "beeper_init_failed=%s", [.text reason]⟩

namespace Spoken

variable {m : Message}

theorem writable (h : Spoken m) : m.values.all Value.isWritable = true := by
  cases h <;> simp

theorem tame (h : Spoken m) (room : Room) :
    m.values = [] ∨ Text.tame room (Text.pieces m.text.toList) m.values = true := by
  have hroom := room.least
  cases h <;>
    simp [Text.pieces, Text.Directive.read, Text.readMeasure, Text.readPrecision, Text.dropSize,
      Text.isFlag, Text.digitsValue, Text.tame, Text.Directive.tame, Value.isDouble,
      Text.Measure.tame]
  all_goals omega

theorem compose (h : Spoken m) (room : Room) :
    ∃ text, Text.compose room m.text m.values = .ok (Text.codePoints text) := by
  rcases h.tame room with hnone | htame
  · rw [hnone]
    exact ⟨_, rfl⟩
  · exact Text.compose_of_tame htame h.writable

/-- Whatever is switched on, the message can be printed. -/
theorem say {category text : String} {values : List Value} (h : Spoken ⟨category, text, values⟩)
    (dbg : Printer) : dbg.say category text values = .ok (dbg.lines category text values) := by
  obtain ⟨written, hwritten⟩ := h.compose dbg.room
  unfold Printer.lines
  cases hon : dbg.enabled (some category) with
  | false =>
    rw [Printer.say_of_off hon]
    rfl
  | true =>
    rw [Printer.say_of_compose hon hwritten]
    rfl

end Spoken

end Debug

open Debug (Printer Spoken)

variable {category text : String} {values : List Text.Value}

theorem Action.run_say {σ : Type} (h : Spoken ⟨category, text, values⟩) (dbg : Printer) (s : σ) :
    (say dbg category text values).run s = .done () s (dbg.lines category text values) := by
  simp only [run, say, h.say dbg]

theorem CpuOutcome.saying_eq {α : Type} (h : Spoken ⟨category, text, values⟩) (dbg : Printer)
    (o : CpuOutcome α) :
    o.saying (dbg.say category text values) =
      { o with lines := o.lines ++ dbg.lines category text values } := by
  rw [h.say dbg]
  rfl

end Chip8
