import Chip8.Proofs.Cpu.Footprint
import Chip8.Proofs.Cpu.Rewind

/-!
# Timers and instructions

An operation of the processor tells each start and each end of the tone that it brings about, and no
other (`CpuOutcome.Tells`).

Of the standard instructions only those of the words `FX07`, `FX15` and `FX18` work with the timers
(`InstructionTable.timersByWord_standard`). A step that fetches none of these words does the same
whatever the timers hold (`step_withTimers`). So ticks can be put anywhere between the events of a
run that executes none of them: they take their number off both timers, end the tone if the sound
timer runs out, and change nothing else (`play_with_ticks`).
-/

namespace Chip8

open Debug (Printer)

/-! ## What the processor tells -/

theorem Timers.crossing_eq_none {old new : Timers} (h : new.sound = old.sound) :
    crossing old new = none := by
  have ht : old.toneActive = new.toneActive := by rw [toneActive, toneActive, h]
  exact if_pos ht

/-- The operation tells the start or the end of the tone that it brings about. -/
def CpuOutcome.Tells {α : Type} (c : Cpu) (o : CpuOutcome α) : Prop :=
  o.tones = Timers.events (Timers.crossing c.timers o.cpu.timers)

namespace Cpu

variable {α : Type} (dbg : Printer) (c : Cpu)

theorem tells_of_silent {c : Cpu} {o : CpuOutcome α} (ht : o.tones = [])
    (hs : o.cpu.timers.sound = c.timers.sound) : o.Tells c := by
  rw [CpuOutcome.Tells, ht, Timers.crossing_eq_none hs]
  rfl

theorem tones_storeAtIndex (data : List Int) : (c.storeAtIndex data).tones = [] := by
  unfold storeAtIndex
  split <;> rfl

theorem tones_perform (o : Operands) {op : Operation} (hop : op ≠ .setSound) :
    (c.perform dbg o op).tones = [] := by
  cases op with
  | setSound => exact absurd rfl hop
  | ret =>
    rw [perform_ret]
    split <;> rfl
  | call =>
    rw [perform_call]
    split <;> rfl
  | draw | waitKey | addIndex | loadRegisters =>
    simp only [perform]
    split <;> rfl
  | storeDecimal | storeRegisters => exact tones_storeAtIndex c _
  | _ => rfl

theorem tells_perform (o : Operands) (op : Operation) : (c.perform dbg o op).Tells c := by
  by_cases hop : op = .setSound
  · subst hop
    rfl
  · obtain ⟨hfoot, -⟩ := footprint_perform dbg c o op
    rcases hfoot.sound with hs | hs
    · exact tells_of_silent (tones_perform dbg c o hop) hs
    · exact absurd hs hop

theorem tells_execute (word : Int) : (c.execute dbg word).Tells c := by
  rw [execute_eq]
  split
  · exact tells_of_silent rfl rfl
  split
  · exact tells_perform dbg c _ _
  · next m _ => cases m <;> exact tells_of_silent rfl rfl
  · exact tells_of_silent rfl rfl

theorem tells_step : (c.step dbg).Tells c := by
  rcases step_cases dbg c with
    ⟨d, result, runState, lines, hd, heq⟩ | ⟨word, lines, -, -, heq⟩
  · have htimers : d.timers = c.timers := by rcases hd with rfl | ⟨rfl, -⟩ <;> rfl
    rw [heq]
    exact tells_of_silent rfl (congrArg Timers.sound htimers)
  · rw [heq]
    exact tells_execute dbg c.advance word

theorem tells_tick : c.tick.Tells c := rfl

theorem tells_reset : c.reset.Tells c := rfl

theorem tells_setKey (index : Int) (pressed : Bool) : (c.setKey dbg index pressed).Tells c :=
  tells_of_silent rfl rfl

end Cpu

/-! ## Instructions that work with the timers -/

/-- The instruction of the word works with the timers. -/
def InstructionTable.UsesTimers (t : InstructionTable) (word : Int) : Prop :=
  ∃ i op, t.lookup word = some i ∧ i.handler = .operation op ∧ op.UsesTimers

/-- The words `FX07`, `FX15` and `FX18`. -/
def IsTimerWord (w : Nat) : Prop :=
  w / 0x1000 = 0xF ∧ (w % 0x100 = 0x07 ∨ w % 0x100 = 0x15 ∨ w % 0x100 = 0x18)

/-- No other words have an instruction that works with the timers. -/
def InstructionTable.TimersByWord (t : InstructionTable) : Prop :=
  ∀ w < 0x10000, t.UsesTimers (w : Nat) → IsTimerWord w

theorem InstructionTable.timersByWord_standard : standard.TimersByWord := by
  rintro w hw ⟨i, op, hi, hop, huses⟩
  have hfit : op.Fits w := fits_of_handler hw hi hop
  rcases huses with rfl | rfl | rfl
  all_goals
    rw [Operation.fits_iff rfl, and_f0ff hw] at hfit
    unfold IsTimerWord
    omega

namespace Cpu

variable (dbg : Printer) {c : Cpu} {t : Timers}

def withTimers (t : Timers) (c : Cpu) : Cpu := { c with timers := t }

/-- If the processor fetches a word, it is none that works with the timers. -/
def FetchesNoTimerWord (c : Cpu) : Prop :=
  c.idle = false → ∀ w, c.wordAt c.pc = some w → ¬ IsTimerWord w

theorem step_withTimers (ht : c.table.TimersByWord) (h : c.FetchesNoTimerWord) :
    (c.withTimers t).step dbg = (c.step dbg).mapCpu (withTimers t) := by
  refine step_aside dbg id (fun _ => t) fun hi w hw i op hl hop => ?_
  obtain ⟨-, -, hlt⟩ := canFetch_of_wordAt hw
  have hop : ¬ op.UsesTimers := fun huses => h hi w hw (ht w hlt ⟨i, op, hl, hop, huses⟩)
  exact perform_aside dbg (fun _ => rfl) (fun huses => absurd huses hop) fun _ => ⟨rfl, rfl⟩

/-- The timers stay, and nobody is told anything. -/
theorem silent_step (ht : c.table.TimersByWord) (h : c.FetchesNoTimerWord) :
    (c.step dbg).tones = [] := by
  have hsame : c.step dbg = (c.step dbg).mapCpu (withTimers c.timers) :=
    step_withTimers dbg ht h
  have htimers : (c.step dbg).cpu.timers = c.timers := by rw [hsame]; rfl
  rw [tells_step dbg c, htimers, Timers.crossing_eq_none rfl]
  rfl

/-! ## Ticks between events -/

/-- What events in turn come to: the processor at the end, how each step ended, the changes of the
tone and the lines. -/
structure Played where
  cpu : Cpu
  steps : List (Except Error Bool)
  tones : List Bool
  lines : List Debug.Line

/-- What they come to behind an operation, which may have been a step. -/
def Played.behind (steps : List (Except Error Bool)) (o : CpuOutcome Unit) (p : Played) : Played :=
  { cpu := p.cpu
    steps := steps ++ p.steps
    tones := o.tones ++ p.tones
    lines := o.lines ++ p.lines }

/-- How the step ends if the event is one. -/
def stepResult (dbg : Printer) (c : Cpu) : Event → List (Except Error Bool)
  | .step => [(c.step dbg).result]
  | _ => []

def play (dbg : Printer) : List Event → Cpu → Played
  | [], c => ⟨c, [], [], []⟩
  | e :: events, c =>
    let o := respond dbg (step dbg) e c
    (play dbg events o.cpu).behind (c.stepResult dbg e) o

/-- No step fetches a word that works with the timers. -/
def Untimed (dbg : Printer) : List Event → Cpu → Prop
  | [], _ => True
  | e :: events, c =>
    (e = .step → c.FetchesNoTimerWord) ∧ Untimed dbg events (respond dbg (step dbg) e c).cpu

def Event.isTick : Event → Bool
  | .tick => true
  | _ => false

end Cpu

namespace Timers

/-- The timers after a number of ticks. -/
def down (t : Timers) (k : Nat) : Timers := ⟨t.delay - k, t.sound - k⟩

/-- The changes of the tone in a number of ticks. -/
def tonesDown (t : Timers) (k : Nat) : List Bool :=
  if 0 < t.sound ∧ t.sound ≤ k then [false] else []

theorem down_tick (t : Timers) (k : Nat) : t.tick.1.down k = t.down (k + 1) := by
  simp only [tick, down]
  congr 1 <;> omega

theorem tonesDown_zero (t : Timers) : t.tonesDown 0 = [] := if_neg (by omega)

theorem tonesDown_tick (t : Timers) (k : Nat) :
    events t.tick.2 ++ t.tick.1.tonesDown k = t.tonesDown (k + 1) := by
  obtain ⟨delay, sound⟩ := t
  match sound with
  | 0 => simp [tick, crossing, toneActive, events, tonesDown]
  | 1 => simp [tick, crossing, toneActive, events, tonesDown]
  | sound + 2 => simp [tick, crossing, toneActive, events, tonesDown]

end Timers

namespace Cpu

variable (dbg : Printer) {c : Cpu} {t : Timers}

theorem Untimed.step {events : List Event} (h : c.FetchesNoTimerWord)
    (hrest : Untimed dbg events (c.step dbg).cpu) : Untimed dbg (.step :: events) c :=
  ⟨fun _ => h, hrest⟩

theorem play_withTimers (ht : c.table.TimersByWord) {events : List Event}
    (hreset : .reset ∉ events) (h : Untimed dbg (events.filter fun e => !e.isTick) c) :
    let calm := play dbg (events.filter fun e => !e.isTick) c
    play dbg events (c.withTimers t) =
      { calm with
        cpu := calm.cpu.withTimers (t.down (events.countP Event.isTick))
        tones := t.tonesDown (events.countP Event.isTick) } := by
  induction events generalizing c t with
  | nil =>
    simp only [List.filter_nil, List.countP_nil, play, Timers.tonesDown_zero]
    rfl
  | cons e events ih =>
    have hlater : .reset ∉ events := fun hmem => hreset (.tail e hmem)
    cases e with
    | tick =>
      have hrest := ih (t := t.tick.1) ht hlater h
      have hplay : play dbg (.tick :: events) (c.withTimers t) =
          (play dbg events (c.withTimers t.tick.1)).behind [] (c.withTimers t).tick := rfl
      rw [hplay, hrest, List.filter_cons_of_neg (by simp [Event.isTick]),
        List.countP_cons_of_pos rfl, ← Timers.down_tick, ← Timers.tonesDown_tick]
      rfl
    | step =>
      obtain ⟨hstep, hcalm⟩ := h
      have ho := step_withTimers (t := t) dbg ht (hstep rfl)
      have htable : (c.step dbg).cpu.table = c.table := ((table_kept dbg c.table).step rfl).1
      have hrest := ih (t := t) (c := (c.step dbg).cpu) (htable ▸ ht) hlater hcalm
      have hplay : play dbg (.step :: events) (c.withTimers t) =
          (play dbg events ((c.step dbg).cpu.withTimers t)).behind [(c.step dbg).result]
            ((c.step dbg).map fun _ => ()) := by
        simp only [play, respond, stepResult, ho]
        rfl
      have htones : ((c.step dbg).map fun _ => ()).tones = [] :=
        silent_step dbg ht (hstep rfl)
      rw [hplay, hrest, List.filter_cons_of_pos (by simp [Event.isTick]),
        List.countP_cons_of_neg (by simp [Event.isTick])]
      simp only [Played.behind, htones, List.nil_append]
      rfl
    | key index pressed =>
      have hrest := ih (t := t) (c := (c.setKey dbg index pressed).cpu) ht hlater h.2
      have hplay : play dbg (.key index pressed :: events) (c.withTimers t) =
          (play dbg events ((c.setKey dbg index pressed).cpu.withTimers t)).behind []
            (c.setKey dbg index pressed) := rfl
      rw [hplay, hrest, List.filter_cons_of_pos (by simp [Event.isTick]),
        List.countP_cons_of_neg (by simp [Event.isTick])]
      rfl
    | reset => exact absurd List.mem_cons_self hreset

/-- Ticks between the events of a run that executes no word which works with the timers. Apart from
the timers the run comes to the same as without them, wherever they are. -/
theorem play_with_ticks (ht : c.table.TimersByWord) {events : List Event}
    (hreset : .reset ∉ events) (h : Untimed dbg (events.filter fun e => !e.isTick) c) :
    let k := events.countP Event.isTick
    let calm := play dbg (events.filter fun e => !e.isTick) c
    play dbg events c =
      { cpu := calm.cpu.withTimers ⟨c.timers.delay - k, c.timers.sound - k⟩
        steps := calm.steps
        tones := if 0 < c.timers.sound ∧ c.timers.sound ≤ k then [false] else []
        lines := calm.lines } :=
  play_withTimers (t := c.timers) dbg ht hreset h

/-- A processor with running timers whose program jumps to itself. -/
def looping : Cpu :=
  { create (Memory.standard.overwrite programStart [0x12, 0x00]) .standard .released .legacy
      .standard (.cycle []) with
    timers := ⟨5, 2⟩ }

theorem wordAt_looping : looping.wordAt looping.pc = some 0x1200 :=
  wordAt_of_program rfl (by decide) 0 rfl rfl (by decide)

theorem step_looping : (looping.step .off).cpu = { looping with executed := 1 } := by
  have ht : looping.table = .standard := rfl
  have hfit : Operation.jump.Fits 0x1200 := by decide
  obtain ⟨-, -, hcpu⟩ := step_of_fits .off ht rfl wordAt_looping hfit rfl
  rw [hcpu]
  rfl

theorem untimed_looping : Untimed .off [.step, .step] looping := by
  have hword : ∀ w, looping.wordAt looping.pc = some w → ¬ IsTimerWord w := by
    intro w hw
    obtain rfl : w = 0x1200 := Option.some.inj (hw.symm.trans wordAt_looping)
    unfold IsTimerWord
    omega
  have hfirst : looping.FetchesNoTimerWord := fun _ => hword
  have hsecond : (looping.step .off).cpu.FetchesNoTimerWord := by
    rw [step_looping]
    exact fun _ => hword
  exact .step .off hfirst (.step .off hsecond trivial)

theorem play_with_ticks_looping :
    let events : List Event := [.tick, .step, .tick, .step, .tick]
    looping.table.TimersByWord ∧ .reset ∉ events ∧
      Untimed .off (events.filter fun e => !e.isTick) looping ∧
      (play .off events looping).tones = [false] ∧
      (play .off events looping).cpu.timers = ⟨2, 0⟩ := by
  intro events
  have ht : looping.table.TimersByWord := InstructionTable.timersByWord_standard
  have hreset : .reset ∉ events := by simp [events]
  have h : Untimed .off (events.filter fun e => !e.isTick) looping := untimed_looping
  have hplay := play_with_ticks .off ht hreset h
  refine ⟨ht, hreset, h, ?_, ?_⟩
  · rw [hplay]; rfl
  · rw [hplay]; rfl

end Cpu

end Chip8
