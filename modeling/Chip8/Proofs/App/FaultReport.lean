import Chip8.App.Run
import Chip8.Proofs.Machine.Halted
import Chip8.Proofs.Machine.Steps

/-!
# What the report on a fault names

The report looks at the processor only after the fault: it takes the instruction to lie two cells
before the program counter and reads its word there. A step that fails behind its fetch has moved
the counter by those two cells and left memory alone, so that the word is still the one that was
fetched (`Cpu.lastWord_of_step_failed`). The step may have been one of many in a frame, which ends
with the processor as the step left it (`runCycles_of_failed`, `StepStarts.failed`).

Within the bounds of the processor an address is a word, and the report gives both as four digits
(`wordText_of_lt`).
-/

namespace Chip8

open Debug (Printer)

/-! ## Words as four digits -/

namespace Text

/-- The digit of a number below sixteen, a capital above nine. -/
def capitalDigit (d : Nat) : Char :=
  ['0', '1', '2', '3', '4', '5', '6', '7', '8', '9', 'A', 'B', 'C', 'D', 'E', 'F'].getD d '?'

/-- The four digits of a word. -/
def fourDigits (w : Nat) : String :=
  .ofList [capitalDigit (w / 0x1000), capitalDigit (w / 0x100 % 0x10),
    capitalDigit (w / 0x10 % 0x10), capitalDigit (w % 0x10)]

theorem toUpper_digitChar {d : Nat} (h : d < 16) : (Nat.digitChar d).toUpper = capitalDigit d := by
  have hall : ∀ d : Fin 16, (Nat.digitChar d.val).toUpper = capitalDigit d.val := by decide
  exact hall ⟨d, h⟩

theorem hexDigits_of_lt {n : Nat} (h : n < 16) : hexDigits true n = [capitalDigit n] := by
  simp [hexDigits, Nat.toDigits_of_lt_base h, toUpper_digitChar h]

theorem hexDigits_of_le {n : Nat} (h : 16 ≤ n) :
    hexDigits true n = hexDigits true (n / 16) ++ [capitalDigit (n % 16)] := by
  simp [hexDigits, Nat.toDigits_of_base_le (b := 16) (by decide) h,
    toUpper_digitChar (Nat.mod_lt n (by decide : 16 > 0))]

/-- The last digit of a numeral that zeros fill up, and the numeral before it. -/
theorem padLeft_hexDigits {width : Nat} (hw : 0 < width) (n : Nat) :
    padLeft (width + 1) '0' (hexDigits true n) =
      padLeft width '0' (hexDigits true (n / 16)) ++ [capitalDigit (n % 16)] := by
  by_cases hn : n < 16
  · have hz : hexDigits true 0 = ['0'] := hexDigits_of_lt (by decide)
    obtain ⟨k, rfl⟩ := Nat.exists_eq_add_of_lt hw
    rw [Nat.div_eq_of_lt hn, Nat.mod_eq_of_lt hn, hexDigits_of_lt hn, hz]
    simp [padLeft, List.replicate_succ']
  · rw [hexDigits_of_le (Nat.le_of_not_lt hn)]
    simp [padLeft]

theorem wordText_of_lt {w : Nat} (h : w < 0x10000) : wordText w = fourDigits w := by
  have hfirst : hexDigits true (w / 0x1000) = [capitalDigit (w / 0x1000)] :=
    hexDigits_of_lt (by omega)
  have hdigits : padLeft 4 '0' (hexDigits true w) =
      [capitalDigit (w / 0x1000), capitalDigit (w / 0x100 % 0x10),
        capitalDigit (w / 0x10 % 0x10), capitalDigit (w % 0x10)] := by
    rw [padLeft_hexDigits (by decide), padLeft_hexDigits (by decide),
      padLeft_hexDigits (by decide), Nat.div_div_eq_div_mul, Nat.div_div_eq_div_mul, hfirst]
    simp [padLeft, Nat.div_div_eq_div_mul]
  have hsign : ¬ (w : Int) < 0 := by omega
  simp [wordText, hexNumeral, hsign, hdigits, fourDigits]

end Text

/-! ## The processor behind a failed step -/

namespace Cpu

variable {dbg : Printer} {c : Cpu} {e : Error}

/-- Unless there was nothing to fetch, the counter stands behind the word that was fetched. -/
theorem lastWord_of_step_failed (h : (c.step dbg).result = .error e)
    (hne : ∀ pc limit, e ≠ .counterOutside pc limit) :
    ∃ word, c.wordAt c.pc = some word ∧ (c.step dbg).cpu.pc = c.pc + 2 ∧
      (c.step dbg).cpu.lastWord = some word := by
  rcases step_failed dbg h with ⟨he, -⟩ | ⟨_, lines, -, hs⟩
  · exact absurd he (hne _ _)
  cases hw : c.wordAt c.pc with
  | none =>
    have hi : c.idle = false := by
      rw [← Bool.not_eq_true, idle_iff_step_false dbg, h]
      nofun
    rw [step_of_unfetchable dbg hi hw] at h
    cases h
    exact absurd rfl (hne _ _)
  | some word =>
    have hlast : c.advance.lastWord = some word := by
      have hpc : c.pc + 2 - 2 = c.pc := by omega
      show c.wordAt (c.pc + 2 - 2) = _
      rw [hpc, hw]
    rw [hs]
    by_cases hm : e.isMemory = true
    · simp only [if_pos hm]
      exact ⟨word, rfl, rfl, hlast⟩
    · simp only [if_neg hm]
      exact ⟨word, rfl, rfl, hlast⟩

theorem fetch_of_wordAt {word : Nat} (h : c.wordAt c.pc = some word) :
    c.fetch.result = .ok word := by
  obtain ⟨hf, hl, -⟩ := canFetch_of_wordAt h
  rw [fetch, if_pos hf, hl]
  rfl

end Cpu

/-! ## The report -/

/-- The last entries can be printed, whatever is in them. -/
theorem TraceRecorder.run_dump {σ : Type} (dbg : Printer) (category : String) (limit : Option Int)
    (r : TraceRecorder) (s : σ) :
    (r.dump dbg category limit).run s =
      .done () s ((r.format limit).flatMap fun line => dbg.lines category line []) := by
  unfold dump
  induction r.format limit with
  | nil => rfl
  | cons line lines ih =>
    simp only [List.forM, Action.run_bind, Action.run_say (.plain category line),
      Outcome.andThen_done, ih]
    rfl

namespace App

/-- The text names the instruction of a step that started at `c` and failed with `e`: the address
where the counter stood and, unless nothing could be fetched there, the word. -/
def Names (c : Cpu) (e : Error) (text : String) : Prop :=
  ∃ pc : Nat, pc < 0x10000 ∧ (pc : Int) = c.pc ∧
    ((∃ address limit, e = .counterOutside address limit) ∧
        text = "CPU fault at pc=" ++ Text.fourDigits pc ++ ": " ++ e.message ∨
      (∀ address limit, e ≠ .counterOutside address limit) ∧
        ∃ word : Nat, word < 0x10000 ∧ c.fetch.result = .ok word ∧
          text = "CPU fault at pc=" ++ Text.fourDigits pc ++ " opcode=" ++ Text.fourDigits word ++
            ": " ++ e.message)

theorem faultText_counterOutside (cpu : Cpu) (pc : Int) (limit : Nat) :
    faultText cpu (.counterOutside pc limit) =
      "CPU fault at pc=" ++ Text.wordText pc ++ ": " ++
        (Error.counterOutside pc limit).message := rfl

theorem faultText_of_ne (cpu : Cpu) {e : Error}
    (hne : ∀ address limit, e ≠ .counterOutside address limit) :
    faultText cpu e =
      let opcode := match cpu.lastWord with
        | some word => Text.wordText word
        | none => "----"
      "CPU fault at pc=" ++ Text.wordText (lowWord (cpu.pc - 2)) ++ " opcode=" ++ opcode ++ ": " ++
        e.message := by
  cases e with
  | counterOutside address limit => exact absurd rfl (hne address limit)
  | _ => rfl

theorem names_faultText {dbg : Printer} {c : Cpu} (hc : c.WellFormed) {e : Error}
    (h : (c.step dbg).result = .error e) : Names c e (faultText (c.step dbg).cpu e) := by
  obtain ⟨hlow, hhigh⟩ := hc.counter
  obtain ⟨pc, hpc⟩ := Int.eq_ofNat_of_zero_le hlow
  have hlt : pc < 0x10000 := by omega
  refine ⟨pc, hlt, hpc.symm, ?_⟩
  by_cases hout : ∃ address limit, e = .counterOutside address limit
  · refine .inl ⟨hout, ?_⟩
    obtain ⟨address, limit, rfl⟩ := hout
    rcases Cpu.step_failed dbg h with ⟨he, -⟩ | ⟨_, -, hf, -⟩
    · cases he
      rw [faultText_counterOutside, hpc, Text.wordText_of_lt hlt]
    · exact absurd hf Cpu.wordFault_ne_counterOutside
  · have hne : ∀ address limit, e ≠ .counterOutside address limit := fun address limit he =>
      hout ⟨address, limit, he⟩
    obtain ⟨word, hw, hcounter, hlast⟩ := Cpu.lastWord_of_step_failed h hne
    obtain ⟨-, -, hword⟩ := Cpu.canFetch_of_wordAt hw
    have hback : lowWord ((c.step dbg).cpu.pc - 2) = pc := by
      rw [hcounter, hpc]
      unfold lowWord
      omega
    refine .inr ⟨hne, word, hword, Cpu.fetch_of_wordAt hw, ?_⟩
    rw [faultText_of_ne _ hne, hlast, hback, Text.wordText_of_lt hlt]
    simp only [Text.wordText_of_lt hword]

/-- Reporting always succeeds. -/
theorem result_describeFault (dbg : Printer) (e : Error) {app : App} {machine : Machine}
    (h : app.machine = some machine) :
    ((describeFault dbg e).run app).result = .ok (faultText machine.cpu e) := by
  obtain ⟨ui, _, trace⟩ := app
  cases h
  show (Outcome.andThen (Action.run (Action.say dbg "trace" (faultText machine.cpu e) []) _)
    _).result = _
  rw [Action.run_say (.plain "trace" _), Outcome.andThen_done]
  cases trace with
  | none => rfl
  | some trace =>
    simp only [Action.run_bind, trace.run_dump, Outcome.andThen_done]
    rfl

end App

/-! ## Operations that fail -/

/-- The operation ends with the error and leaves the state behind. -/
def Outcome.FailsIn {σ α : Type} (e : Error) (state : σ) (o : Outcome σ α) : Prop :=
  o.result = .error e ∧ o.state = state

namespace Outcome.FailsIn

variable {σ α β : Type} {e : Error} {state : σ} {o : Outcome σ α}

theorem map (h : o.FailsIn e state) (f : α → β) : (o.map f).FailsIn e state := by
  obtain ⟨result, s, lines⟩ := o
  obtain ⟨rfl, rfl⟩ := h
  exact ⟨rfl, rfl⟩

theorem andThen (h : o.FailsIn e state) (next : α → σ → Outcome σ β) :
    (o.andThen next).FailsIn e state := by
  obtain ⟨result, s, lines⟩ := o
  obtain ⟨rfl, rfl⟩ := h
  exact ⟨rfl, rfl⟩

theorem behind {answer : α} {s : σ} {lines : List Debug.Line} (ho : o = ⟨.ok answer, s, lines⟩)
    {next : α → σ → Outcome σ β} (h : (next answer s).FailsIn e state) :
    (o.andThen next).FailsIn e state := by
  subst ho
  exact h

end Outcome.FailsIn

namespace Session

variable {F : Type} [Frontend F] {dbg : Printer} {s t : Session F} {e : Error}

/-- The frontend hears nothing of a step that fails. -/
theorem step_of_step_failed (h : (t.machine.cpu.step dbg).result = .error e) :
    (step dbg t).FailsIn e (t.setCpu (t.machine.cpu.step dbg).cpu) := by
  have htones : (t.machine.cpu.step dbg).tones = [] := by
    rcases Cpu.step_failed dbg h with ⟨-, hs⟩ | ⟨_, _, -, hs⟩
    · rw [hs]
      rfl
    · rw [hs]
  rw [step_of_tones_nil htones]
  exact ⟨h, rfl⟩

/-- The record of a step that failed leaves the processor alone. -/
theorem cycle_of_step_failed (h : (t.machine.cpu.step dbg).result = .error e) :
    ∃ u, (cycle dbg t).FailsIn e u ∧ u.machine.cpu = (t.machine.cpu.step dbg).cpu := by
  obtain ⟨hresult, hstate⟩ := step_of_step_failed h
  have hcpu : (step dbg t).state.machine.cpu = (t.machine.cpu.step dbg).cpu := by
    rw [hstate]
    rfl
  unfold cycle
  split
  · exact ⟨_, ⟨hresult, rfl⟩, hcpu⟩
  · obtain ⟨seen, hseen⟩ := t.machine.cpu.upcoming_eq_ok
    unfold recordedStep
    simp only [hseen, hresult]
    split
    · exact ⟨_, ⟨hresult, rfl⟩, hcpu⟩
    · exact ⟨_, ⟨hresult, rfl⟩, hcpu⟩

/-- Cycles end with the first one that fails. -/
theorem runCycles_of_failed {k executed : Nat} {lines : List Debug.Line} {u : Session F}
    (hrun : runCycles dbg k s = ⟨.ok executed, t, lines⟩) (hf : (cycle dbg t).FailsIn e u)
    {count : Nat} (hk : k < count) : (runCycles dbg count s).FailsIn e u := by
  obtain ⟨n, rfl⟩ := Nat.exists_eq_add_of_lt hk
  have hlater : (runCycles dbg (n + 1) t).FailsIn e u := by
    rw [runCycles_succ]
    exact hf.andThen _
  rw [Nat.add_assoc, runCycles_add]
  exact .behind hrun (hlater.map _)

/-! ## Steps that fail -/

namespace StepStarts

variable {event : Event F}

theorem wellFormed (h : StepStarts dbg s event t) (hs : s.machine.cpu.WellFormed) :
    t.machine.cpu.WellFormed := by
  have hk : KeptByParts dbg fun s : Session F => s.machine.cpu.WellFormed :=
    (Cpu.WellFormed.kept dbg).toKeptBetweenResets.machine.parts
  cases h with
  | step => exact hs
  | @cycle count k _ _ _ _ hrun =>
    have hend := hk.runCycles k hs
    rwa [hrun] at hend
  | @frame k _ u _ _ _ hinput _ hrun =>
    have hin : (takeInput dbg s).state.machine.cpu.WellFormed := hk.input hs
    rw [hinput] at hin
    have hend := hk.runCycles k hin
    rwa [hrun] at hend

/-- The event fails like the step, and leaves the processor as the step did. -/
theorem failed (h : StepStarts dbg s event t) (hf : (t.machine.cpu.step dbg).result = .error e) :
    (outcome dbg event s).result = .error e ∧
      (outcome dbg event s).state.machine.cpu = (t.machine.cpu.step dbg).cpu := by
  obtain ⟨u, hcycle, hcpu⟩ := cycle_of_step_failed hf
  rw [← hcpu]
  cases h with
  | step =>
    obtain ⟨hresult, hstate⟩ := (step_of_step_failed hf).map fun _ => ()
    exact ⟨hresult, (congrArg (·.machine.cpu) hstate).trans hcpu.symm⟩
  | cycle hk hrun =>
    obtain ⟨hresult, hstate⟩ := (runCycles_of_failed hrun hcycle hk).map fun _ => ()
    exact ⟨hresult, congrArg (·.machine.cpu) hstate⟩
  | @frame _ _ v _ _ _ hinput hk hrun =>
    have hadvance : (advanceFrame dbg v).FailsIn e u :=
      (runCycles_of_failed hrun hcycle hk).andThen _
    have hframe : (runFrame dbg s).FailsIn e u := .behind hinput (hadvance.map fun _ => true)
    obtain ⟨hresult, hstate⟩ := hframe.map fun _ => ()
    exact ⟨hresult, congrArg (·.machine.cpu) hstate⟩

end StepStarts

end Session

/-- Wherever a machine that has been built gets to, and whichever of its steps fails, by itself or
in the course of cycles or a frame: the report on the machine as it is then names the instruction
of that step. -/
theorem App.describeFault_names_instruction {config : MachineConfig} {m : Machine}
    (hm : Machine.create config = .ok m) {F : Type} [Frontend F] (dbg : Printer) (frontend : F)
    (attached : Bool) (events : List (Session.Event F)) :
    let s := Session.run dbg events ⟨m, frontend, attached⟩
    ∀ event t, Session.StepStarts dbg s event t →
      ∀ e, (t.machine.cpu.step dbg).result = .error e →
        let o := Session.outcome dbg event s
        o.result = .error e ∧
          ∀ app : App, app.machine = some o.state.machine →
            ∃ text, ((describeFault dbg e).run app).result = .ok text ∧
              Names t.machine.cpu e text := by
  intro s event t ht e he o
  obtain ⟨⟨-, -, hl⟩, rfl⟩ := Machine.create_eq_ok_iff.mp hm
  have hs : s.machine.cpu.WellFormed :=
    (Cpu.WellFormed.kept dbg).run events (Machine.initial_wellFormed hl)
  obtain ⟨hresult, hcpu⟩ := ht.failed he
  refine ⟨hresult, fun app happ => ⟨_, result_describeFault dbg e happ, ?_⟩⟩
  rw [hcpu]
  exact names_faultText (ht.wellFormed hs) he

/-- A program that returns without having been called. -/
def MachineConfig.returning : MachineConfig where
  dialect := .legacy
  program := .listed [0x00, 0xEE]
  cyclesPerFrame := 12
  random := .ofSequence fun _ => 0
  trace := none

theorem Machine.wordAt_returning :
    (initial .returning).cpu.wordAt (initial .returning).cpu.pc = some 0x00EE :=
  Cpu.wordAt_of_program rfl (by decide) 0 rfl rfl (by decide)

theorem Machine.step_returning :
    ((initial .returning).cpu.step .off).result = .error .stackUnderflow := by
  have hw : (initial .returning).cpu.WellFormed := initial_wellFormed (by decide)
  have hi : (initial .returning).cpu.idle = false := rfl
  obtain ⟨-, -, -, hunderflow, -⟩ :=
    Cpu.step_result_iff_of_word hw (table_initial .returning) .off hi wordAt_returning
  exact hunderflow.mpr ⟨rfl, rfl⟩

/-- A session whose first step fails. -/
def Session.returning : Session Headless := ⟨.initial .returning, .start, true⟩

/-- The frame has no input to take, so that its first step starts where it does. -/
theorem Session.stepStarts_returning : StepStarts .off returning .frame returning :=
  have hinput : takeInput .off returning = ⟨.ok true, returning, []⟩ := rfl
  .frame (k := 0) hinput (show 0 < 12 by decide) (runCycles_zero _ _)

theorem App.describeFault_names_instruction_returning :
    Machine.create .returning = .ok Session.returning.machine ∧
      let o := Session.outcome .off .frame .returning
      o.result = .error .stackUnderflow ∧
        ∀ app : App, app.machine = some o.state.machine →
          ((describeFault .off .stackUnderflow).run app).result =
            .ok "CPU fault at pc=0200 opcode=00EE: return with empty call stack" := by
  have hm := Machine.create_eq_ok_iff.mpr
    ⟨⟨(by decide : 0 < MachineConfig.returning.cyclesPerFrame), by decide, by decide⟩, rfl⟩
  have hreports := describeFault_names_instruction hm .off Headless.start true [] .frame _
    Session.stepStarts_returning _ Machine.step_returning
  simp only [Session.run, List.foldl_nil, ← Session.returning.eq_def] at hreports
  obtain ⟨hresult, hreport⟩ := hreports
  refine ⟨hm, hresult, fun app happ => ?_⟩
  obtain ⟨text, htext, pc, -, hpc, hnames⟩ := hreport app happ
  obtain rfl : pc = programStart := Int.ofNat_inj.mp hpc
  rcases hnames with ⟨⟨_, _, he⟩, -⟩ | ⟨-, word, -, hword, rfl⟩
  · cases he
  have hfetch := Cpu.fetch_of_wordAt Machine.wordAt_returning
  rw [Session.returning, hfetch] at hword
  cases hword
  exact htext

end Chip8
