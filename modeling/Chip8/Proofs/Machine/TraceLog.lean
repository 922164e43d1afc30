import Chip8.Proofs.Machine.Cycles
import Chip8.Proofs.Machine.Frontends
import Chip8.Proofs.Trace.Ring

/-!
# What a trace records

`Session.Logged` says what cycles add to a trace, one entry for each step or none: a step that
executes an instruction and one that fails are recorded, and an idle one is unless it only goes on
with a wait that the latest entry shows already. What an entry holds is `TraceEntry.Records`: the
instruction and the processor before the step, but stack, timers and wait as they are after it.

The entries keep the low bits of what they record, which within the bounds of the processor is all
of it (`records_traceEntry`). The latest entry is the last one that was recorded (`last_record`),
whatever had been recorded or cleared before, so that the log of all cycles follows from that of one
(`cycle_withTrace`, `logged_runCycles`). A machine keeps its recorder whatever happens
(`recording_run`), so that all of this is said of its own recorder too.
-/

namespace Chip8

open Debug (Printer)

/-! ## Recorders -/

namespace TraceRecorder

variable {r : TraceRecorder}

/-- What can become of a recorder. -/
inductive Reachable : TraceRecorder → Prop where
  | create {room : Room} {capacity : Int} {r : TraceRecorder} (h : create room capacity = .ok r) :
    Reachable r
  | record {r : TraceRecorder} (h : Reachable r) (e : TraceEntry) : Reachable (r.record e)
  | clear {r : TraceRecorder} (h : Reachable r) : Reachable r.clear

theorem blank_of_create {room : Room} {capacity : Int} (h : create room capacity = .ok r) :
    0 < capacity.toNat ∧ r = blank capacity.toNat := by
  unfold create at h
  split at h
  · cases h
  · cases hn : needRoom room capacity.toNat with
    | error e =>
      rw [hn] at h
      cases h
    | ok _ =>
      rw [hn] at h
      cases h
      exact ⟨by omega, rfl⟩

theorem Reachable.holds (h : r.Reachable) : ∃ log, r.Holds log := by
  induction h with
  | create h =>
    obtain ⟨hpos, rfl⟩ := blank_of_create h
    exact ⟨[], .blank hpos⟩
  | record _ e ih =>
    obtain ⟨log, hlog⟩ := ih
    exact ⟨log ++ [e], hlog.record e⟩
  | clear _ ih =>
    obtain ⟨log, hlog⟩ := ih
    exact ⟨[], hlog.clear⟩

theorem last_record (h : r.Reachable) (e : TraceEntry) : (r.record e).last = some e := by
  obtain ⟨log, hlog⟩ := h.holds
  rw [(hlog.record e).last, List.getLast?_concat]

/-- What comes behind a log is read behind it. -/
theorem Holds.entries_foldl_record {past : List TraceEntry} (h : r.Holds past)
    (log : List TraceEntry) (limit : Option Int) :
    (log.foldl TraceRecorder.record r).entries limit =
      (past ++ log).drop
        ((past ++ log).length - admitted r.capacity (past ++ log).length limit) := by
  rw [(h.foldl_record log).entries, capacity_foldl_record]

end TraceRecorder

/-! ## Entries -/

namespace Cpu

variable {c : Cpu} {dbg : Printer} {e : Error}

theorem wordAt_eq_fetch (c : Cpu) : c.wordAt c.pc = c.fetch.result.toOption := by
  unfold wordAt fetch
  by_cases hf : c.canFetch c.pc = true
  · rw [if_pos hf, if_pos hf]
    cases c.memory.load16 c.pc <;> rfl
  · rw [if_neg hf, if_neg hf]
    rfl

/-- What is seen of an instruction before it is fetched is what the fetch will find. -/
theorem upcoming_eq (c : Cpu) :
    c.upcoming = .ok (c.wordAt c.pc,
      (((c.wordAt c.pc).bind fun (w : Nat) => c.table.lookup w).map
        Instruction.mnemonic).getD "") := by
  unfold upcoming
  by_cases hf : c.canFetch c.pc = true
  · obtain ⟨word, hload, hword, -⟩ := load16_of_canFetch hf
    rw [if_pos hf, hload, hword]
    rfl
  · rw [if_neg hf, wordAt_eq_none_iff.mpr (Bool.eq_false_iff.mpr hf)]
    rfl

theorem isFault_of_fault {o : Operands} {op : Operation} (h : c.fault o op = some e) :
    e.isFault = true := by
  cases op <;> simp only [fault, Memory.spanFault] at h
  all_goals first
    | (split at h <;> cases h; rfl)
    | cases h

/-- With the standard instructions a step fails with nothing but a fault. -/
theorem isFault_of_step_failed (ht : c.table = .standard) (h : (c.step dbg).result = .error e) :
    e.isFault = true := by
  rcases step_failed dbg h with ⟨rfl, -⟩ | ⟨word, -, hf, -⟩
  · rfl
  have ht : c.advance.table = .standard := ht
  unfold wordFault at hf
  rw [ht] at hf
  cases hl : InstructionTable.standard.lookup word with
  | none =>
    rw [hl] at hf
    cases hf
  | some i =>
    obtain ⟨hmem, -⟩ := InstructionTable.lookup_standard.mp hl
    obtain ⟨op, hop⟩ := standard_operation hmem
    simp only [hl, hop] at hf
    exact isFault_of_fault hf

end Cpu

/-- The entry records a step that took `before` to `after`: the instruction that was coming up, the
registers and the index before it, and the stack and the timers after it. -/
structure TraceEntry.Records (e : TraceEntry) (before after : Cpu) (awaitingKey : Bool)
    (note : String) : Prop where
  pc : (e.pc : Int) = before.pc
  i : (e.i : Int) = before.i
  registers : e.registers.map (fun (value : Nat) => (value : Int)) = before.v.toList
  opcode : e.opcode = before.fetch.result.toOption
  unfetchable : e.opcode = none ↔ 0xFFE < before.pc
  mnemonic : e.mnemonic =
    ((e.opcode.bind fun (w : Nat) => InstructionTable.standard.lookup w).map
      Instruction.mnemonic).getD ""
  sp : e.sp = after.stack.depth
  delay : e.delay = after.timers.delay
  sound : e.sound = after.timers.sound
  awaitingKey : e.awaitingKey = awaitingKey
  note : e.note = note

theorem Cpu.WellFormed.map_lowByte_registers {c : Cpu} (h : c.WellFormed) :
    c.v.toList.map (fun value => (lowByte value : Int)) = c.v.toList := by
  refine (List.map_congr_left fun value hv => ?_).trans (List.map_id _)
  obtain ⟨x, hx, rfl⟩ := List.getElem_of_mem hv
  have hx : x < 16 := by simpa using hx
  obtain ⟨hlow, hhigh⟩ := h.registers ⟨x, hx⟩
  have hreg : c.v.toList[x] = c.reg ⟨x, hx⟩ := by simp [reg]
  rw [hreg]
  exact lowByte_of_lt hlow (by omega)

theorem lowWord_of_bounds {n : Int} (h₀ : 0 ≤ n) (h₁ : n < 0x10000) : (lowWord n : Int) = n := by
  unfold lowWord
  omega

/-- Within the bounds of the processor nothing is cut off. -/
theorem Session.records_traceEntry {before after : Cpu} (hb : before.WellFormed)
    (ha : after.WellFormed) (ht : before.table = .standard) {seen : Option Nat × String}
    (hseen : before.upcoming = .ok seen) (awaitingKey : Bool) (note : String) :
    (traceEntry seen before after awaitingKey note).Records before after awaitingKey note := by
  have hpc := hb.counter
  have hi := hb.index
  have hdelay := ha.delay
  have hsound := ha.sound
  rw [Cpu.upcoming_eq, Except.ok.injEq] at hseen
  have hopcode : (traceEntry seen before after awaitingKey note).opcode =
      before.wordAt before.pc := by
    rw [← hseen]
    simp only [traceEntry, TraceEntry.ofValues, Option.map_map]
    cases hw : before.wordAt before.pc with
    | none => rfl
    | some w =>
      obtain ⟨-, -, hlt⟩ := Cpu.canFetch_of_wordAt hw
      exact congrArg some (lowWord_of_lt hlt)
  exact {
    pc := lowWord_of_bounds hpc.1 (by omega)
    i := lowWord_of_bounds hi.1 (by omega)
    registers := by
      simp only [traceEntry, TraceEntry.ofValues, List.map_map]
      exact hb.map_lowByte_registers
    opcode := hopcode.trans before.wordAt_eq_fetch
    unfetchable := by rw [hopcode, hb.wordAt_eq_none_iff]
    mnemonic := by
      rw [hopcode, ← ht, ← hseen]
      rfl
    sp := rfl
    delay := Nat.mod_eq_of_lt (by omega)
    sound := Nat.mod_eq_of_lt (by omega)
    awaitingKey := rfl
    note := rfl }

/-! ## The log of cycles -/

namespace Session

variable {F : Type} [Frontend F] (dbg : Printer)

/-- The processor waits for a key, and the latest entry shows it waiting at the same place. -/
def WaitShown (last : Option TraceEntry) (c : Cpu) : Prop :=
  c.runState = .awaitingKey ∧ ∃ e, last = some e ∧ e.awaitingKey = true ∧ (e.pc : Int) = c.pc

/-- The step records as an entry with the given wait and note. -/
def Enters (s : Session F) (e : TraceEntry) (awaitingKey : Bool) (note : String) : Prop :=
  e.Records s.machine.cpu (step dbg s).state.machine.cpu awaitingKey note

/-- What up to `count` cycles from `s` on log behind the latest entry. -/
inductive Logged : Nat → Session F → Option TraceEntry → List TraceEntry → Prop where
  | stop {s : Session F} {last : Option TraceEntry} : Logged 0 s last []
  /-- The step executes an instruction. -/
  | executed {n : Nat} {s : Session F} {last : Option TraceEntry} {e : TraceEntry}
      {log : List TraceEntry} (hresult : (step dbg s).result = .ok true)
      (he : Enters dbg s e (step dbg s).state.machine.cpu.awaitingKey "")
      (hrest : Logged n (step dbg s).state (some e) log) : Logged (n + 1) s last (e :: log)
  /-- There is nothing to execute. -/
  | idle {n : Nat} {s : Session F} {last : Option TraceEntry} {e : TraceEntry}
      {log : List TraceEntry} (hresult : (step dbg s).result = .ok false)
      (hshown : ¬ WaitShown last s.machine.cpu)
      (he : Enters dbg s e (step dbg s).state.machine.cpu.awaitingKey "idle")
      (hrest : Logged n (step dbg s).state (some e) log) : Logged (n + 1) s last (e :: log)
  /-- A wait goes on. -/
  | waiting {n : Nat} {s : Session F} {last : Option TraceEntry} {log : List TraceEntry}
      (hresult : (step dbg s).result = .ok false) (hshown : WaitShown last s.machine.cpu)
      (hrest : Logged n (step dbg s).state last log) : Logged (n + 1) s last log
  /-- The step fails, and no cycle follows. -/
  | fault {n : Nat} {s : Session F} {last : Option TraceEntry} {e : TraceEntry} {error : Error}
      (hresult : (step dbg s).result = .error error) (hfault : error.isFault = true)
      (he : Enters dbg s e false "fault") : Logged (n + 1) s last [e]
  /-- The frontend fails as it hears of the step, and no cycle follows. -/
  | frontend {n : Nat} {s : Session F} {last : Option TraceEntry} {error : Error}
      (hresult : (step dbg s).result = .error error) (hfault : error.isFault = false)
      (hraises : Frontend.Raises F error) : Logged (n + 1) s last []

variable {dbg} {s : Session F} {e : Error} {r : TraceRecorder}

/-- A step without an instruction changes nothing. -/
theorem state_of_step_false (h : (step dbg s).result = .ok false) : (step dbg s).state = s := by
  have hi : s.machine.cpu.idle = true :=
    (Cpu.idle_iff_step_false dbg _).mpr (result_of_install h)
  obtain ⟨lines, hs⟩ := Cpu.step_of_idle dbg hi
  rw [step_of_tones_nil (by rw [hs]), hs]
  rfl

/-- With the standard instructions, an error of a step that is no fault is the frontend's. -/
theorem raises_of_step_failed (ht : s.machine.cpu.table = .standard)
    (h : (step dbg s).result = .error e) (hf : e.isFault = false) : Frontend.Raises F e := by
  unfold step install at h
  simp only at h
  split at h
  · rw [Cpu.isFault_of_step_failed ht h] at hf
    cases hf
  · rename_i e' he
    cases h
    exact raises_of_forwardTones _ _ he

/-! ### Cycles with a recorder -/

/-- The entry of a step before which `seen` was coming up. -/
def cycleEntry (dbg : Printer) (seen : Option Nat × String) (s : Session F) (awaitingKey : Bool)
    (note : String) : TraceEntry :=
  traceEntry seen s.machine.cpu (step dbg s).state.machine.cpu awaitingKey note

/-- The recorder after a step before which `seen` was coming up. -/
def recordCycle (dbg : Printer) (seen : Option Nat × String) (s : Session F)
    (r : TraceRecorder) : TraceRecorder :=
  let before := s.machine.cpu
  let after := (step dbg s).state.machine.cpu
  match (step dbg s).result with
  | .ok stepped => traceStep seen before after stepped r
  | .error e => if e.isFault then r.record (traceEntry seen before after false "fault") else r

/-- A cycle is a step, whatever the recorder, and the recorder of the step. -/
theorem cycle_withTrace {seen : Option Nat × String} (hseen : s.machine.cpu.upcoming = .ok seen)
    (r : TraceRecorder) :
    cycle dbg (s.withTrace (some r)) =
      (step dbg s).mapState (withTrace (some (recordCycle dbg seen s r))) := by
  have hstep : step dbg (s.withTrace (some r)) = (step dbg s).mapState (withTrace (some r)) :=
    step_commutes (some r) dbg s
  have hseen' : (s.withTrace (some r)).machine.cpu.upcoming = .ok seen := hseen
  show recordedStep dbg (s.withTrace (some r)) = _
  unfold recordedStep recordCycle
  simp only [hseen', hstep]
  generalize step dbg s = o
  obtain ⟨result, t, lines⟩ := o
  cases result with
  | ok stepped => rfl
  | error e =>
    simp only [Outcome.mapState]
    split <;> rfl

theorem waitShown_iff (r : TraceRecorder) (c : Cpu) :
    WaitShown r.last c ↔
      (match r.last with
        | some last =>
          !false && c.awaitingKey && last.awaitingKey && decide ((last.pc : Int) = c.pc)
        | none => false) = true := by
  cases hl : r.last with
  | none => simp [WaitShown]
  | some last => simp [WaitShown, Cpu.awaitingKey, and_assoc]

section
variable (seen : Option Nat × String) (r : TraceRecorder)

theorem recordCycle_of_true (h : (step dbg s).result = .ok true) :
    recordCycle dbg seen s r =
      r.record (cycleEntry dbg seen s (step dbg s).state.machine.cpu.awaitingKey "") := by
  simp only [recordCycle, h, traceStep]
  cases r.last <;> rfl

theorem recordCycle_of_waitShown (h : (step dbg s).result = .ok false)
    (hshown : WaitShown r.last s.machine.cpu) : recordCycle dbg seen s r = r := by
  simp only [recordCycle, h, state_of_step_false h]
  exact if_pos ((waitShown_iff r _).mp hshown)

theorem recordCycle_of_not_waitShown (h : (step dbg s).result = .ok false)
    (hshown : ¬ WaitShown r.last s.machine.cpu) :
    recordCycle dbg seen s r =
      r.record (cycleEntry dbg seen s (step dbg s).state.machine.cpu.awaitingKey "idle") := by
  simp only [recordCycle, cycleEntry, h, state_of_step_false h]
  exact if_neg fun hr => hshown ((waitShown_iff r _).mpr hr)

theorem recordCycle_of_error (h : (step dbg s).result = .error e) :
    recordCycle dbg seen s r =
      if e.isFault then r.record (cycleEntry dbg seen s false "fault") else r := by
  simp only [recordCycle, h]
  rfl

end

/-- What cycles log from the first one on. -/
theorem logged_runCycles (n : Nat) (hc : s.machine.cpu.WellFormed)
    (ht : s.machine.cpu.table = .standard) (hr : r.Reachable) :
    ∃ log, Logged dbg n s r.last log ∧
      (runCycles dbg n (s.withTrace (some r))).state.machine.trace =
        some (log.foldl TraceRecorder.record r) := by
  induction n generalizing s r with
  | zero => exact ⟨[], .stop, rfl⟩
  | succ n ih =>
    obtain ⟨seen, hseen⟩ := s.machine.cpu.upcoming_eq_ok
    have hcycle : cycle dbg (s.withTrace (some r)) = _ := cycle_withTrace hseen r
    have hend : (cycle dbg (s.withTrace (some r))).result = (step dbg s).result := by
      rw [hcycle]
      rfl
    have hstate : (cycle dbg (s.withTrace (some r))).state =
        (step dbg s).state.withTrace (some (recordCycle dbg seen s r)) := by
      rw [hcycle]
      rfl
    have hc' : (step dbg s).state.machine.cpu.WellFormed :=
      (Cpu.WellFormed.kept dbg).toKeptBetweenResets.machine.parts.step hc
    have ht' : (step dbg s).state.machine.cpu.table = .standard :=
      (Cpu.table_kept dbg .standard).toKeptBetweenResets.machine.parts.step ht
    have henters : ∀ awaitingKey note,
        Enters dbg s (cycleEntry dbg seen s awaitingKey note) awaitingKey note :=
      records_traceEntry hc hc' ht hseen
    cases hresult : (step dbg s).result with
    | error e =>
      rw [state_runCycles_of_error (hend.trans hresult), hstate, recordCycle_of_error _ _ hresult]
      cases hf : e.isFault with
      | true => exact ⟨[_], .fault hresult hf (henters false "fault"), rfl⟩
      | false => exact ⟨[], .frontend hresult hf (raises_of_step_failed ht hresult hf), rfl⟩
    | ok stepped =>
      rw [state_runCycles_of_ok (hend.trans hresult), hstate]
      cases stepped with
      | true =>
        rw [recordCycle_of_true _ _ hresult]
        obtain ⟨log, hlog, htrace⟩ := ih hc' ht' (hr.record (cycleEntry dbg seen s _ ""))
        rw [TraceRecorder.last_record hr] at hlog
        exact ⟨_ :: log, .executed hresult (henters _ _) hlog, htrace⟩
      | false =>
        by_cases hshown : WaitShown r.last s.machine.cpu
        · rw [recordCycle_of_waitShown _ _ hresult hshown]
          obtain ⟨log, hlog, htrace⟩ := ih hc' ht' hr
          exact ⟨log, .waiting hresult hshown hlog, htrace⟩
        · rw [recordCycle_of_not_waitShown _ _ hresult hshown]
          obtain ⟨log, hlog, htrace⟩ := ih hc' ht' (hr.record (cycleEntry dbg seen s _ "idle"))
          rw [TraceRecorder.last_record hr] at hlog
          exact ⟨_ :: log, .idle hresult hshown (henters _ _) hlog, htrace⟩

/-! ### Waits are logged once -/

/-- The second entry goes on with the wait of the first one. -/
def ContinuesWait (a b : TraceEntry) : Prop :=
  b.note = "idle" ∧ b.awaitingKey = true ∧ a.awaitingKey = true ∧ a.pc = b.pc

/-- An entry put before others, if there is one. -/
theorem isChain_cons_of_last {R : TraceEntry → TraceEntry → Prop} {last : Option TraceEntry}
    {b : TraceEntry} {log : List TraceEntry} (h : (b :: log).IsChain R)
    (hlast : ∀ a, last = some a → R a b) : (last.toList ++ b :: log).IsChain R := by
  cases last with
  | none => exact h
  | some a => exact .cons_cons (hlast a rfl) h

theorem Logged.isChain {n : Nat} {last : Option TraceEntry} {log : List TraceEntry}
    (h : Logged dbg n s last log) :
    (last.toList ++ log).IsChain fun a b => ¬ ContinuesWait a b := by
  have single (last : Option TraceEntry) :
      (last.toList ++ []).IsChain fun a b => ¬ ContinuesWait a b := by
    cases last <;> simp
  induction h with
  | stop => exact single _
  | executed _ he _ ih =>
    refine isChain_cons_of_last ih fun a _ hcont => ?_
    have hnote := he.note.symm.trans hcont.1
    simp at hnote
  | @idle n s last e log hresult hshown he _ ih =>
    refine isChain_cons_of_last ih fun a ha hcont => hshown ?_
    obtain ⟨-, hb, haw, hpc⟩ := hcont
    rw [he.awaitingKey, state_of_step_false hresult] at hb
    exact ⟨of_decide_eq_true hb, a, ha, haw, by rw [hpc]; exact he.pc⟩
  | waiting _ _ _ ih => exact ih
  | fault _ _ he =>
    refine isChain_cons_of_last (.singleton _) fun a _ hcont => ?_
    have hnote := he.note.symm.trans hcont.1
    simp at hnote
  | frontend => exact single _

end Session

/-! ### The recorder of a machine -/

/-- The machine has a recorder, to which nothing but recording and clearing has happened. -/
def Machine.Recording (m : Machine) : Prop := ∃ r, m.trace = some r ∧ r.Reachable

namespace Session

variable {F : Type} [Frontend F] {dbg : Printer} {s : Session F} {r : TraceRecorder}

omit [Frontend F] in
theorem reachable_traceStep (hr : r.Reachable) (seen : Option Nat × String) (before after : Cpu)
    (stepped : Bool) : (traceStep seen before after stepped r).Reachable := by
  unfold traceStep
  cases r.last with
  | none => exact hr.record _
  | some last =>
    simp only
    split
    · exact hr
    · exact hr.record _

theorem reachable_recordCycle (hr : r.Reachable) (seen : Option Nat × String) :
    (recordCycle dbg seen s r).Reachable := by
  unfold recordCycle
  cases (step dbg s).result with
  | ok stepped => exact reachable_traceStep hr seen _ _ stepped
  | error e =>
    simp only
    split
    · exact hr.record _
    · exact hr

theorem recording_cycle (h : s.machine.Recording) : (cycle dbg s).state.machine.Recording := by
  obtain ⟨r, htrace, hr⟩ := h
  obtain ⟨seen, hseen⟩ := s.machine.cpu.upcoming_eq_ok
  have hs : s.withTrace (some r) = s := by rw [← htrace, withTrace]
  have hcycle : cycle dbg (s.withTrace (some r)) = _ := cycle_withTrace hseen r
  rw [hs] at hcycle
  rw [hcycle]
  exact ⟨_, rfl, reachable_recordCycle hr seen⟩

theorem recording_runCycles (count : Nat) (h : s.machine.Recording) :
    (runCycles dbg count s).state.machine.Recording :=
  Action.state_countTrue (Q := fun t : Session F => t.machine.Recording)
    (fun _ => recording_cycle) count h

theorem recording_runFrame (h : s.machine.Recording) :
    (runFrame dbg s).state.machine.Recording := by
  let Q (t : Session F) := t.machine.Recording
  have hinput : Q (if s.attached then drainInput dbg s else .done true s []).state := by
    have hsame := congrArg (·.state.machine.trace) (input_commutes s.machine.trace dbg s)
    obtain ⟨r, htrace, hr⟩ := h
    exact ⟨r, hsame.trans htrace, hr⟩
  refine Outcome.state_andThen (Q := Q) hinput fun goesOn t ht => ?_
  split
  · show Q (advanceFrame dbg t).state
    rw [advanceFrame_eq]
    refine Outcome.state_andThen (Q := Q) (recording_runCycles _ ht) fun executed u hu => ?_
    have htick : Q (tick dbg u).state := machine_install (Q := Machine.Recording) ⟨hu, hu⟩
    refine Outcome.state_andThen (Q := Q) htick fun _ v hv => ?_
    show (draw v.countFrame).state.machine.Recording
    have hdraw : (draw v.countFrame).state.machine = v.countFrame.machine := machine_onFrontend _ _
    rw [hdraw]
    exact hv
  · exact ht

/-- No event takes the recorder away. -/
theorem recording_run (events : List (Event F)) (h : s.machine.Recording) :
    (run dbg events s).machine.Recording := by
  refine run_induction (Q := fun t : Session F => t.machine.Recording) (fun event _ t ht => ?_) h
  cases event with
  | step => exact machine_install (Q := Machine.Recording) ⟨ht, ht⟩
  | cycles count => exact recording_runCycles count ht
  | frame => exact recording_runFrame ht
  | key index pressed => exact machine_install (Q := Machine.Recording) ⟨ht, ht⟩
  | tick => exact machine_install (Q := Machine.Recording) ⟨ht, ht⟩
  | reset => exact machine_install (Q := Machine.Recording) ⟨ht, ht⟩
  | attach =>
    show (attach t).state.machine.Recording
    rw [machine_attach]
    exact ht
  | detach => exact ht
  | change f => exact ht

end Session

/-- Whatever a machine that has been built has done, and whatever was recorded before: cycles add to
the record what `Logged` says and nothing else, and no idle entry goes on with a wait that the entry
before it shows already. What can be read then is the end of the whole record, the log at its end.
A machine that was built with a recorder still has it. -/
theorem Session.logged_of_runCycles {config : MachineConfig} {m : Machine}
    (hm : Machine.create config = .ok m) {F : Type} [Frontend F] (dbg : Printer) (frontend : F)
    (attached : Bool) (events : List (Event F)) {r : TraceRecorder} (hr : r.Reachable) (n : Nat) :
    let s := run dbg events ⟨m, frontend, attached⟩
    (∀ own, config.trace = some own → own.Reachable →
      ∃ kept, kept.Reachable ∧ s = s.withTrace (some kept)) ∧
    ∃ log, Logged dbg n s r.last log ∧
      (runCycles dbg n (s.withTrace (some r))).state.machine.trace =
        some (log.foldl TraceRecorder.record r) ∧
      ((r.last.toList ++ log).IsChain fun a b => ¬ ContinuesWait a b) ∧
      ∀ past, r.Holds past → ∀ limit, (log.foldl TraceRecorder.record r).entries limit =
        (past ++ log).drop
          ((past ++ log).length - TraceRecorder.admitted r.capacity (past ++ log).length limit) := by
  intro s
  obtain ⟨⟨-, -, hl⟩, rfl⟩ := Machine.create_eq_ok_iff.mp hm
  have hc : s.machine.cpu.WellFormed :=
    (Cpu.WellFormed.kept dbg).run events (Machine.initial_wellFormed hl)
  have ht : s.machine.cpu.table = .standard :=
    (Cpu.table_kept dbg .standard).run events (Machine.table_initial config)
  refine ⟨fun own hown hreachable => ?_, ?_⟩
  · obtain ⟨kept, htrace, hkept⟩ : s.machine.Recording :=
      recording_run events ⟨own, hown, hreachable⟩
    exact ⟨kept, hkept, by rw [← htrace, withTrace]⟩
  · obtain ⟨log, hlog, htrace⟩ := logged_runCycles n hc ht hr
    exact ⟨log, hlog, htrace, hlog.isChain, fun past hpast => hpast.entries_foldl_record log⟩

theorem TraceRecorder.reachable_blank_four : (blank 4).Reachable :=
  .create (show create .full 4 = .ok (blank 4) by decide)

theorem Session.logged_of_runCycles_beeping :
    ∃ m, Machine.create .beeping = .ok m ∧ (TraceRecorder.blank 4).Reachable ∧
      let s := run .off [.step, .key 3 true] (⟨m, Headless.start, true⟩ : Session Headless)
      ∃ log, Logged .off 5 s none log ∧
        (runCycles .off 5 (s.withTrace (some (.blank 4)))).state.machine.trace =
          some (log.foldl TraceRecorder.record (.blank 4)) := by
  have hm := Machine.create_eq_ok_iff.mpr
    ⟨⟨(by decide : 0 < MachineConfig.beeping.cyclesPerFrame), by decide, by decide⟩, rfl⟩
  have hr := TraceRecorder.reachable_blank_four
  obtain ⟨-, log, hlog, htrace, -⟩ :=
    logged_of_runCycles hm .off Headless.start true [.step, .key 3 true] hr 5
  exact ⟨_, hm, hr, log, hlog, htrace⟩

end Chip8
