import Chip8.Program
import Chip8.Proofs.Machine.Runs

/-!
# Program images in memory

An image that fits goes where programs start, and one that does not fit changes nothing
(`ProgramImage.install_eq`). The loader accepts exactly the images that fit into a memory of the
usual size (`ProgramImage.load_eq_ok_iff`), so that a machine can be built with each of them. Around
the program its memory holds the font and zeros: `Memory.holding`.
-/

namespace Chip8

open Debug (Printer)

/-! ## Cells around a program -/

namespace Memory

/-- The cells of a memory of the usual size that holds the font and a program. -/
def holding (program : List UInt8) : List UInt8 :=
  Font.rows ++ List.replicate 0x1B0 0 ++ program ++ List.replicate (0xE00 - program.length) 0

theorem toList_blankCells (size : Nat) :
    (blankCells size).toList = Font.rows ++ List.replicate (size - 80) 0 := by
  rw [blankCells, toList_overwriteCells]
  simp [fontStart, Font.length_rows]

theorem toList_overwrite_standard (program : List UInt8) :
    (standard.overwrite programStart program).cells.toList = holding program := by
  have hcells : standard.cells.toList = Font.rows ++ List.replicate 0xFB0 0 :=
    toList_blankCells memorySize
  have htake : (Font.rows ++ List.replicate 0xFB0 0).take programStart =
      Font.rows ++ List.replicate 0x1B0 0 := by
    rw [List.take_append, List.take_of_length_le (by decide), List.take_replicate]
    rfl
  have hdrop : (Font.rows ++ List.replicate 0xFB0 0).drop (programStart + program.length) =
      List.replicate (0xE00 - program.length) 0 := by
    have hrest : 0xFB0 - (0x200 + program.length - 80) = 0xE00 - program.length := by omega
    rw [programStart, List.drop_append, List.drop_of_length_le (by rw [Font.length_rows]; omega),
      List.nil_append, List.drop_replicate, Font.length_rows, hrest]
  rw [overwrite, toList_overwriteCells, hcells, htake, hdrop]
  rfl

end Memory

/-! ## Images -/

namespace ProgramImage

variable {dbg : Printer} {image : ProgramImage}

theorem allBytes_numbers (image : ProgramImage) : image.numbers.all isByte = true := by
  rw [numbers, List.all_map, List.all_eq_true]
  intro b _
  have := b.toNat_lt
  simp only [Function.comp_apply, isByte, decide_eq_true_eq]
  omega

theorem map_toCell_numbers (image : ProgramImage) : image.numbers.map toCell = image.data := by
  simp [numbers, Function.comp_def]

theorem length_numbers (image : ProgramImage) : image.numbers.length = image.data.length :=
  List.length_map _

/-- An image that does not fit is refused, and memory stays as it was. -/
theorem install_eq (image : ProgramImage) (m : Memory) :
    image.install m =
      if m.size - programStart < image.data.length then
        (.error (.programTooLarge image.data.length (m.size - programStart)), m)
      else (.ok image.data.length, m.overwrite programStart image.data) := by
  rw [install, Memory.loadProgram, if_pos image.allBytes_numbers, length_numbers,
    map_toCell_numbers]

theorem load_eq_ok_iff {stream : List UInt8} {name : String} :
    (load dbg stream name).1 = .ok image ↔
      (1 ≤ stream.length ∧ stream.length ≤ maxProgramSize) ∧ image = ⟨stream, name⟩ := by
  unfold load
  simp only
  by_cases hlong : maxProgramSize < stream.length
  · -- the one byte too many is read, too
    have htake : (stream.take readLimit).length = maxProgramSize + 1 :=
      List.length_take_of_le hlong
    have hne : ¬ (stream.take readLimit).isEmpty = true := by
      rw [List.isEmpty_iff_length_eq_zero, htake]
      exact Nat.succ_ne_zero _
    rw [if_neg hne, htake, if_pos (Nat.lt_succ_self _)]
    simp [Nat.not_le.mpr hlong]
  · have htake : stream.take readLimit = stream :=
      List.take_of_length_le (by unfold readLimit; omega)
    rw [htake, if_neg (c := stream.length > maxProgramSize) hlong]
    cases stream with
    | nil => simp
    | cons b bytes =>
      have hshort : (b :: bytes).length ≤ maxProgramSize := Nat.not_lt.mp hlong
      simp only [List.isEmpty_cons, Bool.false_eq_true, if_false,
        Debug.Spoken.say (.loaded (if name = "" then "-" else name) (b :: bytes).length),
        Except.ok.injEq]
      exact ⟨fun h => ⟨⟨Nat.succ_pos _, hshort⟩, h.symm⟩, fun h => h.2.symm⟩

theorem install_of_fits {m : Memory} (h : image.data.length ≤ m.size - programStart) :
    image.install m = (.ok image.data.length, m.overwrite programStart image.data) := by
  rw [install_eq, if_neg (Nat.not_lt.mpr h)]

theorem create_of_fits (h : image.data.length ≤ maxProgramSize) {config : MachineConfig}
    (hprogram : config.program.toList = image.numbers) (hcycles : 0 < config.cyclesPerFrame) :
    ∃ m, Machine.create config = .ok m ∧
      m.cpu.memory.cells.toList = Memory.holding image.data := by
  have hbytes : config.program.allBytes = true := by
    rw [Data.allBytes_eq, hprogram, allBytes_numbers]
  have hlength : config.program.length ≤ maxProgramSize := by
    rw [← Data.length_toList, hprogram, length_numbers]
    exact h
  refine ⟨_, Machine.create_eq_ok_iff.mpr ⟨⟨hcycles, hbytes, hlength⟩, rfl⟩, ?_⟩
  rw [← Memory.toList_overwrite_standard, ← map_toCell_numbers, ← hprogram]
  rfl

/-- Bytes from a stream or a file are accepted just if they fit behind the start of programs in a
memory of the usual size. The loader hands them on as they are, and they go into any memory that has
the room for them, without a trace elsewhere. -/
theorem load_agrees_with_memory (dbg : Printer) (d : List UInt8) (name : String) :
    (∀ image, (load dbg d name).1 = .ok image ↔
      (1 ≤ d.length ∧ d.length ≤ 3584) ∧ image = ⟨d, name⟩) ∧
    (∀ (directory : Directory) (path : Text.Path), directory.read path = .ok d → ∀ image,
      (loadFile dbg directory path).1 = .ok image ↔
        (1 ≤ d.length ∧ d.length ≤ 3584) ∧ image = ⟨d, path.stem⟩) ∧
    (∀ image, (load dbg d name).1 = .ok image →
      (∃ m, image.install .standard = (.ok d.length, m) ∧ m.cells.toList = Memory.holding d) ∧
      ∀ config : MachineConfig, config.program.toList = image.numbers → 0 < config.cyclesPerFrame →
        ∃ m, Machine.create config = .ok m ∧ m.cpu.memory.cells.toList = Memory.holding d) ∧
    ∀ (image : ProgramImage) (m : Memory),
      if m.size - 0x200 < image.data.length then
        image.install m = (.error (.programTooLarge image.data.length (m.size - 0x200)), m)
      else
        ∃ m', image.install m = (.ok image.data.length, m') ∧
          m'.cells.toList =
            m.cells.toList.take 0x200 ++ image.data ++
              m.cells.toList.drop (0x200 + image.data.length) := by
  refine ⟨fun image => load_eq_ok_iff, fun directory path hread image => ?_, fun image hload => ?_,
    fun image m => ?_⟩
  · rw [loadFile, hread]
    exact load_eq_ok_iff
  · obtain ⟨⟨-, hle⟩, rfl⟩ := load_eq_ok_iff.mp hload
    have hroom := Memory.room_standard hle
    exact ⟨⟨_, install_of_fits (Nat.le_sub_of_add_le' hroom), Memory.toList_overwrite_standard d⟩,
      fun config => create_of_fits hle⟩
  · split
    case isTrue hlong => rw [install_eq, programStart, if_pos hlong]
    case isFalse hfits =>
      exact ⟨_, install_of_fits (Nat.not_lt.mp hfits), Memory.toList_overwriteCells _ _ _⟩

theorem load_agrees_with_memory_beeping :
    let d : List UInt8 := [0x22, 0x04, 0x12, 0x00, 0x60, 0x05, 0xF0, 0x18, 0x00, 0xEE]
    let directory : Directory := .ofFiles [("beep.ch8", d)]
    let path := Text.Path.parse "beep.ch8"
    directory.read path = .ok d ∧ (loadFile .off directory path).1 = .ok ⟨d, "beep"⟩ ∧
      (load .off d "beep").1 = .ok ⟨d, "beep"⟩ ∧
      ∃ m, Machine.create .beeping = .ok m ∧ m.cpu.memory.cells.toList = Memory.holding d := by
  intro d directory path
  obtain ⟨hload, hfile, haccepted, -⟩ := load_agrees_with_memory .off d "beep"
  have hbytes : (directory.read path).toOption = some d := by decide +kernel
  have hread : directory.read path = .ok d := by
    cases hr : directory.read path with
    | error e =>
      rw [hr] at hbytes
      cases hbytes
    | ok bytes =>
      rw [hr] at hbytes
      exact congrArg Except.ok (Option.some.inj hbytes)
  have hstem : path.stem = "beep" := by decide +kernel
  have hok := (hload ⟨d, "beep"⟩).mpr ⟨by decide, rfl⟩
  obtain ⟨-, hcreate⟩ := haccepted _ hok
  exact ⟨hread, (hfile directory path hread _).mpr ⟨by decide, by rw [hstem]⟩, hok,
    hcreate .beeping (by decide) (by decide)⟩

end ProgramImage

end Chip8
