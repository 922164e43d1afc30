import Chip8.Random.Source
import Chip8.Byte
import Chip8.CallStack
import Chip8.Debug
import Chip8.Font
import Chip8.Input.Gamepad
import Chip8.Input.Keyboard
import Chip8.Memory
import Chip8.Timers
import Chip8.Video.FrameBuffer
import Chip8.Video.Image
import Chip8.Instruction.Basic
import Chip8.Instruction.Standard
import Chip8.Cpu.Execute
import Chip8.Cpu.Step
import Chip8.Frontend
import Chip8.Machine.Session
import Chip8.Directory
import Chip8.Number.Rounding
import Chip8.Program
import Chip8.Host
import Chip8.Sound.Beeper
import Chip8.App.KeyQueue
import Chip8.App.Run
import Chip8.CommandLine.Options
import Chip8.CommandLine.Run
import Chip8.Main
import Chip8.Number.Double
import Chip8.Number.Shortest
import Chip8.Proofs.Failures
import Chip8.Proofs.Memory.Spans
import Chip8.Proofs.Memory.Writes
import Chip8.Proofs.Memory.Contents
import Chip8.Proofs.Video.Sprites
import Chip8.Proofs.Video.Rendering
import Chip8.Proofs.Cpu.Fault
import Chip8.Proofs.Cpu.Atomicity
import Chip8.Proofs.Cpu.Bounds
import Chip8.Proofs.Instruction.Decoding
import Chip8.Proofs.Machine.Runs
import Chip8.Proofs.Machine.FaultConditions
import Chip8.Proofs.App.KeyQueue
import Chip8.Proofs.App.KeyHolds
import Chip8.Proofs.Cpu.Aside
import Chip8.Proofs.Cpu.Control
import Chip8.Proofs.Cpu.KeyWait
import Chip8.Proofs.Cpu.Rewind
import Chip8.Proofs.Cpu.Footprint
import Chip8.Proofs.Cpu.Dialect
import Chip8.Proofs.Cpu.Timers
import Chip8.Proofs.Cpu.Drawing
import Chip8.Proofs.Cpu.Arithmetic
import Chip8.Proofs.Cpu.Transfers
import Chip8.Proofs.Cpu.IndexOverflow
import Chip8.Proofs.Timers.Listeners
import Chip8.Proofs.Input.Mirroring
import Chip8.Proofs.Machine.Frontends
import Chip8.Proofs.Machine.KeyWait
import Chip8.Proofs.Machine.Tracing
import Chip8.Proofs.Machine.Cycles
import Chip8.Proofs.Machine.Input
import Chip8.Proofs.Machine.Images
import Chip8.Proofs.Machine.Halted
import Chip8.Proofs.Machine.Calls
import Chip8.Proofs.Machine.Tone
import Chip8.Proofs.Machine.TraceLog
import Chip8.Proofs.Trace.Ring
import Chip8.Proofs.Machine.Steps
import Chip8.Proofs.Machine.RandomNumbers
import Chip8.Proofs.Machine.Pacing
import Chip8.Proofs.App.FaultReport
import Chip8.Proofs.Text.Parts
import Chip8.Proofs.Debug.App
import Chip8.Proofs.Debug.Control
import Chip8.Proofs.Input.Handover
import Chip8.Proofs.Input.Refusals
import Chip8.Proofs.Input.Keyboard
import Chip8.Proofs.App.KeyEvents
import Chip8.Proofs.App.Pictures
import Chip8.Proofs.Sound.Tones
import Chip8.Proofs.App.StickReports
