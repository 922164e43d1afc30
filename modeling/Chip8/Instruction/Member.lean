import Chip8.Error

/-!
# Members of the processor

An instruction table refers to operations by name, and nothing keeps a name from being that of some
other member of the processor. Such a member is given the operands of the instruction all the same.
Only a few take them, and then nothing comes of it; most refuse them, each in a way of its own.
-/

namespace Chip8

/-- What a member of the processor that is no operation does with the operands of an instruction. -/
inductive Member where
  /-- It takes them, and nothing comes of it. -/
  | passive
  /-- It does not take them. -/
  | refuses (why : Refusal)
  /-- The register that waits for a key is there only as long as one waits. -/
  | waitRegister
  deriving DecidableEq, Repr

namespace Member

/-- The members that are given the operands and ignore them. -/
def passives : List String :=
  ["__class__", "__eq__", "__ne__", "__lt__", "__le__", "__gt__", "__ge__", "__subclasshook__"]

/-- The members that take nothing but the processor. -/
def withoutOperands : List String :=
  ["reset", "step", "fetch", "tick_timers", "_skip", "__repr__"]

/-- The members that take nothing at all. -/
def withoutArguments : List String :=
  ["__dir__", "__getstate__", "__init_subclass__", "__reduce__", "__sizeof__"]

/-- The members that are values, with the types of the values. -/
def values : List (String × String) :=
  [("memory", "Memory"), ("framebuffer", "FrameBuffer"), ("keypad", "Keypad"),
   ("super_chip", "bool"), ("awaiting_key", "bool"), ("halted", "bool"),
   ("instruction_table", "tuple"), ("rng", "Random"), ("state", "CPUState"),
   ("stack", "CallStack"), ("timers", "Timers"), ("run_state", "RunState"),
   ("instruction_count", "int"), ("__annotations__", "dict"), ("__dataclass_fields__", "dict"),
   ("__dataclass_params__", "_DataclassParams"), ("__dict__", "dict"), ("__doc__", "str"),
   ("__match_args__", "tuple"), ("__module__", "str")]

/-- The members that take one thing, which operands are not. -/
def particular : List (String × Refusal) :=
  [("_sub8", .twoBytes "_sub8"), ("decode", .aWord), ("execute", .aWord),
   ("load_program", .aProgram), ("__delattr__", .aName), ("__getattribute__", .aName),
   ("__setattr__", .aNameAndValue), ("__format__", .aFormat "__format__"),
   ("__new__", .aType "object" "__new__"), ("__reduce_ex__", .aNumber), ("__str__", .nothing)]

def named : List (String × Member) :=
  passives.map (·, passive) ++
    withoutOperands.map (fun name => (name, refuses (.noOperands name))) ++
    withoutArguments.map (fun name => (name, refuses (.noArguments name))) ++
    values.map (fun (name, type) => (name, refuses (.idle type))) ++
    particular.map (fun (name, why) => (name, refuses why)) ++
    [("wait_register", waitRegister)]

end Member

end Chip8
