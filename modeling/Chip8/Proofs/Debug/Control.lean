import Chip8.Proofs.Debug.Inert
import Chip8.Proofs.Text.Parts

/-!
# What questions find

A setting names categories: its parts between commas, without blanks at their ends and in small
letters (`Names`). By them it switches messages on (`SwitchesOn`).

The setting may change at any time, but only the first question since the last reload reads it.
`Control.settingRead` is what the setting was then, told from the requests alone, and the categories
are those of that setting up to the next reload (`Control.active_runAll`).

* `Control.answers_of_run`: hence what every question finds. A message of a category that is on is
  printed, unless there is a reason that it cannot be (`Unprintable`).
* `Control.unprinted_of_noCharacter`: a message that cannot be written is not printed, though its
  category is on.
-/

namespace Chip8.Debug

open Text (CodePoint Value IsPart IsTrimmed codePoints compose isBlank pieces tame)

/-! ## Names in a setting -/

/-- The setting names a category: `name` is a part of it between commas, without the blanks at its
ends and in small letters (letter by letter in ASCII, `Text.lowerChars_of_ascii`). -/
def Names (setting name : String) : Prop :=
  ∃ part word, IsPart ',' setting.toList part ∧ IsTrimmed isBlank part word ∧ word ≠ [] ∧
    name = Categories.fold (.ofList word)

/-- The setting switches on a category; without one, any category. -/
def SwitchesOn (setting : String) : Option String → Prop
  | none => ∃ name, Names setting name
  | some category => Names setting "all" ∨ Names setting (Categories.fold category)

namespace Categories

variable {setting name : String}

theorem mem_partsOf : name ∈ partsOf setting ↔ Names setting name := by
  simp only [partsOf, Names, List.mem_map, List.mem_filter, decide_eq_true_eq,
    Text.mem_splitAll_iff, Text.trim_eq_iff]
  constructor
  · rintro ⟨word, ⟨⟨part, hpart, htrim⟩, hword⟩, rfl⟩
    exact ⟨part, word, hpart, htrim, hword, rfl⟩
  · rintro ⟨part, word, hpart, htrim, hword, rfl⟩
    exact ⟨word, ⟨⟨part, hpart, htrim⟩, hword⟩, rfl⟩

theorem mem_parse : name ∈ (parse setting).names ↔ Names setting name := by
  rw [parse, List.mem_eraseDups, List.mem_mergeSort, mem_partsOf]

theorem enabled_none_iff (active : Categories) :
    active.enabled none = true ↔ ∃ name, name ∈ active.names := by
  rw [← List.isEmpty_eq_false_iff_exists_mem, enabled]
  cases active.names.isEmpty <;> simp

theorem enabled_some_iff (active : Categories) (category : String) :
    active.enabled (some category) = true ↔
      "all" ∈ active.names ∨ fold category ∈ active.names := by
  obtain ⟨names⟩ := active
  cases names with
  | nil => simp [enabled]
  | cons name names => simp [enabled]

/-- The categories of a setting are those that it switches on. -/
theorem enabled_parse_iff (setting : String) (category : Option String) :
    (parse setting).enabled category = true ↔ SwitchesOn setting category := by
  cases category with
  | none => simp only [enabled_none_iff, mem_parse, SwitchesOn]
  | some category => simp only [enabled_some_iff, mem_parse, SwitchesOn]

end Categories

/-! ## Requests -/

namespace Control

/-- What can be asked of debugging. -/
inductive Request where
  /-- The setting is changed or taken away. -/
  | change (setting : Option String)
  | reload
  | enabled (category : Option String)
  | log (category message : String) (values : List Value)

def respond (room : Room) : Request → Action Control Answer
  | .change setting, c =>
    ⟨(c.trySet setting).1.map fun _ => .nothing, (c.trySet setting).2, []⟩
  | .reload, c => .done .nothing c.reload []
  | .enabled category, c => .done (.flag (c.active.enabled category)) c.asked []
  | .log category message values, c =>
    match (c.printer room).say category message values with
    | .ok lines => .done .nothing c.asked lines
    | .error e => .failed e c.asked []

namespace Request

def isReload : Request → Bool
  | .reload => true
  | _ => false

/-- Whether the request is a question, which looks at the categories. -/
def asks : Request → Bool
  | .enabled _ | .log _ _ _ => true
  | .change _ | .reload => false

theorem isReload_of_asks {op : Request} (h : op.asks = true) : op.isReload = false := by
  cases op with
  | change | reload => cases h
  | enabled | log => rfl

/-- The setting after a request. A text that cannot be the setting changes nothing. -/
def setting (old : Option String) : Request → Option String
  | .change new => if new.all admits then new else old
  | _ => old

end Request

/-! ## What is read -/

def settingAfter (start : Option String) (ops : List Request) : Option String :=
  ops.foldl Request.setting start

/-- The requests up to the last reload. -/
def upToReload (ops : List Request) : List Request := ops.rdropWhile (!·.isReload)

/-- The requests since the last reload. -/
def sinceReload (ops : List Request) : List Request := ops.rtakeWhile (!·.isReload)

/-- The requests before the first question since the last reload; all of them if there has been
none. -/
def beforeReading (ops : List Request) : List Request :=
  upToReload ops ++ (sinceReload ops).takeWhile (!·.asks)

/-- The setting at the first question since the last reload. -/
def settingRead (start : Option String) (ops : List Request) : String :=
  (settingAfter start (beforeReading ops)).getD ""

/-- There has been a question since the last reload. -/
def HasRead (ops : List Request) : Prop := ∃ op ∈ sinceReload ops, op.asks = true

variable {room : Room} {start : Option String} {ops : List Request} {op : Request} {c : Control}

theorem settingAfter_concat (start : Option String) (ops : List Request) (op : Request) :
    settingAfter start (ops ++ [op]) = op.setting (settingAfter start ops) := by
  simp [settingAfter]

theorem takeWhile_sinceReload_iff (ops : List Request) :
    (sinceReload ops).takeWhile (!·.asks) = sinceReload ops ↔ ¬ HasRead ops := by
  simp [List.takeWhile_eq_self_iff, HasRead]

theorem beforeReading_of_not_hasRead (h : ¬ HasRead ops) : beforeReading ops = ops := by
  rw [beforeReading, (takeWhile_sinceReload_iff ops).mpr h]
  exact List.rdropWhile_append_rtakeWhile

theorem not_hasRead_reload (ops : List Request) : ¬ HasRead (ops ++ [.reload]) := by
  have hsince : sinceReload (ops ++ [.reload]) = [] :=
    List.rtakeWhile_concat_neg _ _ _ (by simp [Request.isReload])
  simp [HasRead, hsince]

section

variable (h : op.isReload = false)

include h

theorem sinceReload_concat : sinceReload (ops ++ [op]) = sinceReload ops ++ [op] :=
  List.rtakeWhile_concat_pos _ _ _ (by simp [h])

theorem hasRead_concat_iff : HasRead (ops ++ [op]) ↔ HasRead ops ∨ op.asks = true := by
  rw [HasRead, HasRead, sinceReload_concat h]
  simp [or_and_right, exists_or]

theorem beforeReading_concat : beforeReading (ops ++ [op]) =
    upToReload ops ++ (sinceReload ops ++ [op]).takeWhile (!·.asks) := by
  have hupTo : upToReload (ops ++ [op]) = upToReload ops :=
    List.rdropWhile_concat_pos _ _ _ (by simp [h])
  rw [beforeReading, hupTo, sinceReload_concat h]

/-- Once the setting is read, only a reload makes anything count again. -/
theorem beforeReading_concat_of_hasRead (hread : HasRead ops) :
    beforeReading (ops ++ [op]) = beforeReading ops := by
  have hlength : ¬ ((sinceReload ops).takeWhile (!·.asks)).length = (sinceReload ops).length := by
    intro heq
    have hall := (List.takeWhile_prefix _).eq_of_length heq
    exact (takeWhile_sinceReload_iff ops).mp hall hread
  rw [beforeReading_concat h, List.takeWhile_append, if_neg hlength, beforeReading]

end

/-- A question reads what was set before it. -/
theorem beforeReading_concat_of_asks (h : op.asks = true) :
    beforeReading (ops ++ [op]) = beforeReading ops := by
  have hreload := Request.isReload_of_asks h
  by_cases hread : HasRead ops
  · exact beforeReading_concat_of_hasRead hreload hread
  · have hall := (takeWhile_sinceReload_iff ops).mpr hread
    rw [beforeReading_concat hreload, List.takeWhile_append, if_pos (congrArg List.length hall),
      beforeReading, hall]
    simp [h]

/-! ## Following the requests -/

/-- The state after requests: it has the setting that they leave, and the categories of the one that
was read, which it keeps if there has been a question. -/
structure Follows (start : Option String) (ops : List Request) (c : Control) : Prop where
  setting : c.setting = settingAfter start ops
  read : c.read.isSome = true ↔ HasRead ops
  active : c.active = .parse (settingRead start ops)

theorem active_of_isSome {c d : Control} (hread : c.read = d.read) (h : c.read.isSome = true) :
    c.active = d.active := by
  obtain ⟨categories, hc⟩ := Option.isSome_iff_exists.mp h
  rw [active, active, ← hread, hc]
  rfl

theorem active_of_not_isSome (h : ¬ c.read.isSome = true) :
    c.active = .parse (c.setting.getD "") := by
  rw [active, Option.not_isSome_iff_eq_none.mp h]
  rfl

theorem follows_start (start : Option String) : Follows start [] (.start start) where
  setting := rfl
  read := by simp [Control.start, HasRead, sinceReload]
  active := rfl

/-- A question keeps what it finds. -/
theorem Follows.asked (h : Follows start ops c) (hop : op.asks = true) :
    Follows start (ops ++ [op]) c.asked := by
  have hreload := Request.isReload_of_asks hop
  have hsetting : op.setting (settingAfter start ops) = settingAfter start ops := by
    cases op with
    | change => cases hop
    | reload | enabled | log => rfl
  refine ⟨?_, ?_, ?_⟩
  · rw [settingAfter_concat, hsetting]
    exact h.setting
  · simp [Control.asked, hasRead_concat_iff hreload, hop]
  · rw [settingRead, beforeReading_concat_of_asks hop]
    exact h.active

theorem Follows.reload (h : Follows start ops c) :
    Follows start (ops ++ [.reload]) c.reload := by
  have hread := not_hasRead_reload ops
  have hsetting : c.reload.setting = settingAfter start (ops ++ [.reload]) := by
    rw [settingAfter_concat]
    exact h.setting
  refine ⟨hsetting, by simp [Control.reload, hread], ?_⟩
  rw [settingRead, beforeReading_of_not_hasRead hread, ← hsetting]
  rfl

theorem Follows.trySet (h : Follows start ops c) (new : Option String) :
    Follows start (ops ++ [.change new]) (c.trySet new).2 := by
  have hreload : (Request.change new).isReload = false := rfl
  have hkept : (c.trySet new).2.read = c.read := by
    unfold Control.trySet
    split <;> rfl
  have hsetting : (c.trySet new).2.setting = settingAfter start (ops ++ [.change new]) := by
    rw [settingAfter_concat, ← h.setting, Control.trySet, Request.setting]
    split <;> rfl
  have hread : HasRead (ops ++ [.change new]) ↔ HasRead ops := by
    simp [hasRead_concat_iff hreload, Request.asks]
  refine ⟨hsetting, by rw [hkept, hread, h.read], ?_⟩
  by_cases hops : HasRead ops
  · rw [active_of_isSome hkept (by rw [hkept]; exact h.read.mpr hops), h.active, settingRead,
      settingRead, beforeReading_concat_of_hasRead hreload hops]
  · rw [active_of_not_isSome (by rw [hkept, h.read]; exact hops), hsetting, settingRead,
      beforeReading_of_not_hasRead (mt hread.mp hops)]

theorem follows_respond (h : Follows start ops c) (op : Request) :
    Follows start (ops ++ [op]) ((respond room op).run c).state := by
  cases op with
  | change new => exact h.trySet new
  | reload => exact h.reload
  | enabled category => exact h.asked rfl
  | log category message values =>
    have hstate : ((respond room (.log category message values)).run c).state = c.asked := by
      simp only [Action.run, respond]
      split <;> rfl
    rw [hstate]
    exact h.asked rfl

theorem follows_runAll (room : Room) (start : Option String) (ops : List Request) :
    Follows start ops (Action.runAll (respond room) ops (.start start)) := by
  -- On the last request: what has been read is told from the end of the history.
  induction ops using List.reverseRecOn with
  | nil => exact follows_start start
  | append_singleton ops op ih =>
    rw [Action.runAll_append]
    exact follows_respond ih op

/-- The categories are those of the setting that was read. -/
theorem active_runAll (room : Room) (start : Option String) (ops : List Request) :
    (Action.runAll (respond room) ops (.start start)).active = .parse (settingRead start ops) :=
  (follows_runAll room start ops).active

/-- A change behind a question waits for a reload, and for the question behind it. -/
example :
    settingRead none [.enabled none, .change (some "cpu"), .log "cpu" "" []] = "" ∧
      settingRead none [.enabled none, .change (some "cpu"), .reload, .change (some "all")] =
        "all" :=
  ⟨rfl, rfl⟩

/-! ## Answers -/

/-- Why a message whose category is on is not printed. -/
inductive Unprintable (room : Room) (message : String) (values : List Value) : Error → Prop where
  /-- A number is too great for what the message does with it, or there is no room for that. -/
  | excess {e : Error} (written : compose room message values = .error e)
    (cause : e.isExcess = true ∨ e = .noRoom) : Unprintable room message values e
  /-- The values do not fit the message, and one of them is too long to be listed behind it. -/
  | length (written : compose room message values = .error .tooManyDigits) {v : Value}
    (mem : v ∈ values) (long : v.isWritable = false) :
    Unprintable room message values .tooManyDigits
  /-- The text has come to hold what is no character. -/
  | surrogate {text : List CodePoint} (written : compose room message values = .ok text)
    {offset : Fin 0x800} (mem : .surrogate offset ∈ text) (first last : Nat) :
    Unprintable room message values (.unencodable (0xD800 + offset) first last)

variable {category message : String} {values : List Value}

/-- None of this happens to tame messages with values that can be written. -/
theorem Unprintable.untame {e : Error} (h : Unprintable room message values e) :
    tame room (pieces message.toList) values = false ∨ ∃ v ∈ values, v.isWritable = false := by
  by_contra hnot
  obtain ⟨htame, hwritable⟩ := not_or.mp hnot
  have hall : values.all Value.isWritable = true := by simpa using hwritable
  obtain ⟨text, htext⟩ := Text.compose_of_tame (eq_true_of_ne_false htame) hall
  cases h with
  | excess written =>
    rw [htext] at written
    cases written
  | length written =>
    rw [htext] at written
    cases written
  | surrogate written mem =>
    rw [htext] at written
    cases written
    simp [codePoints] at mem

/-- A message of a category that is on is printed or has a reason not to be. -/
theorem say_of_enabled {dbg : Printer} (hon : dbg.enabled (some category) = true)
    (message : String) (values : List Value) :
    (∃ text, compose dbg.room message values = .ok (codePoints text) ∧
      dbg.say category message values = .ok [⟨category, .ofList text⟩]) ∨
    ∃ e, dbg.say category message values = .error e ∧ Unprintable dbg.room message values e := by
  rw [Printer.say, if_pos hon]
  cases hwritten : compose dbg.room message values with
  | error e =>
    refine .inr ⟨e, rfl, ?_⟩
    rcases Text.compose_error hwritten with hexcess | hroom | ⟨rfl, v, hmem, hlong⟩
    · exact .excess hwritten (.inl hexcess)
    · exact .excess hwritten (.inr hroom)
    · exact .length hwritten hmem hlong
  | ok written =>
    cases hencoded : Text.encode (Line.mark category).length written with
    | ok text =>
      obtain rfl := Text.eq_codePoints_of_encode_ok hencoded
      refine .inl ⟨text, rfl, ?_⟩
      show (Line.print category (codePoints text) >>= fun line => pure [line]) = _
      rw [Line.print, hencoded]
      rfl
    | error e =>
      obtain ⟨offset, first, last, rfl, hmem⟩ := Text.surrogate_mem_of_encode_error hencoded
      refine .inr ⟨_, ?_, .surrogate hwritten hmem first last⟩
      show (Line.print category written >>= fun line => pure [line]) = _
      rw [Line.print, hencoded]
      rfl

/-- After any requests, a question is answered by the setting that was found at the first question
since the last reload. A message is printed if that setting switches its category on, once and as
its values fill it in. It fails instead if there is a reason for that, and then it holds a directive
that is not tame for its value, or a value that cannot be written. -/
theorem answers_of_run (room : Room) (start : Option String) (ops : List Request) :
    let c := Action.runAll (respond room) ops (.start start)
    let setting := settingRead start ops
    (∀ category, ∃ yes, (respond room (.enabled category)).run c = .done (.flag yes) c.asked [] ∧
      (yes = true ↔ SwitchesOn setting category)) ∧
    ∀ category message values,
      let o := (respond room (.log category message values)).run c
      (¬ SwitchesOn setting (some category) → o = .done .nothing c.asked []) ∧
      (SwitchesOn setting (some category) →
        (∃ text, compose room message values = .ok (codePoints text) ∧
          o = .done .nothing c.asked [⟨category, .ofList text⟩]) ∨
        ∃ e, o = .failed e c.asked [] ∧ Unprintable room message values e ∧
          (tame room (pieces message.toList) values = false ∨
            ∃ v ∈ values, v.isWritable = false)) := by
  intro c setting
  have henabled (category : Option String) :
      c.active.enabled category = true ↔ SwitchesOn setting category := by
    rw [active_runAll]
    exact Categories.enabled_parse_iff setting category
  refine ⟨fun category => ⟨_, rfl, henabled category⟩, fun category message values => ?_⟩
  simp only [Action.run, respond]
  constructor
  · intro hoff
    have hquiet : (c.printer room).enabled (some category) = false :=
      Bool.eq_false_iff.mpr (mt (henabled _).mp hoff)
    rw [Printer.say_of_off hquiet]
  · intro hon
    have hquery : (c.printer room).enabled (some category) = true := (henabled _).mpr hon
    rcases say_of_enabled hquery message values with
      ⟨text, hwritten, hsaid⟩ | ⟨e, hsaid, hreason⟩
    · exact .inl ⟨text, hwritten, by rw [hsaid]⟩
    · exact .inr ⟨e, by rw [hsaid], hreason, hreason.untame⟩

/-! ## A message that is on and not printed -/

theorem names_cpu : Names "cpu" "cpu" := by
  have hpart : IsPart ',' "cpu".toList ['c', 'p', 'u'] := ⟨by decide, List.infix_rfl⟩
  have htrim : IsTrimmed isBlank ['c', 'p', 'u'] ['c', 'p', 'u'] := by
    refine ⟨[], [], rfl, by simp, ?_, ?_⟩
    · rintro _ ⟨⟩
      rfl
    · rintro _ ⟨⟩
      rfl
  exact ⟨_, _, hpart, htrim, by decide, rfl⟩

/-- No character has a negative number. -/
theorem compose_noCharacter (room : Room) :
    compose room "%c" [.int (-1)] = .error .noSuchCharacter := by
  have hpieces : pieces "%c".toList = [.directive ⟨.ofChars [], none, none, some 'c'⟩] := by
    simp [pieces, Text.Directive.read, Text.readMeasure, Text.readPrecision, Text.dropSize,
      Text.isFlag]
  rw [compose, hpieces]
  rfl

/-- The category of the message is on, but the message fails and nothing is printed. -/
theorem unprinted_of_noCharacter :
    let c := Control.start (some "cpu")
    (respond .full (.enabled (some "cpu"))).run c = .done (.flag true) c.asked [] ∧
      (respond .full (.log "cpu" "%c" [.int (-1)])).run c = .failed .noSuchCharacter c.asked [] := by
  intro c
  have hactive : c.active.enabled (some "cpu") = true :=
    (Categories.enabled_parse_iff "cpu" (some "cpu")).mpr (.inr names_cpu)
  have hon : (c.printer .full).enabled (some "cpu") = true := hactive
  refine ⟨?_, ?_⟩
  · rw [Action.run, respond, hactive]
  · rw [Action.run, respond, Printer.say, if_pos hon, compose_noCharacter]
    rfl

end Control

end Chip8.Debug
