import Chip8.Proofs.Toggles
import Chip8.Sound.Beeper

/-!
# Tones

A beeper is told to sound, to be silent or to give its channel up, again and again, while time
passes and the host answers as it likes. A beeper that plays has a channel (`Beeper.OnChannel`), so
an event does one of three things to its tone: nothing, start one, or end the one that sounds on its
own channel (`Beeper.leads_apply`). The calls that start and end tones are therefore paired
(`Beeper.Pairs`, `Beeper.pairs_run`).

* `Beeper.paired_of_create`: the calls of a beeper behind any events start and end tones in turn, a
  tone is ended on its channel and not cut before its time, and a beeper that was told to be silent
  leaves no channel sounding.
-/

namespace Chip8

/-- The call starts or ends a tone. -/
def HostCall.turnsTone : HostCall → Bool
  | .play _ _ => true
  | .fadeout _ _ => true
  | .stop _ => true
  | _ => false

def HostCall.startsTone : HostCall → Bool
  | .play _ _ => true
  | _ => false

/-- The channels that are left sounding by a call, of those that sounded before. -/
def HostCall.sounding (channels : List Nat) : HostCall → List Nat
  | .play channel _ => channels.insert channel
  | .fadeout channel _ => channels.erase channel
  | .stop channel => channels.erase channel
  | _ => channels

namespace Beeper

/-! ## Events -/

inductive Event where
  | set (on : Bool)
  | shutdown
  /-- Time passes. -/
  | wait (ms : Int)

/-- A beeper is silent behind these events. -/
def Event.silences : Event → Bool
  | .set on => !on
  | .shutdown => true
  | .wait _ => false

/-- A beeper and its host behind an event. A beeper that fails to start goes on as it is. -/
def apply : Event → Beeper × Host → Beeper × Host
  | .set on, (b, h) => (b.setState on h).2
  | .shutdown, (b, h) => b.shutdown h
  | .wait ms, (b, h) => (b, h.advance ms)

/-- A call of the host and when it was made. -/
structure TimedCall where
  time : Int
  call : HostCall

/-- The beeper and its host behind events in turn, and the calls that were made on the way. -/
def run : List Event → Beeper × Host → (Beeper × Host) × List TimedCall
  | [], s => (s, [])
  | e :: events, s =>
    let next := apply e s
    let made := next.2.calls.toList.drop s.2.calls.size
    let (last, later) := run events next
    (last, made.map (⟨s.2.now, ·⟩) ++ later)

/-- The call that starts a tone on a channel, at its time. -/
def startCall (tone : Nat × Int) : TimedCall := ⟨tone.2, .play tone.1 (-1)⟩

/-- The calls that start and end tones. -/
def tones (calls : List TimedCall) : List TimedCall := calls.filter (·.call.turnsTone)

/-- If the first call starts a tone, the second one ends it on the same channel. It stops a tone that
has lasted long enough and fades out one that has not, for as long as it lacks. -/
def Answers (minPlayMs : Int) (first second : TimedCall) : Prop :=
  ∀ channel loops, first.call = .play channel loops →
    (second.call = .stop channel ∧ (0 < minPlayMs → minPlayMs ≤ second.time - first.time)) ∨
    (second.call = .fadeout channel (max 10 (minPlayMs - (second.time - first.time))) ∧
      second.time - first.time < minPlayMs)

/-! ## One event -/

/-- A beeper that plays does so on a channel. -/
def OnChannel (b : Beeper) : Prop := b.playing = true → b.channel.isSome = true

/-- The tone that sounds: its channel and when it started. -/
def tone (b : Beeper) : Option (Nat × Int) :=
  if b.playing then b.channel.map (·, b.startedAt) else none

variable {b b' : Beeper} {h h' : Host}

theorem tone_of_not_playing (hb : b.playing = false) : b.tone = none := by
  simp only [tone, hb, Bool.false_eq_true, if_false]

theorem tone_of_playing {channel : Nat} (hb : b.playing = true) (hc : b.channel = some channel) :
    b.tone = some (channel, b.startedAt) := by
  simp only [tone, hb, hc, if_true, Option.map_some]

theorem OnChannel.isSome_tone (hb : b.OnChannel) : b.tone.isSome = b.playing := by
  cases hp : b.playing with
  | false => rw [tone_of_not_playing hp]; rfl
  | true => simp only [tone, hp, if_true, Option.isSome_map, hb hp]

theorem onChannel_of_not_playing (hb : b.playing = false) : b.OnChannel :=
  fun hplays => absurd (hb.symm.trans hplays) Bool.false_ne_true

/-- What looking for a sound and a channel leaves alone, and that it starts and ends no tone. -/
structure Prepares (b : Beeper) (h : Host) (b' : Beeper) (h' : Host) : Prop where
  playing : b'.playing = b.playing
  minPlayMs : b'.minPlayMs = b.minPlayMs
  now : h'.now = h.now
  calls : ∃ calls : List HostCall,
    h'.calls.toList = h.calls.toList ++ calls ∧ calls.filter HostCall.turnsTone = []

theorem Prepares.refl (b : Beeper) (h : Host) : Prepares b h b h :=
  ⟨rfl, rfl, rfl, [], (List.append_nil _).symm, rfl⟩

theorem Prepares.trans {b'' : Beeper} {h'' : Host} (first : Prepares b h b' h')
    (second : Prepares b' h' b'' h'') : Prepares b h b'' h'' := by
  obtain ⟨calls, hcalls, hquiet⟩ := first.calls
  obtain ⟨later, hlater, hquiet'⟩ := second.calls
  refine ⟨second.playing.trans first.playing, second.minPlayMs.trans first.minPlayMs,
    second.now.trans first.now, calls ++ later, ?_, ?_⟩
  · rw [hlater, hcalls, List.append_assoc]
  · rw [List.filter_append, hquiet, hquiet', List.append_nil]

theorem prepares_withSound (b : Beeper) (h : Host) :
    Prepares b h (b.withSound h).2.1 (b.withSound h).2.2 := by
  rw [withSound]
  split
  · exact .refl b h
  · split
    · exact .refl b h
    · exact .refl b h
    · exact ⟨rfl, rfl, rfl, [_], Array.toList_push .., rfl⟩

theorem prepares_withChannel (b : Beeper) (h : Host) :
    Prepares b h (b.withChannel h).1 (b.withChannel h).2 := by
  rw [withChannel]
  split
  · exact .refl b h
  · exact ⟨rfl, rfl, rfl, [_], Array.toList_push .., rfl⟩

/-- A beeper that is started has looked for its sound and its channel and plays, or not. -/
theorem start_cases (b : Beeper) (h : Host) :
    ∃ b' h', Prepares b h b' h' ∧ ((b.start h).2 = (b', h') ∨ (b.start h).2 = b'.play h') := by
  have hsound := prepares_withSound b h
  simp only [start]
  split
  · exact ⟨_, _, hsound.trans (prepares_withChannel _ _), .inr rfl⟩
  · exact ⟨_, _, hsound, .inl rfl⟩

/-- What an event makes of the tone of a beeper and which of its calls tell so. -/
inductive Turns (b : Beeper) (h : Host) (tone : Option (Nat × Int)) (calls : List HostCall) :
    Prop where
  | keeps (hcalls : calls.filter HostCall.turnsTone = []) (htone : tone = b.tone)
  | starts (channel : Nat) (hcalls : calls.filter HostCall.turnsTone = [.play channel (-1)])
      (hsilent : b.tone = none) (htone : tone = some (channel, h.now))
  | ends (channel : Nat) (hcalls : calls.filter HostCall.turnsTone = [b.ending channel h])
      (hsounds : b.tone = some (channel, b.startedAt)) (htone : tone = none)

/-- What an event leaves behind. -/
structure Leads (b : Beeper) (h : Host) (s : Beeper × Host) : Prop where
  onChannel : s.1.OnChannel
  minPlayMs : s.1.minPlayMs = b.minPlayMs
  turns : ∃ calls, s.2.calls.toList = h.calls.toList ++ calls ∧ Turns b h s.1.tone calls

/-- A beeper that does not play stays silent while it prepares. -/
theorem Prepares.leads (hp : b.playing = false) (hprep : Prepares b h b' h') :
    Leads b h (b', h') := by
  have hsilent : b'.playing = false := hprep.playing.trans hp
  obtain ⟨calls, hcalls, hquiet⟩ := hprep.calls
  refine ⟨onChannel_of_not_playing hsilent, hprep.minPlayMs, calls, hcalls, .keeps hquiet ?_⟩
  rw [tone_of_not_playing hp, tone_of_not_playing hsilent]

/-- A beeper that plays after it has prepared starts a tone, if it has a channel. -/
theorem Prepares.leads_play (hp : b.playing = false) (hprep : Prepares b h b' h') :
    Leads b h (b'.play h') := by
  cases hc : b'.channel with
  | none =>
    have hplay : b'.play h' = (b', h') := by simp only [play, hc]
    rw [hplay]
    exact hprep.leads hp
  | some channel =>
    have hplay : b'.play h' = ({ b' with playing := true, startedAt := h'.now },
        (h'.call (.play channel (-1))).call (.volume channel b'.volume)) := by
      simp only [play, hc]
    obtain ⟨calls, hcalls, hquiet⟩ := hprep.calls
    rw [hplay]
    refine ⟨fun _ => Option.isSome_of_eq_some hc, hprep.minPlayMs,
      calls ++ [.play channel (-1), .volume channel b'.volume], ?_,
      .starts channel ?_ (tone_of_not_playing hp) ?_⟩
    · simp only [Host.call, Array.toList_push, hcalls, List.append_assoc, List.cons_append,
        List.nil_append]
    · rw [List.filter_append, hquiet]
      rfl
    · rw [← hprep.now]
      exact tone_of_playing rfl hc

theorem leads_start (hp : b.playing = false) : Leads b h (b.start h).2 := by
  obtain ⟨b', h', hprep, heq | heq⟩ := start_cases b h
  · rw [heq]
    exact hprep.leads hp
  · rw [heq]
    exact hprep.leads_play hp

theorem turnsTone_ending (b : Beeper) (channel : Nat) (h : Host) :
    (b.ending channel h).turnsTone = true := by
  rw [ending]
  split <;> rfl

theorem leads_refl (hb : b.OnChannel) : Leads b h (b, h) :=
  ⟨hb, rfl, [], (List.append_nil _).symm, .keeps rfl rfl⟩

/-- A beeper that stops ends the tone that sounds on its channel. -/
theorem leads_stop (hb : b.OnChannel) : Leads b h (b.stop h) := by
  cases hp : b.playing with
  | false =>
    have hsame : b.stop h = (b, h) := by
      obtain ⟨_, _, _, _, channel, _, playing, _⟩ := b
      obtain rfl : playing = false := hp
      cases channel <;> rfl
    rw [hsame]
    exact leads_refl hb
  | true =>
    obtain ⟨channel, hc⟩ := Option.isSome_iff_exists.mp (hb hp)
    simp only [stop, hc, hp, if_true]
    refine ⟨onChannel_of_not_playing rfl, rfl, [b.ending channel h], Array.toList_push,
      .ends channel ?_ (tone_of_playing hp hc) (tone_of_not_playing rfl)⟩
    rw [List.filter_cons_of_pos (turnsTone_ending b channel h), List.filter_nil]

theorem playing_stop (b : Beeper) (h : Host) : (b.stop h).1.playing = false := by
  simp only [stop]
  split
  · split
    · rfl
    · exact Bool.eq_false_iff.mpr ‹_›
  · rfl

/-- One event starts a tone, ends the one that sounds, or leaves the tone alone. -/
theorem leads_apply (hb : b.OnChannel) (e : Event) : Leads b h (apply e (b, h)) := by
  cases e with
  | set on =>
    cases on with
    | false => exact leads_stop hb
    | true =>
      cases hp : b.playing with
      | true =>
        simp only [apply, setState, hp, Bool.not_true, Bool.false_eq_true, if_false, if_true]
        exact leads_refl hb
      | false =>
        simp only [apply, setState, hp, Bool.not_true, Bool.false_eq_true, if_false]
        exact leads_start hp
  | shutdown =>
    obtain ⟨-, hmin, calls, hcalls, hturns⟩ := leads_stop (h := h) hb
    have hsilent : (b.stop h).1.playing = false := playing_stop b h
    have hquiet : (apply .shutdown (b, h)).1.playing = false := hsilent
    -- A beeper that does not play has no tone, whether it has a channel or not.
    have htone : (b.stop h).1.tone = (apply .shutdown (b, h)).1.tone :=
      (tone_of_not_playing hsilent).trans (tone_of_not_playing hquiet).symm
    exact ⟨onChannel_of_not_playing hquiet, hmin, calls, hcalls, htone ▸ hturns⟩
  | wait ms => exact ⟨hb, rfl, [], (List.append_nil _).symm, .keeps rfl rfl⟩

theorem playing_apply_of_silences {e : Event} (he : e.silences = true) (s : Beeper × Host) :
    (apply e s).1.playing = false := by
  cases e with
  | set on =>
    cases on with
    | false => exact playing_stop s.1 s.2
    | true => exact absurd he Bool.false_ne_true
  | shutdown => exact playing_stop s.1 s.2
  | wait ms => exact absurd he Bool.false_ne_true

/-- A tone that is ended is stopped or faded out as its age demands. -/
theorem answers_ending (b : Beeper) (channel : Nat) (h : Host) :
    Answers b.minPlayMs (startCall (channel, b.startedAt)) ⟨h.now, b.ending channel h⟩ := by
  rintro channel' loops heq
  obtain ⟨rfl, -⟩ := HostCall.play.inj heq
  by_cases hearly : 0 < b.minPlayMs ∧ 0 < b.minPlayMs - (h.now - b.startedAt)
  · exact .inr ⟨if_pos hearly, by simp only [startCall]; omega⟩
  · exact .inl ⟨if_neg hearly, by simp only [startCall]; omega⟩

/-! ## Events in turn -/

/-- Calls that start and end tones in turn, from a tone that sounds or none to one or none. -/
inductive Pairs (minPlayMs : Int) :
    Option (Nat × Int) → List TimedCall → Option (Nat × Int) → Prop where
  | nil (tone : Option (Nat × Int)) : Pairs minPlayMs tone [] tone
  | starts {calls : List TimedCall} {last : Option (Nat × Int)} (channel : Nat) (now : Int)
      (later : Pairs minPlayMs (some (channel, now)) calls last) :
      Pairs minPlayMs none (startCall (channel, now) :: calls) last
  | ends {calls : List TimedCall} {last : Option (Nat × Int)} {ending : TimedCall} (channel : Nat)
      (started : Int) (hends : Answers minPlayMs (startCall (channel, started)) ending)
      (later : Pairs minPlayMs none calls last) :
      Pairs minPlayMs (some (channel, started)) (ending :: calls) last

theorem tones_stamped (now : Int) (calls : List HostCall) (later : List TimedCall) :
    tones (calls.map (⟨now, ·⟩) ++ later) =
      (calls.filter HostCall.turnsTone).map (⟨now, ·⟩) ++ tones later := by
  rw [tones, List.filter_append, List.filter_map]
  rfl

theorem Turns.pairs {tone last : Option (Nat × Int)} {calls : List HostCall}
    {later : List TimedCall} (hturns : Turns b h tone calls)
    (hlater : Pairs b.minPlayMs tone (tones later) last) :
    Pairs b.minPlayMs b.tone (tones (calls.map (⟨h.now, ·⟩) ++ later)) last := by
  rw [tones_stamped]
  cases hturns with
  | keeps hcalls htone =>
    rw [hcalls, ← htone]
    exact hlater
  | starts channel hcalls hsilent htone =>
    rw [hcalls, hsilent]
    exact .starts channel h.now (htone ▸ hlater)
  | ends channel hcalls hsounds htone =>
    rw [hcalls, hsounds]
    exact .ends channel b.startedAt (answers_ending b channel h) (htone ▸ hlater)

/-- What the host received, with the tones in it paired from the one that sounds at the start to the
one that sounds at the end. -/
theorem pairs_run (hb : b.OnChannel) (events : List Event) :
    let r := run events (b, h)
    r.1.1.OnChannel ∧ r.1.2.calls.toList = h.calls.toList ++ r.2.map TimedCall.call ∧
      Pairs b.minPlayMs b.tone (tones r.2) r.1.1.tone := by
  induction events generalizing b h with
  | nil => exact ⟨hb, (List.append_nil _).symm, .nil _⟩
  | cons e events ih =>
    obtain ⟨hnext, hmin, made, hmade, hturns⟩ := leads_apply (h := h) hb e
    obtain ⟨hlast, hlog, hpairs⟩ := ih (h := (apply e (b, h)).2) hnext
    have hdrop : (apply e (b, h)).2.calls.toList.drop h.calls.size = made := by
      rw [hmade, ← Array.length_toList, List.drop_left]
    simp only [run, hdrop]
    refine ⟨hlast, ?_, hturns.pairs (hmin ▸ hpairs)⟩
    rw [hlog, hmade, List.map_append, List.map_map, List.append_assoc]
    congr 2
    exact (List.map_id _).symm

/-! ## What the pairs say -/

theorem Answers.not_starts {minPlayMs started : Int} {channel : Nat} {ending : TimedCall}
    (hends : Answers minPlayMs (startCall (channel, started)) ending) :
    ending.call.startsTone = false ∧
      ∀ channels, ending.call.sounding channels = channels.erase channel := by
  obtain ⟨hcall, -⟩ | ⟨hcall, -⟩ := hends channel (-1) rfl
  · rw [hcall]
    exact ⟨rfl, fun _ => rfl⟩
  · rw [hcall]
    exact ⟨rfl, fun _ => rfl⟩

variable {minPlayMs : Int} {first last : Option (Nat × Int)} {calls : List TimedCall}

theorem Pairs.toggles (hpairs : Pairs minPlayMs first calls last) :
    Toggles first.isSome (calls.map (·.call.startsTone)) last.isSome := by
  induction hpairs with
  | nil tone => rfl
  | starts channel now _ ih => exact ⟨rfl, ih⟩
  | ends channel started hends _ ih =>
    rw [List.map_cons, hends.not_starts.1]
    exact ⟨rfl, ih⟩

/-- Every call answers the one before it, the call that has started the first tone included. -/
theorem Pairs.isChain (hpairs : Pairs minPlayMs first calls last) :
    (first.toList.map startCall ++ calls).IsChain (Answers minPlayMs) := by
  induction hpairs with
  | nil tone => cases tone <;> simp
  | starts channel now _ ih => exact ih
  | @ends calls last ending channel started hends _ ih =>
    refine List.isChain_cons_cons.mpr ⟨hends, List.isChain_cons.mpr ⟨?_, ih⟩⟩
    -- A call that ends a tone starts none, so it asks for no answer.
    intro next _ channel' loops heq
    have hstarts := hends.not_starts.1
    rw [heq] at hstarts
    exact absurd hstarts.symm Bool.false_ne_true

theorem Pairs.sounding (hpairs : Pairs minPlayMs first calls last) :
    calls.foldl (fun channels timed => timed.call.sounding channels)
      (first.toList.map Prod.fst) = last.toList.map Prod.fst := by
  induction hpairs with
  | nil tone => rfl
  | starts channel now _ ih => exact ih
  | ends channel started hends _ ih =>
    rw [List.foldl_cons, hends.not_starts.2, Option.toList_some, List.map_singleton,
      List.erase_cons_head]
    exact ih

theorem playing_run_of_silences {e : Event} (he : e.silences = true) {events : List Event}
    (hlast : events.getLast? = some e) (s : Beeper × Host) :
    (run events s).1.1.playing = false := by
  induction events generalizing s with
  | nil => cases hlast
  | cons head events ih =>
    cases events with
    | nil =>
      obtain rfl : head = e := Option.some.inj hlast
      exact playing_apply_of_silences he s
    | cons next events => exact ih hlast (apply head s)

/-- Whatever a beeper is told after it has come, however its host answers and however time passes:
of the calls that the host receives, those that start and end tones alternate, a start coming first,
and the beeper plays if and only if the last of them is a start. Every tone is ended on its channel,
by a stop only if it has lasted long enough and else by a fade of what it lacks. Behind an event
that silences the beeper no channel is left sounding. -/
theorem paired_of_create {sampleRate minPlayMs : Int} {frequency volume : Number.Scalar} {h : Host}
    {b : Beeper} (hcreate : create sampleRate frequency volume minPlayMs h = .ok b)
    (events : List Event) :
    let r := run events (b, h)
    r.1.2.calls.toList = h.calls.toList ++ r.2.map TimedCall.call ∧
      Toggles false ((tones r.2).map (·.call.startsTone)) r.1.1.playing ∧
      (tones r.2).IsChain (Answers (max 0 minPlayMs)) ∧
      ∀ e : Event, e.silences = true → events.getLast? = some e →
        r.1.1.playing = false ∧
          (tones r.2).foldl (fun channels timed => timed.call.sounding channels) [] = [] := by
  obtain ⟨hsilent, hmin⟩ : b.playing = false ∧ b.minPlayMs = max 0 minPlayMs := by
    revert hcreate
    rw [create]
    split
    · exact nofun
    · split
      · exact nofun
      · rintro ⟨⟩
        exact ⟨rfl, rfl⟩
  obtain ⟨hlast, hlog, hpairs⟩ :=
    pairs_run (h := h) (onChannel_of_not_playing hsilent) events
  rw [tone_of_not_playing hsilent, hmin] at hpairs
  refine ⟨hlog, ?_, hpairs.isChain, fun e he hend => ?_⟩
  · rw [← hlast.isSome_tone]
    exact hpairs.toggles
  · have hquiet := playing_run_of_silences he hend (b, h)
    have hsounding := hpairs.sounding
    rw [tone_of_not_playing hquiet] at hsounding
    exact ⟨hquiet, hsounding⟩

/-- A host whose first search for a channel finds none. -/
def busyHost : Host := { Host.absent with
  loadable := true, mixer := .simple (some 44100) none none true 1 }

/-- A beeper of the usual pitch. -/
def standardBeeper : Beeper :=
  { sampleRate := 44100, frequency := standardFrequency, volume := 1, minPlayMs := standardPlayMs
    channel := none, hasSound := false, playing := false, startedAt := 0 }

theorem samples_standardBeeper : ∃ wave, standardBeeper.samples = .ok (some wave) := by
  have hsounds : standardFrequency.isAtMostZero = false := by decide +kernel
  obtain ⟨wave, hwave⟩ : ∃ wave, SquareWave.build 44100 standardFrequency amplitude = .ok wave :=
    SquareWave.build_of_isOk (by decide) (by decide) (by decide +kernel) (by decide +kernel)
      (by decide +kernel)
  refine ⟨wave, ?_⟩
  simp only [samples, standardBeeper, hsounds, hwave, Bool.false_eq_true, if_false, Except.map]

/-- A first start finds no channel, a second one plays. Its tone is faded out after 10 milliseconds,
the next one lasts for 35 and is stopped. -/
theorem paired_of_create_busy :
    create 44100 standardFrequency (.whole 1) 35 busyHost = .ok standardBeeper ∧
      let r := run [.set true, .set true, .wait 10, .set false, .set true, .wait 35, .shutdown]
        (standardBeeper, busyHost)
      tones r.2 = [⟨0, .play 0 (-1)⟩, ⟨10, .fadeout 0 25⟩, ⟨10, .play 0 (-1)⟩, ⟨45, .stop 0⟩] ∧
        Toggles false ((tones r.2).map (·.call.startsTone)) r.1.1.playing ∧
        (tones r.2).IsChain (Answers 35) ∧ r.1.1.playing = false := by
  have hcreate : create 44100 standardFrequency (.whole 1) 35 busyHost = .ok standardBeeper := rfl
  obtain ⟨-, htoggles, hchain, hsilent⟩ := paired_of_create hcreate
    [.set true, .set true, .wait 10, .set false, .set true, .wait 35, .shutdown]
  refine ⟨hcreate, ?_, htoggles, hchain, (hsilent .shutdown rfl rfl).1⟩
  obtain ⟨wave, hwave⟩ := samples_standardBeeper
  have hsound : standardBeeper.withSound busyHost =
      (.ok (), { standardBeeper with hasSound := true }, (busyHost.makeSound wave).2) := by
    simp only [withSound, hwave]
    rfl
  have hfirst : apply (.set true) (standardBeeper, busyHost) =
      ({ standardBeeper with hasSound := true }, (busyHost.makeSound wave).2.findChannel.2) := by
    show (standardBeeper.start busyHost).2 = _
    rw [start, hsound]
    rfl
  rw [run, hfirst]
  rfl

end Beeper

end Chip8
