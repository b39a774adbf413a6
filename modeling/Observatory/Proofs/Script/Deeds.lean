import Observatory.Script
/-!
# What a listener does

A reaction is carried out on connections, but what the rest of the endpoint sees of it are its
deeds: the events it posts, and the commands it gives with what became of them. A script runner is
described by its deeds, whatever its commands are answered.

* `Reaction.Does` — the deeds of a reaction, with any answers to its commands.
* `Reaction.exists_does_run` — carrying a reaction out is one way to do it.
* `ScriptRunner.finish_does`, `ScriptRunner.sendFirst_does`, `ScriptRunner.react_does` — **what a
  script runner can do**.
-/

namespace Observatory

/-! ## Deeds -/

/-- One thing that a listener does while it handles an event. -/
inductive Deed where
  | posted (e : Event)
  /-- Gives a command to a connection or to a peer, and gets an answer. -/
  | ordered (receiver : ConnId ⊕ String) (command : Command)
      (answer : Except LinkError CommandHandle)

namespace Deed

def event? : Deed → Option Event
  | posted e => some e
  | ordered _ _ _ => none

end Deed

namespace Reaction

variable {τ η α : Type}

/-- What may come of a reaction, whatever connections it finds and whatever answers its commands
get. -/
inductive Does : Reaction τ η α → List Deed → α → Prop
  | done (result : α) : Does (.done result) [] result
  | note {entry : η} {next : Reaction τ η α} {deeds : List Deed} {result : α}
    (h : Does next deeds result) : Does (.note entry next) deeds result
  | post {e : Event} {next : Reaction τ η α} {deeds : List Deed} {result : α}
    (h : Does next deeds result) : Does (.post e next) (.posted e :: deeds) result
  | queue {conn : ConnId} {command : Command}
    {next : Except LinkError CommandHandle → Reaction τ η α} {deeds : List Deed} {result : α}
    (answer : Except LinkError CommandHandle) (h : Does (next answer) deeds result) :
    Does (.queue conn command next) (.ordered (.inl conn) command answer :: deeds) result
  | queueTo {peer : String} {command : Command}
    {next : Except LinkError CommandHandle → Reaction τ η α} {deeds : List Deed} {result : α}
    (answer : Except LinkError CommandHandle) (h : Does (next answer) deeds result) :
    Does (.queueTo peer command next) (.ordered (.inr peer) command answer :: deeds) result
  | look {next : Connections τ → Reaction τ η α} {deeds : List Deed} {result : α}
    (connections : Connections τ) (h : Does (next connections) deeds result) :
    Does (.look next) deeds result

/-- **A reaction that is carried out** does what may come of it, and posts what it says. -/
theorem exists_does_run (x : Reaction τ η α) (t : Connections τ) :
    ∃ deeds, x.Does deeds (x.run t).result ∧ deeds.filterMap Deed.event? = (x.run t).posted := by
  induction x generalizing t with
  | done result => exact ⟨[], .done result, rfl⟩
  | note entry next ih =>
    obtain ⟨deeds, hdoes, hposted⟩ := ih t
    exact ⟨deeds, .note hdoes, hposted⟩
  | post e next ih =>
    obtain ⟨deeds, hdoes, hposted⟩ := ih t
    exact ⟨.posted e :: deeds, .post hdoes, congrArg (e :: ·) hposted⟩
  | queue conn command next ih =>
    obtain ⟨deeds, hdoes, hposted⟩ :=
      ih (t.queueCommand conn command).1 (t.queueCommand conn command).2
    exact ⟨.ordered (.inl conn) command _ :: deeds, .queue _ hdoes, hposted⟩
  | queueTo peer command next ih =>
    obtain ⟨deeds, hdoes, hposted⟩ :=
      ih (t.queueCommandTo peer command).1 (t.queueCommandTo peer command).2
    exact ⟨.ordered (.inr peer) command _ :: deeds, .queueTo _ hdoes, hposted⟩
  | look next ih =>
    obtain ⟨deeds, hdoes, hposted⟩ := ih t t
    exact ⟨deeds, .look t hdoes, hposted⟩

end Reaction

/-! ## Scripts -/

namespace ScriptRunner

variable {τ η : Type}

/-- The command that a line of a script stands for. -/
def scriptCommand? (line : String) : Option Command :=
  (Command.ofLine? line).map fun command => { command with origin := some "script" }

/-- Only a blank line stands for no command. -/
theorem isSome_scriptCommand? (line : String) :
    (scriptCommand? line).isSome = !Text.isBlankLine line.toList := by
  have hwords := Text.words_eq_nil_iff line.toList
  unfold scriptCommand? Command.ofLine?
  split
  · next h => simp [hwords.1 h]
  · next opcode params h =>
    have hblank : ¬ Text.isBlankLine line.toList = true := fun hb => by
      rw [hwords.2 hb] at h
      cases h
    simp [hblank]

/-- The commands of a script. -/
def commandsOf (lines : List String) : List Command := lines.filterMap scriptCommand?

theorem commandsOf_cons (line : String) (rest : List String) :
    commandsOf (line :: rest) = (scriptCommand? line).toList ++ commandsOf rest := by
  unfold commandsOf
  cases h : scriptCommand? line with
  | none => rw [List.filterMap_cons_none h]; rfl
  | some command => rw [List.filterMap_cons_some h]; rfl

/-- The commands of a script are those of its lines that are not blank. -/
theorem map_some_commandsOf (lines : List String) : (commandsOf lines).map some =
    (lines.filter fun line => !Text.isBlankLine line.toList).map scriptCommand? := by
  induction lines with
  | nil => rfl
  | cons line rest ih =>
    rw [commandsOf_cons, List.filter_cons, ← isSome_scriptCommand?]
    cases h : scriptCommand? line with
    | none => simpa using ih
    | some command => simp [h, ih]

/-- The lines for a target depend on the scripts only. -/
theorem linesFor_congr {r r' : ScriptRunner} (hdefault : r'.default = r.default)
    (hscripts : r'.scripts = r.scripts) (target : UInt32) :
    r'.linesFor target = r.linesFor target := by
  unfold linesFor
  rw [hdefault, hscripts]

/-- What a runner is given for good. -/
structure SameScripts (r r' : ScriptRunner) : Prop where
  device : r'.device = r.device
  default : r'.default = r.default
  scripts : r'.scripts = r.scripts

namespace SameScripts

theorem refl (r : ScriptRunner) : SameScripts r r := ⟨rfl, rfl, rfl⟩

theorem trans {r r₁ r₂ : ScriptRunner} (h : SameScripts r r₁) (h' : SameScripts r₁ r₂) :
    SameScripts r r₂ :=
  ⟨h'.device.trans h.device, h'.default.trans h.default, h'.scripts.trans h.scripts⟩

theorem linesFor {r r' : ScriptRunner} (h : SameScripts r r') (target : UInt32) :
    r'.linesFor target = r.linesFor target :=
  linesFor_congr h.default h.scripts target

end SameScripts

/-! ## What a script runner does -/

/-- No script runs. -/
structure IsIdle (r : ScriptRunner) : Prop where
  current : r.current = none
  running : r.running = none
  pending : r.pending = []

/-- The script of a target goes on: the first of its remaining commands is given. -/
structure GoesOn (target : UInt32) (lines : List String) (device : String) (deeds : List Deed)
    (r' : ScriptRunner) : Prop where
  current : r'.current = some target
  given : ∃ command handle, deeds = [.ordered (.inr device) command (.ok handle)] ∧
    commandsOf lines = command :: commandsOf r'.pending ∧ r'.running = some handle

/-- The script of a target ends, because no command is left or the next one was not taken. -/
structure Ends (target : UInt32) (lines : List String) (device : String) (deeds : List Deed)
    (r' : ScriptRunner) : Prop where
  idle : r'.IsIdle
  ended : ∃ tried asked, deeds = tried ++ .posted (.scriptEnded target) :: asked ∧
    (tried = [] ∨ ∃ command rest e, tried = [.ordered (.inr device) command (.error e)] ∧
      commandsOf lines = command :: rest) ∧
    ∀ d ∈ asked, ∃ next, d = .posted (.observe next)

variable {r r' : ScriptRunner} {deeds : List Deed} {target : UInt32}

theorem finish_does (hcurrent : r.current = some target)
    (h : (finish r : Reaction τ η ScriptRunner).Does deeds r') :
    SameScripts r r' ∧ r'.IsIdle ∧ ∃ asked, deeds = .posted (.scriptEnded target) :: asked ∧
      ∀ d ∈ asked, ∃ next, d = .posted (.observe next) := by
  unfold finish at h
  simp only [hcurrent] at h
  cases h with
  | post h =>
    cases hnext : r.next with
    | none =>
      rw [hnext] at h
      cases h
      exact ⟨⟨rfl, rfl, rfl⟩, ⟨rfl, rfl, rfl⟩, [], rfl, by simp⟩
    | some next =>
      rw [hnext] at h
      cases h with
      | post h =>
        cases h
        exact ⟨⟨rfl, rfl, rfl⟩, ⟨rfl, rfl, rfl⟩, [.posted (.observe next)], rfl, by simp⟩

theorem sendFirst_does {lines : List String} (hcurrent : r.current = some target)
    (h : (sendFirst r lines : Reaction τ η ScriptRunner).Does deeds r') :
    SameScripts r r' ∧
      (GoesOn target lines r.device deeds r' ∨ Ends target lines r.device deeds r') := by
  induction lines with
  | nil =>
    obtain ⟨hsame, hidle, asked, rfl, hasked⟩ := finish_does hcurrent h
    exact ⟨hsame, .inr ⟨hidle, [], asked, rfl, .inl rfl, hasked⟩⟩
  | cons line rest ih =>
    unfold sendFirst at h
    cases hline : Command.ofLine? line with
    | none =>
      have hcommands : commandsOf (line :: rest) = commandsOf rest := by
        simp [commandsOf_cons, scriptCommand?, hline]
      rw [hline] at h
      obtain ⟨hsame, hgoes | hends⟩ := ih h
      · obtain ⟨command, handle, hdeeds, heq, hrunning⟩ := hgoes.given
        exact ⟨hsame, .inl ⟨hgoes.current, command, handle, hdeeds, hcommands.trans heq, hrunning⟩⟩
      · obtain ⟨tried, asked, hdeeds, htried, hasked⟩ := hends.ended
        refine ⟨hsame, .inr ⟨hends.idle, tried, asked, hdeeds, ?_, hasked⟩⟩
        rwa [hcommands]
    | some command =>
      have hcommands : commandsOf (line :: rest) =
          { command with origin := some "script" } :: commandsOf rest := by
        simp [commandsOf_cons, scriptCommand?, hline]
      rw [hline] at h
      cases h with
      | queueTo answer h =>
        cases answer with
        | ok handle =>
          cases h
          exact ⟨⟨rfl, rfl, rfl⟩, .inl ⟨hcurrent, _, handle, rfl, hcommands, rfl⟩⟩
        | error e =>
          obtain ⟨hsame, hidle, asked, rfl, hasked⟩ := finish_does hcurrent h
          exact ⟨hsame, .inr ⟨hidle, [_], asked, rfl, .inr ⟨_, _, e, rfl, hcommands⟩, hasked⟩⟩

/-- **What a script runner does** with an event. -/
inductive Reacts (r : ScriptRunner) : Event → List Deed → ScriptRunner → Prop
  /-- It does nothing but perhaps note a target for later. -/
  | quiet {e : Event} {r' : ScriptRunner} (hkill : e ≠ .killAll) (hcurrent : r'.current = r.current)
    (hrunning : r'.running = r.running) (hpending : r'.pending = r.pending) : Reacts r e [] r'
  | killed {r' : ScriptRunner} (hidle : r'.IsIdle) : Reacts r .killAll [] r'
  | started {target : UInt32} {deeds : List Deed} {r' : ScriptRunner} (hcurrent : r.current = none)
    (h : GoesOn target (r.linesFor target) r.device deeds r' ∨
      Ends target (r.linesFor target) r.device deeds r') :
    Reacts r (.observe target) (.posted (.scriptStarted target) :: deeds) r'
  | succeeded {target : UInt32} {k : Completion} {deeds : List Deed} {r' : ScriptRunner}
    (hcurrent : r.current = some target) (hrunning : r.running = some k.handle)
    (h : GoesOn target r.pending r.device deeds r' ∨ Ends target r.pending r.device deeds r') :
    Reacts r (.commandOk k) deeds r'
  | failed {target : UInt32} {k : Completion} {asked : List Deed} {r' : ScriptRunner}
    (hcurrent : r.current = some target) (hrunning : r.running = some k.handle) (hidle : r'.IsIdle)
    (hasked : ∀ d ∈ asked, ∃ next, d = .posted (.observe next)) :
    Reacts r (.commandFailed k) (.posted (.scriptEnded target) :: asked) r'

theorem react_does {e : Event} (hbusy : r.running.isSome → r.current.isSome)
    (h : (r.react e : Reaction τ η ScriptRunner).Does deeds r') :
    SameScripts r r' ∧ Reacts r e deeds r' := by
  have htarget {k : Completion} (hrunning : r.running = some k.handle) :
      ∃ target, r.current = some target := Option.isSome_iff_exists.1 (hbusy (by simp [hrunning]))
  have hnothing (hkill : e ≠ .killAll) (h : (.done r : Reaction τ η ScriptRunner).Does deeds r') :
      SameScripts r r' ∧ Reacts r e deeds r' := by
    cases h
    exact ⟨.refl r, .quiet hkill rfl rfl rfl⟩
  cases e with
  | killAll =>
    cases h
    exact ⟨⟨rfl, rfl, rfl⟩, .killed ⟨rfl, rfl, rfl⟩⟩
  | setTarget target =>
    cases h
    exact ⟨⟨rfl, rfl, rfl⟩, .quiet nofun rfl rfl rfl⟩
  | observe target =>
    unfold react at h
    cases hcurrent : r.current with
    | none =>
      simp only [hcurrent, Option.isNone_none, if_true, start] at h
      cases h with
      | post h =>
        obtain ⟨hsame, h⟩ := sendFirst_does rfl h
        exact ⟨⟨hsame.device, hsame.default, hsame.scripts⟩, .started hcurrent h⟩
    | some current =>
      simp only [hcurrent, Option.isNone_some, Bool.false_eq_true, if_false] at h
      cases h
      exact ⟨⟨rfl, rfl, rfl⟩, .quiet nofun hcurrent.symm rfl rfl⟩
  | commandOk k =>
    unfold react at h
    dsimp only at h
    by_cases hrunning : r.running = some k.handle
    · obtain ⟨target, hcurrent⟩ := htarget hrunning
      rw [if_pos hrunning] at h
      obtain ⟨hsame, h⟩ := sendFirst_does (r := { r with running := none }) hcurrent h
      exact ⟨⟨hsame.device, hsame.default, hsame.scripts⟩, .succeeded hcurrent hrunning h⟩
    · rw [if_neg hrunning] at h
      exact hnothing nofun h
  | commandFailed k =>
    unfold react at h
    dsimp only at h
    by_cases hrunning : r.running = some k.handle
    · obtain ⟨target, hcurrent⟩ := htarget hrunning
      rw [if_pos hrunning] at h
      obtain ⟨hsame, hidle, asked, rfl, hasked⟩ := finish_does hcurrent h
      exact ⟨hsame, .failed hcurrent hrunning hidle hasked⟩
    · rw [if_neg hrunning] at h
      exact hnothing nofun h
  | _ => exact hnothing nofun h

end ScriptRunner

end Observatory
