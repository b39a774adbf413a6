import Observatory.Proofs.Script.Deeds
/-!
# The course of the scripts

A script runner hears of one event after another and does something each time, whatever its
commands are answered. What it heard and did is a timeline, which the starts of the scripts cut into
stretches, one for each start.

* `ScriptRunner.Lives` — a runner that was just made comes to a state with a timeline.
* `ScriptRunner.flatten_sections` — the stretches are the whole timeline, as `Orderly` asks.
* `ScriptRunner.Stretch.Stands` — how the last stretch and the runner fit together, and
  `ScriptRunner.Holds.hears`, that they go on doing so.
* `ScriptRunner.orderly_of_lives` — **each line once, in order**: every stretch gives the commands
  of the script, each after the success of the one before it, and ends once unless it is killed.
-/

namespace Observatory.ScriptRunner

variable {τ η : Type}

/-! ## Timelines -/

/-- One moment in the life of a runner: it hears of an event while it is at a target, or it does
something. -/
inductive Moment where
  | heard (current : Option UInt32) (e : Event)
  | did (deed : Deed)

namespace Moment

/-- The target whose script is started. -/
def start? : Moment → Option UInt32
  | did (.posted (.scriptStarted target)) => some target
  | _ => none

/-- The target whose script is ended. -/
def ending? : Moment → Option UInt32
  | did (.posted (.scriptEnded target)) => some target
  | _ => none

def command? : Moment → Option Command
  | did (.ordered _ command _) => some command
  | _ => none

def answer? : Moment → Option (Except LinkError CommandHandle)
  | did (.ordered _ _ answer) => some answer
  | _ => none

/-- From here on the runner waits for no earlier command. -/
def supersedes : Moment → Bool
  | heard _ .killAll => true
  | did (.posted (.scriptEnded _)) => true
  | did (.ordered _ _ _) => true
  | _ => false

end Moment

/-- The commands that are given, in their order. -/
def orders (ms : List Moment) : List Command := ms.filterMap Moment.command?

/-- What the commands are answered, in their order. -/
def answers (ms : List Moment) : List (Except LinkError CommandHandle) :=
  ms.filterMap Moment.answer?

/-- The targets whose scripts are ended, in their order. -/
def endings (ms : List Moment) : List UInt32 := ms.filterMap Moment.ending?

@[simp] theorem orders_append (ms ms' : List Moment) :
    orders (ms ++ ms') = orders ms ++ orders ms' :=
  List.filterMap_append

@[simp] theorem answers_append (ms ms' : List Moment) :
    answers (ms ++ ms') = answers ms ++ answers ms' :=
  List.filterMap_append

@[simp] theorem endings_append (ms ms' : List Moment) :
    endings (ms ++ ms') = endings ms ++ endings ms' :=
  List.filterMap_append

/-- A runner that was just made hears of events, and does something each time; its commands may be
answered anything. -/
inductive Lives (τ η : Type) (fresh : ScriptRunner) : List Moment → ScriptRunner → Prop
  | fresh : Lives τ η fresh [] fresh
  | hears {timeline : List Moment} {r r' : ScriptRunner} {e : Event} {deeds : List Deed}
    (h : Lives τ η fresh timeline r)
    (hdoes : (r.react e : Reaction τ η ScriptRunner).Does deeds r') :
    Lives τ η fresh (timeline ++ .heard r.current e :: deeds.map .did) r'

/-! ## Stretches -/

/-- What happens from one start of a script to the next. -/
structure Stretch where
  target : UInt32
  moments : List Moment := []

/-- What happens after that in the same stretch. -/
def Stretch.extend (l : Stretch) (ms : List Moment) : Stretch :=
  { l with moments := l.moments ++ ms }

/-- A timeline, cut where scripts are started. -/
structure Sections where
  /-- What happens before the first start. -/
  prelude : List Moment := []
  /-- What happens from each start on; the last one stands first. -/
  stretches : List Stretch := []

namespace Sections

/-- Adds what happens next. -/
def add (s : Sections) (m : Moment) : Sections :=
  match m.start?, s.stretches with
  | some target, ls => { s with stretches := { target } :: ls }
  | none, l :: ls => { s with stretches := l.extend [m] :: ls }
  | none, [] => { s with prelude := s.prelude ++ [m] }

/-- All that happens. -/
def flatten (s : Sections) : List Moment :=
  s.prelude ++ s.stretches.reverse.flatMap fun l =>
    .did (.posted (.scriptStarted l.target)) :: l.moments

end Sections

def sections (timeline : List Moment) : Sections := timeline.foldl Sections.add {}

theorem eq_of_start? {m : Moment} {target : UInt32} (h : m.start? = some target) :
    m = .did (.posted (.scriptStarted target)) := by
  unfold Moment.start? at h
  split at h
  · rw [Option.some.inj h]
  · cases h

theorem flatten_add (s : Sections) (m : Moment) : (s.add m).flatten = s.flatten ++ [m] := by
  unfold Sections.add
  cases hstart : m.start? with
  | some target =>
    rw [eq_of_start? hstart]
    simp [Sections.flatten]
  | none => cases hls : s.stretches <;> simp [Sections.flatten, hls, Stretch.extend]

/-- **The sections of a timeline** are all of it. -/
theorem flatten_sections (timeline : List Moment) : (sections timeline).flatten = timeline := by
  have hfold (s : Sections) (ms : List Moment) : (ms.foldl Sections.add s).flatten =
      s.flatten ++ ms := by
    induction ms generalizing s with
    | nil => simp
    | cons m ms ih =>
      rw [List.foldl_cons, ih, flatten_add, List.append_assoc]
      rfl
  exact hfold {} timeline

/-- Where no script is started, the last stretch goes on. -/
theorem sections_append (timeline : List Moment) {ms : List Moment}
    (hms : ∀ m ∈ ms, m.start? = none) :
    sections (timeline ++ ms) = match (sections timeline).stretches with
      | l :: ls => { sections timeline with stretches := l.extend ms :: ls }
      | [] => { sections timeline with prelude := (sections timeline).prelude ++ ms } := by
  unfold sections
  rw [List.foldl_append]
  generalize timeline.foldl Sections.add {} = s
  induction ms generalizing s with
  | nil => cases hls : s.stretches <;> simp [Stretch.extend, ← hls]
  | cons m ms ih =>
    have hm := hms m (by simp)
    rw [List.foldl_cons, ih fun m hm => hms m (by simp [hm])]
    cases hls : s.stretches <;> simp [Sections.add, hm, hls, Stretch.extend]

/-- A start begins a stretch. -/
theorem sections_append_start (timeline : List Moment) (target : UInt32) {ms : List Moment}
    (hms : ∀ m ∈ ms, m.start? = none) :
    sections (timeline ++ .did (.posted (.scriptStarted target)) :: ms) =
      { sections timeline with stretches := ⟨target, ms⟩ :: (sections timeline).stretches } := by
  have hone : sections (timeline ++ [.did (.posted (.scriptStarted target))]) =
      { sections timeline with stretches := { target } :: (sections timeline).stretches } := by
    unfold sections
    rw [List.foldl_append]
    rfl
  rw [List.append_cons, sections_append _ hms, hone]
  rfl

/-! ## A command after the success of the one before it -/

/-- The command given last has just succeeded, unless there was none. -/
def AfterSuccess (ms : List Moment) : Prop :=
  orders ms = [] ∨ ∃ earlier current k, ms = earlier ++ [.heard current (.commandOk k)] ∧
    (answers earlier).getLast? = some (.ok k.handle)

/-- Every command is given right after the one before it succeeded. -/
def IsPrompt (ms : List Moment) : Prop :=
  ∀ before after receiver command answer,
    ms = before ++ .did (.ordered receiver command answer) :: after → AfterSuccess before

theorem isPrompt_nil : IsPrompt [] := by
  intro before after receiver command answer h
  simp at h

theorem IsPrompt.append_quiet {ms more : List Moment} (h : IsPrompt ms) (hmore : orders more = []) :
    IsPrompt (ms ++ more) := by
  intro before after receiver command answer heq
  have hnot : .did (.ordered receiver command answer) ∉ more := fun hmem => by
    have := List.filterMap_eq_nil_iff.1 hmore _ hmem
    cases this
  rcases List.append_eq_append_iff.1 heq with ⟨rest, -, hrest⟩ | ⟨rest, hms, hrest⟩
  · exact absurd (hrest ▸ by simp) hnot
  · cases rest with
    | nil =>
      have hmore : more = .did (.ordered receiver command answer) :: after := hrest.symm
      exact absurd (hmore ▸ List.mem_cons_self) hnot
    | cons m rest =>
      obtain ⟨rfl, -⟩ := List.cons.inj hrest
      exact h before rest receiver command answer hms

theorem IsPrompt.append_order {ms : List Moment} (h : IsPrompt ms) (hready : AfterSuccess ms)
    (receiver : ConnId ⊕ String) (command : Command) (answer : Except LinkError CommandHandle) :
    IsPrompt (ms ++ [.did (.ordered receiver command answer)]) := by
  intro before after receiver' command' answer' heq
  rcases List.eq_nil_or_concat after with rfl | ⟨rest, m, rfl⟩
  · obtain ⟨rfl, -⟩ := List.append_inj' heq rfl
    exact hready
  · rw [List.concat_eq_append, ← List.cons_append, ← List.append_assoc] at heq
    obtain ⟨hms, -⟩ := List.append_inj' heq rfl
    exact h before rest _ _ _ hms

/-! ## How a stretch stands -/

namespace Stretch

/-- The script was killed while its target was current. -/
def IsKilled (l : Stretch) : Prop := .heard (some l.target) .killAll ∈ l.moments

/-- The script has not come to an end, and these lines of it are left. -/
structure IsOpen (lines rest : List String) (l : Stretch) : Prop where
  alive : ¬ l.IsKilled
  unended : endings l.moments = []
  given : orders l.moments ++ commandsOf rest = commandsOf lines

/-- The script goes on, and waits for its last command. -/
structure IsOngoing (lines : List String) (r : ScriptRunner) (l : Stretch) : Prop
    extends l.IsOpen lines r.pending where
  current : r.current = some l.target
  running : ∃ handle, r.running = some handle ∧ (answers l.moments).getLast? = some (.ok handle)

/-- The script came to an end, or it was killed. -/
structure IsOver (lines : List String) (l : Stretch) : Prop where
  given : orders l.moments <+: commandsOf lines
  killed : l.IsKilled → endings l.moments = []
  ended : ¬ l.IsKilled → endings l.moments = [l.target]

variable {lines rest : List String} {l : Stretch} {r r' : ScriptRunner} {deeds : List Deed}

/-- Nobody kills the script by what the runner does. -/
theorem isKilled_extend_did : (l.extend (deeds.map .did)).IsKilled ↔ l.IsKilled := by
  simp [IsKilled, extend]

theorem isKilled_extend_heard {current : Option UInt32} {e : Event} :
    (l.extend [.heard current e]).IsKilled ↔
      l.IsKilled ∨ current = some l.target ∧ e = .killAll := by
  simp [IsKilled, extend, eq_comm]

/-- Hearing of something is neither a command nor an end. -/
theorem quiet_heard (current : Option UInt32) (e : Event) :
    orders (l.extend [.heard current e]).moments = orders l.moments ∧
      endings (l.extend [.heard current e]).moments = endings l.moments := by
  simp [extend, orders, endings, Moment.command?, Moment.ending?]

theorem IsOpen.heard (h : l.IsOpen lines rest) (current : Option UInt32) {e : Event}
    (he : e ≠ .killAll) : (l.extend [.heard current e]).IsOpen lines rest := by
  obtain ⟨horders, hendings⟩ := quiet_heard (l := l) current e
  refine ⟨?_, hendings.trans h.unended, horders.symm ▸ h.given⟩
  rw [isKilled_extend_heard]
  rintro (hkilled | ⟨-, rfl⟩)
  · exact h.alive hkilled
  · exact he rfl

/-- What is heard after the end changes nothing. -/
theorem IsOver.heard (h : l.IsOver lines) {e : Event} :
    (l.extend [.heard none e]).IsOver lines := by
  obtain ⟨horders, hendings⟩ := quiet_heard (l := l) none e
  have hkilled : (l.extend [.heard none e]).IsKilled ↔ l.IsKilled := by
    simp [isKilled_extend_heard]
  exact ⟨horders.symm ▸ h.given, fun hk => hendings.trans (h.killed (hkilled.1 hk)),
    fun hk => hendings.trans (h.ended (mt hkilled.2 hk))⟩

theorem IsOpen.killed (h : l.IsOpen lines rest) :
    (l.extend [.heard (some l.target) .killAll]).IsOver lines := by
  obtain ⟨horders, hendings⟩ := quiet_heard (l := l) (some l.target) .killAll
  exact ⟨horders.symm ▸ ⟨_, h.given⟩, fun _ => hendings.trans h.unended,
    fun hkilled => absurd (isKilled_extend_heard.2 (.inr ⟨rfl, rfl⟩)) hkilled⟩

theorem IsOpen.goesOn (h : l.IsOpen lines rest) {device : String}
    (hgoes : GoesOn l.target rest device deeds r') :
    (l.extend (deeds.map .did)).IsOngoing lines r' := by
  obtain ⟨hcurrent, command, handle, rfl, hrest, hrunning⟩ := hgoes
  refine ⟨⟨mt isKilled_extend_did.1 h.alive, ?_, ?_⟩, hcurrent, handle, hrunning, ?_⟩
  · rw [extend, endings_append, h.unended]
    rfl
  · rw [extend, orders_append, ← h.given, hrest, List.append_assoc]
    rfl
  · rw [extend, answers_append]
    exact List.getLast?_concat

/-- What a runner asks for in the end is neither a command nor an end nor a start. -/
theorem quiet_asked {asked : List Deed} (h : ∀ d ∈ asked, ∃ next, d = .posted (.observe next)) :
    orders (asked.map .did) = [] ∧ endings (asked.map .did) = [] ∧
      ∀ m ∈ asked.map Moment.did, m.start? = none := by
  refine ⟨List.filterMap_eq_nil_iff.2 ?_, List.filterMap_eq_nil_iff.2 ?_, ?_⟩ <;>
    · intro m hm
      obtain ⟨d, hd, rfl⟩ := List.mem_map.1 hm
      obtain ⟨next, rfl⟩ := h d hd
      rfl

/-- The end of a script: what was tried before it, and what is asked for after it. -/
theorem IsOpen.ended (h : l.IsOpen lines rest) (tried : List Deed) {asked : List Deed}
    (htried : orders (tried.map .did) <+: commandsOf rest) (htried' : endings (tried.map .did) = [])
    (hasked : ∀ d ∈ asked, ∃ next, d = .posted (.observe next)) :
    (l.extend ((tried ++ .posted (.scriptEnded l.target) :: asked).map .did)).IsOver lines := by
  obtain ⟨hasked, hasked', -⟩ := quiet_asked hasked
  have horders : orders ((.posted (.scriptEnded l.target) :: asked).map .did) = [] := hasked
  have hendings : endings ((.posted (.scriptEnded l.target) :: asked).map .did) = [l.target] :=
    congrArg (l.target :: ·) hasked'
  refine ⟨?_, fun hkilled => absurd (isKilled_extend_did.1 hkilled) h.alive, fun _ => ?_⟩
  · rw [extend, List.map_append, orders_append, orders_append, horders, List.append_nil, ← h.given]
    exact (List.prefix_append_right_inj _).2 htried
  · rw [extend, List.map_append, endings_append, endings_append, h.unended, htried', hendings]
    rfl

/-- What is tried in the end is at most one command. -/
theorem quiet_tried {tried : List Deed} {device : String}
    (h : tried = [] ∨ ∃ command later e, tried = [.ordered (.inr device) command (.error e)] ∧
      commandsOf rest = command :: later) :
    orders (tried.map .did) <+: commandsOf rest ∧ endings (tried.map .did) = [] ∧
      ∀ m ∈ tried.map Moment.did, m.start? = none := by
  obtain rfl | ⟨command, later, e, rfl, hrest⟩ := h
  · exact ⟨List.nil_prefix, rfl, by simp⟩
  · exact ⟨⟨later, hrest.symm⟩, rfl, by simp [Moment.start?]⟩

/-- **How the last stretch and the runner fit together.** -/
def Stands (lines : List String) (r : ScriptRunner) (l : Stretch) : Prop :=
  IsPrompt l.moments ∧ (l.IsOngoing lines r ∨ r.IsIdle ∧ l.IsOver lines)

/-- The script goes on or ends, right after its last command succeeded. -/
theorem IsOpen.stands (h : l.IsOpen lines rest) (hprompt : IsPrompt l.moments)
    (hready : AfterSuccess l.moments) {device : String}
    (hdoes : GoesOn l.target rest device deeds r' ∨ Ends l.target rest device deeds r') :
    (l.extend (deeds.map .did)).Stands lines r' := by
  rcases hdoes with hgoes | hends
  · refine ⟨?_, .inl (h.goesOn hgoes)⟩
    obtain ⟨-, command, handle, rfl, -⟩ := hgoes
    exact hprompt.append_order hready _ _ _
  · obtain ⟨hidle, tried, asked, rfl, htried, hasked⟩ := hends
    obtain ⟨horders, hendings, -⟩ := quiet_tried htried
    refine ⟨?_, .inr ⟨hidle, h.ended tried horders hendings hasked⟩⟩
    have hquiet : orders ((.posted (.scriptEnded l.target) :: asked).map .did) = [] :=
      (quiet_asked hasked).1
    simp only [extend, List.map_append, ← List.append_assoc]
    refine IsPrompt.append_quiet ?_ hquiet
    obtain rfl | ⟨command, later, e, rfl, -⟩ := htried
    · simpa using hprompt
    · exact hprompt.append_order hready _ _ _

end Stretch

/-! ## What every event keeps -/

/-- The runner waits for the command that has this name, unless something superseded it. -/
def Awaits (timeline : List Moment) (handle : CommandHandle) : Prop :=
  ∃ before receiver command after,
    timeline = before ++ .did (.ordered receiver command (.ok handle)) :: after ∧
      ∀ m ∈ after, m.supersedes = false

theorem Awaits.heard {timeline : List Moment} {handle : CommandHandle} (h : Awaits timeline handle)
    {current : Option UInt32} {e : Event} (he : e ≠ .killAll) :
    Awaits (timeline ++ [.heard current e]) handle := by
  obtain ⟨before, receiver, command, after, rfl, hafter⟩ := h
  refine ⟨before, receiver, command, after ++ [.heard current e], by simp, fun m hm => ?_⟩
  rcases List.mem_append.1 hm with hm | hm
  · exact hafter m hm
  · rw [List.mem_singleton.1 hm]
    cases e <;> first | rfl | exact absurd rfl he

/-- How the stretches of a timeline stand, the last one first. -/
def Stand (lines : UInt32 → List String) (r : ScriptRunner) : List Stretch → Prop
  | [] => r.IsIdle
  | l :: past => l.Stands (lines l.target) r ∧
    ∀ l' ∈ past, IsPrompt l'.moments ∧ l'.IsOver (lines l'.target)

/-- **What holds of a runner and its timeline**, whatever it heard. -/
structure Holds (fresh : ScriptRunner) (timeline : List Moment) (r : ScriptRunner) : Prop where
  same : SameScripts fresh r
  prelude : orders (sections timeline).prelude = [] ∧ endings (sections timeline).prelude = []
  stand : Stand fresh.linesFor r (sections timeline).stretches
  awaited : ∀ handle, r.running = some handle → Awaits timeline handle

/-- Where no script is started. -/
theorem start_of_proceeds {target : UInt32} {lines : List String} {device : String}
    {deeds : List Deed} {r' : ScriptRunner}
    (h : GoesOn target lines device deeds r' ∨ Ends target lines device deeds r') :
    ∀ m ∈ deeds.map Moment.did, m.start? = none := by
  rcases h with ⟨-, command, handle, rfl, -⟩ | ⟨-, tried, asked, rfl, htried, hasked⟩
  · simp [Moment.start?]
  · rw [List.map_append]
    exact List.forall_mem_append.2 ⟨(Stretch.quiet_tried htried).2.2,
      List.forall_mem_cons.2 ⟨rfl, (Stretch.quiet_asked hasked).2.2⟩⟩

theorem awaits_of_proceeds {target : UInt32} {lines : List String} {device : String}
    {deeds : List Deed} {r' : ScriptRunner} {timeline : List Moment} {handle : CommandHandle}
    (h : GoesOn target lines device deeds r' ∨ Ends target lines device deeds r')
    (hrunning : r'.running = some handle) : Awaits (timeline ++ deeds.map .did) handle := by
  rcases h with ⟨-, command, handle', rfl, -, hgiven⟩ | ⟨hidle, -⟩
  · obtain rfl := Option.some.inj (hgiven.symm.trans hrunning)
    exact ⟨timeline, .inr device, command, [], rfl, nofun⟩
  · cases hrunning.symm.trans hidle.running

theorem holds_fresh (device : String) (default : List String)
    (scripts : List (UInt32 × List String)) :
    Holds { device, default, scripts } [] { device, default, scripts } where
  same := .refl _
  prelude := ⟨rfl, rfl⟩
  stand := ⟨rfl, rfl, rfl⟩
  awaited := nofun

namespace Holds

variable {fresh r r' : ScriptRunner} {timeline : List Moment}

/-- A runner that is at no target waits for nothing. -/
theorem idle (h : Holds fresh timeline r) (hcurrent : r.current = none) : r.IsIdle := by
  have hstand := h.stand
  unfold Stand at hstand
  split at hstand
  · exact hstand
  · obtain ⟨⟨-, hongoing | ⟨hidle, -⟩⟩, -⟩ := hstand
    · cases hcurrent.symm.trans hongoing.current
    · exact hidle

/-- A runner that is at a target is in the stretch of that target. -/
theorem ongoing (h : Holds fresh timeline r) {target : UInt32}
    (hcurrent : r.current = some target) :
    ∃ l past, (sections timeline).stretches = l :: past ∧ l.target = target ∧
      IsPrompt l.moments ∧ l.IsOngoing (fresh.linesFor target) r ∧
      ∀ l' ∈ past, IsPrompt l'.moments ∧ l'.IsOver (fresh.linesFor l'.target) := by
  have hstand := h.stand
  unfold Stand at hstand
  split at hstand
  · cases hstand.current.symm.trans hcurrent
  · next l past hls =>
    obtain ⟨⟨hprompt, hongoing | ⟨hidle, -⟩⟩, hpast⟩ := hstand
    · obtain rfl := Option.some.inj (hongoing.current.symm.trans hcurrent)
      exact ⟨l, past, hls, rfl, hprompt, hongoing, hpast⟩
    · cases hidle.current.symm.trans hcurrent

/-- A runner is at a target exactly while it waits for a command. -/
theorem busy (h : Holds fresh timeline r) : r.current.isSome = r.running.isSome := by
  cases hcurrent : r.current with
  | none =>
    rw [(h.idle hcurrent).running]
    rfl
  | some target =>
    obtain ⟨l, past, -, -, -, hongoing, -⟩ := h.ongoing hcurrent
    obtain ⟨handle, hhandle, -⟩ := hongoing.running
    rw [hhandle]
    rfl

/-- What was over is over. -/
theorem past (h : Holds fresh timeline r) (hidle : r.IsIdle) :
    ∀ l ∈ (sections timeline).stretches,
      IsPrompt l.moments ∧ l.IsOver (fresh.linesFor l.target) := by
  have hstand := h.stand
  unfold Stand at hstand
  split at hstand
  · next hls => simp [hls]
  · next l past hls =>
    obtain ⟨⟨hprompt, hongoing | ⟨-, hover⟩⟩, hpast⟩ := hstand
    · cases hongoing.current.symm.trans hidle.current
    · rw [hls]
      exact List.forall_mem_cons.2 ⟨⟨hprompt, hover⟩, hpast⟩

/-- Every stretch goes on or is over. -/
theorem stretch (h : Holds fresh timeline r) {l : Stretch}
    (hl : l ∈ (sections timeline).stretches) :
    IsPrompt l.moments ∧
      (l.IsOngoing (fresh.linesFor l.target) r ∨ l.IsOver (fresh.linesFor l.target)) := by
  cases hcurrent : r.current with
  | none =>
    obtain ⟨hprompt, hover⟩ := h.past (h.idle hcurrent) l hl
    exact ⟨hprompt, .inr hover⟩
  | some target =>
    obtain ⟨l', past, hls, rfl, hprompt, hongoing, hpast⟩ := h.ongoing hcurrent
    rw [hls] at hl
    rcases List.mem_cons.1 hl with rfl | hl
    · exact ⟨hprompt, .inl hongoing⟩
    · exact ⟨(hpast l hl).1, .inr (hpast l hl).2⟩

/-- All stretches but the last are over. -/
theorem earlier (h : Holds fresh timeline r) {l : Stretch}
    (hl : l ∈ (sections timeline).stretches.tail) : l.IsOver (fresh.linesFor l.target) := by
  cases hcurrent : r.current with
  | none => exact (h.past (h.idle hcurrent) l (List.mem_of_mem_tail hl)).2
  | some target =>
    obtain ⟨l', past, hls, -, -, -, hpast⟩ := h.ongoing hcurrent
    rw [hls] at hl
    exact (hpast l hl).2

/-- In a timeline that goes on without a start, it is the last stretch that goes on. -/
theorem extend {ms : List Moment} (h : Holds fresh timeline r) (hsame : SameScripts r r')
    (hstarts : ∀ m ∈ ms, m.start? = none) {l : Stretch} {past : List Stretch}
    (hls : (sections timeline).stretches = l :: past)
    (hpast : ∀ l' ∈ past, IsPrompt l'.moments ∧ l'.IsOver (fresh.linesFor l'.target))
    (hstands : (l.extend ms).Stands (fresh.linesFor l.target) r')
    (hawaited : ∀ handle, r'.running = some handle → Awaits (timeline ++ ms) handle) :
    Holds fresh (timeline ++ ms) r' := by
  have hsections := sections_append timeline hstarts
  rw [hls] at hsections
  refine ⟨h.same.trans hsame, ?_, ?_, hawaited⟩
  · rw [hsections]
    exact h.prelude
  · rw [hsections]
    exact ⟨hstands, hpast⟩

/-- A runner without a target that hears of something and does nothing. -/
theorem hears_idle (h : Holds fresh timeline r) (hsame : SameScripts r r') (hidle : r.IsIdle)
    (hidle' : r'.IsIdle) (e : Event) : Holds fresh (timeline ++ [.heard none e]) r' := by
  have hawaited (handle : CommandHandle) (hrunning : r'.running = some handle) :
      Awaits (timeline ++ [.heard none e]) handle := by
    cases hrunning.symm.trans hidle'.running
  have hstarts : ∀ m ∈ [Moment.heard none e], m.start? = none := by simp [Moment.start?]
  have hpast := h.past hidle
  cases hls : (sections timeline).stretches with
  | nil =>
    have hsections := sections_append timeline hstarts
    rw [hls] at hsections
    refine ⟨h.same.trans hsame, ?_, ?_, hawaited⟩
    · rw [hsections, orders_append, endings_append, h.prelude.1, h.prelude.2]
      exact ⟨rfl, rfl⟩
    · rw [hsections]
      dsimp only
      rwa [hls]
  | cons l past =>
    rw [hls] at hpast
    obtain ⟨hprompt, hover⟩ := hpast l (by simp)
    exact h.extend hsame hstarts hls (fun l' hl' => hpast l' (by simp [hl']))
      ⟨hprompt.append_quiet rfl, .inr ⟨hidle', hover.heard⟩⟩ hawaited

/-- An event that changes nothing but perhaps the target after the next. -/
theorem hears_quiet (h : Holds fresh timeline r) (hsame : SameScripts r r') {e : Event}
    (hkill : e ≠ .killAll) (hcurrent : r'.current = r.current) (hrunning : r'.running = r.running)
    (hpending : r'.pending = r.pending) : Holds fresh (timeline ++ [.heard r.current e]) r' := by
  cases hwas : r.current with
  | none =>
    have hidle := h.idle hwas
    exact h.hears_idle hsame hidle
      ⟨hcurrent.trans hwas, hrunning.trans hidle.running, hpending.trans hidle.pending⟩ e
  | some target =>
    obtain ⟨l, past, hls, rfl, hprompt, hongoing, hpast⟩ := h.ongoing hwas
    obtain ⟨handle, hhandle, hlast⟩ := hongoing.running
    refine h.extend hsame (by simp [Moment.start?]) hls hpast ⟨hprompt.append_quiet rfl,
      .inl ⟨hpending ▸ hongoing.toIsOpen.heard _ hkill, hcurrent.trans hwas, handle,
        hrunning.trans hhandle, ?_⟩⟩ fun handle hhandle => ?_
    · rw [Stretch.extend, answers_append, ← hlast]
      exact congrArg _ (List.append_nil _)
    · exact (h.awaited handle (hrunning.symm.trans hhandle)).heard hkill

/-- The stretch that goes on when everything is killed is over. -/
theorem hears_killAll (h : Holds fresh timeline r) (hsame : SameScripts r r') (hidle : r'.IsIdle) :
    Holds fresh (timeline ++ [.heard r.current .killAll]) r' := by
  cases hwas : r.current with
  | none => exact h.hears_idle hsame (h.idle hwas) hidle .killAll
  | some target =>
    obtain ⟨l, past, hls, rfl, hprompt, hongoing, hpast⟩ := h.ongoing hwas
    refine h.extend hsame (by simp [Moment.start?]) hls hpast
      ⟨hprompt.append_quiet rfl, .inr ⟨hidle, hongoing.toIsOpen.killed⟩⟩ fun handle hhandle => ?_
    cases hhandle.symm.trans hidle.running

/-- A target to observe begins a new stretch. -/
theorem hears_start (h : Holds fresh timeline r) (hsame : SameScripts r r') {target : UInt32}
    {deeds : List Deed} (hcurrent : r.current = none)
    (hdoes : GoesOn target (r.linesFor target) r.device deeds r' ∨
      Ends target (r.linesFor target) r.device deeds r') :
    Holds fresh (timeline ++ .heard r.current (.observe target) ::
      (Deed.posted (.scriptStarted target) :: deeds).map .did) r' := by
  have hidle := h.idle hcurrent
  have hheard := h.hears_idle (.refl r) hidle hidle (.observe target)
  have hfirst : (Stretch.mk target []).IsOpen (fresh.linesFor target) (r.linesFor target) :=
    ⟨by simp [Stretch.IsKilled], rfl, by rw [h.same.linesFor]; rfl⟩
  have hstands := hfirst.stands isPrompt_nil (.inl rfl) hdoes
  have hsections := sections_append_start (timeline ++ [.heard none (.observe target)]) target
    (start_of_proceeds hdoes)
  have heq : timeline ++ .heard r.current (.observe target) ::
      (Deed.posted (.scriptStarted target) :: deeds).map .did =
        (timeline ++ [.heard none (.observe target)]) ++
          .did (.posted (.scriptStarted target)) :: deeds.map .did := by simp [hcurrent]
  rw [heq]
  refine ⟨h.same.trans hsame, ?_, ?_, fun handle hhandle => ?_⟩
  · rw [hsections]
    exact hheard.prelude
  · rw [hsections]
    exact ⟨hstands, hheard.past hidle⟩
  · rw [List.append_cons]
    exact awaits_of_proceeds hdoes hhandle

/-- The success of a command lets the stretch go on, or ends it. -/
theorem hears_success (h : Holds fresh timeline r) (hsame : SameScripts r r') {target : UInt32}
    {k : Completion} {deeds : List Deed} (hcurrent : r.current = some target)
    (hrunning : r.running = some k.handle)
    (hdoes : GoesOn target r.pending r.device deeds r' ∨ Ends target r.pending r.device deeds r') :
    Holds fresh (timeline ++ .heard r.current (.commandOk k) :: deeds.map .did) r' := by
  obtain ⟨l, past, hls, rfl, hprompt, hongoing, hpast⟩ := h.ongoing hcurrent
  obtain ⟨handle, hhandle, hlast⟩ := hongoing.running
  obtain rfl := Option.some.inj (hhandle.symm.trans hrunning)
  have hopen : (l.extend [.heard (some l.target) (.commandOk k)]).IsOpen _ r.pending :=
    hongoing.toIsOpen.heard _ nofun
  have hstands := hopen.stands (hprompt.append_quiet rfl) (.inr ⟨_, _, k, rfl, hlast⟩) hdoes
  rw [hcurrent]
  refine h.extend hsame ?_ hls hpast ?_ fun handle hhandle => ?_
  · exact List.forall_mem_cons.2 ⟨rfl, start_of_proceeds hdoes⟩
  · simpa [Stretch.extend] using hstands
  · rw [List.append_cons]
    exact awaits_of_proceeds hdoes hhandle

/-- The failure of a command ends the stretch. -/
theorem hears_failure (h : Holds fresh timeline r) (hsame : SameScripts r r') {target : UInt32}
    {k : Completion} {asked : List Deed} (hcurrent : r.current = some target) (hidle : r'.IsIdle)
    (hasked : ∀ d ∈ asked, ∃ next, d = .posted (.observe next)) :
    Holds fresh (timeline ++ .heard r.current (.commandFailed k) ::
      (Deed.posted (.scriptEnded target) :: asked).map .did) r' := by
  obtain ⟨l, past, hls, rfl, hprompt, hongoing, hpast⟩ := h.ongoing hcurrent
  obtain ⟨horders, -, hstarts⟩ := Stretch.quiet_asked hasked
  have hopen : (l.extend [.heard (some l.target) (.commandFailed k)]).IsOpen _ r.pending :=
    hongoing.toIsOpen.heard _ nofun
  have hover := hopen.ended [] List.nil_prefix rfl hasked
  rw [hcurrent]
  refine h.extend hsame ?_ hls hpast ⟨?_, .inr ⟨hidle, ?_⟩⟩ fun handle hhandle => ?_
  · exact List.forall_mem_cons.2 ⟨rfl, List.forall_mem_cons.2 ⟨rfl, hstarts⟩⟩
  · exact hprompt.append_quiet horders
  · simpa [Stretch.extend] using hover
  · cases hhandle.symm.trans hidle.running

/-- **One event**, whatever the runner does with it. -/
theorem hears (h : Holds fresh timeline r) {e : Event} {deeds : List Deed}
    (hdoes : (r.react e : Reaction τ η ScriptRunner).Does deeds r') :
    Holds fresh (timeline ++ .heard r.current e :: deeds.map .did) r' := by
  obtain ⟨hsame, hreacts⟩ := react_does (fun hrunning => h.busy.trans hrunning) hdoes
  cases hreacts with
  | quiet hkill hcurrent hrunning hpending =>
    exact h.hears_quiet hsame hkill hcurrent hrunning hpending
  | killed hidle => exact h.hears_killAll hsame hidle
  | started hcurrent hdoes => exact h.hears_start hsame hcurrent hdoes
  | succeeded hcurrent hrunning hdoes => exact h.hears_success hsame hcurrent hrunning hdoes
  | failed hcurrent _ hidle hasked => exact h.hears_failure hsame hcurrent hidle hasked

end Holds

/-- **Whatever a runner hears**, it and its timeline fit together. -/
theorem holds_of_lives {fresh r : ScriptRunner} {timeline : List Moment}
    (h : Lives τ η fresh timeline r) (hfresh : Holds fresh [] fresh) : Holds fresh timeline r := by
  induction h with
  | fresh => exact hfresh
  | hears _ hdoes ih => exact ih.hears hdoes

/-! ## The order of a timeline -/

/-- **Each line once, in order.** -/
structure Orderly (τ η : Type) (fresh : ScriptRunner) (timeline : List Moment) (r : ScriptRunner) :
    Prop where
  /-- The stretches, with what is before the first of them, are all that happened. -/
  whole : (sections timeline).flatten = timeline
  /-- A runner is at a target exactly while it waits for a command. -/
  busy : r.current.isSome = r.running.isSome
  /-- Lines are left only while it is at a target. -/
  pending : r.pending ≠ [] → r.current.isSome = true
  /-- Nothing is given and nothing ends before the first start. -/
  prelude : orders (sections timeline).prelude = [] ∧ endings (sections timeline).prelude = []
  /-- After each start the lines of the script that are not blank are given, one after another. -/
  given {l : Stretch} (hl : l ∈ (sections timeline).stretches) :
    (orders l.moments).map some =
      (((fresh.linesFor l.target).filter fun line => !Text.isBlankLine line.toList).take
        (orders l.moments).length).map scriptCommand?
  /-- Each is given right after the one before it succeeded. -/
  prompt {l : Stretch} (hl : l ∈ (sections timeline).stretches) : IsPrompt l.moments
  /-- A script that is killed has no end. -/
  killed {l : Stretch} (hl : l ∈ (sections timeline).stretches) (hkilled : l.IsKilled) :
    endings l.moments = []
  /-- Any other has ended, once, when the next one starts. -/
  ended {l : Stretch} (hl : l ∈ (sections timeline).stretches.tail) (hkilled : ¬ l.IsKilled) :
    endings l.moments = [l.target]
  /-- The one started last ends, once, when the runner leaves its target. -/
  last {l : Stretch} (hl : (sections timeline).stretches.head? = some l) (hkilled : ¬ l.IsKilled) :
    r.current = some l.target ∧ endings l.moments = [] ∨
      r.current = none ∧ endings l.moments = [l.target]
  /-- The target of a runner is the one whose script was started last, and not killed. -/
  current {target : UInt32} (hcurrent : r.current = some target) :
    ∃ l, (sections timeline).stretches.head? = some l ∧ l.target = target ∧ ¬ l.IsKilled
  /-- The report on any command but the one that the runner waits for changes nothing. -/
  others {k : Completion} (hk : ¬ Awaits timeline k.handle) :
    (r.react (.commandOk k) : Reaction τ η ScriptRunner) = .done r ∧
      (r.react (.commandFailed k) : Reaction τ η ScriptRunner) = .done r

/-- The commands given are those of the first lines that are not blank. -/
theorem map_some_of_prefix {given : List Command} {lines : List String}
    (h : given <+: commandsOf lines) : given.map some =
      ((lines.filter fun line => !Text.isBlankLine line.toList).take given.length).map
        scriptCommand? := by
  rw [List.map_take, ← map_some_commandsOf, ← List.map_take, ← List.prefix_iff_eq_take.1 h]

theorem Holds.orderly {fresh r : ScriptRunner} {timeline : List Moment}
    (h : Holds fresh timeline r) : Orderly τ η fresh timeline r := by
  refine ⟨flatten_sections timeline, h.busy, ?_, h.prelude, ?_, fun hl => (h.stretch hl).1, ?_,
    fun hl hkilled => (h.earlier hl).ended hkilled, ?_, ?_, ?_⟩
  · intro hpending
    cases hcurrent : r.current with
    | none => exact absurd (h.idle hcurrent).pending hpending
    | some target => rfl
  · intro l hl
    obtain ⟨-, hongoing | hover⟩ := h.stretch hl
    · exact map_some_of_prefix ⟨_, hongoing.given⟩
    · exact map_some_of_prefix hover.given
  · intro l hl hkilled
    obtain ⟨-, hongoing | hover⟩ := h.stretch hl
    · exact absurd hkilled hongoing.alive
    · exact hover.killed hkilled
  · intro l hl hkilled
    cases hcurrent : r.current with
    | none =>
      exact .inr ⟨rfl, ((h.past (h.idle hcurrent)) l (List.mem_of_mem_head? hl)).2.ended hkilled⟩
    | some target =>
      obtain ⟨l', past, hls, rfl, -, hongoing, -⟩ := h.ongoing hcurrent
      rw [hls] at hl
      obtain rfl := Option.some.inj hl
      exact .inl ⟨rfl, hongoing.unended⟩
  · intro target hcurrent
    obtain ⟨l, past, hls, rfl, -, hongoing, -⟩ := h.ongoing hcurrent
    exact ⟨l, by rw [hls]; rfl, rfl, hongoing.alive⟩
  · intro k hk
    have hrunning : r.running ≠ some k.handle := fun hrunning => hk (h.awaited _ hrunning)
    simp [react, hrunning]

/-- **The course of the scripts**, whatever a runner hears and whatever its commands are answered.
By `flatten_sections` nothing of what happened is left out. -/
theorem orderly_of_lives {device : String} {default : List String}
    {scripts : List (UInt32 × List String)} {timeline : List Moment} {r : ScriptRunner}
    (h : Lives τ η { device, default, scripts } timeline r) :
    Orderly τ η { device, default, scripts } timeline r :=
  (holds_of_lives h (holds_fresh device default scripts)).orderly

/-- A script whose second command is under way is killed. -/
theorem orderly_of_lives_of_kill :
    let fresh : ScriptRunner := { device := "CCD", default := ["filter V", " ", "expose 10"] }
    ∃ timeline r, Lives Unit Unit fresh timeline r ∧ Orderly Unit Unit fresh timeline r ∧
      orders timeline = [
        { opcode := "filter", params := ["V"], origin := some "script" },
        { opcode := "expose", params := ["10"], origin := some "script" }] := by
  intro fresh
  let filter : CommandHandle := ⟨1, 1⟩
  let expose : CommandHandle := ⟨1, 2⟩
  have hnew : Lives Unit Unit fresh [] fresh := .fresh
  have hobserved := hnew.hears (e := .observe 1) (.post (.queueTo (.ok filter) (.done _)))
  have hfiltered := hobserved.hears (e := .commandOk ⟨filter, "filter V", some "script", .ok, 0⟩)
    (.queueTo (.ok expose) (.done _))
  have hkilled := hfiltered.hears (e := .killAll) (.done _)
  exact ⟨_, _, hkilled, orderly_of_lives hkilled, by decide⟩

end Observatory.ScriptRunner
