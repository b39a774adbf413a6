import Observatory.Proofs.Bus.Run
import Observatory.Proofs.Script.Deeds
/-!
# Stopping the scripts

A script runner that hears that everything is to be killed forgets its target, the target after it
and its commands. It stays at rest until it hears of a request for a target. Events are delivered
depth first, and so such a request may be older than the stop: it was posted, and while it waited
for its delivery another listener stopped everything.

* `ScriptRunner.beside` — runners on a bus beside any other listeners.
* `ScriptRunner.IsAtRest.react` — at rest a runner does nothing, but for a request.
* `ScriptRunner.stopped_until_asked` — **after a stop** a runner is at rest until a request, and
  which requests there can be.
* `ScriptRunner.starts_after_stop` — a target noted before a stop is started after it.
-/

namespace Observatory

/-! ## Runners among others -/

/-- A result is turned into another one, and nothing else changes. -/
theorem Reaction.run_bind_done {τ η α β : Type} (f : α → β) (x : Reaction τ η α)
    (t : Connections τ) : (x.bind fun a => .done (f a)).run t =
      ⟨f (x.run t).result, (x.run t).connections, (x.run t).posted, (x.run t).notes⟩ := by
  induction x generalizing t with
  | done result => rfl
  | note entry next ih => simp only [bind, run, ih]
  | post e next ih => simp only [bind, run, ih]
  | queue conn command next ih => simp only [bind, run, ih]
  | queueTo peer command next ih => simp only [bind, run, ih]
  | look next ih => simp only [bind, run, ih]

/-- A request for a target. -/
def Event.isRequest : Event → Bool
  | .setTarget _ => true
  | .observe _ => true
  | _ => false

namespace ScriptRunner

variable {τ ℓ η : Type}

/-- Script runners listen beside others, of which nothing is known. -/
def beside (other : Bus.React τ ℓ η) : Bus.React τ (ScriptRunner ⊕ ℓ) η
  | .inl r, e => (r.react e).bind fun r => .done (.inl r)
  | .inr x, e => (other x e).bind fun x => .done (.inr x)

/-! ## At rest -/

/-- The runner has nothing to do and nothing noted. -/
structure IsAtRest (r : ScriptRunner) : Prop extends r.IsIdle where
  next : r.next = none

/-- **At rest** a runner does nothing, whatever it hears but a request. -/
theorem IsAtRest.react {r : ScriptRunner} (h : r.IsAtRest) {e : Event} (he : e.isRequest = false) :
    (r.react e : Reaction τ η ScriptRunner) = .done r := by
  obtain ⟨⟨hcurrent, hrunning, hpending⟩, hnext⟩ := h
  cases e with
  | killAll =>
    cases r
    simp only at hcurrent hrunning hpending hnext
    subst hcurrent hrunning hpending hnext
    rfl
  | setTarget _ => cases he
  | observe _ => cases he
  | commandOk k => simp [ScriptRunner.react, hrunning]
  | commandFailed k => simp [ScriptRunner.react, hrunning]
  | _ => rfl

/-- A stop brings every runner to rest. -/
theorem react_killAll (r : ScriptRunner) :
    ∃ r' : ScriptRunner, r'.IsAtRest ∧ (r.react .killAll : Reaction τ η ScriptRunner) = .done r' :=
  ⟨{ r with current := none, next := none, pending := [], running := none },
    ⟨⟨rfl, rfl, rfl⟩, rfl⟩, rfl⟩

/-! ## No runner stops anything -/

theorem killAll_notMem_finish {r r' : ScriptRunner} {deeds : List Deed}
    (h : (finish r : Reaction τ η ScriptRunner).Does deeds r') : .posted .killAll ∉ deeds := by
  unfold finish at h
  dsimp only at h
  cases hcurrent : r.current with
  | none =>
    rw [hcurrent] at h
    cases h
    simp
  | some target =>
    rw [hcurrent] at h
    cases h with
    | post h =>
      cases hnext : r.next with
      | none =>
        rw [hnext] at h
        cases h
        simp
      | some next =>
        rw [hnext] at h
        cases h with
        | post h =>
          cases h
          simp

theorem killAll_notMem_sendFirst {r r' : ScriptRunner} {lines : List String} {deeds : List Deed}
    (h : (sendFirst r lines : Reaction τ η ScriptRunner).Does deeds r') :
    .posted .killAll ∉ deeds := by
  induction lines with
  | nil => exact killAll_notMem_finish h
  | cons line rest ih =>
    unfold sendFirst at h
    cases hline : Command.ofLine? line with
    | none =>
      rw [hline] at h
      exact ih h
    | some command =>
      rw [hline] at h
      cases h with
      | queueTo answer h =>
        cases answer with
        | ok handle =>
          cases h
          simp
        | error e => simpa using killAll_notMem_finish h

/-- **No runner** ever stops everything. -/
theorem killAll_notMem_react {r r' : ScriptRunner} {e : Event} {deeds : List Deed}
    (h : (r.react e : Reaction τ η ScriptRunner).Does deeds r') : .posted .killAll ∉ deeds := by
  have hnothing {r r' : ScriptRunner} (h : (.done r : Reaction τ η ScriptRunner).Does deeds r') :
      .posted .killAll ∉ deeds := by
    cases h
    simp
  cases e with
  | observe target =>
    unfold react at h
    dsimp only at h
    split at h
    · cases h with
      | post h => simpa using killAll_notMem_sendFirst h
    · exact hnothing h
  | commandOk k =>
    unfold react at h
    dsimp only at h
    split at h
    · exact killAll_notMem_sendFirst h
    · exact hnothing h
  | commandFailed k =>
    unfold react at h
    dsimp only at h
    split at h
    · exact killAll_notMem_finish h
    · exact hnothing h
  | _ => exact hnothing h

/-! ## Calls to a runner -/

section
variable {other : Bus.React τ ℓ η} {c : Bus.Call τ (ScriptRunner ⊕ ℓ) η} {r : ScriptRunner}

/-- A runner that does nothing posts nothing and is what it was. -/
theorem call_of_done {r' : ScriptRunner} (hr : c.before.listeners[c.listener]? = some (.inl r))
    (hdone : (r.react c.posting.event : Reaction τ η ScriptRunner) = .done r') :
    c.events (beside other) = [] ∧
      (c.after (beside other)).listeners[c.listener]? = some (.inl r') := by
  have hreact : beside other (.inl r) c.posting.event = .done (.inl r') := by
    dsimp only [beside]
    rw [hdone]
    rfl
  rw [Bus.events_of_getElem? hr, Bus.getElem?_after hr, hreact]
  exact ⟨rfl, rfl⟩

theorem killAll_notMem_events (hr : c.before.listeners[c.listener]? = some (.inl r)) :
    .killAll ∉ c.events (beside other) := by
  obtain ⟨deeds, hdoes, hposted⟩ :=
    Reaction.exists_does_run (r.react c.posting.event : Reaction τ η ScriptRunner)
      c.before.connections
  rw [Bus.events_of_getElem? hr, beside, Reaction.run_bind_done, ← hposted]
  intro hmem
  obtain ⟨deed, hdeed, hevent⟩ := List.mem_filterMap.1 hmem
  cases deed with
  | posted e =>
    obtain rfl := Option.some.inj hevent
    exact killAll_notMem_react hdoes hdeed
  | ordered receiver command answer => cases hevent

end

/-- The listener at a place is a runner at rest. -/
def RestsAt (index : Nat) (s : Stage τ (ScriptRunner ⊕ ℓ) η) : Prop :=
  ∃ r : ScriptRunner, s.listeners[index]? = some (.inl r) ∧ r.IsAtRest

/-- A call leaves a runner at rest, unless it is told of a request. -/
theorem RestsAt.after {other : Bus.React τ ℓ η} {c : Bus.Call τ (ScriptRunner ⊕ ℓ) η} {index : Nat}
    (h : RestsAt index c.before)
    (hc : c.listener = index → c.posting.event.isRequest = false) :
    RestsAt index (c.after (beside other)) := by
  obtain ⟨r, hr, hrest⟩ := h
  by_cases hlistener : c.listener = index
  · obtain rfl := hlistener
    exact ⟨r, (call_of_done hr (hrest.react (hc rfl))).2, hrest⟩
  · exact ⟨r, (Bus.getElem?_after_of_ne hlistener).trans hr, hrest⟩

/-- The owner of a bus that adds listeners leaves the others alone. -/
theorem getElem?_of_prefix {s s' : Stage τ ℓ η} (hs : s.listeners <+: s'.listeners) {index : Nat}
    {x : ℓ} (hx : s.listeners[index]? = some x) : s'.listeners[index]? = some x := by
  obtain ⟨hlt, rfl⟩ := List.getElem?_eq_some_iff.1 hx
  exact List.prefix_iff_getElem?.1 hs index hlt

theorem RestsAt.mono {index : Nat} {s s' : Stage τ (ScriptRunner ⊕ ℓ) η} (h : RestsAt index s)
    (hs : s.listeners <+: s'.listeners) : RestsAt index s' := by
  obtain ⟨r, hr, hrest⟩ := h
  exact ⟨r, getElem?_of_prefix hs hr, hrest⟩

/-! ## After a stop -/

/-- What a call after a stop is like, if no request was heard since: the runner is at rest. What it
is told is no request and makes it do nothing; or it is a request posted after the stop, and not
by the runner itself; or else it is a request posted before the stop, and then some listener
stopped everything. -/
structure FollowsStop (stop c : Bus.Call τ (ScriptRunner ⊕ ℓ) η) : Prop where
  rests : RestsAt stop.listener c.before
  quiet (hlistener : c.listener = stop.listener) (hrequest : c.posting.event.isRequest = false)
    (r : ScriptRunner) (hr : c.before.listeners[stop.listener]? = some (.inl r)) :
    (r.react c.posting.event : Reaction τ η ScriptRunner) = .done r
  request (hlistener : c.listener = stop.listener) (hrequest : c.posting.event.isRequest = true) :
    stop.posting.id < c.posting.id ∧ c.posting.poster ≠ some stop.listener ∨
      c.posting.id < stop.posting.id ∧ stop.posting.poster ≠ none

section
variable {other : Bus.React τ ℓ η} {acts : List (Bus.Act τ (ScriptRunner ⊕ ℓ))}
  {s : Stage τ (ScriptRunner ⊕ ℓ) η} {stop c : Bus.Call τ (ScriptRunner ⊕ ℓ) η}
  {earlier rest between later : List (Bus.Entry τ (ScriptRunner ⊕ ℓ) η)} {r : ScriptRunner}

/-- After a stop a runner is at rest as long as it hears of no request. -/
theorem rests_of_stop
    (hlog : (Bus.run (beside other) acts s).1 = earlier ++ .told stop :: (between ++ rest))
    (hr : stop.before.listeners[stop.listener]? = some (.inl r))
    (hstop : stop.posting.event = .killAll)
    (hbetween : ∀ c, .told c ∈ between → c.listener = stop.listener →
      c.posting.event.isRequest = false) :
    (∀ c, .told c ∈ between → RestsAt stop.listener c.before) ∧ ∃ s₁, RestsAt stop.listener s₁ ∧
      Bus.Replays (beside other) (fun s s' => s.listeners <+: s'.listeners) s₁ rest
        (Bus.run (beside other) acts s).2 := by
  have hreplays : Bus.Replays (beside other) (fun s s' => s.listeners <+: s'.listeners) s
      (Bus.run (beside other) acts s).1 (Bus.run (beside other) acts s).2 := Bus.replays_run
  rw [hlog] at hreplays
  obtain ⟨s₁, -, hafter⟩ := hreplays.split
  obtain ⟨-, hafter⟩ := hafter.of_told (P := fun _ => True) (fun _ _ _ _ => trivial) trivial
  obtain ⟨s₂, hbetween', hrest⟩ := hafter.split
  obtain ⟨r', hr', hdone⟩ := react_killAll (τ := τ) (η := η) r
  have hstopped : RestsAt stop.listener (stop.after (beside other)) :=
    ⟨r', (call_of_done hr (by rw [hstop]; exact hdone)).2, hr'⟩
  obtain ⟨hs₂, hcalls⟩ := hbetween'.keeps (P := RestsAt stop.listener) (fun _ _ h hs => hs.mono h)
    (fun c hc h => h.after (hbetween c hc)) hstopped
  exact ⟨hcalls, s₂, hs₂, hrest⟩

/-- What lies in the log between a stop and a later call. -/
theorem mem_between {d : Bus.Call τ (ScriptRunner ⊕ ℓ) η}
    (hlog : (Bus.run (beside other) acts s).1 =
      earlier ++ .told stop :: (between ++ .told c :: later))
    (hd : .told d ∈ (Bus.run (beside other) acts s).1) (hstop : stop.place < d.place)
    (hc : d.place < c.place) : .told d ∈ between := by
  have hplaced : Bus.Placed 0 (Bus.run (beside other) acts s).1 := Bus.placed_run
  rw [hlog] at hplaced hd
  have hafter := hplaced.mem_after hd hstop
  rw [List.append_cons] at hplaced
  exact hplaced.of_append.2.mem_before hafter hc

/-- A listener that is no runner stays none. -/
theorem other_of_earlier {d : Bus.Call τ (ScriptRunner ⊕ ℓ) η} {index : Nat} {x : ℓ}
    (hd : .told d ∈ (Bus.run (beside other) acts s).1)
    (hc : .told c ∈ (Bus.run (beside other) acts s).1) (hdc : d.place < c.place)
    (hx : d.before.listeners[index]? = some (.inr x)) :
    ∃ y, c.before.listeners[index]? = some (.inr y) := by
  have hplaced : Bus.Placed 0 (Bus.run (beside other) acts s).1 := Bus.placed_run
  have hreplays : Bus.Replays (beside other) (fun s s' => s.listeners <+: s'.listeners) s
      (Bus.run (beside other) acts s).1 (Bus.run (beside other) acts s).2 := Bus.replays_run
  obtain ⟨before, after, hlog⟩ := List.append_of_mem hd
  rw [hlog] at hreplays hplaced hc
  have hmem : .told c ∈ after := hplaced.mem_after hc hdc
  let P (t : Stage τ (ScriptRunner ⊕ ℓ) η) : Prop := ∃ y, t.listeners[index]? = some (.inr y)
  have hcall (e : Bus.Call τ (ScriptRunner ⊕ ℓ) η) (he : P e.before) :
      P (e.after (beside other)) := by
    obtain ⟨y, hy⟩ := he
    by_cases hlistener : e.listener = index
    · obtain rfl := hlistener
      refine ⟨((other y e.posting.event).run e.before.connections).result,
        (Bus.getElem?_after hy).trans ?_⟩
      rw [beside, Reaction.run_bind_done]
    · exact ⟨y, (Bus.getElem?_after_of_ne hlistener).trans hy⟩
  obtain ⟨s₁, -, hafter⟩ := hreplays.split
  obtain ⟨-, hafter⟩ := hafter.of_told (P := fun _ => True) (fun _ _ _ _ => trivial) trivial
  refine (hafter.keeps (P := P) ?_ (fun e _ => hcall e) (hcall d ⟨x, hx⟩)).2 c hmem
  rintro t t' hmore ⟨y, hy⟩
  exact ⟨y, getElem?_of_prefix hmore hy⟩

/-- What a runner asked for itself, and hears of after a stop, it asked for before the stop was
posted. -/
theorem id_lt_of_own
    (hlog : (Bus.run (beside other) acts s).1 =
      earlier ++ .told stop :: (between ++ .told c :: later))
    (hr : stop.before.listeners[stop.listener]? = some (.inl r))
    (hstop : stop.posting.event = .killAll)
    (hbetween : ∀ c, .told c ∈ between → c.listener = stop.listener →
      c.posting.event.isRequest = false)
    (hown : c.posting.poster = some stop.listener) : c.posting.id < stop.posting.id := by
  have hmem : .told stop ∈ (Bus.run (beside other) acts s).1 := by simp [hlog]
  have hmem' : .told c ∈ (Bus.run (beside other) acts s).1 := by simp [hlog]
  have hplaced : Bus.Placed 0 (Bus.run (beside other) acts s).1 := Bus.placed_run
  obtain ⟨d, hd, hlistener, hposted⟩ :=
    Bus.exists_call_of_poster (Bus.posted_of_told_run hmem') hown
  have hdc : d.place < c.place := by
    obtain ⟨-, -, -, hid, -⟩ := d.of_mem_postings _ hposted
    exact Nat.lt_trans hid ((Bus.unfolds_run hmem').1 _ c.posting.id_mem_line)
  have hsc : stop.place < c.place := (hlog ▸ hplaced).place_lt_of_mem (y := .told c) (by simp)
  -- a call in which nothing is posted is not the one
  have hnot (hevents : d.events (beside other) = []) : False := by
    have hlength := List.length_pos_of_mem hposted
    rw [d.length_postings, hevents] at hlength
    exact Nat.lt_irrefl _ hlength
  rcases Nat.lt_trichotomy d.place stop.place with hlt | heq | hgt
  · rcases (Bus.unfolds_run hd).of_between hplaced hmem hmem' hposted hlt hsc with hin | hids
    · exfalso
      have hevent : Event.killAll ∈ d.events (beside other) := by
        obtain ⟨hevent, -⟩ := d.of_mem_postings _ hin
        rwa [hstop] at hevent
      cases hwho : d.before.listeners[stop.listener]? with
      | none =>
        refine hnot ?_
        rw [Bus.Call.events, Bus.tell, hlistener, hwho]
      | some x =>
        cases x with
        | inl r => exact killAll_notMem_events (hlistener ▸ hwho) hevent
        | inr x =>
          obtain ⟨y, hy⟩ := other_of_earlier hd hmem hlt hwho
          cases hr.symm.trans hy
    · exact hids _ hposted
  · obtain rfl := Bus.Entry.told.inj (hplaced.eq_of_place hd hmem heq)
    obtain ⟨r', -, hdone⟩ := react_killAll (τ := τ) (η := η) r
    exact (hnot (call_of_done hr (by rw [hstop]; exact hdone)).1).elim
  · have hd' := mem_between hlog hd hgt hdc
    obtain ⟨hcalls, -⟩ := rests_of_stop hlog hr hstop hbetween
    obtain ⟨r', hr', hrest⟩ := hcalls d hd'
    rw [← hlistener] at hr'
    exact (hnot (call_of_done hr' (hrest.react (hbetween d hd' hlistener))).1).elim

/-- **After a stop**, whatever the other listeners do: the runner is at rest until it is told of a
request, and in the end if it is not. -/
theorem stopped_until_asked
    (hlog : (Bus.run (beside other) acts s).1 = earlier ++ .told stop :: rest)
    (hr : stop.before.listeners[stop.listener]? = some (.inl r))
    (hstop : stop.posting.event = .killAll) :
    (∀ between c later, rest = between ++ .told c :: later →
      (∀ c', .told c' ∈ between → c'.listener = stop.listener →
        c'.posting.event.isRequest = false) → FollowsStop stop c) ∧
    ((∀ c, .told c ∈ rest → c.listener = stop.listener → c.posting.event.isRequest = false) →
      RestsAt stop.listener (Bus.run (beside other) acts s).2) := by
  constructor
  · rintro between c later rfl hbetween
    obtain ⟨-, s₁, hs₁, hrest⟩ := rests_of_stop hlog hr hstop hbetween
    obtain ⟨hrests, -⟩ := hrest.of_told (P := RestsAt stop.listener) (fun _ _ h hs => hs.mono h) hs₁
    refine ⟨hrests, fun hlistener hrequest r hr => ?_, fun hlistener hrequest => ?_⟩
    · obtain ⟨r', hr', hatRest⟩ := hrests
      obtain rfl := Sum.inl.inj (Option.some.inj (hr'.symm.trans hr))
      exact hatRest.react hrequest
    · have hmem : .told stop ∈ (Bus.run (beside other) acts s).1 := by simp [hlog]
      have hmem' : .told c ∈ (Bus.run (beside other) acts s).1 := by simp [hlog]
      have hplaced : Bus.Placed 0 (Bus.run (beside other) acts s).1 := Bus.placed_run
      have hsc : stop.place < c.place :=
        (hlog ▸ hplaced).place_lt_of_mem (y := .told c) (by simp)
      have hne : stop.posting.id ≠ c.posting.id := fun hid => by
        have hposting := Bus.posting_eq_of_id hmem hmem' hid
        rw [← hposting, hstop] at hrequest
        cases hrequest
      rcases Nat.lt_or_gt_of_ne hne with hlt | hgt
      · refine .inl ⟨hlt, fun hown => ?_⟩
        have hearly := id_lt_of_own hlog hr hstop hbetween hown
        omega
      · refine .inr ⟨hgt, fun houtside => ?_⟩
        have hle := Bus.id_le_of_outside hmem hmem' houtside hsc
        omega
  · intro hrest
    rw [← List.append_nil rest] at hlog
    obtain ⟨-, s₁, hs₁, hend⟩ := rests_of_stop hlog hr hstop hrest
    exact (hend.keeps (P := RestsAt stop.listener) (fun _ _ h hs => hs.mono h) (by simp) hs₁).1

end

/-- A runner notes a target, everything is stopped, and a script ends elsewhere. -/
def earlyStop : List (Bus.Entry Unit (ScriptRunner ⊕ Unit) Unit) ×
    Stage Unit (ScriptRunner ⊕ Unit) Unit :=
  Bus.run (beside fun _ _ => .done ())
    [.post (.setTarget 7) {}, .post .killAll {}, .post (.scriptEnded 1) {}]
    { listeners := [.inl { device := "CCD", default := ["expose 10"] }], connections := {} }

theorem stopped_until_asked_of_outside : ∃ earlier stop rest r,
    earlyStop.1 = earlier ++ .told stop :: rest ∧
      stop.before.listeners[stop.listener]? = some (.inl r) ∧ r.next = some 7 ∧
      stop.posting.event = .killAll ∧ RestsAt stop.listener earlyStop.2 := by
  obtain ⟨stop, p, c, hlog, r, hr, hnext, hstop, hevent⟩ :
      ∃ stop p c, earlyStop.1 = earlyStop.1.take 3 ++ .told stop :: [.posted p, .told c] ∧
        ∃ r : ScriptRunner, stop.before.listeners[stop.listener]? = some (.inl r) ∧
          r.next = some 7 ∧ stop.posting.event = .killAll ∧ c.posting.event = .scriptEnded 1 :=
    ⟨_, _, _, rfl, _, rfl, rfl, rfl, rfl⟩
  refine ⟨_, stop, _, r, hlog, hr, hnext, hstop, (stopped_until_asked hlog hr hstop).2 ?_⟩
  intro c' hc' _
  obtain rfl : c' = c := by simpa using hc'
  rw [hevent]
  rfl

/-- A listener that stops everything when a script ends. -/
def stopAtEnd : Bus.React Unit Unit Unit
  | _, .scriptEnded _ => .post .killAll (.done ())
  | _, _ => .done ()

/-- The log of a bus on which a runner is told of the target 7, and then to observe the target 1,
which has an empty script. -/
def lateStop : List (Bus.Entry Unit (ScriptRunner ⊕ Unit) Unit) :=
  let connections : Connections Unit :=
    { items := [Connection.inMemory 1 .device "CCD" 0], lastId := 1 }
  let runner : ScriptRunner :=
    { device := "CCD", default := ["expose 10"], scripts := [(1, [])] }
  (Bus.run (beside stopAtEnd) [.post (.setTarget 7) connections, .post (.observe 1) connections]
    { listeners := [.inl runner, .inr ()], connections }).1

/-- **A target noted before a stop is started after it.** The first script ends at once, and the
runner asks for the target 7; but before it hears of that, the other listener hears of the end and
stops everything. -/
theorem starts_after_stop : ∃ earlier stop between c later,
    lateStop = earlier ++ .told stop :: (between ++ .told c :: later) ∧
    stop.listener = 0 ∧ (∃ r, stop.before.listeners[0]? = some (.inl r)) ∧
    stop.posting.event = .killAll ∧ (∀ d, .told d ∈ between → d.listener ≠ 0) ∧
    c.listener = 0 ∧ c.posting.event = .observe 7 ∧
    c.posting.id < stop.posting.id ∧ c.posting.poster = some 0 ∧
    ∃ r, (c.after (beside stopAtEnd)).listeners[0]? = some (.inl r) ∧ r.current = some 7 ∧
      r.running = some ⟨1, 1⟩ := by
  refine ⟨lateStop.take 13, _, [_], _, lateStop.drop 16, rfl, rfl, ⟨_, rfl⟩, rfl, fun d hd => ?_,
    rfl, rfl, by decide, rfl, _, rfl, rfl, rfl⟩
  have hlistener : d.listener = 1 :=
    congrArg Bus.Call.listener (Bus.Entry.told.inj (List.mem_singleton.1 hd))
  rw [hlistener]
  decide

end ScriptRunner

end Observatory
