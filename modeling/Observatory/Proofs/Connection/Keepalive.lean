import Observatory.Proofs.Connection.Steady
/-!
# Silence

A connection that hears nothing of its peer asks for a sign of life when a quarter of its timeout
has passed, again after every further quarter, and gives up when more than all of it has passed. The
timers are run when the owner of the connection finds the time, so all of this is about the moments
at which they run.

* `idle_up` — one run of the timers, in full.
* `Stroke`, `Vigil` — what happens to a connection, when it heard of its peer and when it asked.
* `keepalive_exact` — every sequence of strokes.
-/

namespace Observatory.Connection

variable {τ σ : Type}

/-! ## One run of the timers -/

/-- The question for a sign of life. -/
def ping : Bytes := recordBytes [.technical "ready"]

theorem ping_ne_nil : ping ≠ [] := by
  rw [ping, recordBytes_singleton]
  simp

/-- The timers ask for a sign of life, behind the command that they may send. -/
def Asks (now : Instant) (c : Connection τ) : Prop :=
  (c.idle now).output = c.pump.output ++ ping

instance (now : Instant) (c : Connection τ) : Decidable (Asks now c) :=
  inferInstanceAs (Decidable (_ = _))

/-- A quarter of the timeout has passed since the peer was heard, and since it was asked last, if it
was. -/
def IsQuarter (timeout : Duration) (heard : Instant) (asked : Option Instant) (now : Instant) :
    Prop :=
  timeout / 4 ≤ Instant.since now heard ∧ ∀ last ∈ asked, timeout / 4 ≤ Instant.since now last

/-- Sending a command is no sign of the peer. -/
theorem pump_clock (c : Connection τ) :
    c.pump.lastActivity = c.lastActivity ∧ c.pump.lastKeepalive = c.lastKeepalive := by
  have hsame := pump_heard ⟨c.input, c.lastActivity, c.lastKeepalive⟩ c
  have hpump : c.pump = c.pump.heard ⟨c.input, c.lastActivity, c.lastKeepalive⟩ := hsame
  generalize c.pump = d at hpump ⊢
  rw [hpump]
  exact ⟨rfl, rfl⟩

/-- Whoever has not heard for too long gives up; whoever has not heard for a while asks. -/
theorem watchSilence_eq (now : Instant) (timeout : Duration) (c : Connection τ) :
    (timeout < Instant.since now c.lastActivity →
      c.watchSilence now timeout = c.finishClose .timeout) ∧
    (Instant.since now c.lastActivity ≤ timeout →
      IsQuarter timeout c.lastActivity c.lastKeepalive now →
      c.watchSilence now timeout = { c.send (.technical "ready") with lastKeepalive := some now }) ∧
    (Instant.since now c.lastActivity ≤ timeout →
      ¬ IsQuarter timeout c.lastActivity c.lastKeepalive now → c.watchSilence now timeout = c) := by
  unfold watchSilence IsQuarter
  dsimp only
  refine ⟨fun hlate => if_pos hlate, fun htime hquarter => ?_, fun htime hearly => ?_⟩
  · rw [if_neg (Nat.not_lt.2 htime), if_pos]
    cases hasked : c.lastKeepalive with
    | none => simpa [hasked] using hquarter
    | some last => simpa [hasked] using hquarter
  · rw [if_neg (Nat.not_lt.2 htime), if_neg]
    cases hasked : c.lastKeepalive with
    | none => simpa [hasked] using hearly
    | some last => simpa [hasked] using hearly

/-- The timers of a connection that is not up do nothing. -/
theorem idle_down {c : Connection τ} (hchild : c.helper = none) (hdown : c.isEstablished = false)
    (now : Instant) : c.idle now = c := by
  unfold idle
  rw [hchild]
  exact if_neg (by simp [hdown])

theorem idle_up {c : Connection τ} (hchild : c.helper = none) (hup : c.isEstablished = true)
    (now : Instant) : (c.timeout = none → c.idle now = c.pump) ∧
      ∀ timeout, c.timeout = some timeout → c.idle now = c.pump.watchSilence now timeout := by
  have hpump : Steady (fun _ => ()) c c.pump := steady_pump c
  unfold idle
  rw [hchild]
  show (_ → c.idleEstablished now = _) ∧ ∀ timeout, _ → c.idleEstablished now = _
  unfold idleEstablished
  rw [if_pos hup, ← hpump.timeout]
  refine ⟨fun htimeout => ?_, fun timeout htimeout => ?_⟩
  · simp only [htimeout]
  · simp only [htimeout]

/-- **The timers of a connection that is up.** They close it exactly when the peer has been silent
for more than the timeout. Otherwise they ask for a sign of life exactly when a quarter of it has
passed, and write nothing else but perhaps the next command. Without a timeout they write nothing
else in any case. -/
theorem idle_exact {c : Connection τ} (hchild : c.helper = none) (hup : c.isEstablished = true)
    (now : Instant) : (c.timeout = none → c.idle now = c.pump) ∧
    ∀ timeout, c.timeout = some timeout →
      (timeout < Instant.since now c.lastActivity → c.idle now = c.pump.finishClose .timeout) ∧
      (Instant.since now c.lastActivity ≤ timeout →
        IsQuarter timeout c.lastActivity c.lastKeepalive now →
        c.idle now = { c.pump.send (.technical "ready") with lastKeepalive := some now }) ∧
      (Instant.since now c.lastActivity ≤ timeout →
        ¬ IsQuarter timeout c.lastActivity c.lastKeepalive now → c.idle now = c.pump) := by
  obtain ⟨hnone, hsome⟩ := idle_up hchild hup now
  refine ⟨hnone, fun timeout htimeout => ?_⟩
  rw [hsome timeout htimeout, ← (pump_clock c).1, ← (pump_clock c).2]
  exact watchSilence_eq now timeout c.pump

/-! ## Questions -/

/-- Whether the timers ask is to be seen in what they write. -/
theorem asks_iff {c : Connection τ} (hchild : c.helper = none) (hup : c.isEstablished = true)
    (now : Instant) {timeout : Duration} (htimeout : c.timeout = some timeout) :
    Asks now c ↔ Instant.since now c.lastActivity ≤ timeout ∧
      IsQuarter timeout c.lastActivity c.lastKeepalive now := by
  obtain ⟨hlate, hquarter, hearly⟩ := (idle_exact hchild hup now).2 timeout htimeout
  unfold Asks
  by_cases htime : Instant.since now c.lastActivity ≤ timeout
  · by_cases hdue : IsQuarter timeout c.lastActivity c.lastKeepalive now
    · rw [hquarter htime hdue, send_eq]
      exact iff_of_true rfl ⟨htime, hdue⟩
    · rw [hearly htime hdue]
      refine iff_of_false (fun h => ?_) fun h => hdue h.2
      exact ping_ne_nil (List.append_right_eq_self.1 h.symm)
  · rw [hlate (Nat.lt_of_not_le htime)]
    refine iff_of_false (fun h => ?_) fun h => htime h.1
    exact ping_ne_nil (List.append_right_eq_self.1 h.symm)

theorem not_asks_of_down {c : Connection τ} (hchild : c.helper = none)
    (hdown : c.isEstablished = false) (now : Instant) : ¬ Asks now c := by
  have hpump : c.pump = c := if_neg (by simp [hdown])
  unfold Asks
  rw [idle_down hchild hdown, hpump]
  exact fun h => ping_ne_nil (List.append_right_eq_self.1 h.symm)

theorem not_asks_of_no_timeout {c : Connection τ} (hchild : c.helper = none)
    (htimeout : c.timeout = none) (now : Instant) : ¬ Asks now c := by
  cases hup : c.isEstablished with
  | false => exact not_asks_of_down hchild hup now
  | true =>
    unfold Asks
    rw [(idle_exact hchild hup now).1 htimeout]
    exact fun h => ping_ne_nil (List.append_right_eq_self.1 h.symm)

/-! ## Strokes -/

/-- What happens to a connection in the course of time. -/
inductive Stroke (τ σ : Type) where
  /-- The owner looks whether the connect has come to an end. -/
  | connect (answer : ConnectAnswer τ) (now : Instant)
  /-- Bytes of the peer arrive, with what the endpoint lends to handle them. -/
  | hear (own : Local σ) (now : Instant) (bytes : Bytes)
  /-- The timers run. -/
  | tick (now : Instant)

/-- A connection, with the moment from which its silence counts and the moments at which it asked
for a sign of life since then. -/
structure Vigil (τ : Type) where
  conn : Connection τ
  heard : Instant
  asked : List Instant

namespace Vigil

def start (c : Connection τ) : Vigil τ := ⟨c, c.lastActivity, c.lastKeepalive.toList⟩

/-- One stroke. The silence ends when the connection comes up and when bytes arrive. -/
def apply (dev : Device σ) (v : Vigil τ) : Stroke τ σ → Vigil τ
  | .connect answer now => {
      conn := (v.conn.pollConnect answer now).2
      heard := if (v.conn.pollConnect answer now).2.isEstablished && !v.conn.isEstablished
        then now else v.heard
      asked := v.asked }
  | .hear own now bytes => ⟨(receive dev now bytes ⟨v.conn, own⟩).conn, now, []⟩
  | .tick now => {
      conn := v.conn.idle now
      heard := v.heard
      asked := if Asks now v.conn then v.asked ++ [now] else v.asked }

theorem apply_tick (dev : Device σ) (v : Vigil τ) (now : Instant) :
    v.apply dev (.tick now) = { v with
      conn := v.conn.idle now
      asked := if Asks now v.conn then v.asked ++ [now] else v.asked } := rfl

def run (dev : Device σ) (strokes : List (Stroke τ σ)) (v : Vigil τ) : Vigil τ :=
  strokes.foldl (fun v s => v.apply dev s) v

/-- The connection knows since when its peer is silent and when it asked last, and it has not asked
again before a quarter of its timeout had passed. -/
structure Sound (timeout : Option Duration) (v : Vigil τ) : Prop where
  linked : Linked v.conn
  child : v.conn.helper = none
  limit : v.conn.timeout = timeout
  heard : v.conn.lastActivity = v.heard
  asked : v.conn.lastKeepalive = v.asked.getLast?
  spaced : ∀ t ∈ timeout, v.asked.Pairwise fun earlier later =>
    t / 4 ≤ Instant.since later earlier

end Vigil

/-! ## One stroke -/

theorem timeout_of_runs {R : CloseReason → Prop} {c d : Connection τ}
    (h : Runs (fun _ => ()) R c d) : d.timeout = c.timeout ∧ d.helper = c.helper := by
  rcases h with h | ⟨e, reason, h, -, -, rfl⟩
  · exact ⟨h.timeout, h.helper⟩
  · exact ⟨h.timeout, h.helper⟩

/-- A connect that comes to its end starts the silence. -/
theorem pollConnect_clock (answer : ConnectAnswer τ) (now : Instant) {c : Connection τ}
    (hc : Linked c) :
    (c.pollConnect answer now).2.timeout = c.timeout ∧
    (c.pollConnect answer now).2.helper = c.helper ∧
    (c.pollConnect answer now).2.lastKeepalive = c.lastKeepalive ∧
    (c.pollConnect answer now).2.lastActivity =
      if (c.pollConnect answer now).2.isEstablished && !c.isEstablished then now
      else c.lastActivity := by
  unfold pollConnect
  split
  · next address stream hlink =>
    have hdown : c.isEstablished = false := by
      rw [isEstablished, hc.connecting address hlink]
      rfl
    have hpump (d : Connection τ) : Steady (fun _ => ()) d d.pump := steady_pump d
    dsimp only
    rw [isEstablished, (hpump _).timeout, (hpump _).helper, (hpump _).state, (pump_clock _).1,
      (pump_clock _).2, hdown]
    exact ⟨rfl, rfl, rfl, rfl⟩
  · exact ⟨rfl, rfl, rfl, rfl⟩
  · refine ⟨rfl, rfl, rfl, ?_⟩
    cases c.isEstablished <;> rfl

theorem since_le_since {quarter a b c : Nat} (hab : quarter ≤ Instant.since b a)
    (hbc : quarter ≤ Instant.since c b) : quarter ≤ Instant.since c a := by
  unfold Instant.since at *
  omega

/-- The questions that are already apart stay apart when one more is asked in time. -/
theorem spaced_concat {quarter : Duration} {asked : List Instant} {now : Instant}
    (h : asked.Pairwise fun earlier later => quarter ≤ Instant.since later earlier)
    (hnow : ∀ last ∈ asked.getLast?, quarter ≤ Instant.since now last) :
    (asked ++ [now]).Pairwise fun earlier later => quarter ≤ Instant.since later earlier := by
  rw [List.pairwise_append]
  refine ⟨h, List.pairwise_singleton _ _, fun sent hsent moment hat => ?_⟩
  obtain rfl := List.mem_singleton.1 hat
  rcases List.eq_nil_or_concat' asked with rfl | ⟨before, last, rfl⟩
  · cases hsent
  · have hlast := hnow last (by simp)
    rcases List.mem_append.1 hsent with hsent | hsent
    · exact since_le_since ((List.pairwise_append.1 h).2.2 sent hsent last (by simp)) hlast
    · rwa [List.mem_singleton.1 hsent]

theorem Vigil.Sound.tick {timeout : Option Duration} {v : Vigil τ} (h : v.Sound timeout)
    (dev : Device σ) (now : Instant) : (v.apply dev (.tick now)).Sound timeout := by
  have hlinked : Linked (v.conn.idle now) := by
    obtain ⟨acts, hacts, -⟩ := proceeds_idle now h.child
    exact hacts.linked h.linked
  rw [Vigil.apply_tick]
  cases hup : v.conn.isEstablished with
  | false =>
    rw [if_neg (not_asks_of_down h.child hup now), idle_down h.child hup]
    exact h
  | true =>
    obtain ⟨hnone, hsome⟩ := idle_exact h.child hup now
    have hpump : Steady (fun _ => ()) v.conn v.conn.pump := steady_pump v.conn
    have hclock := pump_clock v.conn
    cases htimeout : v.conn.timeout with
    | none =>
      rw [if_neg (not_asks_of_no_timeout h.child htimeout now)]
      rw [hnone htimeout] at hlinked ⊢
      exact ⟨hlinked, hpump.helper.trans h.child, hpump.timeout.trans h.limit,
        hclock.1.trans h.heard, hclock.2.trans h.asked, h.spaced⟩
    | some limit =>
      have hasks := asks_iff h.child hup now htimeout
      obtain ⟨hlate, hquarter, hearly⟩ := hsome limit htimeout
      by_cases hdue : Instant.since now v.conn.lastActivity ≤ limit ∧
          IsQuarter limit v.conn.lastActivity v.conn.lastKeepalive now
      · rw [if_pos (hasks.2 hdue)]
        rw [hquarter hdue.1 hdue.2] at hlinked ⊢
        refine ⟨hlinked, hpump.helper.trans h.child, hpump.timeout.trans h.limit,
          hclock.1.trans h.heard, by simp, fun other hother => ?_⟩
        obtain rfl : limit = other := by
          rw [← h.limit, htimeout] at hother
          exact Option.some.inj hother
        exact spaced_concat (h.spaced limit hother) (h.asked ▸ hdue.2.2)
      · rw [if_neg (mt hasks.1 hdue)]
        by_cases htime : Instant.since now v.conn.lastActivity ≤ limit
        · rw [hearly htime fun hq => hdue ⟨htime, hq⟩] at hlinked ⊢
          exact ⟨hlinked, hpump.helper.trans h.child, hpump.timeout.trans h.limit,
            hclock.1.trans h.heard, hclock.2.trans h.asked, h.spaced⟩
        · rw [hlate (Nat.lt_of_not_le htime)] at hlinked ⊢
          exact ⟨hlinked, hpump.helper.trans h.child, hpump.timeout.trans h.limit,
            hclock.1.trans h.heard, hclock.2.trans h.asked, h.spaced⟩

theorem Vigil.Sound.apply {timeout : Option Duration} {v : Vigil τ} (h : v.Sound timeout)
    (dev : Device σ) (s : Stroke τ σ) : (v.apply dev s).Sound timeout := by
  cases s with
  | connect answer now =>
    obtain ⟨acts, hacts, -⟩ := proceeds_pollConnect answer now h.linked
    obtain ⟨htimeout, hchild, hasked, hheard⟩ := pollConnect_clock answer now h.linked
    refine ⟨hacts.linked h.linked, hchild.trans h.child, htimeout.trans h.limit, ?_,
      hasked.trans h.asked, h.spaced⟩
    exact hheard.trans (by rw [h.heard]; rfl)
  | hear own now bytes =>
    obtain ⟨acts, hacts, -⟩ := proceeds_receive dev now bytes ⟨v.conn, own⟩
    obtain ⟨htimeout, hchild⟩ := timeout_of_runs (runs_receive dev now bytes ⟨v.conn, own⟩)
    have hheard := receive_eq dev now bytes ⟨v.conn, own⟩
    refine ⟨hacts.linked h.linked, hchild.trans h.child, htimeout.trans h.limit, ?_, ?_, ?_⟩
    · exact congrArg (·.conn.lastActivity) hheard
    · exact congrArg (·.conn.lastKeepalive) hheard
    · exact fun _ _ => .nil
  | tick now => exact h.tick dev now

/-! ## Every sequence of strokes -/

theorem Vigil.Sound.run {timeout : Option Duration} {v : Vigil τ} (h : v.Sound timeout)
    (dev : Device σ) (strokes : List (Stroke τ σ)) : (v.run dev strokes).Sound timeout := by
  induction strokes generalizing v with
  | nil => exact h
  | cons s strokes ih => exact ih (h.apply dev s)

/-- Nothing is written or reported on a connection that has ended. -/
theorem Vigil.Sound.ended {timeout : Option Duration} {v : Vigil τ} (h : v.Sound timeout)
    (hclosed : v.conn.isClosed = true) (dev : Device σ) (strokes : List (Stroke τ σ)) :
    (v.run dev strokes).conn.output = v.conn.output ∧
      (v.run dev strokes).conn.events = v.conn.events := by
  induction strokes generalizing v with
  | nil => exact ⟨rfl, rfl⟩
  | cons s strokes ih =>
    have hstep : (v.apply dev s).conn.isClosed = true ∧
        (v.apply dev s).conn.output = v.conn.output ∧
        (v.apply dev s).conn.events = v.conn.events := by
      cases s with
      | connect answer now =>
        have hsame : (v.conn.pollConnect answer now).2 = v.conn := by
          unfold pollConnect
          rw [h.linked.closed hclosed]
        exact ⟨(congrArg isClosed hsame).trans hclosed, congrArg output hsame,
          congrArg events hsame⟩
      | hear own now bytes =>
        have hsame := receive_eq dev now bytes ⟨v.conn, own⟩
        rw [foldl_processFrame_of_closed dev _ hclosed] at hsame
        refine ⟨?_, congrArg (·.conn.output) hsame, congrArg (·.conn.events) hsame⟩
        exact (congrArg (·.conn.isClosed) hsame).trans hclosed
      | tick now =>
        have hdown : v.conn.isEstablished = false := by
          unfold isEstablished
          rw [beq_iff_eq.1 hclosed]
          rfl
        have hsame := idle_down h.child hdown now
        exact ⟨(congrArg isClosed hsame).trans hclosed, congrArg output hsame,
          congrArg events hsame⟩
    obtain ⟨hout, hevents⟩ := ih (h.apply dev s) hstep.1
    exact ⟨hout.trans hstep.2.1, hevents.trans hstep.2.2⟩

/-- **Silence is measured exactly.** After any sequence of receptions, runs of the timers and
answers to a connect, the next run of the timers on a connection that is up closes it if more than
the timeout has passed since the last reception, or since it came up. Otherwise it leaves it up and
asks for a sign of life exactly when a quarter of the timeout has passed since then and since the
last question behind it, if there was one; beside that it only sends the next command. Without a
timeout it does nothing but that. So questions without a reception in between are at least a quarter
of the timeout apart, and nothing is written once the connection has ended. -/
theorem keepalive_exact (dev : Device σ) {c : Connection τ} (hlinked : Linked c)
    (hchild : c.helper = none) (strokes : List (Stroke τ σ)) :
    let v := (Vigil.start c).run dev strokes
    (v.conn.isEstablished = true → ∀ now,
      (c.timeout = none → v.conn.idle now = v.conn.pump ∧ ¬ Asks now v.conn) ∧
      ∀ timeout, c.timeout = some timeout →
        (timeout < Instant.since now v.heard →
          v.conn.idle now = v.conn.pump.finishClose .timeout) ∧
        (Instant.since now v.heard ≤ timeout →
          (v.conn.idle now).isEstablished = true ∧ (v.conn.idle now).events = v.conn.events ∧
          (Asks now v.conn ↔ IsQuarter timeout v.heard v.asked.getLast? now) ∧
          (¬ Asks now v.conn → v.conn.idle now = v.conn.pump))) ∧
    (∀ timeout, c.timeout = some timeout →
      v.asked.Pairwise fun earlier later => timeout / 4 ≤ Instant.since later earlier) ∧
    (v.conn.isClosed = true → ∀ more,
      (v.run dev more).conn.output = v.conn.output ∧
        (v.run dev more).conn.events = v.conn.events) := by
  intro v
  have hstart : (Vigil.start c).Sound c.timeout := by
    refine ⟨hlinked, hchild, rfl, rfl, ?_, fun t _ => ?_⟩
    · show c.lastKeepalive = c.lastKeepalive.toList.getLast?
      cases c.lastKeepalive <;> rfl
    · show c.lastKeepalive.toList.Pairwise _
      cases c.lastKeepalive <;> simp
  have hsound : v.Sound c.timeout := hstart.run dev strokes
  refine ⟨fun hup now => ?_, fun timeout htimeout => hsound.spaced timeout htimeout,
    fun hclosed more => hsound.ended hclosed dev more⟩
  obtain ⟨hnone, hsome⟩ := idle_exact hsound.child hup now
  refine ⟨fun htimeout => ?_, fun timeout htimeout => ?_⟩
  · rw [← hsound.limit] at htimeout
    exact ⟨hnone htimeout, not_asks_of_no_timeout hsound.child htimeout now⟩
  · rw [← hsound.limit] at htimeout
    have hpump : Steady (fun _ => ()) v.conn v.conn.pump := steady_pump v.conn
    have hasks := asks_iff hsound.child hup now htimeout
    obtain ⟨hlate, hquarter, hearly⟩ := hsome timeout htimeout
    rw [hsound.heard, hsound.asked] at hasks hquarter hearly
    rw [hsound.heard] at hlate
    have hstate : v.conn.pump.isEstablished = true := by
      rw [isEstablished, hpump.state]
      exact hup
    refine ⟨hlate, fun htime => ?_⟩
    by_cases hdue : IsQuarter timeout v.heard v.asked.getLast? now
    · rw [hquarter htime hdue]
      refine ⟨hstate, pump_events v.conn, iff_of_true (hasks.2 ⟨htime, hdue⟩) hdue, fun hnot => ?_⟩
      exact absurd (hasks.2 ⟨htime, hdue⟩) hnot
    · rw [hearly htime hdue]
      exact ⟨hstate, pump_events v.conn, iff_of_false (fun h => hdue (hasks.1 h).2) hdue,
        fun _ => rfl⟩

/-- A peer that is asked after 75 and after 150 seconds, and given up after more than 300. -/
theorem keepalive_exact_of_silent_peer :
    let c : Connection Unit := inMemory 1 .client "peer" 0
    let v := (Vigil.start c).run Device.passive
      [.tick (Duration.ofSeconds 75), .tick (Duration.ofSeconds 100)]
    Linked c ∧ c.helper = none ∧ v.asked = [Duration.ofSeconds 75] ∧
      Asks (Duration.ofSeconds 150) v.conn ∧ ¬ Asks (Duration.ofSeconds 149) v.conn ∧
      v.conn.idle (Duration.ofSeconds 301) = v.conn.pump.finishClose .timeout := by
  intro c v
  have hlinked : Linked c := (isNew_inMemory 1 .client "peer" 0).linked
  have hasked : v.asked = [Duration.ofSeconds 75] := by decide +kernel
  have hexact := keepalive_exact Device.passive hlinked rfl
    [.tick (Duration.ofSeconds 75), .tick (Duration.ofSeconds 100)]
  have hnext := fun now => (hexact.1 rfl now).2 (Duration.ofSeconds 300) rfl
  have hlast : v.asked.getLast? = some (Duration.ofSeconds 75) := by
    rw [hasked]
    rfl
  refine ⟨hlinked, rfl, hasked, ?_, ?_, (hnext _).1 (by decide)⟩
  · have htime : Instant.since (Duration.ofSeconds 150) v.heard ≤ Duration.ofSeconds 300 := by
      decide
    refine ((hnext _).2 htime).2.2.1.2 ⟨by decide, fun last hmem => ?_⟩
    obtain rfl : Duration.ofSeconds 75 = last := Option.some.inj (hlast.symm.trans hmem)
    decide
  · have htime : Instant.since (Duration.ofSeconds 149) v.heard ≤ Duration.ofSeconds 300 := by
      decide
    intro hasks
    have hquarter := ((hnext _).2 htime).2.2.1.1 hasks
    exact absurd (hquarter.2 _ hlast) (by decide)

end Observatory.Connection
