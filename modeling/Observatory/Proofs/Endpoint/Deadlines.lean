import Observatory.Client.Session
import Observatory.Proofs.Endpoint.Export
/-!
# Deadlines that no clock can count to

A deadline is the present instant and a time limit, added up. The clock counts its seconds in a
signed word and a time limit is any number of seconds in an unsigned one, so there are limits that
every check lets pass and that end behind the last instant of the clock: the limit of the children
in the settings, the limit of one child, and the patience of the client.

* `Instant.after?_eq_none_iff`, `Instant.Beyond` — the instants that the clock cannot count to.
* `Endpoint.deadline_iff`, `Endpoint.adopt_overflow_iff` — a child that was started.
* `Client.Session.overflows_start_iff`, `overflows_advance_iff` — a session, and a pass of it.
* `Endpoint.deadline_overflow_iff` — the endpoint and the client.
-/

namespace Observatory

/-! ## Instants -/

namespace Instant

/-- An instant that the clock cannot count to. -/
def Beyond (t : Instant) : Prop := secondsBound ≤ t / 1000000000

theorem after?_eq_none_iff (now : Instant) (d : Duration) :
    after? now d = none ↔ Beyond (now + d) := by
  unfold after? Beyond
  split
  · next h => simpa using h
  · next h => simpa using h

/-- Whole seconds are counted as such. -/
theorem beyond_add_ofSeconds_iff (now : Instant) (n : Nat) :
    Beyond (now + Duration.ofSeconds n) ↔ secondsBound ≤ now / 1000000000 + n := by
  unfold Beyond Duration.ofSeconds
  rw [Nat.add_mul_div_right now n (by decide)]

end Instant

/-! ## Children -/

namespace Endpoint

variable {τ σ ℓ η : Type}

/-- How long a child may run: what it was given, or else what the settings say. -/
def allowance (spec : HelperSpec) (e : Endpoint τ σ ℓ η) : Option Duration :=
  spec.timeout.or ((Settings.limit? e.settings.forkTimeoutS).map Duration.ofSeconds)

theorem timeout_completeSpec (exportState : Bool) (spec : HelperSpec) (e : Endpoint τ σ ℓ η) :
    (e.completeSpec exportState spec).timeout = e.allowance spec := by
  unfold completeSpec allowance
  dsimp only
  cases spec.timeout <;> rfl

/-- There is one reason why a child has no deadline that the clock can count to. -/
theorem deadline_iff (spec : HelperSpec) (now : Instant) :
    (deadline spec now = .error .deadlineOverflow ↔
      ∃ limit, spec.timeout = some limit ∧ Instant.Beyond (now + limit)) ∧
    ((deadline spec now).isOk = true ↔
      ∀ limit, spec.timeout = some limit → ¬ Instant.Beyond (now + limit)) := by
  unfold deadline
  cases spec.timeout with
  | none => simp [Except.isOk, Except.toBool]
  | some limit =>
    have hbeyond := Instant.after?_eq_none_iff now limit
    dsimp only
    cases hafter : Instant.after? now limit with
    | none =>
      have hlimit : Instant.Beyond (now + limit) := hbeyond.1 hafter
      simp [Except.isOk, Except.toBool, hlimit]
    | some deadline =>
      have hlimit : ¬ Instant.Beyond (now + limit) := by simp [← hbeyond, hafter]
      simp [Except.isOk, Except.toBool, hlimit]

theorem adopt_overflow_iff (spec : HelperSpec) (started : Except String (StartedHelper τ))
    (now : Instant) (e : Endpoint τ σ ℓ η) : e.adopt spec started now = .error .deadlineOverflow ↔
      started.isOk = true ∧ deadline spec now = .error .deadlineOverflow := by
  cases started with
  | error reason =>
    have hrefused : e.adopt spec (.error reason) now = .error (.spawn spec.path reason) := rfl
    simp [hrefused, Except.isOk, Except.toBool]
  | ok child =>
    cases hdeadline : deadline spec now with
    | error cause => simp [adopt_of_deadline hdeadline, Except.isOk, Except.toBool]
    | ok limit => simp [adopt_of_deadline_ok hdeadline]

end Endpoint

/-! ## Sessions of the client -/

namespace Client.Session

variable {τ : Type}

/-- Whether the session has ended because its deadline could not be counted to. -/
def Overflows (s : Session τ) : Prop := s.failure? = some (.link .deadlineOverflow)

/-- Where the command is taken in, it is the deadline that decides. -/
theorem overflows_send_iff {s : Session τ} {now : Instant}
    (htaken : ∀ command, ∃ handle, (s.endpoint.queueCommandTo peer command).1 = .ok handle) :
    (s.send now).Overflows ↔ (commandFor s.request.task).isSome = true ∧
      Instant.Beyond (now + s.request.timeout) := by
  rw [← Instant.after?_eq_none_iff]
  unfold Overflows send
  cases commandFor s.request.task with
  | none => simp [fail, failure?]
  | some command =>
    obtain ⟨handle, hresult⟩ := htaken { command with tracked := true }
    dsimp only
    rw [hresult]
    cases Instant.after? now s.request.timeout with
    | none => simp [fail, failure?]
    | some deadline => simp [failure?]

theorem overflows_start_iff (request : Request) (now : Instant) :
    (start request now : Session τ).Overflows ↔ (commandFor request.task).isSome = true ∧
      Instant.Beyond (now + request.timeout) := by
  unfold start
  dsimp only
  split
  · exact overflows_send_iff fun _ => ⟨_, rfl⟩
  · exact overflows_send_iff fun _ => ⟨_, rfl⟩

/-- What follows the command has nothing to do with the clock. -/
theorem not_overflows_finish (T : Transport τ) (s : Session τ) : ¬ (s.finish T).Overflows := by
  simp [Overflows, finish, failure?]

theorem not_overflows_conclude (T : Transport τ) (c : Completion) (s : Session τ) :
    ¬ (s.conclude T c).Overflows := by
  unfold conclude
  split
  · unfold succeed
    split
    · split
      · simp [Overflows, fail, failure?]
      · exact not_overflows_finish T _
    · split
      · exact not_overflows_finish T _
      · exact not_overflows_finish T _
    · exact not_overflows_finish T _
    · exact not_overflows_finish T _
    · simp [Overflows, failure?]
  · exact not_overflows_finish T _

/-- **A pass** neither brings such an end about nor takes it back. -/
theorem overflows_advance_iff (T : Transport τ) (p : Pass τ) (s : Session τ) :
    (s.advance T p).Overflows ↔ s.Overflows := by
  have hgoing {s' : Session τ} (hs' : ¬ s'.Overflows) (hs : ¬ s.Overflows) :
      s'.Overflows ↔ s.Overflows := iff_of_false hs' hs
  unfold advance
  split
  · rfl
  · next deadline hphase =>
    have hs : ¬ s.Overflows := by simp [Overflows, failure?, hphase]
    have hpass : (s.pass T p).1.phase = .waiting deadline := hphase
    split
    · dsimp only
      split
      · exact hgoing (not_overflows_conclude T _ _) hs
      · exact hgoing (by simp [Overflows, failure?, hpass]) hs
    · exact hgoing (by simp [Overflows, fail, failure?]) hs
  · next hphase =>
    have hs : ¬ s.Overflows := by simp [Overflows, failure?, hphase]
    have hpass : (s.pass T p).1.phase = .watching := hphase
    split
    · exact hgoing (by simp [Overflows, failure?, hpass]) hs
    · exact hgoing (not_overflows_finish T _) hs

/-- **A session**, for any number of passes. -/
theorem overflows_passes_iff (T : Transport τ) (passes : List (Pass τ)) (s : Session τ) :
    (passes.foldl (fun s p => s.advance T p) s).Overflows ↔ s.Overflows := by
  induction passes generalizing s with
  | nil => rfl
  | cons p passes ih => exact (ih _).trans (overflows_advance_iff T p s)

end Client.Session

/-- The seconds that the option of the command line takes are those of a word of 64 bits. -/
theorem Client.lt_size_of_seconds {text : String} {n : Nat} (h : Client.seconds? text = some n) :
    n < UInt64.size :=
  of_decide_eq_true (Option.filter_eq_some_iff.1 h).2

namespace Endpoint

open Client (Request Session)

/-- **Deadlines.** A child that was started is lost to a deadline exactly if the time that it may
run, its own limit or else the one of the settings, ends at an instant that the clock cannot count
to; else it is taken in. The limit of the settings is a number of seconds that no check bounds. And
a session of the client, whatever happens in it, ends for such a deadline exactly if it has a
command to send and its timeout, any number of seconds in a word of 64 bits, ends at such an
instant. -/
theorem deadline_overflow_iff {τ σ ℓ η υ : Type} (e : Endpoint τ σ ℓ η) (T : Transport υ) :
    (∀ (start : HelperSpec → Except String (StartedHelper τ)) (exportState : Bool)
      (spec : HelperSpec) (now : Instant),
      (e.spawn start exportState spec now = .error .deadlineOverflow ↔
        (start (e.completeSpec exportState spec)).isOk = true ∧
          ∃ limit, e.allowance spec = some limit ∧ Instant.Beyond (now + limit)) ∧
      ((e.spawn start exportState spec now).isOk = true ↔
        (start (e.completeSpec exportState spec)).isOk = true ∧
          ∀ limit, e.allowance spec = some limit → ¬ Instant.Beyond (now + limit))) ∧
    (∀ (settings : Settings) (n : Nat),
      ({ settings with forkTimeoutS := n } : Settings).validate = settings.validate) ∧
    (∀ (text : String) (n : Nat), Client.seconds? text = some n → n < UInt64.size ∧
      ∀ (request : Request), request.timeout = Duration.ofSeconds n →
        ∀ (now : Instant) (passes : List (Pass υ)),
          (passes.foldl (fun s p => s.advance T p) (Session.start request now)).Overflows ↔
            (Session.commandFor request.task).isSome = true ∧
              Instant.secondsBound ≤ now / 1000000000 + n) := by
  refine ⟨fun start exportState spec now => ?_, fun settings n => rfl, fun text n hseconds =>
    ⟨Client.lt_size_of_seconds hseconds, fun request htimeout now passes => ?_⟩⟩
  · obtain ⟨hoverflow, hcounted⟩ := deadline_iff (e.completeSpec exportState spec) now
    rw [timeout_completeSpec] at hoverflow hcounted
    unfold spawn
    dsimp only
    rw [adopt_overflow_iff, isOk_adopt, Bool.and_eq_true, hoverflow, hcounted]
    exact ⟨Iff.rfl, Iff.rfl⟩
  · rw [Session.overflows_passes_iff, Session.overflows_start_iff, htimeout,
      Instant.beyond_add_ofSeconds_iff]

/-- A minute, for a child as the settings have it and for the client. -/
theorem deadline_overflow_of_minute :
    let e : Endpoint Unit Unit Unit Unit := { settings := { forkTimeoutS := 60 }, device := () }
    let start : HelperSpec → Except String (StartedHelper Unit) := fun _ => .ok ⟨7, (), ()⟩
    let request : Request := ⟨"127.0.0.1", 6170, Duration.ofSeconds 60, false, .values⟩
    (e.spawn start false { name := "dome", path := "/bin/sh" } 0).isOk = true ∧
      Client.seconds? "60" = some 60 ∧
      ∀ passes : List (Pass Wire), ¬ (passes.foldl (fun s p => s.advance Wire.transport p)
        (Session.start request 0)).Overflows := by
  intro e start request
  have hseconds : Client.seconds? "60" = some 60 := by decide +kernel
  obtain ⟨hspawn, -, hsession⟩ := deadline_overflow_iff e Wire.transport
  obtain ⟨-, hoverflows⟩ := hsession _ _ hseconds
  refine ⟨(hspawn start false _ 0).2.2 ⟨rfl, fun limit hlimit => ?_⟩, hseconds, fun passes h => ?_⟩
  · obtain rfl : Duration.ofSeconds 60 = limit := Option.some.inj hlimit
    rw [Instant.beyond_add_ofSeconds_iff]
    decide
  · rw [hoverflows request rfl] at h
    exact absurd h.2 (by decide)

/-- The largest number of seconds passes the checks of the settings and of the command line, and no
clock can count to its end, not even at its own start: the child has been started and is lost, and
the client fails before it waits. -/
theorem deadline_overflow_of_largest :
    let settings : Settings := { forkTimeoutS := 18446744073709551615 }
    let e : Endpoint Unit Unit Unit Unit := { settings, device := () }
    let start : HelperSpec → Except String (StartedHelper Unit) := fun _ => .ok ⟨7, (), ()⟩
    let request : Request :=
      ⟨"127.0.0.1", 6170, Duration.ofSeconds 18446744073709551615, false, .values⟩
    settings.validate = .ok () ∧
      (e.spawn start false { name := "dome", path := "/bin/sh" } 0).map Prod.fst =
        .error .deadlineOverflow ∧
      Client.seconds? "18446744073709551615" = some 18446744073709551615 ∧
      (Session.start request 0 : Client.Session Unit).failure? =
        some (.link .deadlineOverflow) := by
  decide +kernel

end Endpoint

end Observatory
