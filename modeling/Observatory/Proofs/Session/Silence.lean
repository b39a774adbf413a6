import Mathlib.Data.Prod.Lex
import Observatory.Proofs.Connection.Exchange
import Observatory.Proofs.Record.Ahead
/-!
# Sessions fall silent

Two connections are left to each other: their bytes arrive in any order and in chunks of any size,
but nobody queues commands, and no time passes. Whatever was on its way at the beginning, this comes
to an end. A line is answered only if it is a request, a ping, or a reply that releases a command.
Replies release no more commands than wait, no answer provokes anything, and between two answers
bytes only get on.

* `Session.Delivers` — some bytes get on, and lines are answered.
* `Session.weight`, `Session.Delivers.descends` — what every delivery takes something of.
* `session_falls_silent` — every schedule.
-/

namespace Observatory

open Connection (Exchange)
open Framing (aheadOf stream)

namespace Session

variable {τ : Type}

/-! ## Deliveries -/

/-- The lines that a side handles when a chunk arrives. -/
def answers {σ : Type} (x : Side) (dev : Device σ) (own : Local σ) (now : Instant) (size : Nat)
    (s : Session τ) : List Exchange :=
  Connection.answered dev now ((s.channel x.other).take size) ⟨s.conn x, own⟩

/-- Bytes of a side get on, at least one of them, with the lines that are handled. What an endpoint
lends to a connection when a chunk arrives may be anything. -/
inductive Delivers : Session τ → List Exchange → Session τ → Prop
  | carry {s : Session τ} (x : Side) {count : Nat} (hcount : 0 < count)
    (houtput : (s.conn x).output ≠ []) : Delivers s [] (s.carry x count)
  | receive {s : Session τ} (x : Side) {σ : Type} (dev : Device σ) (own : Local σ) (now : Instant)
    {size : Nat} (hsize : 0 < size) (hchannel : s.channel x.other ≠ []) :
    Delivers s (s.answers x dev own now size) (s.receive x dev own now size)

/-- One delivery after another. -/
inductive DeliversAll : Session τ → List Exchange → Session τ → Prop
  | nil {s : Session τ} : DeliversAll s [] s
  | cons {s s' s'' : Session τ} {log more : List Exchange} (h : Delivers s log s')
    (ht : DeliversAll s' more s'') : DeliversAll s (log ++ more) s''

/-- Nothing is on its way. -/
def IsSilent (s : Session τ) : Prop := ∀ x, s.channel x = [] ∧ (s.conn x).output = []

theorem IsSilent.no_delivery {s s' : Session τ} {log : List Exchange} (hsilent : s.IsSilent)
    (h : Delivers s log s') : False := by
  cases h with
  | carry x _ houtput => exact houtput (hsilent x).2
  | receive x _ _ _ _ hchannel => exact hchannel (hsilent x.other).1

/-! ## What is left to do -/

/-- The sum over both sides. -/
def both (f : Side → Nat) : Nat := f .near + f .far

theorem both_eq (f : Side → Nat) (x : Side) : both f = f x + f x.other := by
  cases x with
  | near => rfl
  | far => exact Nat.add_comm _ _

/-- How many commands replies can still release. -/
def due (s : Session τ) : Nat := both fun x => (s.conn x).due

/-- How many lines that provoke something lie ahead of a side at most. -/
def provocations (s : Session τ) (x : Side) : Nat :=
  aheadOf isProvoking (s.conn x).input (s.channel x.other ++ (s.conn x.other).output)

/-- The way that the bytes of a side still have to go. -/
def way (s : Session τ) (x : Side) : Nat := 2 * (s.conn x).output.length + (s.channel x).length

/-- What is left to do. -/
def weight (s : Session τ) : Nat ×ₗ Nat ×ₗ Nat :=
  toLex (s.due, toLex (both s.provocations, both s.way))

theorem weight_lt_of_due {s s' : Session τ} (h : s'.due < s.due) : s'.weight < s.weight :=
  Prod.Lex.toLex_lt_toLex.2 (.inl h)

theorem weight_lt_of_provocations {s s' : Session τ} (hdue : s'.due ≤ s.due)
    (h : both s'.provocations < both s.provocations) : s'.weight < s.weight := by
  rcases Nat.lt_or_eq_of_le hdue with hlt | heq
  · exact weight_lt_of_due hlt
  · exact Prod.Lex.toLex_lt_toLex.2 (.inr ⟨heq, Prod.Lex.toLex_lt_toLex.2 (.inl h)⟩)

theorem weight_lt_of_way {s s' : Session τ} (hdue : s'.due ≤ s.due)
    (hprovocations : both s'.provocations ≤ both s.provocations)
    (h : both s'.way < both s.way) : s'.weight < s.weight := by
  rcases Nat.lt_or_eq_of_le hprovocations with hlt | heq
  · exact weight_lt_of_provocations hdue hlt
  · rcases Nat.lt_or_eq_of_le hdue with hlt | hsame
    · exact weight_lt_of_due hlt
    · exact Prod.Lex.toLex_lt_toLex.2
        (.inr ⟨hsame, Prod.Lex.toLex_lt_toLex.2 (.inr ⟨heq, h⟩)⟩)

/-! ## Bytes leave an output -/

theorem carry_frame (s : Session τ) (x : Side) (count : Nat) :
    (s.carry x count).conn x = { s.conn x with output := (s.conn x).output.drop count } ∧
      (s.carry x count).conn x.other = s.conn x.other ∧
      (s.carry x count).channel x = s.channel x ++ (s.conn x).output.take count ∧
      (s.carry x count).channel x.other = s.channel x.other :=
  ⟨Function.update_self _ _ _, Function.update_of_ne (by simp) _ _, Function.update_self _ _ _,
    Function.update_of_ne (by simp) _ _⟩

/-- **Bytes that leave an output** have the rest of their way to go, and nothing else changes. -/
theorem weight_carry {s : Session τ} (x : Side) {count : Nat} (hcount : 0 < count)
    (houtput : (s.conn x).output ≠ []) :
    (s.carry x count).due = s.due ∧ (s.carry x count).weight < s.weight := by
  obtain ⟨hconn, hconn', hchannel, hchannel'⟩ := carry_frame s x count
  have hdue : (s.carry x count).due = s.due := by
    unfold due
    rw [both_eq _ x, both_eq _ x, hconn, hconn']
    rfl
  have hprovocations : both (s.carry x count).provocations = both s.provocations := by
    rw [both_eq _ x, both_eq _ x]
    unfold provocations
    rw [Side.other_other, hconn, hconn', hchannel, hchannel', List.append_assoc,
      List.take_append_drop]
  have hpos := List.length_pos_iff.2 houtput
  have hway : both (s.carry x count).way < both s.way := by
    rw [both_eq _ x, both_eq _ x]
    unfold way
    rw [hconn, hconn', hchannel, hchannel', List.length_append, List.length_take, List.length_drop]
    omega
  exact ⟨hdue, weight_lt_of_way (Nat.le_of_eq hdue) (Nat.le_of_eq hprovocations) hway⟩

/-! ## A chunk arrives -/

theorem receive_frame {σ : Type} (s : Session τ) (x : Side) (dev : Device σ) (own : Local σ)
    (now : Instant) (size : Nat) :
    (s.receive x dev own now size).conn x = (Connection.receive dev now
        ((s.channel x.other).take size) ⟨s.conn x, own⟩).conn ∧
      (s.receive x dev own now size).conn x.other = s.conn x.other ∧
      (s.receive x dev own now size).channel x = s.channel x ∧
      (s.receive x dev own now size).channel x.other = (s.channel x.other).drop size :=
  ⟨Function.update_self _ _ _, Function.update_of_ne (by simp) _ _,
    Function.update_of_ne (by simp) _ _, Function.update_self _ _ _⟩

/-- What a chunk makes of the side that it arrives at. -/
theorem exchanged_receive {σ : Type} (s : Session τ) (x : Side) (dev : Device σ) (own : Local σ)
    (now : Instant) (size : Nat) :
    Connection.Exchanged
      { s.conn x with
        lastActivity := now, lastKeepalive := none
        input := ((s.conn x).input.push ((s.channel x.other).take size)).2 }
      (s.answers x dev own now size) ((s.receive x dev own now size).conn x) := by
  rw [(receive_frame s x dev own now size).1]
  exact Connection.exchanged_receive dev now _ ⟨s.conn x, own⟩

/-- A reply on which no command is released has nothing written on it. -/
theorem written_of_isReply {log : List Exchange} (hnone : log.countP Exchange.releases = 0)
    {e : Exchange} (he : e ∈ log) (hreply : e.isReply = true) : e.written = [] := by
  have hno := List.countP_eq_zero.1 hnone e he
  simpa [Exchange.releases, hreply] using hno

/-- **Where no command is released**, mute lines are written. -/
theorem mute_of_no_release {log : List Exchange} (hproper : ∀ e ∈ log, e.Proper)
    (hnone : log.countP Exchange.releases = 0) :
    ∃ records : List Record, log.flatMap Exchange.written = recordBytes records ∧
      ∀ r ∈ records, r.IsMute := by
  have hreply (e : Exchange) (he : e ∈ log) := written_of_isReply hnone he
  clear hnone
  induction log with
  | nil => exact ⟨[], rfl, by simp⟩
  | cons e log ih =>
    obtain ⟨records, hrecords, hmute⟩ := ih (fun e he => hproper e (List.mem_cons_of_mem _ he))
      fun e he => hreply e (List.mem_cons_of_mem _ he)
    have hfirst : ∃ first : List Record, e.written = recordBytes first ∧
        ∀ r ∈ first, r.IsMute := by
      cases hisReply : e.isReply with
      | true => exact ⟨[], hreply e List.mem_cons_self hisReply, by simp⟩
      | false => exact (hproper e List.mem_cons_self).mute hisReply
    obtain ⟨first, hfirst, hmute'⟩ := hfirst
    refine ⟨first ++ records, ?_, fun r hr => ?_⟩
    · rw [List.flatMap_cons, hfirst, hrecords, recordBytes_append]
    · rcases List.mem_append.1 hr with hr | hr
      · exact hmute' r hr
      · exact hmute r hr

/-- Where no command is released and something is written, something provoked it. -/
theorem provoked_of_no_release {log : List Exchange} (hproper : ∀ e ∈ log, e.Proper)
    (hnone : log.countP Exchange.releases = 0) (hwritten : log.flatMap Exchange.written ≠ []) :
    ∃ e ∈ log, Framing.Frame.isProvoking e.frame = true := by
  obtain ⟨b, hb⟩ := List.exists_mem_of_ne_nil _ hwritten
  obtain ⟨e, hmem, hbyte⟩ := List.mem_flatMap.1 hb
  have he : e.written ≠ [] := List.ne_nil_of_mem hbyte
  have hisReply : e.isReply = false := by
    rw [← Bool.not_eq_true]
    exact fun h => he (written_of_isReply hnone hmem h)
  refine ⟨e, hmem, ?_⟩
  rw [← Bool.not_eq_false]
  exact fun h => he ((hproper e hmem).quiet hisReply h)

/-- The frames that a chunk is cut into come out of what lies ahead of the side. -/
theorem provocations_receive_self {σ : Type} (s : Session τ) (x : Side) (dev : Device σ)
    (own : Local σ) (now : Instant) (size : Nat) :
    ((s.conn x).input.push ((s.channel x.other).take size)).1.countP Framing.Frame.isProvoking +
      (s.receive x dev own now size).provocations x ≤ s.provocations x := by
  obtain ⟨-, hconn', -, hchannel'⟩ := receive_frame s x dev own now size
  unfold provocations
  rw [(exchanged_receive s x dev own now size).input, hconn', hchannel']
  refine Nat.le_trans (Framing.aheadOf_push_le isProvoking_of_frameOf (fun _ => rfl) _) ?_
  rw [← List.append_assoc, List.take_append_drop]

/-- Mute lines add nothing to what lies ahead of the other side. -/
theorem provocations_receive_other {σ : Type} {s : Session τ} {x : Side} {dev : Device σ}
    {own : Local σ} {now : Instant} {size : Nat} {records : List Record}
    (hrecords : (s.answers x dev own now size).flatMap Exchange.written = recordBytes records)
    (hmute : ∀ r ∈ records, r.IsMute) :
    (s.receive x dev own now size).provocations x.other ≤ s.provocations x.other := by
  obtain ⟨-, hconn', hchannel, -⟩ := receive_frame s x dev own now size
  unfold provocations
  rw [Side.other_other, hconn', hchannel, (exchanged_receive s x dev own now size).output,
    hrecords, ← List.append_assoc]
  refine Framing.aheadOf_append_le (fun l hl => ?_) fun l hl => ?_
  · obtain ⟨r, hr, rfl⟩ := List.mem_map.1 hl
    exact (hmute r hr).isPlain.oneLine.lineFeed_not_mem_encode
  · obtain ⟨r, hr, rfl⟩ := List.mem_map.1 hl
    exact (hmute r hr).not_provoking

/-- Every command that is released was due. -/
theorem due_receive {σ : Type} (s : Session τ) (x : Side) (dev : Device σ) (own : Local σ)
    (now : Instant) (size : Nat) : (s.receive x dev own now size).due +
      (s.answers x dev own now size).countP Exchange.releases ≤ s.due := by
  have hside : ((s.receive x dev own now size).conn x).due +
      (s.answers x dev own now size).countP Exchange.releases ≤ (s.conn x).due :=
    (exchanged_receive s x dev own now size).due
  unfold due
  rw [both_eq _ x, both_eq _ x, (receive_frame s x dev own now size).2.1]
  omega

/-- Where nothing is written, the bytes that were read are gone. -/
theorem way_receive {σ : Type} {s : Session τ} {x : Side} {dev : Device σ} {own : Local σ}
    {now : Instant} {size : Nat} (hsize : 0 < size) (hchannel : s.channel x.other ≠ [])
    (hwritten : (s.answers x dev own now size).flatMap Exchange.written = []) :
    both (s.receive x dev own now size).way < both s.way := by
  obtain ⟨-, hconn', hchannel', hchannel''⟩ := receive_frame s x dev own now size
  have hpos := List.length_pos_iff.2 hchannel
  rw [both_eq _ x, both_eq _ x]
  unfold way
  rw [(exchanged_receive s x dev own now size).output, hwritten, List.append_nil, hconn',
    hchannel', hchannel'', List.length_drop]
  show 2 * (s.conn x).output.length + _ + _ < _
  omega

/-- **A chunk that arrives** takes something of what is left to do: a command is released, or
something that provokes is answered with what does not, or nothing is written. -/
theorem weight_receive {σ : Type} {s : Session τ} (x : Side) (dev : Device σ) (own : Local σ)
    (now : Instant) {size : Nat} (hsize : 0 < size) (hchannel : s.channel x.other ≠ []) :
    (s.receive x dev own now size).weight < s.weight := by
  have hdue := due_receive s x dev own now size
  have hproper := (exchanged_receive s x dev own now size).proper
  by_cases hreleases : (s.answers x dev own now size).countP Exchange.releases = 0
  · obtain ⟨records, hrecords, hmute⟩ := mute_of_no_release hproper hreleases
    have hself := provocations_receive_self s x dev own now size
    have hother := provocations_receive_other hrecords hmute
    by_cases hwritten : (s.answers x dev own now size).flatMap Exchange.written = []
    · refine weight_lt_of_way (by omega) ?_ (way_receive hsize hchannel hwritten)
      rw [both_eq _ x, both_eq _ x]
      omega
    · obtain ⟨e, he, hprovoking⟩ := provoked_of_no_release hproper hreleases hwritten
      have hframe : 0 < ((s.conn x).input.push ((s.channel x.other).take size)).1.countP
          Framing.Frame.isProvoking :=
        List.countP_pos_iff.2 ⟨e.frame, Connection.frame_mem_of_mem_exchanges he, hprovoking⟩
      refine weight_lt_of_provocations (by omega) ?_
      rw [both_eq _ x, both_eq _ x]
      omega
  · exact weight_lt_of_due (by omega)

/-! ## Schedules -/

/-- **One delivery** takes something of what is left to do. -/
theorem Delivers.descends {s s' : Session τ} {log : List Exchange} (h : Delivers s log s') :
    s'.due + log.countP Exchange.releases ≤ s.due ∧ s'.weight < s.weight := by
  cases h with
  | carry x hcount houtput =>
    obtain ⟨hdue, hweight⟩ := weight_carry x hcount houtput
    exact ⟨Nat.le_of_eq hdue, hweight⟩
  | receive x dev own now hsize hchannel =>
    exact ⟨due_receive _ x dev own now _, weight_receive x dev own now hsize hchannel⟩

theorem Delivers.proper {s s' : Session τ} {log : List Exchange} (h : Delivers s log s') :
    ∀ e ∈ log, e.Proper := by
  cases h with
  | carry x hcount houtput => simp
  | receive x dev own now hsize hchannel => exact (exchanged_receive _ x dev own now _).proper

/-- **Every run of deliveries.** -/
theorem DeliversAll.spec {s s' : Session τ} {log : List Exchange} (h : DeliversAll s log s') :
    s'.due + log.countP Exchange.releases ≤ s.due ∧ ∀ e ∈ log, e.Proper := by
  induction h with
  | nil => exact ⟨Nat.le_refl _, by simp⟩
  | cons hfirst _ ih =>
    obtain ⟨hrest, hproper⟩ := ih
    have hone := hfirst.descends.1
    rw [List.countP_append]
    refine ⟨by omega, fun e he => ?_⟩
    rcases List.mem_append.1 he with he | he
    · exact hfirst.proper e he
    · exact hproper e he

/-- A schedule delivers something at any moment, as long as anything is on its way. -/
def IsSchedule (f : Nat → Session τ) : Prop :=
  ∀ n, (f n).IsSilent ∧ f (n + 1) = f n ∨ ∃ log, Delivers (f n) log (f (n + 1))

theorem exists_delivery {s : Session τ} (h : ¬ s.IsSilent) : ∃ log s', Delivers s log s' := by
  obtain ⟨x, hx⟩ := not_forall.1 h
  by_cases houtput : (s.conn x).output = []
  · have hchannel : s.channel x.other.other ≠ [] := by
      rw [Side.other_other]
      exact fun hempty => hx ⟨hempty, houtput⟩
    exact ⟨_, _, .receive x.other Device.passive ⟨{}, ()⟩ 0 Nat.one_pos hchannel⟩
  · exact ⟨_, _, .carry x Nat.one_pos houtput⟩

/-- There are schedules from anywhere. -/
theorem exists_schedule (s : Session τ) : ∃ f : Nat → Session τ, f 0 = s ∧ IsSchedule f := by
  have hnext (s : Session τ) : ∃ s', s.IsSilent ∧ s' = s ∨ ∃ log, Delivers s log s' := by
    by_cases hsilent : s.IsSilent
    · exact ⟨s, .inl ⟨hsilent, rfl⟩⟩
    · obtain ⟨log, s', hdelivers⟩ := exists_delivery hsilent
      exact ⟨s', .inr ⟨log, hdelivers⟩⟩
  choose next hnext using hnext
  refine ⟨fun n => next^[n] s, rfl, fun n => ?_⟩
  simp only [Function.iterate_succ_apply']
  exact hnext _

/-- **Every schedule** falls silent, by induction on what is left to do. -/
theorem IsSchedule.silent {f : Nat → Session τ} (h : IsSchedule f) (n : Nat) :
    ∃ m, n ≤ m ∧ (f m).IsSilent := by
  induction hweight : (f n).weight using WellFoundedLT.induction generalizing n with
  | ind w ih =>
    subst hweight
    rcases h n with ⟨hsilent, -⟩ | ⟨log, hdelivers⟩
    · exact ⟨n, Nat.le_refl n, hsilent⟩
    · obtain ⟨m, hm, hsilent⟩ := ih _ hdelivers.descends.2 (n + 1) rfl
      exact ⟨m, Nat.le_of_succ_le hm, hsilent⟩

/-- Once silent, a schedule stays so. -/
theorem IsSchedule.stays {f : Nat → Session τ} (h : IsSchedule f) {n : Nat}
    (hsilent : (f n).IsSilent) {m : Nat} (hm : n ≤ m) : f m = f n := by
  induction m, hm using Nat.le_induction with
  | base => rfl
  | succ m _ ih =>
    rcases h m with ⟨-, hsame⟩ | ⟨log, hdelivers⟩
    · exact hsame.trans ih
    · rw [ih] at hdelivers
      exact (hsilent.no_delivery hdelivers).elim

end Session

open Session (IsSchedule DeliversAll)

/-- **Two connections that are left to each other fall silent**, whatever their queues hold,
whatever is on its way between them, and whatever their endpoints make of requests. There are
schedules of deliveries from anywhere, and each of them comes to a state in which nothing is on its
way, and stays in it. Up to any moment no more commands are written than waited at the beginning. A
ping is answered by one pong, and a pong by nothing; on a reply nothing is written but the next
command, if there is one, and that is no reply; and on everything else no command is written, and
nothing that provokes. -/
theorem session_falls_silent {τ : Type} (s : Session τ) :
    (∃ f : Nat → Session τ, f 0 = s ∧ IsSchedule f) ∧
    (∀ f : Nat → Session τ, f 0 = s → IsSchedule f →
      ∃ n, (∀ x, (f n).channel x = [] ∧ ((f n).conn x).output = []) ∧ ∀ m, n ≤ m → f m = f n) ∧
    ∀ log s', DeliversAll s log s' →
      log.countP Exchange.releases ≤
        (s.conn .near).queue.waiting.length + (s.conn .far).queue.waiting.length ∧
      ∀ e ∈ log,
        (e.record? = some (.technical "ready") → e.written = recordBytes [.technical "OK"]) ∧
        (∀ text, text ≠ "ready" → e.record? = some (.technical text) → e.written = []) ∧
        (∀ code reason, e.record? = some (.reply code reason) → e.written = [] ∨
          ∃ q ∈ e.waiting.head?, e.written = lineBytes q.command.encode ++ [lineFeed] ∧
            (Record.IsOpcode q.command.opcode →
              (readLine (lineBytes q.command.encode)).any Record.isReply = false)) ∧
        ((∀ code reason, e.record? ≠ some (.reply code reason)) →
          ∃ records : List Record, e.written = recordBytes records ∧ ∀ r ∈ records, r.IsMute) := by
  refine ⟨Session.exists_schedule s, fun f _ hschedule => ?_, fun log s' hrun => ?_⟩
  · obtain ⟨n, -, hsilent⟩ := hschedule.silent 0
    exact ⟨n, hsilent, fun m hm => hschedule.stays hsilent hm⟩
  · obtain ⟨hdue, hproper⟩ := hrun.spec
    have hnear := (s.conn .near).due_le
    have hfar := (s.conn .far).due_le
    have hboth : s.due = (s.conn .near).due + (s.conn .far).due := rfl
    refine ⟨by omega, fun e he => ?_⟩
    refine ⟨fun hping => ?_, fun text htext hr => ?_, fun code reason hr => ?_, fun hno => ?_⟩
    · exact (hproper e he).ping (by rw [hping]; decide)
    · refine (hproper e he).quiet ?_ ?_
      · rw [Exchange.isReply, hr]
        rfl
      · rw [hr]
        simpa [Record.provokes, Record.isRequest, Record.isPing] using htext
    · rcases (hproper e he).reply (by rw [Exchange.isReply, hr]; rfl) with hnone | ⟨q, hq, hline⟩
      · exact .inl hnone
      · exact .inr ⟨q, hq, hline, fun hopcode => Parcel.isReply_command hopcode none⟩
    · refine (hproper e he).mute ?_
      unfold Exchange.isReply
      cases hr : e.record? with
      | none => rfl
      | some r =>
        cases r with
        | reply code reason => exact absurd hr (hno code reason)
        | _ => rfl

end Observatory
