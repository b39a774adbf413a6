import Observatory.Proofs.Connection.Rulings
import Observatory.Proofs.Connection.Shorthand
import Observatory.Proofs.Focuser.Arrival
import Observatory.Proofs.Number.Sums
/-!
# The target of the focuser

A request to change the target is turned down if the target would lie outside of the travel. What is
no number lies neither below nor above anything, so it is not turned down; for everything else the
target stays in the travel.

* `Focuser.asked?`, `Focuser.operand?` — what a record asks for.
* `Focuser.dispatch_asked` — what becomes of a request about the target.
* `Focuser.aims_dispatch` — where the target is after one record, whatever it is.
* `Focuser.target_kept` — every run of the daemon.
-/

namespace Observatory.Focuser

open Daemon (Host)
open Happening (run heardDuring)
open Number (Within IsFinite ofInt)
open Scalar (combine)

variable {τ : Type}

/-! ## What is asked for -/

/-- The change of the target that a record asks for: the operator and the text behind it. -/
def asked? : Record → Option (Operator × String)
  | .set name op text => if name = targetName then some (op, text) else none
  | .command opcode params => if opcode = targetName then some (.assign, params) else none
  | _ => none

/-- The number that a text stands for: one token and nothing else. -/
def operand (text : String) : Except ParseError Float := do
  let (x, rest) ← Token.nextAs Token.toDouble text.toList
  Token.finish rest
  return x

def operand? (text : String) : Option Float := (operand text).toOption

/-- A record that asks for what is no number. -/
def AsksForNaN (r : Record) : Prop :=
  ∃ op text y, asked? r = some (op, text) ∧ operand? text = some y ∧ y.isNaN = true

/-- The target that the values hold. -/
def aim? (r : Registry) : Option Float := (r.get? targetName).bind Value.asDouble?

theorem Holds.aim?_eq {p : Int32} {x : Float} {r : Registry} (h : Holds p x r) :
    aim? r = some x := by
  obtain ⟨v, hv, hcontents⟩ := h.target
  simp only [aim?, hv, Option.bind_some, Value.asDouble?, hcontents, Scalar.asDouble?]

/-- Contents that are a double are read as one. -/
theorem parse_double (x : Float) (text : String) :
    (Contents.scalar (.double x)).parse text.toList =
      (fun y => Contents.scalar (.double y)) <$> operand text := by
  show (Token.nextAs (fun token => Scalar.double <$> Token.toDouble token) text.toList >>= _) = _
  unfold operand Token.nextAs
  simp only [bind, Except.bind, pure, Except.pure, Functor.map, Except.map]
  cases Token.next text.toList with
  | error e => rfl
  | ok read =>
    cases hy : Token.toDouble read.1 with
    | error e => simp only [hy]
    | ok y => cases hrest : Token.finish read.2 <;> simp only [hy, hrest]

/-- **The change of a double** that a text asks for. -/
theorem applyText_double {v : Value} {x : Float} (hv : v.contents = .scalar (.double x))
    (op : Operator) (text : String) :
    (∀ y, operand? text = some y →
      v.applyText op text = .ok (v.withContents (.scalar (.double (combine op x y))))) ∧
    (operand? text = none → ∃ e, v.applyText op text = .error (.parse e)) := by
  have hparse := parse_double x text
  have hshape : Value.operandShape (.scalar (.double x)) = .scalar (.double x) := rfl
  unfold Value.applyText Value.set Value.apply operand?
  rw [hv]
  cases hread : operand text with
  | error e =>
    rw [hread] at hparse
    refine ⟨fun y hy => (by cases hy), fun _ => ⟨e, ?_⟩⟩
    by_cases hop : op = .assign
    · rw [if_pos hop, hparse]
      rfl
    · rw [if_neg hop, hshape, hparse]
      rfl
  | ok y =>
    rw [hread] at hparse
    refine ⟨fun z hz => ?_, fun hnone => (by cases hnone)⟩
    obtain rfl : y = z := Option.some.inj hz
    by_cases hop : op = .assign
    · rw [if_pos hop, hparse, hop]
      rfl
    · rw [if_neg hop, hshape, hparse]
      rfl

/-! ## One record -/

/-- The values of a focuser: where it is, where it is to go, and that clients may change that. -/
structure Aims (p : Int32) (x : Float) (own : Local Focuser) : Prop where
  holds : Holds p x own.values
  writable : ∀ v, own.values.get? targetName = some v → v.flags.writable = true

theorem Aims.swept {p : Int32} {x : Float} {own : Local Focuser} (h : Aims p x own) :
    Aims p x { own with values := own.values.clearDirty } := by
  refine ⟨h.holds.clearDirty, fun v hv => ?_⟩
  rw [Registry.get?_clearDirty] at hv
  obtain ⟨w, hw, rfl⟩ := Option.map_eq_some_iff.1 hv
  exact h.writable w hw

/-- Another target in the place of the one that is held. -/
theorem Aims.put_target {p : Int32} {x y : Float} {own : Local Focuser} (h : Aims p x own)
    {v : Value} (hv : own.values.get? targetName = some v) (device : Focuser) :
    Aims p y ⟨own.values.put targetName (v.withContents (.scalar (.double y))), device⟩ := by
  have hname : (v.withContents (.scalar (.double y))).name = targetName :=
    (Registry.mem_of_get? hv).2
  refine ⟨h.holds.put_target hname rfl, fun w hw => ?_⟩
  have hput := Registry.find?_replaceFirst hname hv
  obtain rfl : v.withContents (.scalar (.double y)) = w := Option.some.inj (hput.symm.trans hw)
  exact h.writable v hv

section

variable {p : Int32} {x : Float} {t : Turn τ Focuser}

/-- The back end looks at nothing but the bounds of the travel. -/
theorem setValue_target {old new : Value} {y : Float} (hold : old.name = targetName)
    (hnew : new.contents = .scalar (.double y)) (s : Focuser) :
    (isOutside y = true → ∃ reason, setValue old new s = (.error reason, s)) ∧
    (isOutside y = false → setValue old new s = (.ok (), s)) := by
  have hdouble : new.asDouble?.getD 0.0 = y := by
    unfold Value.asDouble?
    rw [hnew]
    rfl
  unfold setValue
  rw [hdouble]
  constructor
  · intro hout
    exact ⟨_, if_pos (by simp [hold, hout])⟩
  · intro hin
    exact if_neg (by simp [hin])

/-- **A request to change the target** is turned down if its text is no operand, or if the target
would lie outside of the travel. Otherwise the target is changed. -/
theorem receiveSet_target (h : Aims p x t.own) (op : Operator) (text : String) :
    let t' := (Connection.receiveSet device targetName op text t).1
    (operand? text = none → ∃ reason, t' = t.reply (-3) reason) ∧
    ∀ y, operand? text = some y →
      (isOutside (combine op x y) = true → ∃ reason, t' = t.reply (-1) reason) ∧
      (isOutside (combine op x y) = false →
        t'.conn = (t.conn.sendReply 0 "OK").emit (.valueSet t.conn.id targetName) ∧
          Aims p (combine op x y) t'.own) := by
  obtain ⟨v, hv, hcontents⟩ := h.holds.target
  have hname : v.name = targetName := (Registry.mem_of_get? hv).2
  have hwritable : v.flags.writable = true := h.writable v hv
  obtain ⟨hok, herror⟩ := applyText_double hcontents op text
  unfold Connection.receiveSet
  simp only [hv, hwritable, Bool.not_true, Bool.false_eq_true, if_false]
  refine ⟨fun hnone => ?_, fun y hy => ?_⟩
  · obtain ⟨e, he⟩ := herror hnone
    rw [he]
    exact ⟨_, rfl⟩
  · have hverdict := @setValue_target v (v.withContents (.scalar (.double (combine op x y))))
      (combine op x y) hname rfl t.own.device
    rw [hok y hy]
    refine ⟨fun hout => ?_, fun hin => ?_⟩
    · obtain ⟨reason, hreason⟩ := hverdict.1 hout
      show ∃ reason, _ = t.reply (-1) reason
      simp only [device, hreason]
      exact ⟨_, rfl⟩
    · have haccepted := hverdict.2 hin
      simp only [device, haccepted]
      exact ⟨rfl, h.put_target hv t.own.device⟩

/-- A request to change another value leaves the target alone. -/
theorem aims_receiveSet_other (h : Aims p x t.own) {name : String} (hother : name ≠ targetName)
    (op : Operator) (text : String) :
    Aims p x (Connection.receiveSet device name op text t).1.own := by
  have hruled := Connection.ruled_receiveSet device name op text t
  generalize Connection.receiveSet device name op text t = result at hruled ⊢
  cases hruled with
  | impossible e _ _ => exact h
  | misspelt _ => exact h
  | vetoed _ _ => exact ⟨h.holds, h.writable⟩
  | @granted current updated hproposes _ =>
    obtain ⟨u, hu, -, hprotected⟩ := h.holds.position
    have hname : updated.name = name :=
      (Value.name_of_applyText hproposes.applied).trans (Registry.mem_of_get? hproposes.found).2
    have hposition : name ≠ positionName := by
      rintro rfl
      obtain rfl : u = current := Option.some.inj (hu.symm.trans hproposes.found)
      rw [hproposes.writable] at hprotected
      cases hprotected
    refine ⟨h.holds.put_other hname hposition hother, fun v hv => h.writable v ?_⟩
    rw [← hv]
    exact (Registry.find?_replaceFirst_of_ne (Ne.symm hother) hname t.own.values.values).symm

/-- **A command** of the back end sends the focuser home, or stops it where it is. -/
theorem aims_command (h : Aims p x t.own) (opcode params : String) :
    ∃ x', (x' = x ∨ x' = 0.0 ∨ x' = ofInt p.toInt) ∧
      Aims p x' ⟨(command opcode params t.own.values t.own.device).2.1,
        (command opcode params t.own.values t.own.device).2.2⟩ := by
  obtain ⟨u, hu, hposition, -⟩ := h.holds.position
  obtain ⟨w, hw, hcontents⟩ := h.holds.target
  unfold command
  split
  · -- home
    rw [hw]
    dsimp only
    rw [assignDouble_eq hcontents]
    exact ⟨0.0, .inr (.inl rfl), h.put_target hw t.own.device⟩
  · -- stop
    have hplace : ((t.own.values.get? positionName).bind Value.asDouble?).getD 0.0 =
        ofInt p.toInt := by
      rw [hu, Option.bind_some]
      unfold Value.asDouble?
      rw [hposition]
      rfl
    dsimp only
    rw [hplace]
    unfold Registry.update
    rw [hw]
    dsimp only
    rw [assignDouble_eq hcontents]
    exact ⟨ofInt p.toInt, .inr (.inr rfl), h.put_target hw t.own.device⟩
  · exact ⟨x, .inl rfl, h⟩

/-- The target is where it was, at home, or where the focuser is, or a record asked for it and it
does not lie outside of the travel. -/
def MayAim (p : Int32) (x : Float) (r : Record) (x' : Float) : Prop :=
  (x' = x ∨ x' = 0.0 ∨ x' = ofInt p.toInt) ∨ ∃ op text y, asked? r = some (op, text) ∧
    operand? text = some y ∧ x' = combine op x y ∧ isOutside x' = false

theorem aims_receiveSet_target (h : Aims p x t.own) {r : Record} {op : Operator} {text : String}
    (hr : asked? r = some (op, text)) : ∃ x', MayAim p x r x' ∧
      Aims p x' (Connection.receiveSet device targetName op text t).1.own := by
  obtain ⟨hnone, hsome⟩ := receiveSet_target h op text
  cases hoperand : operand? text with
  | none =>
    obtain ⟨reason, heq⟩ := hnone hoperand
    exact ⟨x, .inl (.inl rfl), heq ▸ h⟩
  | some y =>
    obtain ⟨hout, hin⟩ := hsome y hoperand
    cases houtside : isOutside (combine op x y) with
    | true =>
      obtain ⟨reason, heq⟩ := hout houtside
      exact ⟨x, .inl (.inl rfl), heq ▸ h⟩
    | false => exact ⟨_, .inr ⟨op, text, y, hr, hoperand, rfl, houtside⟩, (hin houtside).2⟩

/-- **One record**, whatever it is. -/
theorem aims_dispatch (h : Aims p x t.own) (r : Record) :
    ∃ x', MayAim p x r x' ∧ Aims p x' (Connection.dispatch device r t).1.own := by
  have hsame : MayAim p x r x := .inl (.inl rfl)
  cases r with
  | set name op text =>
    by_cases htarget : name = targetName
    · subst htarget
      exact aims_receiveSet_target h (by simp [asked?])
    · exact ⟨x, hsame, aims_receiveSet_other h htarget op text⟩
  | command opcode params =>
    show ∃ x', _ ∧ Aims p x' (Connection.receiveCommand device opcode params t).1.own
    unfold Connection.receiveCommand
    split
    · refine ⟨x, hsame, ?_⟩
      unfold Connection.receiveInfo
      dsimp only
      split <;> exact ⟨h.holds, h.writable⟩
    · split
      · by_cases htarget : opcode = targetName
        · subst htarget
          exact aims_receiveSet_target h (by simp [asked?])
        · exact ⟨x, hsame, aims_receiveSet_other h htarget .assign params⟩
      · obtain ⟨x', hx', haims⟩ := aims_command h opcode params
        refine ⟨x', .inl hx', ?_⟩
        dsimp only
        split <;> exact haims
  | _ => exact ⟨x, hsame, h⟩

/-- A record that asks for a change of the target is handled as the request to change it. -/
theorem dispatch_asked (h : Aims p x t.own) {r : Record} {op : Operator} {text : String}
    (hr : asked? r = some (op, text)) :
    Connection.dispatch device r t = Connection.receiveSet device targetName op text t := by
  obtain ⟨v, hv, -⟩ := h.holds.target
  cases r with
  | set name op' text' =>
    by_cases htarget : name = targetName
    · subst htarget
      obtain ⟨rfl, rfl⟩ : op' = op ∧ text' = text := by simpa [asked?] using hr
      rfl
    · simp [asked?, htarget] at hr
  | command opcode params =>
    by_cases htarget : opcode = targetName
    · subst htarget
      obtain ⟨rfl, rfl⟩ : Operator.assign = op ∧ params = text := by simpa [asked?] using hr
      have hassignable : IsAssignable t.own.values targetName :=
        ⟨⟨v, hv, h.writable v hv⟩, by decide, by decide, by decide⟩
      exact Connection.dispatch_command_eq device hassignable params
    · simp [asked?, htarget] at hr
  | _ => cases hr

end

/-! ## Every run -/

/-- The focuser is in its travel, and its target is not outside of it and of some kind. -/
def AimsAt (Q : Float → Prop) (own : Local Focuser) : Prop :=
  ∃ p x, Aims p x own ∧ InTravel p ∧ Within travel x ∧ Q x

/-- What a record asks for is of some kind if the target was. -/
def AsksWithin (Q : Float → Prop) (r : Record) : Prop :=
  ∀ op text y x, asked? r = some (op, text) → operand? text = some y → Within travel x → Q x →
    Q (combine op x y)

/-- A pass of the back end moves the position only. -/
theorem aims_idle {p : Int32} {x : Float} {own own' : Local Focuser} (h : Aims p x own)
    (hpass : own'.values = (idle own.values own.device).1) :
    Aims (advance p (Number.nearestInt32 x)) x own' := by
  have hne : targetName ≠ positionName := by decide
  obtain ⟨u, hu, hcontents, -⟩ := h.holds.position
  have hsame : own'.values.get? targetName = own.values.get? targetName := by
    rw [hpass]
    unfold idle
    rw [h.holds.target?_eq, hu]
    dsimp only
    split
    · rfl
    · rw [apply_integer hcontents]
      have hname (c : Contents) : (u.withContents c).name = positionName :=
        (Registry.mem_of_get? hu).2
      exact Registry.find?_replaceFirst_of_ne hne (hname _) own.values.values
  refine ⟨?_, fun v hv => h.writable v (hsame ▸ hv)⟩
  rw [hpass]
  exact (holds_idle own.device h.holds).1

section

variable {Q : Float → Prop}

theorem aimsAt_dispatch (hhome : Q 0.0) (hstop : ∀ p, InTravel p → Q (ofInt p.toInt))
    {t : Turn τ Focuser} {r : Record} (hr : AsksWithin Q r) (h : AimsAt Q t.own) :
    AimsAt Q (Connection.dispatch device r t).1.own := by
  obtain ⟨p, x, haims, hp, hx, hkind⟩ := h
  obtain ⟨x', hmay, haims'⟩ := aims_dispatch haims r
  rcases hmay with (rfl | rfl | rfl) | ⟨op, text, y, hasked, hoperand, rfl, hinside⟩
  · exact ⟨p, x', haims', hp, hx, hkind⟩
  · exact ⟨p, 0.0, haims', hp, isOutside_eq_false_iff.1 (by decide +kernel), hhome⟩
  · have hhere : Within travel (ofInt p.toInt) := by
      obtain ⟨hlow, hhigh⟩ := hp
      exact Number.within_ofInt (by decide) (by decide) (by omega)
    exact ⟨p, _, haims', hp, hhere, hstop p hp⟩
  · exact ⟨p, _, haims', hp, isOutside_eq_false_iff.1 hinside,
      hr op text y x hasked hoperand hx hkind⟩

/-- **Every run** keeps the target of a kind, as far as what is asked for keeps it. -/
theorem aimsAt_run (hhome : Q 0.0) (hstop : ∀ p, InTravel p → Q (ofInt p.toInt)) (T : Transport τ)
    {hs : List (Happening τ Unit)} (howner : ∀ h ∈ hs, h.isOwners = false) {e : Host τ}
    (hheard : ∀ r ∈ heardDuring (Daemon.wiring T) hs e, AsksWithin Q r) (h : AimsAt Q e.own) :
    AimsAt Q (run (Daemon.wiring T) hs e).own := by
  induction hs generalizing e with
  | nil => exact h
  | cons k ks ih =>
    rw [Happening.run_cons]
    refine ih (fun h hmem => howner h (List.mem_cons_of_mem k hmem))
      (fun r hr => hheard r (List.mem_append_right _ hr)) ?_
    by_cases hdevice : k = .runDevice
    · subst hdevice
      obtain ⟨p, x, haims, hp, hx, hkind⟩ := h
      exact ⟨_, x, aims_idle haims (Endpoint.values_runDevice (Daemon.wiring T) e),
        inTravel_advance hp (inTravel_of_within hx), hx, hkind⟩
    · refine Happening.kept_apply (R := AsksWithin Q) (fun t r hr ht => ?_) ?_
        (howner k List.mem_cons_self) hdevice
        (fun r hr => hheard r (List.mem_append_left _ hr)) h
      · exact aimsAt_dispatch hhome hstop hr ht
      · rintro own ⟨p, x, haims, hp, hx, hkind⟩
        exact ⟨p, x, haims.swept, hp, hx, hkind⟩

theorem aimsAt_host (hhome : Q 0.0) (s : Settings) : AimsAt Q (Daemon.host s : Host τ).own := by
  refine ⟨0, 0.0, ⟨⟨⟨_, rfl, rfl, rfl⟩, ⟨_, rfl, rfl⟩⟩, fun v hv => ?_⟩, ⟨by decide, by decide⟩,
    isOutside_eq_false_iff.1 (by decide +kernel), hhome⟩
  obtain rfl := Option.some.inj hv
  rfl

end

/-! ## Numbers -/

theorem isNaN_combine {x : Float} (hx : Within travel x) (hnumber : x.isNaN = false) (op : Operator)
    (y : Float) : (combine op x y).isNaN = y.isNaN := by
  have hfinite : IsFinite x := Number.isFinite_of_within (by decide) (by decide) hx hnumber
  cases op with
  | assign => rfl
  | add => exact Number.isNaN_add hfinite y
  | subtract => exact Number.isNaN_sub hfinite y

theorem asksWithin_of_number {r : Record} (h : ¬ AsksForNaN r) :
    AsksWithin (fun x => x.isNaN = false) r := by
  intro op text y x hasked hoperand hx hnumber
  rw [isNaN_combine hx hnumber]
  rw [← Bool.not_eq_true]
  exact fun hnan => h ⟨op, text, y, hasked, hoperand, hnan⟩

theorem isNaN_ofInt {i : Int} (hi : i.natAbs < 2 ^ 53) : (ofInt i).isNaN = false := by
  by_cases hzero : i = 0
  · subst hzero
    decide +kernel
  · show (ofInt i).toModel.unpack.isNaN = false
    rw [Number.unpack_ofInt rfl (Int.natAbs_pos.2 hzero) hi]
    rfl

theorem isOutside_iff {x : Float} : isOutside x = true ↔ x < -5000.0 ∨ 5000.0 < x := by
  simp [isOutside]

/-- A target that is a number and not outside of the travel is inside of it. -/
theorem between_of_within {x : Float} (hx : Within travel x) (hnumber : x.isNaN = false) :
    -5000.0 ≤ x ∧ x ≤ 5000.0 := by
  have habove : (5000.0 : Float) = ofInt (travel : Int) := by decide +kernel
  have hbelow : (-5000.0 : Float) = ofInt (-(travel : Int)) := by decide +kernel
  rw [hbelow, habove]
  exact Number.le_of_within (by decide) (by decide) hx hnumber

/-- **The target stays in the travel, unless a client asks for what is no number.** Clients connect
to the daemon and send what they like, and the owner has no hands on the values. Then the target is
a number of the travel, or no number. It is a number of the travel as long as no record was heard
that asks for what is no number. And whoever asks for a change of the target, in full or in short,
is turned down and changes nothing if the text is no operand, or if the target would come to lie
below or above the travel; in all other cases the target is changed. What results is no number
exactly if the operand is none, as long as the target was a number. -/
theorem target_kept (T : Transport τ) (s : Settings) {past : List (Happening τ Unit)}
    (hpast : ∀ h ∈ past, h.isOwners = false) :
    let w := Daemon.wiring T
    let e := run w past (Daemon.host s)
    ∃ x, aim? e.values = some x ∧ (x.isNaN = true ∨ (-5000.0 ≤ x ∧ x ≤ 5000.0)) ∧
      ((∀ r ∈ heardDuring w past (Daemon.host s), ¬ AsksForNaN r) → -5000.0 ≤ x ∧ x ≤ 5000.0) ∧
      ∀ (t : Turn τ Focuser) (r : Record) (op : Operator) (text : String), t.own = e.own →
        asked? r = some (op, text) →
        let t' := (Connection.dispatch device r t).1
        (operand? text = none → ∃ reason, t' = t.reply (-3) reason) ∧
        ∀ y, operand? text = some y →
          (combine op x y < -5000.0 ∨ 5000.0 < combine op x y →
            ∃ reason, t' = t.reply (-1) reason) ∧
          (¬ (combine op x y < -5000.0 ∨ 5000.0 < combine op x y) →
            t'.conn = (t.conn.sendReply 0 "OK").emit (.valueSet t.conn.id targetName) ∧
              aim? t'.own.values = some (combine op x y)) ∧
          (x.isNaN = false → (combine op x y).isNaN = y.isNaN) := by
  intro w e
  have hrun : AimsAt (fun _ => True) e.own := by
    refine aimsAt_run trivial (fun _ _ => trivial) T hpast (fun r _ => ?_) (aimsAt_host trivial s)
    exact fun _ _ _ _ _ _ _ _ => trivial
  obtain ⟨p, x, haims, -, hx, -⟩ := hrun
  have haim : aim? e.values = some x := haims.holds.aim?_eq
  refine ⟨x, haim, ?_, fun hnone => ?_, fun t r op text hown hasked => ?_⟩
  · cases hnan : x.isNaN with
    | true => exact .inl rfl
    | false => exact .inr (between_of_within hx hnan)
  · have hnumbers : AimsAt (fun x => x.isNaN = false) e.own := by
      refine aimsAt_run (by decide +kernel) (fun q hq => isNaN_ofInt ?_) T hpast
        (fun r hr => asksWithin_of_number (hnone r hr)) (aimsAt_host (by decide +kernel) s)
      have htravel : (travel : Int) = 5000 := rfl
      obtain ⟨hlow, hhigh⟩ := hq
      omega
    obtain ⟨q, y, haims', -, hy, hnumber⟩ := hnumbers
    obtain rfl : x = y := Option.some.inj (haim.symm.trans haims'.holds.aim?_eq)
    exact between_of_within hy hnumber
  · have hthere : Aims p x t.own := by rw [hown]; exact haims
    obtain ⟨hnone, hsome⟩ := receiveSet_target hthere op text
    rw [dispatch_asked hthere hasked]
    refine ⟨hnone, fun y hy => ?_⟩
    obtain ⟨hout, hin⟩ := hsome y hy
    refine ⟨fun h => hout (isOutside_iff.2 h), fun h => ?_, fun hnumber => ?_⟩
    · have hinside : isOutside (combine op x y) = false := by
        rw [← Bool.not_eq_true, isOutside_iff]
        exact h
      exact ⟨(hin hinside).1, (hin hinside).2.holds.aim?_eq⟩
    · exact isNaN_combine hx hnumber op y

/-- A client sets the target to the end of the travel and asks for more. -/
theorem target_kept_at_the_end :
    let w := Daemon.wiring Wire.transport
    let past : List (Happening Wire Unit) := [.add .client "ui" 0,
      .hear 1 0 (Text.Utf8.encode "FOC_TAR 5000\nX FOC_TAR + 0.5\nhome\nX FOC_TAR - 5e3\n")]
    (∀ h ∈ past, h.isOwners = false) ∧ ∃ x, aim? (run w past (Daemon.host {})).values = some x ∧
      -5000.0 ≤ x ∧ x ≤ 5000.0 := by
  intro w past
  have hpast : ∀ h ∈ past, h.isOwners = false := by decide +kernel
  obtain ⟨x, hx, hkind, -⟩ := target_kept Wire.transport {} hpast
  have hnumber : aim? (run w past (Daemon.host {})).values = some (-5000.0) := by decide +kernel
  obtain rfl : x = -5000.0 := Option.some.inj (hx.symm.trans hnumber)
  refine ⟨hpast, -5000.0, hx, hkind.resolve_left (by decide +kernel)⟩

/-- What is no number is taken for a target, with a positive answer, and the target does not lie in
the travel then. -/
theorem target_lost_of_nan :
    let past : List (Happening Wire Unit) := [.add .client "ui" 0,
      .hear 1 0 (Text.Utf8.encode "FOC_TAR nan\n")]
    let e := run (Daemon.wiring Wire.transport) past (Daemon.host {})
    (∃ x, aim? e.values = some x ∧ x.isNaN = true ∧ ¬ (-5000.0 ≤ x ∧ x ≤ 5000.0)) ∧
      (e.connection? 1).map Connection.output =
        some (Text.Utf8.encode "S 0\n+000 \"OK\"\n") := by
  intro past e
  have hlost : aim? e.values = some nan := by decide +kernel
  exact ⟨⟨nan, hlost, by decide +kernel, by decide +kernel⟩, by decide +kernel⟩

end Observatory.Focuser
