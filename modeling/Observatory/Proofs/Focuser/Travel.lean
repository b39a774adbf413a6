import Observatory.Focuser
import Observatory.Proofs.Endpoint.Lent
import Observatory.Proofs.Number.Nearest
/-!
# The travel of the focuser

Clients move the target by assignments, by adding and taking away, by the short form of an
assignment, and by the commands that send the focuser home or stop it where it is. None of these
gets it out of the travel, and none of them touches the position. So whatever is asked, the back end
goes from one place of the travel towards another one, and its arithmetic stays far away from the
ends of the words.

* `Focuser.Holds` — the position and the target that the values hold.
* `Focuser.onTravel_dispatch` — one record.
* `Focuser.toInt_advance`, `Focuser.checkedAdvance_eq` — one step.
* `Focuser.holds_idle` — one pass of the back end.
-/

namespace Observatory.Focuser

open Number (Within ofInt nearestInt32)

/-! ## The position and the target -/

/-- The place where the focuser is, in whole steps. -/
def position? (r : Registry) : Option Int32 :=
  (r.get? positionName).bind fun v => match v.contents with
    | .scalar (.integer position) => some position
    | _ => none

/-- The values of these names: a position that peers may not write, and a target. -/
structure Holds (position : Int32) (target : Float) (r : Registry) : Prop where
  position : ∃ v, r.get? positionName = some v ∧ v.contents = .scalar (.integer position) ∧
    v.flags.writable = false
  target : ∃ v, r.get? targetName = some v ∧ v.contents = .scalar (.double target)

namespace Holds

variable {p q : Int32} {x y : Float} {r : Registry}

theorem position?_eq (h : Holds p x r) : position? r = some p := by
  obtain ⟨v, hv, hcontents, -⟩ := h.position
  simp only [position?, hv, Option.bind_some, hcontents]

theorem target?_eq (h : Holds p x r) : target? r = some (nearestInt32 x) := by
  obtain ⟨v, hv, hcontents⟩ := h.target
  simp only [target?, hv, Option.bind_some, Value.asDouble?, hcontents, Scalar.asDouble?,
    Option.map_some]

theorem clearDirty (h : Holds p x r) : Holds p x r.clearDirty := by
  obtain ⟨v, hv, hcontents, hflags⟩ := h.position
  obtain ⟨w, hw, hcontents'⟩ := h.target
  refine ⟨⟨v.clearDirty, ?_, hcontents, hflags⟩, ⟨w.clearDirty, ?_, hcontents'⟩⟩
  · rw [Registry.get?_clearDirty, hv, Option.map_some]
  · rw [Registry.get?_clearDirty, hw, Option.map_some]

/-- Another position in the place of the one that is held. -/
theorem put_position (h : Holds p x r) {v : Value} (hname : v.name = positionName)
    (hcontents : v.contents = .scalar (.integer q)) (hflags : v.flags.writable = false) :
    Holds q x (r.put positionName v) := by
  obtain ⟨u, hu, -, -⟩ := h.position
  obtain ⟨w, hw, hcontents'⟩ := h.target
  refine ⟨⟨v, Registry.find?_replaceFirst hname hu, hcontents, hflags⟩, ⟨w, ?_, hcontents'⟩⟩
  exact (Registry.find?_replaceFirst_of_ne (by decide) hname r.values).trans hw

/-- Another target in the place of the one that is held. -/
theorem put_target (h : Holds p x r) {v : Value} (hname : v.name = targetName)
    (hcontents : v.contents = .scalar (.double y)) : Holds p y (r.put targetName v) := by
  obtain ⟨u, hu, hcontents', hflags⟩ := h.position
  obtain ⟨w, hw, -⟩ := h.target
  refine ⟨⟨u, ?_, hcontents', hflags⟩, ⟨v, Registry.find?_replaceFirst hname hw, hcontents⟩⟩
  exact (Registry.find?_replaceFirst_of_ne (by decide) hname r.values).trans hu

theorem put_other (h : Holds p x r) {name : String} {v : Value} (hname : v.name = name)
    (hposition : name ≠ positionName) (htarget : name ≠ targetName) :
    Holds p x (r.put name v) := by
  obtain ⟨u, hu, hcontents, hflags⟩ := h.position
  obtain ⟨w, hw, hcontents'⟩ := h.target
  refine ⟨⟨u, ?_, hcontents, hflags⟩, ⟨w, ?_, hcontents'⟩⟩
  · exact (Registry.find?_replaceFirst_of_ne hposition.symm hname r.values).trans hu
  · exact (Registry.find?_replaceFirst_of_ne htarget.symm hname r.values).trans hw

end Holds

/-! ## Requests of clients -/

theorem isOutside_eq_false_iff {x : Float} : isOutside x = false ↔ Within travel x := by
  have habove : (5000.0 : Float) = ofInt (travel : Int) := by decide +kernel
  have hbelow : (-5000.0 : Float) = ofInt (-(travel : Int)) := by decide +kernel
  unfold isOutside Within
  rw [hbelow, habove, Bool.or_eq_false_iff, decide_eq_false_iff_not, decide_eq_false_iff_not]
  exact and_comm

/-- A place of the travel. -/
def InTravel (place : Int32) : Prop := -(travel : Int) ≤ place.toInt ∧ place.toInt ≤ travel

/-- The focuser is at a place of the travel, and so is where it is to go. -/
def OnTravel (own : Local Focuser) : Prop :=
  ∃ p x, Holds p x own.values ∧ InTravel p ∧ Within travel x

theorem onTravel_swept {own : Local Focuser} (h : OnTravel own) :
    OnTravel { own with values := own.values.clearDirty } := by
  obtain ⟨p, x, hholds, hp, hx⟩ := h
  exact ⟨p, x, hholds.clearDirty, hp, hx⟩

/-- A double takes the place of a double. -/
theorem assignDouble_eq {v : Value} {x : Float} (hv : v.contents = .scalar (.double x))
    (y : Float) : assignDouble y v = .ok (v.withContents (.scalar (.double y))) := by
  unfold assignDouble Value.apply
  rw [hv]
  rfl

/-- Whatever a request makes of a double is a double. -/
theorem double_of_applyText {v w : Value} {x : Float} {op : Operator} {text : String}
    (hv : v.contents = .scalar (.double x)) (h : v.applyText op text = .ok w) :
    ∃ y, w.contents = .scalar (.double y) := by
  have hprofile := (Value.becomes_of_applyText True h).1.profile
  have hkind : w.kind = v.kind := congrArg Profile.kind hprofile
  unfold Value.kind at hkind
  rw [hv] at hkind
  cases hw : w.contents with
  | scalar cell =>
    rw [hw] at hkind
    injection hkind with hbase
    cases cell with
    | double y => exact ⟨y, rfl⟩
    | _ => cases hbase
  | _ => rw [hw] at hkind; cases hkind

/-- A target that is accepted lies within the travel. -/
theorem within_of_setValue {old new : Value} {y : Float} {s : Focuser}
    (hold : old.name = targetName) (hnew : new.contents = .scalar (.double y))
    (h : (setValue old new s).1 = .ok ()) : Within travel y := by
  have hdouble : new.asDouble?.getD 0.0 = y := by
    unfold Value.asDouble?
    rw [hnew]
    rfl
  refine isOutside_eq_false_iff.1 ?_
  cases houtside : isOutside y with
  | false => rfl
  | true =>
    unfold setValue at h
    simp [hold, hdouble, houtside] at h

variable {τ : Type}

/-- **A request to change a value.** The position is not writable, and a target outside of the
travel is turned down. -/
theorem onTravel_receiveSet (name : String) (op : Operator) (text : String) {t : Turn τ Focuser}
    (h : OnTravel t.own) : OnTravel (Connection.receiveSet device name op text t).1.own := by
  obtain ⟨p, x, hholds, hp, hx⟩ := h
  have hsame : OnTravel t.own := ⟨p, x, hholds, hp, hx⟩
  obtain ⟨u, hu, -, hflags⟩ := hholds.position
  obtain ⟨w, hw, hcontents⟩ := hholds.target
  unfold Connection.receiveSet
  dsimp only
  split
  · exact hsame
  · next current hcurrent =>
    split
    · exact hsame
    · next hwritable =>
      split
      · exact hsame
      · exact hsame
      · next updated happly =>
        have hname : updated.name = name :=
          (Value.name_of_applyText happly).trans (Registry.mem_of_get? hcurrent).2
        split
        · exact hsame
        · next haccepted =>
          have hposition : name ≠ positionName := by
            rintro rfl
            obtain rfl : u = current := Option.some.inj (hu.symm.trans hcurrent)
            rw [hflags] at hwritable
            exact hwritable rfl
          by_cases htarget : name = targetName
          · subst htarget
            obtain rfl : w = current := Option.some.inj (hw.symm.trans hcurrent)
            obtain ⟨y, hy⟩ := double_of_applyText hcontents happly
            have hinside := within_of_setValue (Registry.mem_of_get? hw).2 hy haccepted
            exact ⟨p, y, hholds.put_target hname hy, hp, hinside⟩
          · exact ⟨p, x, hholds.put_other hname hposition htarget, hp, hx⟩

/-- **A command.** Going home and stopping set a target within the travel. -/
theorem onTravel_command (opcode params : String) {own : Local Focuser} (h : OnTravel own) :
    OnTravel ⟨(command opcode params own.values own.device).2.1,
      (command opcode params own.values own.device).2.2⟩ := by
  obtain ⟨p, x, hholds, hp, hx⟩ := h
  obtain ⟨u, hu, hposition, -⟩ := hholds.position
  obtain ⟨w, hw, hcontents⟩ := hholds.target
  have hname : w.name = targetName := (Registry.mem_of_get? hw).2
  unfold command
  split
  · -- home
    have hhome : Within travel 0.0 := isOutside_eq_false_iff.1 (by decide +kernel)
    rw [hw]
    dsimp only
    rw [assignDouble_eq hcontents]
    exact ⟨p, 0.0, hholds.put_target hname rfl, hp, hhome⟩
  · -- stop
    have hplace : ((own.values.get? positionName).bind Value.asDouble?).getD 0.0 =
        ofInt p.toInt := by
      rw [hu, Option.bind_some]
      unfold Value.asDouble?
      rw [hposition]
      rfl
    have hhere : Within travel (ofInt p.toInt) := by
      obtain ⟨hlow, hhigh⟩ := hp
      exact Number.within_ofInt (by decide) (by decide) (by omega)
    dsimp only
    rw [hplace]
    unfold Registry.update
    rw [hw]
    dsimp only
    rw [assignDouble_eq hcontents]
    exact ⟨p, ofInt p.toInt, hholds.put_target hname rfl, hp, hhere⟩
  · exact ⟨p, x, hholds, hp, hx⟩

/-- **One record**, whatever it asks for. -/
theorem onTravel_dispatch (r : Record) {t : Turn τ Focuser} (h : OnTravel t.own) :
    OnTravel (Connection.dispatch device r t).1.own := by
  cases r with
  | set name op text => exact onTravel_receiveSet name op text h
  | command opcode params =>
    show OnTravel (Connection.receiveCommand device opcode params t).1.own
    unfold Connection.receiveCommand
    split
    · unfold Connection.receiveInfo
      dsimp only
      split <;> exact h
    · split
      · exact onTravel_receiveSet opcode .assign params h
      · have hcommand := onTravel_command opcode params h
        dsimp only
        split <;> exact hcommand
  | _ => exact h

/-! ## One step -/

/-- One step with the arithmetic of words, and nothing where a word overflows. -/
def checkedAdvance (current target : Int32) : Option Int32 := do
  let way ← Number.int32? (target.toInt - current.toInt)
  Number.int32? (current.toInt + max (-stepSize) (min stepSize way.toInt))

section

variable {p t : Int32}

/-- How far a step goes. -/
theorem toInt_advance (hp : InTravel p) (ht : InTravel t) : (advance p t).toInt =
    p.toInt + max (-stepSize) (min stepSize (t.toInt - p.toInt)) := by
  have hbound : (travel : Int) = 5000 := rfl
  have hstep : stepSize = 25 := rfl
  obtain ⟨hlow, hhigh⟩ := hp
  obtain ⟨hlow', hhigh'⟩ := ht
  exact Int32.toInt_ofInt_of_le (by omega) (by omega)

/-- **No word overflows** between two places of the travel. -/
theorem checkedAdvance_eq (hp : InTravel p) (ht : InTravel t) :
    checkedAdvance p t = some (advance p t) := by
  have hbound : (travel : Int) = 5000 := rfl
  have hmin : Int32.minValue.toInt = -2147483648 := rfl
  have hmax : Int32.maxValue.toInt = 2147483647 := rfl
  have hstep := toInt_advance hp ht
  obtain ⟨hlow, hhigh⟩ := hp
  obtain ⟨hlow', hhigh'⟩ := ht
  obtain ⟨way, hway⟩ : ∃ way : Int32, way.toInt = t.toInt - p.toInt :=
    ⟨.ofInt (t.toInt - p.toInt), Int32.toInt_ofInt_of_le (by omega) (by omega)⟩
  unfold checkedAdvance
  rw [Number.int32?_eq_some_iff.2 hway]
  show Number.int32? (p.toInt + max (-stepSize) (min stepSize way.toInt)) = _
  rw [hway]
  exact Number.int32?_eq_some_iff.2 hstep

/-- Where there is nowhere to go, no step is made. -/
theorem advance_self (p : Int32) : advance p p = p := by
  unfold advance
  rw [Int.sub_self]
  exact (congrArg Int32.ofInt (Int.add_zero _)).trans (Int32.ofInt_toInt p)

/-- A step does not leave the travel. -/
theorem inTravel_advance (hp : InTravel p) (ht : InTravel t) : InTravel (advance p t) := by
  have hstep := toInt_advance hp ht
  have hsize : stepSize = 25 := rfl
  obtain ⟨hlow, hhigh⟩ := hp
  obtain ⟨hlow', hhigh'⟩ := ht
  constructor <;> omega

end

/-! ## One pass of the back end -/

theorem apply_integer {v : Value} {p : Int32} (hv : v.contents = .scalar (.integer p))
    (q : Int32) : v.apply .assign (.scalar (.integer q)) =
      .ok (v.withContents (.scalar (.integer q))) := by
  have hcell : Scalar.apply .assign (.integer p) (.integer q) = .ok (.integer q) := by
    have hlong : Scalar.combineLong .assign p.toInt64 q.toInt64 = .ok q.toInt64 := by
      unfold Scalar.combineLong Scalar.combineInt
      rw [Number.int64?_toInt]
    have hword : Number.int32? q.toInt64.toInt = some q := by
      rw [Int32.toInt_toInt64, Number.int32?_toInt]
    show (Scalar.combineLong .assign p.toInt64 q.toInt64 >>= _) = _
    rw [hlong]
    simp only [bind, Except.bind]
    rw [hword]
    rfl
  unfold Value.apply
  rw [hv]
  show v.withContents <$> (Contents.scalar <$> Scalar.apply .assign (.integer p) (.integer q)) = _
  rw [hcell]
  rfl

/-- **One pass.** The focuser is on its way if it is not where it is to go, and then it goes one
step. -/
theorem holds_idle {p : Int32} {x : Float} {r : Registry} (s : Focuser) (h : Holds p x r) :
    Holds (advance p (nearestInt32 x)) x (idle r s).1 ∧
      (idle r s).2.moving = decide (p ≠ nearestInt32 x) := by
  obtain ⟨v, hv, hcontents, hflags⟩ := h.position
  have hcurrent : (v.asInt?.getD 0).toInt32 = p := by
    unfold Value.asInt?
    rw [hcontents]
    exact Int32.toInt32_toInt64 p
  unfold idle
  rw [h.target?_eq, hv]
  dsimp only
  rw [hcurrent]
  split
  · next hthere =>
    rw [← hthere, advance_self]
    exact ⟨h, by simp⟩
  · next haway =>
    rw [apply_integer hcontents]
    exact ⟨h.put_position (Registry.mem_of_get? hv).2 rfl hflags, by simp [haway]⟩

end Observatory.Focuser
