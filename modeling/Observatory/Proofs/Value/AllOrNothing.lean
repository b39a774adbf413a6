import Observatory.Proofs.Value.Mutation
import Observatory.Value.InPlace
/-!
# All or nothing

An operation on a value reads and stores many things one after the other, and many of its steps
may be refused. All the same it is refused without a trace, or everything that it stores is stored
and the value is marked: no step that may be refused comes after a step that stores.

* `InPlace.Settles` — steps that do as one what a function says.
* `Value.settles_*` — each operation in place does what the operation on whole values says.
* `Value.Call.all_or_nothing` — a refused call leaves the value as it was; any other marks it.
-/

namespace Observatory

open Record (exists_of_bind)

namespace InPlace

variable {σ τ ε ε' α : Type}

/-! ## Steps that do as one -/

/-- From a state the steps do as one what is said of it: they store the new state, or are refused
for the reason and leave the state as it was. -/
def Settles (steps : InPlace σ ε Unit) (s : σ) : Except ε σ → Prop
  | .ok t => steps s = (.ok (), t)
  | .error e => steps s = (.error e, s)

theorem settles_set (s t : σ) : Settles (set t : InPlace σ ε Unit) s (.ok t) := rfl

/-- What the steps do next may depend on the state. -/
theorem Settles.get {steps : σ → InPlace σ ε Unit} {s : σ} {r : Except ε σ}
    (h : Settles (steps s) s r) : Settles (MonadState.get >>= steps) s r := by
  cases r <;> exact h

/-- A reading that is refused ends the steps before any of them stores. -/
theorem Settles.read {reading : Except ε α} {steps : α → InPlace σ ε Unit} {s : σ}
    {next : α → Except ε σ} (h : ∀ a, reading = .ok a → Settles (steps a) s (next a)) :
    Settles (liftM reading >>= steps) s (reading >>= next) := by
  cases hr : reading with
  | error e => rfl
  | ok a =>
    have ha := h a hr
    show Settles (steps a) s (next a)
    exact ha

/-- Steps on one part do as one what is said of that part, with everything else left alone. -/
theorem Settles.within {part : σ → τ} {store : τ → σ → σ} {steps : InPlace τ ε Unit} {s : σ}
    {r : Except ε τ} (h : Settles steps (part s) r) (hsame : store (part s) s = s) :
    Settles (InPlace.within part store steps) s ((fun t => store t s) <$> r) := by
  cases r with
  | ok t =>
    show InPlace.within part store steps s = _
    simp only [InPlace.within, show steps (part s) = _ from h]
  | error e =>
    show InPlace.within part store steps s = _
    simp only [InPlace.within, show steps (part s) = _ from h, hsame]

/-- What can no longer be refused may follow. -/
theorem Settles.andThen {steps : InPlace σ ε Unit} {s : σ} {r : Except ε σ}
    (h : Settles steps s r) (f : σ → σ) :
    Settles (do steps; modify f) s (f <$> r) := by
  cases r with
  | ok t =>
    show (steps >>= fun _ => modify f) s = (.ok (), f t)
    simp only [bind, ExceptT.bind, ExceptT.mk, StateT.bind, show steps s = _ from h]
    rfl
  | error e =>
    show (steps >>= fun _ => modify f) s = (.error e, s)
    simp only [bind, ExceptT.bind, ExceptT.mk, StateT.bind, show steps s = _ from h]
    rfl

/-- The words of a refusal may change. -/
theorem Settles.adapt {steps : InPlace σ ε Unit} {s : σ} {r : Except ε σ} (h : Settles steps s r)
    (cause : ε → ε') : Settles (ExceptT.adapt cause steps) s (r.mapError cause) := by
  have hadapt : ExceptT.adapt cause steps s = ((steps s).1.mapError cause, (steps s).2) := rfl
  cases r with
  | ok t =>
    show ExceptT.adapt cause steps s = (.ok (), t)
    rw [hadapt, show steps s = _ from h]
    rfl
  | error e =>
    show ExceptT.adapt cause steps s = (.error (cause e), s)
    rw [hadapt, show steps s = _ from h]
    rfl

/-! ## Steps on a copy -/

/-- The steps come to what is said of them. When they are refused, some of them may have stored. -/
def ComesTo (steps : InPlace σ ε Unit) (s : σ) : Except ε σ → Prop
  | .ok t => steps s = (.ok (), t)
  | .error e => (steps s).1 = .error e

theorem Settles.comesTo {steps : InPlace σ ε Unit} {s : σ} {r : Except ε σ}
    (h : Settles steps s r) : ComesTo steps s r := by
  cases r with
  | ok t => exact h
  | error e =>
    show (steps s).1 = .error e
    rw [show steps s = _ from h]

/-- Steps on one part, and then others. -/
theorem ComesTo.part {part : σ → τ} {store : τ → σ → σ} {steps : InPlace τ ε Unit}
    {others : InPlace σ ε Unit} {s : σ} {r : Except ε τ} {next : τ → Except ε σ}
    (h : Settles steps (part s) r) (hsame : store (part s) s = s)
    (hothers : ∀ t, ComesTo others (store t s) (next t)) :
    ComesTo (do within part store steps; others) s (r >>= next) := by
  have hwithin : Settles (within part store steps) s ((fun t => store t s) <$> r) :=
    h.within hsame
  cases r with
  | ok t =>
    have hrun : (within part store steps >>= fun _ => others) s = others (store t s) := by
      show ExceptT.bind (within part store steps) (fun _ => others) s = _
      simp only [ExceptT.bind, ExceptT.mk, bind, StateT.bind,
        show within part store steps s = _ from hwithin]
      rfl
    have ht := hothers t
    show ComesTo (within part store steps >>= fun _ => others) s (next t)
    unfold ComesTo at ht ⊢
    rw [hrun]
    exact ht
  | error e =>
    show (ExceptT.bind (within part store steps) (fun _ => others) s).1 = .error e
    simp only [ExceptT.bind, ExceptT.mk, bind, StateT.bind,
      show within part store steps s = _ from hwithin]
    rfl

/-- Steps aside are like a reading of what they come to: the state is left alone. -/
theorem ComesTo.aside_eq {steps : InPlace τ ε Unit} {own : τ} {r : Except ε τ}
    (h : ComesTo steps own r) : (aside own steps : InPlace σ ε τ) = liftM r := by
  funext s
  cases hs : steps own with
  | mk result t =>
  unfold ComesTo at h
  rw [hs] at h
  cases r with
  | ok u =>
    obtain ⟨rfl, rfl⟩ := Prod.mk.inj h
    simp only [aside, hs]
    rfl
  | error e =>
    have hresult : result = .error e := h
    subst hresult
    simp only [aside, hs]
    rfl

theorem adapt_liftM (cause : ε → ε') (reading : Except ε α) :
    ExceptT.adapt cause (liftM reading : InPlace σ ε α) = liftM (reading.mapError cause) := by
  cases reading <;> rfl

end InPlace

open InPlace

/-! ## Cells -/

namespace Scalar

theorem settles_applyInPlace (op : Operator) (operand target : Scalar) :
    Settles (applyInPlace op operand) target (target.apply op operand) := by
  refine .get ?_
  cases target with
  | string text => cases op <;> cases operand <;> rfl
  | bool v => cases op <;> cases operand <;> rfl
  | integer v =>
    refine .read fun o _ => .read fun result _ => ?_
    cases Number.int32? result.toInt <;> rfl
  | long v => exact .read fun o _ => .read fun result _ => settles_set _ _
  | time v => exact .read fun o _ => settles_set _ _
  | double v => exact .read fun o _ => settles_set _ _
  | float v => exact .read fun o _ => settles_set _ _
  | radec ra dec => exact .read fun o _ => rfl
  | altaz alt az => exact .read fun o _ => rfl

end Scalar

/-! ## Contents of more than one cell -/

namespace Selection

theorem settles_shiftInPlace (op : Operator) (step : Int32) (s : Selection) :
    Settles (shiftInPlace op step) s (s.shift op step) := by
  refine .get ?_
  unfold shift
  cases op with
  | assign =>
    dsimp only
    split <;> rfl
  | add =>
    dsimp only
    split
    · rfl
    · cases Number.int32? (s.index.toInt + step.toInt) <;> rfl
  | subtract =>
    dsimp only
    split
    · rfl
    · cases Number.int32? (s.index.toInt - step.toInt) with
      | none => rfl
      | some difference =>
        dsimp only
        split <;> rfl

end Selection

namespace Bounded

theorem settles_applyInPlace (op : Operator) (operand : Float) (b : Bounded) :
    Settles (applyInPlace op operand) b (b.apply op operand) := by
  refine .get ?_
  unfold apply
  dsimp only
  split <;> rfl

end Bounded

namespace Rectangle

theorem settles_applyPartInPlace (op : Operator) (operand part : Part) :
    Settles (applyPartInPlace op operand) part (applyPart op part operand) := by
  have hcell : Settles (within Part.cell (fun cell p => { p with cell })
      (Scalar.applyInPlace op operand.cell)) part _ :=
    (Scalar.settles_applyInPlace op operand.cell part.cell).within rfl
  have hmark := hcell.andThen fun p => { p with dirty := true }
  unfold applyPart
  cases h : part.cell.apply op operand.cell with
  | ok cell => rw [h] at hmark; exact hmark
  | error e => rw [h] at hmark; exact hmark

/-- The parts are gone through in turn. A refusal may come after parts that have been stored. -/
theorem comesTo_eachPart {ε : Type} {steps : (Rectangle → Part) → InPlace Part ε Unit}
    {outcome : (Rectangle → Part) → Part → Except ε Part}
    (h : ∀ part p, Settles (steps part) p (outcome part p)) (r : Rectangle) :
    ComesTo (eachPart steps) r (do
      let x ← outcome Rectangle.x r.x
      let y ← outcome Rectangle.y r.y
      let width ← outcome Rectangle.width r.width
      let height ← outcome Rectangle.height r.height
      return ⟨r.base, x, y, width, height⟩) := by
  refine .part (h Rectangle.x r.x) rfl fun x => ?_
  refine .part (h Rectangle.y r.y) rfl fun y => ?_
  refine .part (h Rectangle.width r.width) rfl fun width => ?_
  rw [bind_pure_comp]
  refine Settles.comesTo (Settles.within ?_ rfl)
  exact h Rectangle.height r.height

/-- The operator is applied to a copy, of which only a whole one is stored. -/
theorem settles_applyInPlace (op : Operator) (operand r : Rectangle) :
    Settles (applyInPlace op operand) r (r.apply op operand) := by
  refine .get ?_
  have hparts : ComesTo (eachPart fun part => applyPartInPlace op (part operand)) r
      (r.apply op operand) :=
    comesTo_eachPart (fun part p => settles_applyPartInPlace op (part operand) p) r
  rw [hparts.aside_eq]
  have hset : Settles (liftM (r.apply op operand) >>= fun updated => set updated) r
      (r.apply op operand >>= .ok) := .read fun updated _ => settles_set r updated
  rwa [show (r.apply op operand >>= .ok) = r.apply op operand by cases r.apply op operand <;> rfl]
    at hset

/-- What is read is stored cell by cell, and each part is marked. -/
theorem settles_assignInPlace {r cells : Rectangle} {text rest : List Char}
    (h : r.parse text = .ok (cells, rest)) : Settles (assignInPlace cells) r (.ok cells) := by
  obtain ⟨x, -, h⟩ := exists_of_bind h
  obtain ⟨y, -, h⟩ := exists_of_bind h
  obtain ⟨width, -, h⟩ := exists_of_bind h
  obtain ⟨height, -, h⟩ := exists_of_bind h
  cases h
  rfl

end Rectangle

namespace Series

theorem settles_applyInPlace (op : Operator) (operand s : Series) :
    Settles (applyInPlace op operand) s (s.apply op operand) := by
  refine .get ?_
  unfold apply
  split
  · split <;> rfl
  · rfl

theorem settles_pushInPlace (item : Scalar) (s : Series) :
    Settles (pushInPlace item) s (s.push item) := by
  refine .get ?_
  unfold push
  split <;> rfl

/-- Items stored one after another are the items with all of them stored. -/
theorem settles_storeEach (indices : List Nat) (item : Scalar) (s : Series) :
    Settles (ε := OperationError)
      (indices.forM fun i => modify fun s => { s with items := s.items.set i item }) s
      (.ok { s with items := indices.foldl (fun items i => items.set i item) s.items }) := by
  induction indices generalizing s with
  | nil => rfl
  | cons i indices ih => exact ih { s with items := s.items.set i item }

theorem settles_setAtInPlace (indices : List Nat) (item : Scalar) (s : Series) :
    Settles (setAtInPlace indices item) s (s.setAt indices item) := by
  refine .get ?_
  unfold setAt
  cases indices.find? fun i => s.items.length ≤ i with
  | some i => rfl
  | none => exact settles_storeEach indices item s

end Series

namespace Contents

theorem settles_inside {τ ε : Type} {wrap : τ → Contents} {held : τ} {steps : InPlace τ ε Unit}
    {r : Except ε τ} (h : Settles steps held r) :
    Settles (inside wrap held steps) (wrap held) (wrap <$> r) :=
  h.within rfl

theorem settles_setInPlace (text : List Char) (c : Contents) :
    Settles (setInPlace text) c (c.parse text) := by
  refine .get ?_
  cases c with
  | scalar cell =>
    cases cell with
    | string _ => exact .read fun read _ => settles_set _ _
    | _ => exact .read fun p _ => .read fun _ _ => settles_set _ _
  | selection s => exact .read fun p _ => .read fun _ _ => .read fun index _ => settles_set _ _
  | bounded b => exact .read fun p _ => .read fun _ _ => settles_set _ _
  | rectangle r =>
    refine .read fun p hp => .read fun _ _ => ?_
    exact settles_inside (Rectangle.settles_assignInPlace hp)
  | series s => exact .read fun parsed _ => settles_set _ _

theorem settles_applyInPlace (op : Operator) (operand c : Contents) :
    Settles (applyInPlace op operand) c (c.apply op operand) := by
  refine .get ?_
  cases c with
  | scalar a =>
    cases operand with
    | scalar b => exact settles_inside (Scalar.settles_applyInPlace op b a)
    | selection b => exact settles_inside (Scalar.settles_applyInPlace op (.integer b.index) a)
    | bounded b => exact settles_inside (Scalar.settles_applyInPlace op (.double b.value) a)
    | _ => rfl
  | selection a =>
    cases operand with
    | selection b => exact settles_inside (Selection.settles_shiftInPlace op b.index a)
    | scalar b =>
      unfold apply
      dsimp only
      cases stepOf? b with
      | some step => exact settles_inside (Selection.settles_shiftInPlace op step a)
      | none => rfl
    | _ => rfl
  | bounded a =>
    cases operand with
    | bounded b =>
      unfold apply
      dsimp only
      split
      · rfl
      · exact settles_inside (Bounded.settles_applyInPlace op b.value a)
    | scalar b =>
      unfold apply
      dsimp only
      cases b.asDouble? with
      | some x => exact settles_inside (Bounded.settles_applyInPlace op x a)
      | none => rfl
    | _ => rfl
  | rectangle a =>
    cases operand with
    | rectangle b => exact settles_inside (Rectangle.settles_applyInPlace op b a)
    | _ => rfl
  | series a =>
    cases operand with
    | series b => exact settles_inside (Series.settles_applyInPlace op b a)
    | _ => rfl

theorem settles_selectInPlace (symbol : List Char) (s : Selection) :
    Settles (selectInPlace symbol) (selection s)
      ((s.parseIndex symbol).mapError OperationError.parse >>= fun index =>
        .ok (selection { s with index })) :=
  .get (.read fun _ _ => settles_set _ _)

theorem settles_setItemsInPlace (indices : List Nat) (text : List Char) (s : Series) :
    Settles (setItemsInPlace indices text) (series s)
      ((Scalar.parse s.base text).mapError OperationError.parse >>= fun p =>
        (Token.finish p.2).mapError OperationError.parse >>= fun _ =>
          series <$> s.setAt indices p.1) :=
  .get (.read fun p _ => .read fun _ _ =>
    settles_inside (Series.settles_setAtInPlace indices p.1 s))

theorem settles_pushInPlace (item : Scalar) (s : Series) :
    Settles (pushInPlace item) (series s) (series <$> s.push item) :=
  .get (settles_inside (Series.settles_pushInPlace item s))

end Contents

/-! ## Values -/

namespace Value

theorem settles_onContents {ε : Type} {steps : InPlace Contents ε Unit} {v : Value}
    {r : Except ε Contents} (h : Settles steps v.contents r) :
    Settles (onContents steps) v (v.withContents <$> r) := by
  have hsteps : Settles (within Value.contents (fun contents v => { v with contents }) steps) v
      ((fun contents => { v with contents }) <$> r) := h.within rfl
  have hmark := hsteps.andThen fun v => { v with dirty := true }
  cases r <;> exact hmark

theorem settles_setInPlace (text : String) (v : Value) :
    Settles (setInPlace text) v (v.set text) :=
  settles_onContents (Contents.settles_setInPlace text.toList v.contents)

theorem settles_applyInPlace (op : Operator) (operand : Contents) (v : Value) :
    Settles (applyInPlace op operand) v (v.apply op operand) :=
  settles_onContents (Contents.settles_applyInPlace op operand v.contents)

theorem settles_applyTextInPlace (op : Operator) (text : String) (v : Value) :
    Settles (applyTextInPlace op text) v (v.applyText op text) := by
  unfold applyTextInPlace applyText
  split
  · have h := (settles_setInPlace text v).adapt OperationError.parse
    cases hv : v.set text with
    | ok w => rw [hv] at h; exact h
    | error e => rw [hv] at h; exact h
  · refine .get ?_
    rw [(Contents.settles_setInPlace text.toList (operandShape v.contents)).comesTo.aside_eq,
      adapt_liftM]
    have h : Settles (do
        let operand ← liftM (((operandShape v.contents).parse text.toList).mapError
          OperationError.parse)
        applyInPlace op operand) v _ := .read fun operand _ => settles_applyInPlace op operand v
    cases hp : (operandShape v.contents).parse text.toList with
    | ok operand => rw [hp] at h; exact h
    | error e => rw [hp] at h; exact h

theorem settles_selectInPlace (symbol : String) (v : Value) :
    Settles (selectInPlace symbol) v (v.select symbol) := by
  obtain ⟨name, description, flags, dirty, contents⟩ := v
  unfold select
  cases contents with
  | selection s =>
    have h : Settles (selectInPlace symbol) ⟨name, description, flags, dirty, .selection s⟩ _ :=
      settles_onContents (Contents.settles_selectInPlace symbol.toList s)
    dsimp only
    cases hindex : s.parseIndex symbol.toList with
    | ok index => rw [hindex] at h; exact h
    | error e => rw [hindex] at h; exact h
  | _ => rfl

theorem settles_setItemsInPlace (indices : List Nat) (text : String) (v : Value) :
    Settles (setItemsInPlace indices text) v (v.setItems indices text) := by
  obtain ⟨name, description, flags, dirty, contents⟩ := v
  unfold setItems
  cases contents with
  | series s =>
    have h : Settles (setItemsInPlace indices text) ⟨name, description, flags, dirty, .series s⟩
        _ := settles_onContents (Contents.settles_setItemsInPlace indices text.toList s)
    dsimp only
    cases hitem : Scalar.parse s.base text.toList with
    | error e => rw [hitem] at h; exact h
    | ok p =>
      obtain ⟨item, rest⟩ := p
      rw [hitem] at h
      change Settles _ _ (_ <$> ((Token.finish rest).mapError OperationError.parse >>= fun _ =>
        Contents.series <$> s.setAt indices item)) at h
      simp only [bind, Except.bind, pure, Except.pure] at h ⊢
      cases hrest : Token.finish rest with
      | error e => rw [hrest] at h; exact h
      | ok _ =>
        rw [hrest] at h
        dsimp only at h ⊢
        cases hset : s.setAt indices item with
        | ok s' => rw [hset] at h; exact h
        | error e => rw [hset] at h; exact h
  | _ => rfl

theorem settles_pushInPlace (item : Scalar) (v : Value) :
    Settles (pushInPlace item) v (v.push item) := by
  obtain ⟨name, description, flags, dirty, contents⟩ := v
  unfold push
  cases contents with
  | series s =>
    have h : Settles (pushInPlace item) ⟨name, description, flags, dirty, .series s⟩ _ :=
      settles_onContents (Contents.settles_pushInPlace item s)
    dsimp only
    cases hpush : s.push item with
    | ok s' => rw [hpush] at h; exact h
    | error e => rw [hpush] at h; exact h
  | _ => rfl

end Value

/-- A copy takes over a text as a whole or stays what it is. -/
theorem Replica.settles_receiveInPlace (text : String) (r : Replica) :
    Settles (receiveInPlace text) r (r.receive text) := by
  have hset : Settles (within Replica.value (fun value _ => ⟨value⟩) (Value.setInPlace text)) r _ :=
    (Value.settles_setInPlace text r.value).within rfl
  have h := hset.andThen fun r => (⟨r.value.clearDirty⟩ : Replica)
  unfold receive
  cases hv : r.value.set text with
  | ok v => rw [hv] at h; exact h
  | error e => rw [hv] at h; exact h

/-! ## Calls -/

namespace Value.Call

/-- The change of the value as a whole that a call is. -/
def mutation : Call → Mutation
  | set text => .set text
  | apply op operand => .apply op operand
  | applyText op text => .applyText op text
  | setFrom other => .apply .assign other
  | setDouble x => .apply .assign (.scalar (.double x))
  | setInteger i => .apply .assign (.scalar (.integer i))
  | setLong i => .apply .assign (.scalar (.long i))
  | setBool b => .apply .assign (.scalar (.bool b))
  | setString text => .apply .assign (.scalar (.string text))
  | select symbol => .select symbol
  | setItems indices text => .setItems indices text
  | push item => .push item

/-- The steps of a call do as one what the change of the whole value is. -/
theorem settles_steps (call : Call) (v : Value) :
    Settles call.steps v (call.mutation.attempt v) := by
  cases call with
  | set text =>
    have h := (settles_setInPlace text v).adapt OperationError.parse
    show Settles _ v (Mutation.attempt (.set text) v)
    unfold Mutation.attempt
    dsimp only
    cases hv : v.set text with
    | ok w => rw [hv] at h; exact h
    | error e => rw [hv] at h; exact h
  | applyText op text => exact settles_applyTextInPlace op text v
  | select symbol => exact settles_selectInPlace symbol v
  | setItems indices text => exact settles_setItemsInPlace indices text v
  | push item => exact settles_pushInPlace item v
  | _ => exact settles_applyInPlace _ _ v

theorem marks_mutation (call : Call) : call.mutation.marks = true := by
  cases call <;> rfl

/-- A call that is refused leaves the value as it was, in every part of it; a call that is not
refused leaves it marked. -/
theorem all_or_nothing (call : Call) (v : Value) :
    match call.steps v with
    | (.error _, w) => w = v
    | (.ok _, w) => w.dirty = true := by
  have h := settles_steps call v
  cases hattempt : call.mutation.attempt v with
  | error e =>
    rw [hattempt] at h
    rw [show call.steps v = _ from h]
  | ok w =>
    rw [hattempt] at h
    rw [show call.steps v = _ from h]
    exact (Mutation.becomes_of_attempt hattempt).2 (marks_mutation call)

end Value.Call

end Observatory
