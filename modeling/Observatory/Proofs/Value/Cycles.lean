import Observatory.Proofs.Value.Exact
/-!
# Going round the symbols

A step forward leaves the remainder of the sum, with the sign of the sum; a step back leaves the
difference alone unless it is negative, and then folds it. From an index that names a symbol, by
steps that are not negative, both come to the remainder that is never negative, so that steps can be
taken back and put together. From any index, by any step, the index is the exact sum or difference
up to whole rounds, or the step is refused.

* `Selection.landing` — where a sum or a difference lands, in unbounded arithmetic.
* `Selection.shift_of_fits` — a shift is the landing of the exact sum or difference.
* `Value.selection_goes_round` — the laws of steps, however their operands are given.
-/

namespace Observatory

open InPlace

/-! ## Where a step lands -/

namespace Selection

/-- Where a sum or a difference lands among `n` symbols. -/
def landing (op : Operator) (i n : Int) : Int :=
  match op with
  | .assign => i
  | .add => i.tmod n
  | .subtract => if i < 0 then i % n else i

/-- A landing is off by whole rounds. -/
theorem landing_emod (op : Operator) (i n : Int) : landing op i n % n = i % n := by
  cases op with
  | assign => rfl
  | add =>
    have hrounds := Int.tmod_add_mul_tdiv i n
    calc i.tmod n % n = (i.tmod n + n * i.tdiv n) % n := (Int.add_mul_emod_self_left _ _ _).symm
      _ = i % n := by rw [hrounds]
  | subtract =>
    unfold landing
    dsimp only
    split
    · exact Int.emod_emod_of_dvd i (Int.dvd_refl n)
    · rfl

theorem landing_add_of_nonneg {i : Int} (h : 0 ≤ i) (n : Int) : landing .add i n = i % n :=
  Int.tmod_eq_emod_of_nonneg h

theorem landing_subtract_of_lt {i n : Int} (h : i < n) : landing .subtract i n = i % n := by
  unfold landing
  dsimp only
  split
  · rfl
  · exact (Int.emod_eq_of_lt (by omega) h).symm

/-- What fits a word lands in a word. -/
theorem fits_landing (op : Operator) {i n : Int} (hn : 0 < n) (hmax : n ≤ Int32.maxValue.toInt)
    (h : Base.integer.Fits i) : Base.integer.Fits (landing op i n) := by
  obtain ⟨hlow, hhigh⟩ := h
  have hmin : Int32.minValue.toInt ≤ -Int32.maxValue.toInt := by decide
  cases op with
  | assign => exact ⟨hlow, hhigh⟩
  | add =>
    have habove := Int.tmod_lt_of_pos i hn
    have hbelow := Int.lt_tmod_of_pos i hn
    exact ⟨by show _ ≤ i.tmod n; omega, by show i.tmod n ≤ _; omega⟩
  | subtract =>
    unfold landing
    dsimp only
    split
    · have hbelow := Int.emod_nonneg i (Int.ne_of_gt hn)
      have habove := Int.emod_lt_of_pos i hn
      exact ⟨by omega, by omega⟩
    · exact ⟨hlow, hhigh⟩

/-! ## One step -/

/-- The selection with another index. -/
def turn (i : Int) (s : Selection) : Selection := { s with index := Int32.ofInt i }

variable {s : Selection} {op : Operator} {step : Int32}

theorem size_turn (i : Int) (s : Selection) : (s.turn i).size = s.size := rfl

theorem turn_turn (i j : Int) (s : Selection) : (s.turn i).turn j = s.turn j := rfl

theorem turn_index (s : Selection) : s.turn s.index.toInt = s := by
  rw [turn, Int32.ofInt_toInt]

theorem index_turn {i : Int} (h : Base.integer.Fits i) : (s.turn i).index.toInt = i :=
  Int32.toInt_ofInt_of_le h.1 (Int.lt_add_one_of_le h.2)

theorem size_pos (h : s.symbols ≠ []) : 0 < s.size :=
  Int.lt_min.2 ⟨Int.natCast_pos.2 (List.length_pos_iff.2 h), by decide⟩

theorem size_le (s : Selection) : s.size ≤ Int32.maxValue.toInt := Int.min_le_right _ _

theorem symbols_ne_nil_of_lt {i : Int} (h0 : 0 ≤ i) (h : i < s.size) : s.symbols ≠ [] := by
  intro hnone
  have hsize : s.size = 0 := by
    unfold size
    rw [hnone]
    rfl
  omega

/-- A remainder among the symbols is an index that is stored as it is. -/
theorem fits_emod (h : s.symbols ≠ []) (i : Int) : Base.integer.Fits (i % s.size) := by
  have hbelow := Int.emod_nonneg i (Int.ne_of_gt (size_pos h))
  have habove := Int.emod_lt_of_pos i (size_pos h)
  have hmax := size_le s
  have hmin : Int32.minValue.toInt ≤ 0 := by decide
  exact ⟨by omega, by omega⟩

theorem shift_of_empty (hop : op ≠ .assign) (h : s.symbols = []) (step : Int32) :
    s.shift op step = .error .emptySelection := by
  have hempty : s.symbols.isEmpty = true := List.isEmpty_iff.2 h
  cases op with
  | assign => exact absurd rfl hop
  | add => exact if_pos hempty
  | subtract => exact if_pos hempty

/-- A sum or a difference that is no word is refused. -/
theorem shift_of_not_fits (hop : op ≠ .assign) (hs : s.symbols ≠ [])
    (h : ¬ Base.integer.Fits (Scalar.combineInt op s.index.toInt step.toInt)) :
    s.shift op step = .error (.outOfRange (Number.ofInt step.toInt)) := by
  have hsome : ¬ s.symbols.isEmpty = true := fun hempty => hs (List.isEmpty_iff.1 hempty)
  have hword := Number.int32?_of_not_fits h
  cases op with
  | assign => exact absurd rfl hop
  | add =>
    unfold shift
    dsimp only
    rw [if_neg hsome, show Number.int32? (s.index.toInt + step.toInt) = none from hword]
  | subtract =>
    unfold shift
    dsimp only
    rw [if_neg hsome, show Number.int32? (s.index.toInt - step.toInt) = none from hword]

/-- **A step** lands where the exact sum or difference does. -/
theorem shift_of_fits (hop : op ≠ .assign) (hs : s.symbols ≠ [])
    (h : Base.integer.Fits (Scalar.combineInt op s.index.toInt step.toInt)) :
    s.shift op step =
      .ok (s.turn (landing op (Scalar.combineInt op s.index.toInt step.toInt) s.size)) := by
  have hsome : ¬ s.symbols.isEmpty = true := fun hempty => hs (List.isEmpty_iff.1 hempty)
  obtain ⟨w, hw, hvalue⟩ := Number.exists_int32? h
  rw [← hvalue]
  cases op with
  | assign => exact absurd rfl hop
  | add =>
    unfold shift
    dsimp only
    rw [if_neg hsome, show Number.int32? (s.index.toInt + step.toInt) = some w from hw]
    rfl
  | subtract =>
    unfold shift landing
    dsimp only
    rw [if_neg hsome, show Number.int32? (s.index.toInt - step.toInt) = some w from hw]
    dsimp only
    split
    · rfl
    · rw [turn, Int32.ofInt_toInt]

/-! ## Steps from one symbol to another -/

section Cyclic

variable (h0 : 0 ≤ s.index.toInt) (hn : s.index.toInt < s.size) (hstep : 0 ≤ step.toInt)
include h0 hn hstep

theorem shift_add (h : s.index.toInt + step.toInt ≤ Int32.maxValue.toInt) :
    s.shift .add step = .ok (s.turn ((s.index.toInt + step.toInt) % s.size)) := by
  have hmin : Int32.minValue.toInt ≤ 0 := by decide
  have hfits : Base.integer.Fits (Scalar.combineInt .add s.index.toInt step.toInt) :=
    ⟨by show _ ≤ s.index.toInt + step.toInt; omega, h⟩
  have hlanding := landing_add_of_nonneg (Int.add_nonneg h0 hstep) s.size
  rw [shift_of_fits (by decide) (symbols_ne_nil_of_lt h0 hn) hfits, ← hlanding]
  rfl

/-- A step back is never refused. -/
theorem shift_subtract :
    s.shift .subtract step = .ok (s.turn ((s.index.toInt - step.toInt) % s.size)) := by
  have hmin : Int32.minValue.toInt ≤ -Int32.maxValue.toInt := by decide
  have hmax := Int32.toInt_le s.index
  have hmax' := Int32.toInt_le step
  have hfits : Base.integer.Fits (Scalar.combineInt .subtract s.index.toInt step.toInt) :=
    ⟨by show _ ≤ s.index.toInt - step.toInt; omega, by show s.index.toInt - step.toInt ≤ _; omega⟩
  have hlanding := @landing_subtract_of_lt (s.index.toInt - step.toInt) s.size (by omega)
  rw [shift_of_fits (by decide) (symbols_ne_nil_of_lt h0 hn) hfits, ← hlanding]
  rfl

end Cyclic

/-- After a turn to a remainder the index names a symbol again. -/
theorem index_turn_emod (h : s.symbols ≠ []) (i : Int) :
    (s.turn (i % s.size)).index.toInt = i % s.size ∧ 0 ≤ i % s.size ∧ i % s.size < s.size :=
  ⟨index_turn (fits_emod h i), Int.emod_nonneg i (Int.ne_of_gt (size_pos h)),
    Int.emod_lt_of_pos i (size_pos h)⟩

/-- A second step forward from where a first one of either kind landed. -/
theorem shift_add_turn (h : s.symbols ≠ []) (hstep : 0 ≤ step.toInt) {i : Int}
    (hfits : i % s.size + step.toInt ≤ Int32.maxValue.toInt) :
    (s.turn (i % s.size)).shift .add step = .ok (s.turn ((i + step.toInt) % s.size)) := by
  obtain ⟨hindex, hbelow, habove⟩ := index_turn_emod h i
  rw [shift_add (by rw [hindex]; exact hbelow) (by rw [hindex]; exact habove) hstep
    (by rw [hindex]; exact hfits), hindex, size_turn, turn_turn, Int.emod_add_emod]

theorem shift_subtract_turn (h : s.symbols ≠ []) (hstep : 0 ≤ step.toInt) (i : Int) :
    (s.turn (i % s.size)).shift .subtract step = .ok (s.turn ((i - step.toInt) % s.size)) := by
  obtain ⟨hindex, hbelow, habove⟩ := index_turn_emod h i
  rw [shift_subtract (by rw [hindex]; exact hbelow) (by rw [hindex]; exact habove) hstep, hindex,
    size_turn, turn_turn, Int.emod_sub_emod]

end Selection

/-! ## Operands -/

/-- Steps that are not refused, and then others. -/
theorem InPlace.bind_of_ok {σ ε : Type} {steps others : InPlace σ ε Unit} {s t : σ}
    (h : steps s = (.ok (), t)) : (do steps; others) s = others t := by
  show ExceptT.bind steps (fun _ => others) s = _
  simp only [ExceptT.bind, ExceptT.mk, bind, StateT.bind, h]
  rfl

namespace Operand

/-- The steps of the call with an operator and the operand. -/
def steps (op : Operator) : Operand → InPlace Value OperationError Unit
  | held contents => (Value.Call.apply op contents).steps
  | written text => (Value.Call.applyText op text).steps

theorem settles_steps (op : Operator) (operand : Operand) (v : Value) :
    Settles (operand.steps op) v (operand.apply op v) := by
  cases operand with
  | held contents => exact (Value.Call.apply op contents).settles_steps v
  | written text => exact (Value.Call.applyText op text).settles_steps v

/-- A cell with a whole number that fits a word of 32 bits is a step. -/
theorem stepOf?_of_whole? {cell : Scalar} {b : Base} {step : Int32}
    (h : cell.whole? = some (b, step.toInt)) : Contents.stepOf? cell = some step := by
  rcases Scalar.whole?_cases h with ⟨v, rfl, -, hv⟩ | ⟨v, rfl, -, hv⟩
  · obtain rfl : v = step := (Int32.toInt_inj.1 hv).symm
    show Number.int32? v.toInt64.toInt = _
    rw [Int32.toInt_toInt64, Number.int32?_toInt]
  · show Number.int32? v.toInt = _
    rw [← hv, Number.int32?_toInt]

section

variable {operand : Operand} {op : Operator} {step : Int32} {v : Value} {s : Selection}

/-- However the step is given, it shifts the selection. -/
theorem apply_selection (hop : op ≠ .assign) (hv : v.contents = .selection s)
    (hstep : operand.number? = some step.toInt) :
    operand.apply op v = (fun t => v.withContents (.selection t)) <$> s.shift op step := by
  have hshift {cell : Scalar} {b : Base} (hcell : cell.whole? = some (b, step.toInt)) :
      v.apply op (.scalar cell) = (fun t => v.withContents (.selection t)) <$> s.shift op step := by
    unfold Value.apply
    rw [hv]
    unfold Contents.apply
    dsimp only
    rw [stepOf?_of_whole? hcell]
    dsimp only
    cases s.shift op step <;> rfl
  cases operand with
  | held contents =>
    cases contents with
    | scalar cell =>
      obtain ⟨⟨b, i⟩, hcell, rfl⟩ := Option.map_eq_some_iff.1 hstep
      exact hshift hcell
    | selection o =>
      obtain rfl : o.index = step := Int32.toInt_inj.1 (Option.some.inj hstep)
      show v.apply op (.selection o) = _
      unfold Value.apply
      rw [hv]
      unfold Contents.apply
      dsimp only
      cases s.shift op o.index <;> rfl
    | _ => cases hstep
  | written text =>
    have hfits : Base.integer.Fits step.toInt :=
      ⟨Int32.minValue_le_toInt step, Int32.toInt_le step⟩
    obtain ⟨cell, hcell, hparse⟩ := Contents.parse_of_fits (a := .integer 0) rfl hstep hfits
    show v.applyText op text = _
    unfold Value.applyText
    rw [if_neg hop, hv]
    have hshape : Value.operandShape (.selection s) = .scalar (.integer 0) := rfl
    rw [hshape, hparse]
    exact hshift hcell

variable (hop : op ≠ .assign) (hv : v.contents = .selection s)
  (hstep : operand.number? = some step.toInt)
include hop hv hstep

theorem steps_of_ok {t : Selection} (h : s.shift op step = .ok t) :
    operand.steps op v = (.ok (), v.withContents (.selection t)) := by
  have hsettles := operand.settles_steps op v
  rw [apply_selection hop hv hstep, h] at hsettles
  exact hsettles

theorem steps_of_error {e : OperationError} (h : s.shift op step = .error e) :
    operand.steps op v = (.error e, v) := by
  have hsettles := operand.settles_steps op v
  rw [apply_selection hop hv hstep, h] at hsettles
  exact hsettles

end

end Operand

/-! ## The laws of steps -/

namespace Value

/-- **Selections go round.** Let `n` be the number of symbols, as far as a word of 32 bits can count
them, and `i` the index. If the index names a symbol, then steps that are not negative go to the
remainders of the exact sum and difference, which name symbols too; a step forward and back leaves
the index where it was, and so does a step back and forward unless the way forward is too long for a
word; and two steps in one direction are one step by their sum. In any case a step is refused,
without a trace, if there are no symbols or if the exact sum or difference is no word; otherwise the
index is stored, and it is the exact sum or difference up to whole rounds. -/
theorem selection_goes_round {v : Value} {s : Selection} (hv : v.contents = .selection s)
    {x y z : Operand} {a b c : Int32} (hx : x.number? = some a.toInt)
    (hy : y.number? = some b.toInt) (hz : z.number? = some c.toInt) :
    let n := s.size
    let i := s.index.toInt
    let top := Int32.maxValue.toInt
    let turned (j : Int) : Value := v.withContents (.selection (s.turn j))
    (s.symbols.length ≤ top → n = s.symbols.length) ∧
    (0 ≤ i → i < n →
      (∀ j, (s.turn (j % n)).index.toInt = j % n ∧ 0 ≤ j % n ∧ j % n < n) ∧
      (0 ≤ a.toInt → i + a.toInt ≤ top →
        x.steps .add v = (.ok (), turned ((i + a.toInt) % n)) ∧
        x.steps .subtract v = (.ok (), turned ((i - a.toInt) % n)) ∧
        (do x.steps .add; x.steps .subtract) v = (.ok (), v.withContents v.contents) ∧
        ((i - a.toInt) % n + a.toInt ≤ top →
          (do x.steps .subtract; x.steps .add) v = (.ok (), v.withContents v.contents)) ∧
        (0 ≤ b.toInt → i + a.toInt + b.toInt ≤ top → c.toInt = a.toInt + b.toInt →
          (do x.steps .add; y.steps .add) v = z.steps .add v ∧
          (do x.steps .subtract; y.steps .subtract) v = z.steps .subtract v))) ∧
    ∀ op, op ≠ .assign →
      (s.symbols = [] → x.steps op v = (.error .emptySelection, v)) ∧
      (s.symbols ≠ [] → ¬ Base.integer.Fits (Scalar.combineInt op i a.toInt) →
        x.steps op v = (.error (.outOfRange (Number.ofInt a.toInt)), v)) ∧
      (s.symbols ≠ [] → Base.integer.Fits (Scalar.combineInt op i a.toInt) →
        0 < n ∧ ∃ j, x.steps op v = (.ok (), turned j) ∧ (s.turn j).index.toInt = j ∧
          j % n = Scalar.combineInt op i a.toInt % n) := by
  intro n i top turned
  have hadd : Operator.add ≠ .assign := by decide
  have hsubtract : Operator.subtract ≠ .assign := by decide
  refine ⟨fun h => Int.min_eq_left h, fun h0 hn => ?_, fun op hop => ⟨fun hnone => ?_, ?_, ?_⟩⟩
  · have hs := Selection.symbols_ne_nil_of_lt h0 hn
    -- what an index in the list is folded to is the index itself
    have hback : turned (i % n) = v.withContents v.contents := by
      show v.withContents (.selection (s.turn (i % n))) = _
      rw [Int.emod_eq_of_lt h0 hn, Selection.turn_index, hv]
    refine ⟨Selection.index_turn_emod hs, fun ha hfits => ?_⟩
    have hforward := Operand.steps_of_ok hadd hv hx (Selection.shift_add h0 hn ha hfits)
    have hbackward := Operand.steps_of_ok hsubtract hv hx (Selection.shift_subtract h0 hn ha)
    refine ⟨hforward, hbackward, ?_, fun hlong => ?_, fun hb hfits' hc => ⟨?_, ?_⟩⟩
    · rw [bind_of_ok hforward, ← hback, ← Int.add_sub_cancel i a.toInt]
      exact Operand.steps_of_ok hsubtract rfl hx (Selection.shift_subtract_turn hs ha _)
    · rw [bind_of_ok hbackward, ← hback, ← Int.sub_add_cancel i a.toInt]
      exact Operand.steps_of_ok hadd rfl hx (Selection.shift_add_turn hs ha hlong)
    · -- a step forward never takes the index further than the sum, which is a word
      have hrounds := Int.emod_add_mul_ediv (i + a.toInt) n
      have hnonneg : 0 ≤ n * ((i + a.toInt) / n) :=
        Int.mul_nonneg (by omega) (Int.ediv_nonneg (by omega) (by omega))
      have hround : (i + a.toInt) % n + b.toInt ≤ top := by omega
      rw [bind_of_ok hforward,
        Operand.steps_of_ok hadd rfl hy (Selection.shift_add_turn hs hb hround),
        Operand.steps_of_ok hadd hv hz (Selection.shift_add h0 hn (by omega) (by omega)), hc,
        Int.add_assoc]
      rfl
    · rw [bind_of_ok hbackward,
        Operand.steps_of_ok hsubtract rfl hy (Selection.shift_subtract_turn hs hb _),
        Operand.steps_of_ok hsubtract hv hz (Selection.shift_subtract h0 hn (by omega)), hc,
        Int.sub_sub]
      rfl
  · exact Operand.steps_of_error hop hv hx (Selection.shift_of_empty hop hnone a)
  · intro hs hfits
    exact Operand.steps_of_error hop hv hx (Selection.shift_of_not_fits hop hs hfits)
  · intro hs hfits
    refine ⟨Selection.size_pos hs, _,
      Operand.steps_of_ok hop hv hx (Selection.shift_of_fits hop hs hfits),
      Selection.index_turn ?_, Selection.landing_emod op _ n⟩
    exact Selection.fits_landing op (Selection.size_pos hs) (Selection.size_le s) hfits

/-- The last of three filters: a step of one and a step of five forward are one of six, and a step
back is undone by a step forward, which is the way over the end of the list. -/
theorem selection_goes_round_of_filter :
    let filter : Value := { name := "FILTER", description := "filter wheel",
                            contents := .selection { index := 2, symbols := ["U", "B", "V"] } }
    let one := Operand.written "1"
    let five := Operand.held (.scalar (.integer 5))
    let six := Operand.held (.scalar (.long 6))
    one.number? = some 1 ∧
      (do one.steps .add; five.steps .add) filter = six.steps .add filter ∧
      (do one.steps .subtract; one.steps .add) filter =
        (.ok (), filter.withContents filter.contents) := by
  intro filter one five six
  have hone : one.number? = some (1 : Int32).toInt := by decide +kernel
  have hfive : five.number? = some (5 : Int32).toInt := rfl
  have hsix : six.number? = some (6 : Int32).toInt := rfl
  obtain ⟨-, hlaws, -⟩ := selection_goes_round (v := filter) rfl hone hfive hsix
  obtain ⟨-, hsteps⟩ := hlaws (by decide) (by decide)
  obtain ⟨-, -, -, hback, hsum⟩ := hsteps (by decide) (by decide)
  exact ⟨hone, (hsum (by decide) (by decide) (by decide)).1, hback (by decide)⟩

end Value

end Observatory
