import Mathlib.Data.List.Nodup
import Mathlib.Logic.Relation
import Observatory.Proofs.Value.Mutation
/-!
# Registries

The values of an endpoint. A change in place keeps the profiles of all of them, in their order; a
new value gets a name of its own.

* `Registry.profiles_of_update`, `Registry.profiles_of_create` — the profiles.
* `Registry.Distinct`, `Registry.Sound` — the names are all different, and cells are of the right
  base type.
* `Registry.Evolves` — whatever owners do, a value stays, and a change leaves a mark on it.
-/

namespace Observatory

namespace Registry

/-- What the values are announced as, in their order. -/
def profiles (r : Registry) : List Profile := r.values.map Value.profile

/-- The names are all different. -/
def Distinct (r : Registry) : Prop := (r.profiles.map Profile.name).Nodup

/-- The names are all different, and cells are of the right base type. -/
structure Sound (r : Registry) : Prop where
  distinct : r.Distinct
  proper : ∀ v ∈ r.values, v.contents.Proper

theorem distinct_empty : Distinct {} := by simp [Distinct, profiles]

theorem sound_empty : Sound {} := ⟨distinct_empty, by simp⟩

theorem mem_of_get? {r : Registry} {name : String} {v : Value} (h : r.get? name = some v) :
    v ∈ r.values ∧ v.name = name :=
  ⟨List.mem_of_find?_eq_some h, by simpa using List.find?_some h⟩

theorem profile_mem {r : Registry} {v : Value} (h : v ∈ r.values) : v.profile ∈ r.profiles :=
  List.mem_map_of_mem h

/-- A name stands for one profile. -/
theorem Distinct.profile_eq {r : Registry} (h : r.Distinct) {p q : Profile}
    (hp : p ∈ r.profiles) (hq : q ∈ r.profiles) (hname : p.name = q.name) : p = q :=
  List.inj_on_of_nodup_map h hp hq hname

theorem map_name_profiles (r : Registry) :
    r.profiles.map Profile.name = r.values.map Value.name := by
  rw [profiles, List.map_map]
  rfl

/-- A value is found under its name. -/
theorem Distinct.get?_of_mem {r : Registry} (h : r.Distinct) {v : Value} (hv : v ∈ r.values) :
    r.get? v.name = some v := by
  have hnames : (r.values.map Value.name).Nodup := by
    rw [← map_name_profiles]
    exact h
  have hsome : (r.get? v.name).isSome = true := List.find?_isSome.2 ⟨v, hv, by simp⟩
  obtain ⟨w, hw⟩ := Option.isSome_iff_exists.1 hsome
  obtain ⟨hmem, hname⟩ := mem_of_get? hw
  rw [hw, List.inj_on_of_nodup_map hnames hmem hv hname]

/-! ## Changes in place -/

theorem mem_replaceFirst {name : String} {w x : Value} {vs : List Value}
    (h : x ∈ replaceFirst name w vs) : x = w ∨ x ∈ vs := by
  induction vs with
  | nil => cases h
  | cons v vs ih =>
    unfold replaceFirst at h
    split at h
    · rcases List.mem_cons.1 h with rfl | h
      · exact .inl rfl
      · exact .inr (List.mem_cons_of_mem _ h)
    · rcases List.mem_cons.1 h with rfl | h
      · exact .inr List.mem_cons_self
      · exact (ih h).imp_right (List.mem_cons_of_mem _)

theorem map_replaceFirst {α : Type} {f : Value → α} {name : String} {v w : Value}
    (hw : f w = f v) {vs : List Value} (h : vs.find? (fun u => u.name == name) = some v) :
    (replaceFirst name w vs).map f = vs.map f := by
  induction vs with
  | nil => cases h
  | cons u us ih =>
    rw [List.find?_cons] at h
    unfold replaceFirst
    cases hu : u.name == name with
    | true =>
      rw [hu] at h
      cases h
      rw [if_pos rfl, List.map_cons, List.map_cons, hw]
    | false =>
      rw [hu] at h
      rw [if_neg Bool.false_ne_true, List.map_cons, List.map_cons, ih h]

/-- The value that an operation changed, and what it became. -/
theorem exists_of_update {r s : Registry} {name : String}
    {f : Value → Except OperationError Value} (h : r.update name f = .ok s) :
    ∃ v w, r.get? name = some v ∧ f v = .ok w ∧ s = r.put name w := by
  unfold update at h
  split at h
  · cases h
  · next v hv =>
    obtain ⟨w, hw, rfl⟩ := exists_of_map h
    exact ⟨v, w, hv, hw, rfl⟩

theorem profiles_of_put {r : Registry} {name : String} {v w : Value} (hv : r.get? name = some v)
    (h : w.profile = v.profile) : (r.put name w).profiles = r.profiles :=
  map_replaceFirst h hv

theorem Distinct.put {r : Registry} (hr : r.Distinct) {name : String} {v w : Value}
    (hv : r.get? name = some v) (h : w.profile = v.profile) : (r.put name w).Distinct := by
  unfold Distinct
  rw [profiles_of_put hv h]
  exact hr

theorem Sound.put {r : Registry} (hr : r.Sound) {name : String} {given : Prop} {v w : Value}
    (hv : r.get? name = some v) (hgiven : given) (h : v.Becomes given w) :
    (r.put name w).Sound := by
  refine ⟨hr.distinct.put hv h.profile, fun x hx => ?_⟩
  rcases mem_replaceFirst hx with rfl | hx
  · exact h.proper hgiven (hr.proper v (mem_of_get? hv).1)
  · exact hr.proper x hx

/-! ## New values -/

theorem profiles_of_create {r s : Registry} {v : Value} (h : r.create v = .ok s) :
    s.profiles = r.profiles ++ [v.profile] ∧ s.values = r.values ++ [v.markDirty] ∧
      r.get? v.name = none := by
  unfold create at h
  split at h
  · cases h
  · next hnew =>
    cases h
    simp only [contains, Option.not_isSome_iff_eq_none] at hnew
    exact ⟨by simp [profiles, Value.profile, Value.markDirty, Value.kind], rfl, hnew⟩

theorem Distinct.create {r s : Registry} (hr : r.Distinct) {v : Value}
    (h : r.create v = .ok s) : s.Distinct := by
  obtain ⟨hprofiles, -, hnew⟩ := profiles_of_create h
  unfold Distinct
  rw [hprofiles, List.map_append, List.nodup_append]
  refine ⟨hr, by simp, ?_⟩
  rintro a ha b hb rfl
  simp only [profiles, List.map_map, List.mem_map, Function.comp_apply] at ha
  obtain ⟨u, hu, rfl⟩ := ha
  have hfound := List.find?_eq_none.1 hnew u hu
  simp only [List.map_cons, List.map_nil, List.mem_singleton] at hb
  exact hfound (by simpa [Value.profile] using hb)

theorem Sound.create {r s : Registry} (hr : r.Sound) {v : Value} (hv : v.contents.Proper)
    (h : r.create v = .ok s) : s.Sound := by
  refine ⟨hr.distinct.create h, fun x hx => ?_⟩
  rw [(profiles_of_create h).2.1] at hx
  rcases List.mem_append.1 hx with hx | hx
  · exact hr.proper x hx
  · rw [List.mem_singleton.1 hx]
    exact hv

/-! ## Marks -/

theorem profiles_clearDirty (r : Registry) : r.clearDirty.profiles = r.profiles := by
  simp [profiles, Registry.clearDirty, Value.clearDirty, Value.profile, Value.kind]

theorem get?_clearDirty (name : String) (r : Registry) :
    r.clearDirty.get? name = (r.get? name).map Value.clearDirty := by
  unfold get? Registry.clearDirty
  rw [List.find?_map]
  rfl

theorem Distinct.clearDirty {r : Registry} (hr : r.Distinct) : r.clearDirty.Distinct := by
  unfold Distinct
  rw [profiles_clearDirty]
  exact hr

theorem Sound.clearDirty {r : Registry} (hr : r.Sound) : r.clearDirty.Sound := by
  refine ⟨hr.distinct.clearDirty, fun x hx => ?_⟩
  obtain ⟨v, hv, rfl⟩ := List.mem_map.1 hx
  exact hr.proper v hv

/-! ## What owners do -/

/-- One thing that owners do: a new value, or a change that leaves a mark. -/
inductive Touch : Registry → Registry → Prop
  | create {r s : Registry} {v : Value} (h : r.create v = .ok s) : Touch r s
  | change {r s : Registry} {m : Mutation} {name : String} (hmarks : m.marks = true)
    (h : r.update name m.attempt = .ok s) : Touch r s

/-- Owners did one thing after another. -/
def Reaches : Registry → Registry → Prop := Relation.ReflTransGen Touch

/-- Every value is still there and announced as before, and it is unchanged unless it is marked. -/
def Evolves (r s : Registry) : Prop :=
  ∀ name v, r.get? name = some v →
    ∃ w, s.get? name = some w ∧ w.profile = v.profile ∧ (w.dirty = true ∨ w = v)

theorem Evolves.refl (r : Registry) : Evolves r r := fun _ v h => ⟨v, h, rfl, .inr rfl⟩

theorem Evolves.trans {r s t : Registry} (h : Evolves r s) (h' : Evolves s t) : Evolves r t := by
  intro name u hu
  obtain ⟨v, hv, hprofile, hmark⟩ := h name u hu
  obtain ⟨w, hw, hprofile', hmark'⟩ := h' name v hv
  refine ⟨w, hw, hprofile'.trans hprofile, ?_⟩
  rcases hmark' with hdirty | rfl
  · exact .inl hdirty
  · exact hmark

theorem find?_replaceFirst_of_ne {name n : String} (hn : n ≠ name) {w : Value}
    (hw : w.name = name) (vs : List Value) :
    (replaceFirst name w vs).find? (fun u => u.name == n) = vs.find? fun u => u.name == n := by
  induction vs with
  | nil => rfl
  | cons u us ih =>
    unfold replaceFirst
    split
    · next hu =>
      rw [beq_iff_eq] at hu
      rw [List.find?_cons_of_neg (by simpa [hw] using Ne.symm hn),
        List.find?_cons_of_neg (by simpa [hu] using Ne.symm hn)]
    · rw [List.find?_cons, List.find?_cons, ih]

theorem find?_replaceFirst {name : String} {v w : Value} (hw : w.name = name) {vs : List Value}
    (h : vs.find? (fun u => u.name == name) = some v) :
    (replaceFirst name w vs).find? (fun u => u.name == name) = some w := by
  induction vs with
  | nil => cases h
  | cons u us ih =>
    unfold replaceFirst
    split
    · rw [List.find?_cons_of_pos (by simpa using hw)]
    · next hu =>
      rw [Bool.not_eq_true] at hu
      simp only [List.find?_cons, hu] at h ⊢
      exact ih h

/-- A marked value in the place of one of the same profile. -/
theorem evolves_put {r : Registry} {name : String} {v w : Value} (hv : r.get? name = some v)
    (hprofile : w.profile = v.profile) (hdirty : w.dirty = true) : Evolves r (r.put name w) := by
  have hw : w.name = name := (congrArg Profile.name hprofile).trans (mem_of_get? hv).2
  intro n u hu
  by_cases hn : n = name
  · subst hn
    obtain rfl : v = u := Option.some.inj (hv.symm.trans hu)
    exact ⟨w, find?_replaceFirst hw hv, hprofile, .inl hdirty⟩
  · exact ⟨u, (find?_replaceFirst_of_ne hn hw r.values).trans hu, rfl, .inr rfl⟩

theorem evolves_create {r s : Registry} {v : Value} (h : r.create v = .ok s) : Evolves r s := by
  intro name u hu
  obtain ⟨-, hvalues, -⟩ := profiles_of_create h
  refine ⟨u, ?_, rfl, .inr rfl⟩
  rw [get?, hvalues, List.find?_append, show List.find? _ _ = some u from hu, Option.some_or]

theorem Touch.keeps {r s : Registry} (h : Touch r s) (hr : r.Distinct) :
    s.Distinct ∧ r.Evolves s := by
  cases h with
  | create hcreate => exact ⟨hr.create hcreate, evolves_create hcreate⟩
  | change hmarks hupdate =>
    obtain ⟨v, w, hv, hw, rfl⟩ := exists_of_update hupdate
    obtain ⟨hbecomes, hdirty⟩ := Mutation.becomes_of_attempt hw
    exact ⟨hr.put hv hbecomes.profile, evolves_put hv hbecomes.profile (hdirty hmarks)⟩

/-- **Whatever owners do**, values stay, and changes leave marks. -/
theorem Reaches.keeps {r s : Registry} (h : Reaches r s) (hr : r.Distinct) :
    s.Distinct ∧ r.Evolves s := by
  induction h with
  | refl => exact ⟨hr, .refl r⟩
  | tail _ hstep ih =>
    obtain ⟨hdistinct, hevolves⟩ := ih
    obtain ⟨hdistinct', hevolves'⟩ := hstep.keeps hdistinct
    exact ⟨hdistinct', hevolves.trans hevolves'⟩

end Registry

end Observatory
