import Observatory.Proofs.Value.Mutation
/-!
# Replicas

What a peer makes of the announcement of a value and of its pushes. A replica with the profile of
a value takes over its text and then holds what the value held.

* `typeWord_kind`, `typeWord_flags` — a type word is taken apart again.
* `Replica.announce_profile` — an announcement gives a replica with the profile of the value.
* `Replica.receive_text` — a push gives it the data of the value.
-/

namespace Observatory

/-! ## Type words -/

theorem and_or_of_disjoint {a b m n : UInt32} (hn : m &&& n = n) (hb : b &&& m = 0) :
    (a ||| b) &&& n = a &&& n := by
  have hdistrib : (a ||| b) &&& m = a &&& m := by
    apply UInt32.toBitVec_inj.1
    have hzero := congrArg UInt32.toBitVec hb
    simp only [UInt32.toBitVec_and, UInt32.toBitVec_or] at hzero ⊢
    rw [BitVec.and_or_distrib_right, hzero]
    exact BitVec.or_zero
  rw [← hn, ← UInt32.and_assoc, hdistrib, UInt32.and_assoc]

/-- Flags leave the bits of the kind alone. -/
theorem Flags.bits_and_kind (f : Flags) : f.bits &&& 0xfff = 0 := by
  obtain ⟨writable, fits, hint⟩ := f
  cases writable <;> cases fits <;> cases hint <;> rfl

/-- Kinds leave the bits of the flags alone. -/
theorem Kind.code_and_flags (k : Kind) : k.code &&& 0xffff0000 = 0 := by
  cases k with
  | scalar b => cases b <;> rfl
  | selection => rfl
  | bounded => rfl
  | rectangle b => cases b <;> rfl
  | series b => cases b <;> rfl

theorem typeWord_kind {k : Kind} (hk : k.isAnnounceable = true) (f : Flags) :
    Kind.ofCode (k.code ||| f.bits) = .ok k := by
  have hsame : Kind.ofCode (k.code ||| f.bits) = Kind.ofCode k.code := by
    unfold Kind.ofCode
    rw [and_or_of_disjoint (n := 0xfff) (by decide) f.bits_and_kind,
      and_or_of_disjoint (n := 0xff) (by decide) f.bits_and_kind,
      and_or_of_disjoint (n := 0xf00) (by decide) f.bits_and_kind]
  rw [hsame, Kind.ofCode_code hk]

theorem typeWord_flags (k : Kind) (f : Flags) : Flags.ofBits (k.code ||| f.bits) = f := by
  have hsame : Flags.ofBits (k.code ||| f.bits) = Flags.ofBits f.bits := by
    unfold Flags.ofBits
    rw [UInt32.or_comm, and_or_of_disjoint (n := 0x02000000) (by decide) k.code_and_flags,
      and_or_of_disjoint (n := 0x01000000) (by decide) k.code_and_flags,
      and_or_of_disjoint (n := 0x00ff0000) (by decide) k.code_and_flags]
  rw [hsame, Flags.ofBits_bits]

/-! ## Plain values -/

namespace Contents

@[simp] theorem kind_unmarked (c : Contents) : c.unmarked.kind = c.kind := by
  cases c <;> rfl

@[simp] theorem symbols_unmarked (c : Contents) : c.unmarked.symbols = c.symbols := by
  cases c <;> rfl

theorem kind_default (k : Kind) : (default k).kind = k := by
  cases k with
  | scalar b => exact congrArg Kind.scalar (Scalar.base_default b)
  | _ => rfl

theorem symbols_default (k : Kind) : (default k).symbols = [] := by
  cases k <;> rfl

end Contents

namespace Value

/-- The value without any mark of a change. -/
def plain (v : Value) : Value := { v with dirty := false, contents := v.contents.unmarked }

@[simp] theorem profile_plain (v : Value) : v.plain.profile = v.profile := by
  simp [plain, profile, kind]

/-- A value that can be pushed without loss: its kind can be announced, its cells are of the right
base type, and its text says it all. -/
structure Sendable (v : Value) : Prop where
  announceable : v.kind.isAnnounceable = true
  proper : v.contents.Proper
  telling : v.contents.IsTelling

end Value

/-! ## Replicas -/

namespace Replica

/-- The profile of an announced value before its symbols are known. -/
theorem announce_profile {v : Value} (hk : v.kind.isAnnounceable = true) :
    ∃ r, announce v.typeWord v.name v.description = .ok r ∧
      r.value.profile = { v.profile with symbols := [] } := by
  refine ⟨⟨{ Value.new v.name v.description v.kind with flags := v.flags }⟩, ?_, ?_⟩
  · unfold announce Value.typeWord
    rw [typeWord_kind hk, typeWord_flags]
    rfl
  · simp only [Value.profile, Value.kind, Value.new, Contents.kind_default,
      Contents.symbols_default]

theorem profile_addSymbol {r : Replica} (h : r.value.kind = .selection) (symbol : String) :
    (r.addSymbol symbol).value.profile =
      { r.value.profile with symbols := r.value.profile.symbols ++ [symbol] } := by
  unfold addSymbol
  unfold Value.kind at h
  split
  · next s hs => simp [Value.profile, Value.kind, hs, Contents.kind, Contents.symbols]
  · next hother =>
    cases hc : r.value.contents with
    | selection s => exact absurd hc (hother s)
    | _ =>
      rw [hc] at h
      cases h

/-- The symbols are added one after the other. -/
theorem profile_addSymbols {symbols : List String} {r : Replica} (h : r.value.kind = .selection) :
    (symbols.foldl (fun r symbol => r.addSymbol symbol) r).value.profile =
      { r.value.profile with symbols := r.value.profile.symbols ++ symbols } := by
  induction symbols generalizing r with
  | nil => simp
  | cons symbol symbols ih =>
    have hstep := profile_addSymbol h symbol
    have hkind : (r.addSymbol symbol).value.kind = .selection :=
      (congrArg Profile.kind hstep).trans h
    rw [List.foldl_cons, ih hkind, hstep]
    simp

/-- Only selections have symbols. -/
theorem kind_of_symbols {v : Value} (h : v.contents.symbols ≠ []) : v.kind = .selection := by
  unfold Value.kind
  cases hc : v.contents with
  | selection s => rfl
  | _ =>
    rw [hc] at h
    exact absurd rfl h

/-- **A push** gives a replica with the profile of the value the data of the value. -/
theorem receive_text {r : Replica} {v : Value} (hprofile : r.value.profile = v.profile)
    (hv : v.Sendable) : ∃ s, r.receive v.text = .ok s ∧ s.value.plain = v.plain := by
  simp only [Value.profile, Profile.mk.injEq] at hprofile
  obtain ⟨hname, hdescription, hflags, hkind, hsymbols⟩ := hprofile
  obtain ⟨d, hparse, hd⟩ := Contents.parse_encode hkind hsymbols hv.proper hv.telling
  refine ⟨⟨(r.value.withContents d).clearDirty⟩, ?_, ?_⟩
  · unfold receive Value.set Value.text
    rw [String.toList_ofList, hparse]
    rfl
  · simp only [Value.plain, Value.clearDirty, Value.withContents, hname, hdescription, hflags, hd]

end Replica

end Observatory
