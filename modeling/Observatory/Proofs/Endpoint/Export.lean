import Observatory.Proofs.Endpoint.Copies
import Observatory.Proofs.Value.Shown
/-!
# What children are told of peers

On request the environment of a child describes every peer. Names are cleaned for that: whatever
values and symbols a peer announces, the name of a variable is one that the system takes. What
values show is passed on as it is, and the system passes on no variable with the character of code
zero in it. So a peer whose string or selected symbol holds that character keeps such children from
being started, as long as its copy shows it and no later variable has the same name; and only
records that bring the character in can do that.

* `Helper.isKey_of_mem_environment`, `Helper.nul_mem_environment_iff` — the variables.
* `Endpoint.spawn_export_iff` — when a child that is told of the peers is started.
* `Connection.cleanCopies_dispatch` — what a record brings in.
* `Endpoint.export_harmless_iff` — a whole run.
-/

namespace Observatory

open Text (NulFree numeral_natText)

/-! ## The variables -/

/-- Whether one of the copies shows the character of code zero, in one of the texts that are shown
as they are. -/
def Connection.ShowsNul {τ : Type} (c : Connection τ) : Prop :=
  ∃ p ∈ c.replicas, ∃ t ∈ p.2.value.contents.spoken, '\x00' ∈ t

namespace Helper

variable {τ : Type}

/-- A text that may be part of the name of a variable. -/
def IsLabel (text : String) : Prop := '=' ∉ text.toList ∧ '\x00' ∉ text.toList

instance (text : String) : Decidable (IsLabel text) := inferInstanceAs (Decidable (_ ∧ _))

/-- A text that may be the name of a variable. -/
def IsKey (text : String) : Prop := text ≠ "" ∧ IsLabel text

theorem IsLabel.append {a b : String} (ha : IsLabel a) (hb : IsLabel b) : IsLabel (a ++ b) := by
  unfold IsLabel
  rw [String.toList_append, List.mem_append, List.mem_append, not_or, not_or]
  exact ⟨⟨ha.1, hb.1⟩, ha.2, hb.2⟩

theorem isLabel_numeral {cs : List Char} (h : Text.Numeral cs) : IsLabel (String.ofList cs) := by
  unfold IsLabel
  rw [String.toList_ofList]
  exact ⟨fun hmem => absurd (h _ hmem) (by decide), h.nul_not_mem⟩

theorem isLabel_envName (cs : List Char) : IsLabel (String.ofList (Text.envName cs)) := by
  have hnot {bad : Char} (hbad : bad.isAlphanum = false) (hline : bad ≠ '_') :
      bad ∉ Text.envName cs := by
    intro hmem
    obtain ⟨c, -, hc⟩ := List.mem_map.1 hmem
    split at hc
    · next halnum =>
      rw [hc, hbad] at halnum
      cases halnum
    · exact hline hc.symm
  unfold IsLabel
  rw [String.toList_ofList]
  exact ⟨hnot (by decide) (by decide), hnot (by decide) (by decide)⟩

/-- What the variables of a connection start with: its name, or the number of a central server. -/
def Labels (label : String) (c : Connection τ) : Prop :=
  label = c.name ∨ ∃ n : Nat, label = s!"centrald{n}"

theorem Labels.isLabel {label : String} {c : Connection τ} (h : Labels label c)
    (hname : IsLabel c.name) : IsLabel label := by
  rcases h with rfl | ⟨n, rfl⟩
  · exact hname
  · have hnumber : toString n = String.ofList (Number.natText n) :=
      String.toList_inj.1 (by rw [String.toList_ofList]; exact Nat.toList_repr)
    have hcentral : IsLabel "centrald" := by decide
    show IsLabel ("centrald" ++ toString n)
    rw [hnumber]
    exact hcentral.append (isLabel_numeral (numeral_natText n))

theorem isKey_of_mem_describe {label : String} (hlabel : IsLabel label) {c : Connection τ}
    {p : String × String} (hp : p ∈ describe label c) : IsKey p.1 := by
  have hkey {rest : String} (hne : rest ≠ "") (hrest : IsLabel rest) : IsKey (label ++ rest) :=
    ⟨fun h => hne (String.append_eq_empty_iff.1 h).2, hlabel.append hrest⟩
  rcases List.mem_cons.1 hp with rfl | hp
  · exact hkey (by decide) (by decide)
  · obtain ⟨⟨name, r⟩, -, rfl⟩ := List.mem_map.1 hp
    dsimp only
    rw [String.append_assoc]
    have hline : IsLabel "_" := by decide
    refine hkey (fun h => ?_) (hline.append (isLabel_envName _))
    exact absurd (String.append_eq_empty_iff.1 h).1 (by decide)

theorem nul_mem_describe_iff (label : String) (c : Connection τ) :
    (∃ p ∈ describe label c, '\x00' ∈ p.2.toList) ↔ c.ShowsNul := by
  have hstate : '\x00' ∉ (String.ofList (Number.natText c.status.bits.toNat)).toList :=
    (isLabel_numeral (numeral_natText _)).2
  have hshown (r : Replica) : '\x00' ∈ r.value.display.toList ↔
      ∃ t ∈ r.value.contents.spoken, '\x00' ∈ t := by
    rw [← Contents.nul_mem_display_iff, Value.display, String.toList_ofList]
  constructor
  · rintro ⟨p, hp, hnul⟩
    rcases List.mem_cons.1 hp with rfl | hp
    · exact absurd hnul hstate
    · obtain ⟨⟨name, r⟩, hr, rfl⟩ := List.mem_map.1 hp
      exact ⟨_, hr, (hshown r).1 hnul⟩
  · rintro ⟨⟨name, r⟩, hr, hspoken⟩
    exact ⟨_, List.mem_cons_of_mem _ (List.mem_map_of_mem hr), (hshown r).2 hspoken⟩

/-- Every variable is one of a connection, -/
theorem exists_of_mem_describeAll {seen : Nat} {items : List (Connection τ)}
    {p : String × String} (hp : p ∈ describeAll seen items) :
    ∃ c ∈ items, ∃ label, Labels label c ∧ p ∈ describe label c := by
  induction items generalizing seen with
  | nil => cases hp
  | cons c rest ih =>
    have hlater {n : Nat} (hp : p ∈ describeAll n rest) :
        ∃ d ∈ c :: rest, ∃ label, Labels label d ∧ p ∈ describe label d := by
      obtain ⟨d, hd, hdescribed⟩ := ih hp
      exact ⟨d, List.mem_cons_of_mem _ hd, hdescribed⟩
    unfold describeAll at hp
    split at hp
    · rcases List.mem_append.1 hp with hp | hp
      · exact ⟨c, List.mem_cons_self, _, .inr ⟨_, rfl⟩, hp⟩
      · exact hlater hp
    · rcases List.mem_append.1 hp with hp | hp
      · exact ⟨c, List.mem_cons_self, _, .inl rfl, hp⟩
      · exact hlater hp

/-- and the variables of every connection are among them. -/
theorem exists_describe_subset {items : List (Connection τ)} {c : Connection τ} (hc : c ∈ items)
    (seen : Nat) : ∃ label, describe label c ⊆ describeAll seen items := by
  induction items generalizing seen with
  | nil => cases hc
  | cons d rest ih =>
    unfold describeAll
    rcases List.mem_cons.1 hc with rfl | hc
    · split
      · exact ⟨_, List.subset_append_left _ _⟩
      · exact ⟨_, List.subset_append_left _ _⟩
    · split
      · obtain ⟨label, hlabel⟩ := ih hc (seen + 1)
        exact ⟨label, List.subset_append_of_subset_right _ hlabel⟩
      · obtain ⟨label, hlabel⟩ := ih hc seen
        exact ⟨label, List.subset_append_of_subset_right _ hlabel⟩

/-- **Names of variables.** The system takes every one of them, where it takes the names of the
connections. -/
theorem isKey_of_mem_environment {t : Connections τ} (hnames : ∀ c ∈ t.items, IsLabel c.name)
    {p : String × String} (hp : p ∈ environment t) : IsKey p.1 := by
  obtain ⟨c, hc, label, hlabels, hp⟩ := exists_of_mem_describeAll hp
  exact isKey_of_mem_describe (hlabels.isLabel (hnames c (List.mem_of_mem_filter hc))) hp

/-- **Texts of variables.** One of them holds the character of code zero exactly if a copy of a
connection that is described shows it. -/
theorem nul_mem_environment_iff (t : Connections τ) :
    (∃ p ∈ environment t, '\x00' ∈ p.2.toList) ↔
      ∃ c ∈ t.items, isDescribed c = true ∧ c.ShowsNul := by
  constructor
  · rintro ⟨p, hp, hnul⟩
    obtain ⟨c, hc, label, -, hp⟩ := exists_of_mem_describeAll hp
    obtain ⟨hmem, hdescribed⟩ := List.mem_filter.1 hc
    exact ⟨c, hmem, hdescribed, (nul_mem_describe_iff label c).1 ⟨p, hp, hnul⟩⟩
  · rintro ⟨c, hmem, hdescribed, hshows⟩
    obtain ⟨label, hsubset⟩ := exists_describe_subset (List.mem_filter.2 ⟨hmem, hdescribed⟩) 0
    obtain ⟨p, hp, hnul⟩ := (nul_mem_describe_iff label c).2 hshows
    exact ⟨p, hsubset hp, hnul⟩

end Helper

/-! ## Starting a child -/

namespace HelperSpec

/-- Whether a system starts the program at a path: always, unless the character of code zero is in
what it is to pass on. -/
def Runs {τ : Type} (start : HelperSpec → Except String (StartedHelper τ)) (path : String) : Prop :=
  ∀ spec : HelperSpec, spec.path = path → (start spec).isOk = !spec.holdsNul

theorem counting_subset (env : List (String × String)) : counting env ⊆ env := by
  intro p hp
  induction env with
  | nil => cases hp
  | cons q rest ih =>
    unfold counting at hp
    split at hp
    · exact List.mem_cons_of_mem _ (ih hp)
    · rcases List.mem_cons.1 hp with rfl | hp
      · exact List.mem_cons_self
      · exact List.mem_cons_of_mem _ (ih hp)

/-- Variables that come later take the place of those with the same name. -/
theorem counting_append (env more : List (String × String)) : counting (env ++ more) =
    ((counting env).filter fun p => !more.any fun q => q.1 == p.1) ++ counting more := by
  induction env with
  | nil => rfl
  | cons q rest ih =>
    obtain ⟨key, value⟩ := q
    rw [List.cons_append, counting, counting, List.any_append, ih]
    cases rest.any fun q => q.1 == key with
    | true => simp
    | false =>
      cases hmore : more.any fun q => q.1 == key with
      | true => simp [hmore]
      | false => simp [hmore]

/-- More variables are passed on, beside what can be passed on. -/
theorem holdsNul_append_iff {s : HelperSpec} (hs : s.holdsNul = false)
    (more : List (String × String)) :
    ({ s with env := s.env ++ more } : HelperSpec).holdsNul = true ↔
      ∃ p ∈ counting more, '\x00' ∈ p.1.toList ∨ '\x00' ∈ p.2.toList := by
  have hcounting : (counting s.env).any (fun p => p.1.toList.contains '\x00' ||
      p.2.toList.contains '\x00') = false := (Bool.or_eq_false_iff.1 hs).2
  have hothers : (s.path.toList.contains '\x00' ||
      s.args.any fun text => text.toList.contains '\x00') = false := (Bool.or_eq_false_iff.1 hs).1
  have hkept : ((counting s.env).filter fun p => !more.any fun q => q.1 == p.1).any
      (fun p => p.1.toList.contains '\x00' || p.2.toList.contains '\x00') = false := by
    rw [List.any_eq_false] at hcounting ⊢
    exact fun p hp => hcounting p (List.mem_of_mem_filter hp)
  unfold holdsNul
  dsimp only
  rw [hothers, Bool.false_or, counting_append, List.any_append, hkept, Bool.false_or]
  simp

end HelperSpec

namespace Endpoint

variable {τ σ ℓ η : Type}

/-- Starts a child over a system and takes it in. -/
def spawn (start : HelperSpec → Except String (StartedHelper τ)) (exportState : Bool)
    (spec : HelperSpec) (now : Instant) (e : Endpoint τ σ ℓ η) :
    Except LinkError (ConnId × Endpoint τ σ ℓ η) :=
  let spec := e.completeSpec exportState spec
  e.adopt spec (start spec) now

/-- A child is taken in if the system starts it and the clock can count to its deadline. -/
theorem isOk_adopt (spec : HelperSpec) (started : Except String (StartedHelper τ))
    (now : Instant) (e : Endpoint τ σ ℓ η) :
    (e.adopt spec started now).isOk = (started.isOk && (deadline spec now).isOk) := by
  cases started with
  | error reason => rfl
  | ok child =>
    cases hdeadline : deadline spec now with
    | error cause =>
      rw [adopt_of_deadline hdeadline]
      rfl
    | ok limit =>
      rw [adopt_of_deadline_ok hdeadline]
      rfl

/-- **Starting a child that is told of the peers**, where it can be started without that, succeeds
exactly if no variable that counts holds the character of code zero. -/
theorem spawn_export_iff {start : HelperSpec → Except String (StartedHelper τ)} {spec : HelperSpec}
    (hstart : HelperSpec.Runs start spec.path) {e : Endpoint τ σ ℓ η}
    (hnames : ∀ c ∈ e.connections.items, Helper.IsLabel c.name) {now : Instant}
    (hplain : (e.spawn start false spec now).isOk = true) :
    (e.spawn start true spec now).isOk = true ↔
      ∀ p ∈ HelperSpec.counting (Helper.environment e.connections), '\x00' ∉ p.2.toList := by
  have hdeadline : deadline (e.completeSpec true spec) now =
      deadline (e.completeSpec false spec) now := rfl
  unfold spawn at hplain ⊢
  dsimp only at hplain ⊢
  rw [isOk_adopt, hstart (e.completeSpec false spec) rfl, Bool.and_eq_true, Bool.not_eq_true']
    at hplain
  have hholds : (e.completeSpec true spec).holdsNul = true ↔
      ∃ p ∈ HelperSpec.counting (Helper.environment e.connections), '\x00' ∈ p.2.toList := by
    refine (HelperSpec.holdsNul_append_iff hplain.1 (Helper.environment e.connections)).trans ?_
    refine exists_congr fun p => and_congr_right fun hp => or_iff_right ?_
    exact (Helper.isKey_of_mem_environment hnames (HelperSpec.counting_subset _ hp)).2.2
  rw [isOk_adopt, hstart (e.completeSpec true spec) rfl, hdeadline, hplain.2, Bool.and_true,
    Bool.not_eq_true', ← Bool.not_eq_true, hholds]
  push Not
  rfl

end Endpoint

/-! ## What records bring in -/

/-- A record that can bring the character of code zero into a copy: a text that holds it or spells
it, or a symbol that holds it. -/
def Record.BringsNul : Record → Prop
  | value _ text => ¬ NulFree text.toList
  | symbolInfo _ symbol => '\x00' ∈ symbol.toList
  | _ => False

/-- No copy holds the character of code zero in its texts. -/
def CleanCopies (replicas : List (String × Replica)) : Prop :=
  ∀ p ∈ replicas, p.2.value.contents.Clean

theorem CleanCopies.not_showsNul {τ : Type} {c : Connection τ} (h : CleanCopies c.replicas) :
    ¬ c.ShowsNul := by
  rintro ⟨p, hp, t, ht, hnul⟩
  exact h p hp t (Contents.spoken_subset_held _ ht) hnul

theorem CleanCopies.insertReplica {rs : List (String × Replica)} (h : CleanCopies rs)
    (name : String) {r : Replica} (hr : r.value.contents.Clean) :
    CleanCopies (Connection.insertReplica name r rs) := by
  induction rs with
  | nil => simpa [CleanCopies, Connection.insertReplica] using hr
  | cons entry rs ih =>
    obtain ⟨hentry, hrest⟩ := List.forall_mem_cons.1 h
    unfold Connection.insertReplica
    split
    · exact List.forall_mem_cons.2 ⟨hr, hrest⟩
    · split
      · exact List.forall_mem_cons.2 ⟨hr, h⟩
      · exact List.forall_mem_cons.2 ⟨hentry, ih hrest⟩

theorem CleanCopies.of_replica {τ : Type} {c : Connection τ} (h : CleanCopies c.replicas)
    {name : String} {r : Replica} (hr : c.replica? name = some r) : r.value.contents.Clean := by
  obtain ⟨before, behind, hsplit, -⟩ := List.lookup_eq_some_iff.1 hr
  exact h (name, r) (by rw [hsplit]; simp)

namespace Replica

theorem clean_of_announce {word : UInt32} {name description : String} {r : Replica}
    (h : announce word name description = .ok r) : r.value.contents.Clean := by
  obtain ⟨kind, -, h⟩ := Record.exists_of_bind h
  cases h
  exact Contents.clean_default kind

theorem clean_of_receive {r s : Replica} {text : String} (hr : r.value.contents.Clean)
    (htext : NulFree text.toList) (h : r.receive text = .ok s) : s.value.contents.Clean := by
  obtain ⟨v, hv, h⟩ := Record.exists_of_bind h
  cases h
  unfold Value.set at hv
  cases hparse : r.value.contents.parse text.toList with
  | error e =>
    rw [hparse] at hv
    cases hv
  | ok d =>
    rw [hparse] at hv
    cases hv
    exact hr.of_parse htext hparse

theorem clean_addSymbol {r : Replica} (hr : r.value.contents.Clean) {symbol : String}
    (hsymbol : '\x00' ∉ symbol.toList) : (r.addSymbol symbol).value.contents.Clean := by
  unfold addSymbol
  split
  · next s hs =>
    rw [hs] at hr
    intro t ht
    obtain ⟨other, hother, rfl⟩ := List.mem_map.1 ht
    rcases List.mem_append.1 hother with hother | hother
    · exact hr _ (List.mem_map_of_mem hother)
    · rwa [List.mem_singleton.1 hother]
  · exact hr

end Replica

namespace Connection

variable {τ σ : Type}

/-- **One record** that brings nothing in leaves the copies clean. -/
theorem cleanCopies_dispatch (dev : Device σ) (t : Turn τ σ) (r : Record) (hr : ¬ r.BringsNul)
    (h : CleanCopies t.conn.replicas) : CleanCopies (dispatch dev r t).1.conn.replicas := by
  have hsame {d : Connection τ} (hd : d.replicas = t.conn.replicas) : CleanCopies d.replicas := by
    rwa [hd]
  cases r with
  | value name text =>
    show CleanCopies (t.conn.replicate name text).1.replicas
    unfold replicate
    cases hfound : t.conn.replica? name with
    | none => exact h
    | some r =>
      dsimp only
      cases hreceive : r.receive text with
      | error e => exact h
      | ok s =>
        have htext : NulFree text.toList := not_not.1 hr
        exact h.insertReplica name (Replica.clean_of_receive (h.of_replica hfound) htext hreceive)
  | metaInfo code name description =>
    show CleanCopies (t.conn.announce code name description).1.replicas
    unfold announce
    cases hannounce : Replica.announce code name description with
    | error e => exact h
    | ok s => exact h.insertReplica name (Replica.clean_of_announce hannounce)
  | symbolInfo name symbol =>
    show CleanCopies (t.conn.announceSymbol name symbol).replicas
    unfold announceSymbol
    cases hfound : t.conn.replica? name with
    | none => exact h
    | some r => exact h.insertReplica name (Replica.clean_addSymbol (h.of_replica hfound) hr)
  | status bits => exact hsame (replicas_receiveStatus bits t.conn)
  | blocking bits => exact h
  | message m => exact h
  | technical text => exact hsame (replicas_receiveTechnical text t.conn)
  | reply code reason => exact hsame (replicas_receiveReply code reason t.conn)
  | set name op text => exact hsame (replicas_receiveSet dev name op text t)
  | command opcode params => exact hsame (replicas_receiveCommand dev opcode params t)

end Connection

/-! ## A whole run -/

namespace Endpoint

open Helper (IsLabel IsKey isDescribed environment)
open Happening (run heardDuring)

variable {τ σ ℓ η : Type}

/-- **Exported state.** After any run of an endpoint, and where the names of its connections can be
part of the name of a variable: every variable has a name that the system takes. A variable holds
the character of code zero exactly if a copy of a connection that is described shows it. A program
that is started without the variables is started with them exactly if none of those that count
holds it. And no copy shows it unless a record that was handled during the run brought it in, or it
was there before. -/
theorem export_harmless_iff (w : Wiring τ σ ℓ η) {e : Endpoint τ σ ℓ η} (hn : e.Numbered)
    (hs : List (Happening τ ℓ)) (hnames : ∀ c ∈ (run w hs e).connections.items, IsLabel c.name) :
    (∀ p ∈ environment (run w hs e).connections, IsKey p.1) ∧
    ((∃ p ∈ environment (run w hs e).connections, '\x00' ∈ p.2.toList) ↔
      ∃ c ∈ (run w hs e).connections.items, isDescribed c = true ∧ c.ShowsNul) ∧
    (∀ (start : HelperSpec → Except String (StartedHelper τ)) (spec : HelperSpec) (now : Instant),
      HelperSpec.Runs start spec.path → ((run w hs e).spawn start false spec now).isOk = true →
      (((run w hs e).spawn start true spec now).isOk = true ↔
        ∀ p ∈ HelperSpec.counting (environment (run w hs e).connections), '\x00' ∉ p.2.toList)) ∧
    ((∀ c ∈ e.connections.items, CleanCopies c.replicas) →
      (∀ r ∈ heardDuring w hs e, ¬ r.BringsNul) →
      ∀ c ∈ (run w hs e).connections.items, ¬ c.ShowsNul) := by
  refine ⟨fun p hp => Helper.isKey_of_mem_environment hnames hp, Helper.nul_mem_environment_iff _,
    fun start spec now hstart hplain => spawn_export_iff hstart hnames hplain,
    fun hclean hheard c hc => ?_⟩
  have hkept := Happening.copies_run (Connection.cleanCopies_dispatch w.device)
    (fun _ h => by cases h) hn hheard hclean
  exact (hkept c hc).not_showsNul

/-- A device that pushes a plain remark, and a child that is told of it. -/
theorem export_harmless_of_remark :
    let w : Wiring Wire Unit Unit Event := ⟨Wire.transport, Device.passive, fun _ _ => .done ()⟩
    let e : Endpoint Wire Unit Unit Event := { settings := {}, device := () }
    let hs : List (Happening Wire Unit) := [.add .device "FOC" 0,
      .hear 1 1 (Text.Utf8.encode "METAINFO 1 \"NOTE\" \"remark\"\nV NOTE \"in focus\"\n")]
    let start : HelperSpec → Except String (StartedHelper Wire) := fun spec =>
      if spec.holdsNul then .error "nul byte found in provided data" else .ok ⟨7, {}, {}⟩
    let spec : HelperSpec := { name := "dome", path := "/bin/sh" }
    environment (run w hs e).connections = [("FOC_state", "0"), ("FOC_NOTE", "in focus")] ∧
      ((run w hs e).spawn start true spec 2).isOk = true := by
  intro w e hs start spec
  have hn : e.Numbered := ⟨.nil, fun _ h => by cases h⟩
  have hnames : ∀ c ∈ (run w hs e).connections.items, IsLabel c.name := by decide +kernel
  have hstart : HelperSpec.Runs start spec.path := by
    intro s _
    dsimp only [start]
    cases s.holdsNul <;> rfl
  have hheard : heardDuring w hs e =
      [.metaInfo 1 "NOTE" "remark", .value "NOTE" "\"in focus\""] := by decide +kernel
  have hplain : NulFree "\"in focus\"".toList := ⟨by decide +kernel, by decide +kernel⟩
  obtain ⟨-, henvironment, hspawn, hshown⟩ := export_harmless_iff w hn hs hnames
  refine ⟨by decide +kernel, (hspawn start spec 2 hstart (by decide +kernel)).2 fun p hp hnul => ?_⟩
  obtain ⟨c, hc, -, hshows⟩ := henvironment.1 ⟨p, HelperSpec.counting_subset _ hp, hnul⟩
  refine hshown (fun _ h => by cases h) (fun r hr => ?_) c hc hshows
  rw [hheard] at hr
  rcases List.mem_cons.1 hr with rfl | hr
  · exact fun h => h
  · rw [List.mem_singleton.1 hr]
    exact not_not.2 hplain

/-- A device that pushes a remark in which an escape stands for the character of code zero: no child
is started that is told of it, though the same child is started when it is not. -/
theorem export_fails_of_escape :
    let w : Wiring Wire Unit Unit Event := ⟨Wire.transport, Device.passive, fun _ _ => .done ()⟩
    let e : Endpoint Wire Unit Unit Event := { settings := {}, device := () }
    let hs : List (Happening Wire Unit) := [.add .device "FOC" 0,
      .hear 1 1 (Text.Utf8.encode "METAINFO 1 \"NOTE\" \"remark\"\nV NOTE \"a\\0b\"\n")]
    let start : HelperSpec → Except String (StartedHelper Wire) := fun spec =>
      if spec.holdsNul then .error "nul byte found in provided data" else .ok ⟨7, {}, {}⟩
    let spec : HelperSpec := { name := "dome", path := "/bin/sh" }
    (∀ c ∈ (run w hs e).connections.items, IsLabel c.name) ∧ HelperSpec.Runs start spec.path ∧
      environment (run w hs e).connections = [("FOC_state", "0"), ("FOC_NOTE", "a\x00b")] ∧
      ((run w hs e).spawn start true spec 2).map Prod.fst =
        .error (.spawn "/bin/sh" "nul byte found in provided data") ∧
      ((run w hs e).spawn start false spec 2).map Prod.fst = .ok 2 := by
  intro w e hs start spec
  refine ⟨by decide +kernel, fun s _ => ?_, by decide +kernel, by decide +kernel,
    by decide +kernel⟩
  dsimp only [start]
  cases s.holdsNul <;> rfl

end Endpoint

end Observatory
