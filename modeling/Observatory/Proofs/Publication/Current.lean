import Observatory.Proofs.Publication.Publisher
import Observatory.Proofs.Publication.Told
/-!
# Keeping a peer informed

What a peer was told of a value is nothing, or the announcement of the value once and pushes
behind it. A subscriber holds what the value is now, unless the value carries a mark; so taking
all marks off at once is safe exactly when every marked value was pushed to every subscriber.

* `Connection.Informs` — the invariant between the values and one connection.
* `Connection.Informs.publish` — pushing all marked values makes up for taking the marks off.
* `Connection.keeps_receive` — the bytes of a peer.
-/

namespace Observatory

open Framing (stream)

/-! ## Pushes of one value -/

theorem Value.about?_of_mem_pushRecords {v : Value} {names : List String} {r : Record}
    (h : r ∈ v.pushRecords names) : r.about? = some v.name := by
  unfold pushRecords at h
  rcases List.mem_append.1 h with h | h
  · split at h
    · cases h
    · rw [metaRecords_eq] at h
      rcases List.mem_cons.1 h with rfl | h
      · rfl
      · obtain ⟨symbol, -, rfl⟩ := List.mem_map.1 h
        rfl
  · rw [List.mem_singleton.1 h]
    rfl

/-- The lines that push a value are all about it. -/
theorem Value.filter_pushRecords (v : Value) (names : List String) (name : String) :
    (recordLines (v.pushRecords names)).filter (fun l => lineAbout? l == some name) =
      if v.name = name then recordLines (v.pushRecords names) else [] := by
  rw [filter_recordLines fun r hr => (isPlain_of_mem_pushRecords hr).1]
  split
  · next h =>
    rw [List.filter_eq_self.2 fun r hr => by rw [about?_of_mem_pushRecords hr, h, beq_self_eq_true]]
  · next h =>
    rw [List.filter_eq_nil_iff.2 fun r hr => by rw [about?_of_mem_pushRecords hr]; simpa using h]
    rfl

namespace Connection

variable {τ σ : Type}

/-! ## What a peer knows -/

/-- A peer was told nothing of a value that was not announced to it. It was told of an announced
value once what it is, and then what it holds; the last push says what a current value holds. -/
structure Tells (values : Registry) (current : Value → Prop) (c : Connection τ) : Prop where
  unknown : ∀ name, name ∉ c.announced → c.told name = []
  known : ∀ name ∈ c.announced, ∃ v, values.get? name = some v ∧ ∃ (texts : List String)
    (last : String), c.told name =
      recordLines (v.metaRecords ++ (texts ++ [last]).map (Record.value name)) ∧
    (current v → last = v.text)

/-- What a peer is told when a value is pushed. -/
theorem told_sendValue {c : Connection τ} (hc : c.IsWhole) (v : Value) :
    (c.sendValue v).IsWhole ∧ ∀ name, (c.sendValue v).told name =
      c.told name ++ if v.name = name then recordLines (v.pushRecords c.announced) else [] := by
  have houtput : (c.sendValue v).output =
      c.output ++ stream (recordLines (v.pushRecords c.announced)) := by
    rw [sendValue_eq, stream_recordLines]
  obtain ⟨hwhole, htold⟩ := told_of_output hc houtput
    (lineFeed_not_mem_recordLines fun r hr => (Value.isPlain_of_mem_pushRecords hr).1)
  refine ⟨hwhole, fun name => ?_⟩
  rw [htold, Value.filter_pushRecords]

/-- **Pushing one value** makes it current. -/
theorem Tells.push {values : Registry} {current : Value → Prop} {c : Connection τ}
    (h : Tells values current c) (hc : c.IsWhole) {v : Value}
    (hv : values.get? v.name = some v) : (c.sendValue v).IsWhole ∧
      Tells values (fun u => u = v ∨ current u) (c.sendValue v) := by
  have hannounced : (c.sendValue v).announced = v.pushNames c.announced := by rw [sendValue_eq]
  obtain ⟨hwhole, htold⟩ := told_sendValue hc v
  refine ⟨hwhole, fun name hname => ?_, fun name hname => ?_⟩
  · rw [hannounced, Value.mem_pushNames, not_or] at hname
    rw [htold, if_neg hname.2, h.unknown name hname.1, List.append_nil]
  · rw [hannounced, Value.mem_pushNames] at hname
    rw [htold]
    by_cases hsame : v.name = name
    · subst hsame
      rw [if_pos rfl]
      refine ⟨v, hv, ?_⟩
      by_cases hknown : v.name ∈ c.announced
      · obtain ⟨u, hu, texts, last, hlines, -⟩ := h.known v.name hknown
        obtain rfl : v = u := Option.some.inj (hv.symm.trans hu)
        have hpush : v.pushRecords c.announced = [v.record] := by
          rw [Value.pushRecords, if_pos (List.contains_iff_mem.2 hknown), List.nil_append]
        refine ⟨texts ++ [last], v.text, ?_, fun _ => rfl⟩
        rw [hlines, hpush]
        simp [recordLines, Value.record]
      · have hpush : v.pushRecords c.announced = v.metaRecords ++ [v.record] := by
          rw [Value.pushRecords, if_neg (mt List.contains_iff_mem.1 hknown)]
        refine ⟨[], v.text, ?_, fun _ => rfl⟩
        rw [h.unknown v.name hknown, hpush]
        rfl
    · obtain ⟨u, hu, texts, last, hlines, hlast⟩ := h.known name (hname.resolve_right hsame)
      have hne : u ≠ v := fun huv => hsame (huv ▸ (Registry.mem_of_get? hu).2)
      refine ⟨u, hu, texts, last, ?_, fun hcurrent => hlast (hcurrent.resolve_left hne)⟩
      rw [if_neg hsame, List.append_nil, hlines]

/-- **Pushing values** makes all of them current. -/
theorem Tells.pushes {values : Registry} {current : Value → Prop} {vs : List Value}
    (hvs : ∀ v ∈ vs, values.get? v.name = some v) {c : Connection τ}
    (h : Tells values current c) (hc : c.IsWhole) :
    (vs.foldl (fun c v => c.sendValue v) c).IsWhole ∧
      Tells values (fun u => u ∈ vs ∨ current u) (vs.foldl (fun c v => c.sendValue v) c) := by
  induction vs generalizing c current with
  | nil => exact ⟨hc, h.unknown, by simpa using h.known⟩
  | cons v vs ih =>
    obtain ⟨hwhole, hfirst⟩ := h.push hc (hvs v List.mem_cons_self)
    obtain ⟨hwhole', hrest⟩ := ih (fun u hu => hvs u (List.mem_cons_of_mem _ hu)) hfirst hwhole
    refine ⟨hwhole', hrest.unknown, fun name hname => ?_⟩
    obtain ⟨u, hu, texts, last, hlines, hlast⟩ := hrest.known name hname
    refine ⟨u, hu, texts, last, hlines, fun hcurrent => hlast ?_⟩
    rcases hcurrent with hmem | hcurrent
    · rcases List.mem_cons.1 hmem with hmem | hmem
      · exact .inr (.inl hmem)
      · exact .inl hmem
    · exact .inr (.inr hcurrent)

/-! ## The invariant -/

/-- What holds between the values of an endpoint and one of its connections: the peer knows what
it was told, and a subscriber holds every value that carries no mark as it is. -/
structure Informs (values : Registry) (c : Connection τ) : Prop where
  helper : c.helper = none
  modest : c.IsModest
  whole : c.IsWhole
  tells : c.Tells values fun v => Endpoint.isSubscriber c = true ∧ v.dirty = false

/-- Acts that tell nothing of values keep the peer informed. -/
theorem Informs.hush {values : Registry} {c d : Connection τ} (h : Informs values c)
    (hd : Hush c d) : Informs values d := by
  obtain ⟨hwhole, htold⟩ := hd.told h.whole
  refine ⟨hd.helper h.helper, hd.modest, hwhole, fun name hname => ?_, fun name hname => ?_⟩
  · rw [hd.announced] at hname
    rw [htold]
    exact h.tells.unknown name hname
  · rw [hd.announced] at hname
    obtain ⟨v, hv, texts, last, hlines, hlast⟩ := h.tells.known name hname
    refine ⟨v, hv, texts, last, (htold name).trans hlines, fun hcurrent => hlast ?_⟩
    exact ⟨hd.subscriber hcurrent.1, hcurrent.2⟩

/-- Changes that leave marks keep the peer informed. -/
theorem Informs.evolve {values values' : Registry} {c : Connection τ} (h : Informs values c)
    (hvalues : values.Evolves values') : Informs values' c := by
  refine ⟨h.helper, h.modest, h.whole, h.tells.unknown, fun name hname => ?_⟩
  obtain ⟨v, hv, texts, last, hlines, hlast⟩ := h.tells.known name hname
  obtain ⟨w, hw, hprofile, hmark⟩ := hvalues name v hv
  refine ⟨w, hw, texts, last, ?_, fun hcurrent => ?_⟩
  · rw [hlines, Value.metaRecords_of_profile hprofile]
  · rcases hmark with hdirty | rfl
    · rw [hcurrent.2] at hdirty
      cases hdirty
    · exact hlast hcurrent

theorem isSubscriber_foldl_sendValue (vs : List Value) (c : Connection τ) :
    Endpoint.isSubscriber (vs.foldl (fun c v => c.sendValue v) c) = Endpoint.isSubscriber c := by
  rw [foldl_sendValue_eq]
  rfl

/-- Pushing values keeps the peer informed. -/
theorem Informs.pushes {values : Registry} (hvalues : values.Distinct) {c : Connection τ}
    (h : Informs values c) {vs : List Value} (hvs : ∀ v ∈ vs, v ∈ values.values) :
    Informs values (vs.foldl (fun c v => c.sendValue v) c) := by
  obtain ⟨hwhole, htells⟩ :=
    h.tells.pushes (fun v hv => hvalues.get?_of_mem (hvs v hv)) h.whole
  refine ⟨?_, ?_, hwhole, htells.unknown, fun name hname => ?_⟩
  · rw [foldl_sendValue_eq]
    exact h.helper
  · rw [foldl_sendValue_eq]
    exact h.modest
  · obtain ⟨v, hv, texts, last, hlines, hlast⟩ := htells.known name hname
    refine ⟨v, hv, texts, last, hlines, fun hcurrent => hlast (.inr ?_)⟩
    rw [isSubscriber_foldl_sendValue] at hcurrent
    exact hcurrent

/-- **Taking the marks off** is made up for by pushing every marked value to a subscriber. -/
theorem Informs.publish {values : Registry} (hvalues : values.Distinct) {c : Connection τ}
    (h : Informs values c) {vs : List Value} (hvs : ∀ v ∈ vs, v ∈ values.values)
    (hall : Endpoint.isSubscriber c = true → ∀ v ∈ values.values, v.dirty = true → v ∈ vs) :
    Informs values.clearDirty (vs.foldl (fun c v => c.sendValue v) c) := by
  obtain ⟨hhelper, hmodest, hwhole, hunknown, -⟩ := h.pushes hvalues hvs
  obtain ⟨-, htells⟩ := h.tells.pushes (fun v hv => hvalues.get?_of_mem (hvs v hv)) h.whole
  refine ⟨hhelper, hmodest, hwhole, hunknown, fun name hname => ?_⟩
  obtain ⟨v, hv, texts, last, hlines, hlast⟩ := htells.known name hname
  refine ⟨v.clearDirty, ?_, texts, last, hlines, fun hcurrent => hlast ?_⟩
  · rw [Registry.get?_clearDirty, hv]
    rfl
  · -- the mark is gone from the value that is looked up now, so it is the one before that counts
    have hsub := hcurrent.1
    rw [isSubscriber_foldl_sendValue] at hsub
    by_cases hdirty : v.dirty = true
    · exact .inl (hall hsub v (Registry.mem_of_get? hv).1 hdirty)
    · exact .inr ⟨hsub, by simpa using hdirty⟩

/-- Taking the marks off changes nothing for who is no subscriber. -/
theorem Informs.clearDirty {values : Registry} (hvalues : values.Distinct) {c : Connection τ}
    (h : Informs values c) (hsub : Endpoint.isSubscriber c = false) :
    Informs values.clearDirty c := by
  refine h.publish hvalues (List.forall_mem_nil _) fun hyes => ?_
  rw [hsub] at hyes
  cases hyes

/-- A broadcast of the marked values. -/
theorem Informs.broadcastDirty {values : Registry} (hvalues : values.Distinct) {c : Connection τ}
    (h : Informs values c) : Informs values.clearDirty (c.broadcastDirty values) := by
  unfold Connection.broadcastDirty
  split
  · refine h.publish hvalues (fun v hv => List.mem_of_mem_filter hv) fun _ v hv hdirty => ?_
    exact List.mem_filter.2 ⟨hv, hdirty⟩
  · next hno =>
    exact h.clearDirty hvalues (by simpa [Endpoint.isSubscriber] using hno)

/-! ## What peers send -/

end Connection

/-- A back end that makes values and changes them in place, and leaves a mark on each change. -/
structure Device.IsFair {σ : Type} (dev : Device σ) : Prop where
  info : ∀ r s, Registry.Reaches r (dev.info r s).2.1
  command : ∀ opcode params r s, Registry.Reaches r (dev.command opcode params r s).2.1
  idle : ∀ r s, Registry.Reaches r (dev.idle r s).1

/-- From one state of a connection and of the values to a later one: values stay, changes left
marks, and the peer is informed. -/
structure Turn.Keeps {τ σ : Type} (t t' : Turn τ σ) : Prop where
  distinct : t'.own.values.Distinct
  evolves : t.own.values.Evolves t'.own.values
  informs : t'.conn.Informs t'.own.values

theorem Turn.Keeps.trans {τ σ : Type} {t t' t'' : Turn τ σ} (h : Keeps t t') (h' : Keeps t' t'') :
    Keeps t t'' := ⟨h'.distinct, h.evolves.trans h'.evolves, h'.informs⟩

namespace Connection

variable {τ σ : Type}

section
variable {dev : Device σ} {t : Turn τ σ} (hdistinct : t.own.values.Distinct)
  (hinforms : t.conn.Informs t.own.values)

include hdistinct hinforms

/-- Acts that tell nothing of values, while the back end does something of its own. -/
theorem keeps_of_hush {c : Connection τ} (hc : Hush t.conn c) (device : σ) :
    t.Keeps ⟨c, ⟨t.own.values, device⟩⟩ := ⟨hdistinct, .refl _, hinforms.hush hc⟩

theorem keeps_sendReply (code : Int32) (reason : String) (device : σ) :
    t.Keeps ⟨t.conn.sendReply code reason, ⟨t.own.values, device⟩⟩ :=
  keeps_of_hush hdistinct hinforms (hush_sendReply code reason hinforms.modest) device

/-- The values changed, and the request is answered. -/
theorem keeps_reached {values : Registry} (hvalues : t.own.values.Reaches values) (device : σ)
    (code : Int32) (reason : String) :
    t.Keeps ⟨t.conn.sendReply code reason, ⟨values, device⟩⟩ := by
  obtain ⟨hdistinct', hevolves⟩ := hvalues.keeps hdistinct
  have hreply := hush_sendReply code reason hinforms.modest
  exact ⟨hdistinct', hevolves, (hinforms.evolve hevolves).hush hreply⟩

/-- A request to change a value marks the value. -/
theorem keeps_receiveSet (name : String) (op : Operator) (text : String) :
    t.Keeps (receiveSet dev name op text t).1 := by
  have hrefuse (code : Int32) (reason : String) := keeps_sendReply hdistinct hinforms code reason
  unfold receiveSet
  dsimp only
  split
  · exact hrefuse _ _ _
  · next current hcurrent =>
    split
    · exact hrefuse _ _ _
    · split
      · exact hrefuse _ _ _
      · exact hrefuse _ _ _
      · next updated hupdated =>
        split
        · exact hrefuse _ _ _
        · obtain ⟨hbecomes, -⟩ := Value.becomes_of_applyText True hupdated
          have hmarked : updated.markDirty.profile = current.profile := hbecomes.profile
          have hevolves := Registry.evolves_put hcurrent hmarked rfl
          have hreply := hush_sendReply 0 "OK" hinforms.modest
          have hnote : Hush (t.conn.sendReply 0 "OK")
              ((t.conn.sendReply 0 "OK").emit (.valueSet t.conn.id name)) :=
            .of_same rfl rfl rfl rfl (fun h => h) hreply.modest
          exact ⟨hdistinct.put hcurrent hmarked, hevolves,
            (hinforms.evolve hevolves).hush (hreply.trans hnote)⟩

/-- A request for all values pushes them as they are after the back end refreshed them. -/
theorem keeps_receiveInfo (hdev : dev.IsFair) : t.Keeps (receiveInfo dev t) := by
  have hreaches := hdev.info t.own.values t.own.device
  unfold receiveInfo
  dsimp only
  split
  · exact keeps_reached hdistinct hinforms hreaches _ _ _
  · obtain ⟨hdistinct', hevolves⟩ := hreaches.keeps hdistinct
    have hpushed := (hinforms.evolve hevolves).pushes hdistinct' fun v hv => hv
    have hreply := hush_sendReply 0 "OK" hpushed.modest
    exact ⟨hdistinct', hevolves, hpushed.hush hreply⟩

theorem keeps_receiveCommand (hdev : dev.IsFair) (opcode params : String) :
    t.Keeps (receiveCommand dev opcode params t).1 := by
  unfold receiveCommand
  split
  · exact keeps_receiveInfo hdistinct hinforms hdev
  · split
    · exact keeps_receiveSet hdistinct hinforms _ _ _
    · have hreaches := hdev.command opcode params t.own.values t.own.device
      dsimp only
      split <;> exact keeps_reached hdistinct hinforms hreaches _ _ _

/-- **One record.** -/
theorem keeps_dispatch (hdev : dev.IsFair) (hopen : t.conn.isClosed = false) (r : Record) :
    t.Keeps (dispatch dev r t).1 := by
  have hquiet (r : Record) (hreply : r.isReply = false) (hrequest : r.isRequest = false) :
      t.Keeps (dispatch dev r t).1 := by
    obtain ⟨hmurmurs, hown⟩ := murmurs_dispatch dev hreply hrequest hopen
    have hkeeps := keeps_of_hush hdistinct hinforms (hmurmurs.hush hinforms.modest) t.own.device
    generalize (dispatch dev r t).1 = t' at hown hkeeps ⊢
    obtain ⟨c, own⟩ := t'
    cases hown
    exact hkeeps
  cases r with
  | reply code reason =>
    have hreply := hush_receiveReply code reason hopen hinforms.modest
    exact keeps_of_hush hdistinct hinforms hreply t.own.device
  | set name op text => exact keeps_receiveSet hdistinct hinforms name op text
  | command opcode params => exact keeps_receiveCommand hdistinct hinforms hdev opcode params
  | _ => exact hquiet _ rfl rfl

/-- **One frame.** -/
theorem keeps_processFrame (hdev : dev.IsFair) (frame : Framing.Frame) :
    t.Keeps (processFrame dev t frame) := by
  have hsame : t.Keeps t := ⟨hdistinct, .refl _, hinforms⟩
  have hcount (t' : Turn τ σ) (h : t.Keeps t') : t.Keeps (t'.onConn countParseError) :=
    h.trans (keeps_of_hush h.distinct h.informs (hush_countParseError h.informs.modest) _)
  cases hopen : t.conn.isClosed with
  | true =>
    unfold processFrame
    rw [if_pos hopen]
    exact hsame
  | false =>
    cases frame with
    | error e =>
      rw [processFrame_error dev hopen]
      exact hcount t hsame
    | ok line =>
      rw [processFrame_ok dev hopen]
      cases hparse : Record.parse line with
      | error e =>
        rcases processLine_error dev t hparse with h | h
        · rw [h]
          exact hsame
        · rw [h]
          exact hcount t hsame
      | ok r =>
        have hkeeps := keeps_dispatch hdistinct hinforms hdev hopen r
        rw [processLine_ok dev t hparse]
        generalize dispatch dev r t = p at hkeeps ⊢
        obtain ⟨t', e⟩ := p
        cases e with
        | some e => exact hcount t' hkeeps
        | none =>
          have hreset : Hush t'.conn { t'.conn with parseErrors := 0 } :=
            .of_same rfl rfl rfl rfl (fun h => h) hkeeps.informs.modest
          exact hkeeps.trans (keeps_of_hush hkeeps.distinct hkeeps.informs hreset _)

end

theorem keeps_frames {dev : Device σ} (hdev : dev.IsFair) (frames : List Framing.Frame)
    {t : Turn τ σ} (hdistinct : t.own.values.Distinct) (hinforms : t.conn.Informs t.own.values) :
    t.Keeps (frames.foldl (processFrame dev) t) := by
  induction frames generalizing t with
  | nil => exact ⟨hdistinct, .refl _, hinforms⟩
  | cons frame frames ih =>
    have hfirst := keeps_processFrame hdistinct hinforms hdev frame
    exact hfirst.trans (ih hfirst.distinct hfirst.informs)

/-- **The bytes of a peer.** -/
theorem keeps_receive {dev : Device σ} (hdev : dev.IsFair) (now : Instant) (bytes : Bytes)
    {t : Turn τ σ} (hdistinct : t.own.values.Distinct) (hinforms : t.conn.Informs t.own.values) :
    t.Keeps (receive dev now bytes t) := by
  have harrive := (Does.arrive (c := t.conn) now (t.conn.input.push bytes).2).hush rfl
    hinforms.modest
  have hheard := keeps_of_hush hdistinct hinforms harrive t.own.device
  exact hheard.trans (keeps_frames hdev _ hheard.distinct hheard.informs)

end Connection

end Observatory
