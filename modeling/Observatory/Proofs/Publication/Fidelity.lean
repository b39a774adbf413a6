import Observatory.Proofs.Connection.Chunks
import Observatory.Proofs.Connection.Written
import Observatory.Proofs.Publication.Publisher
import Observatory.Proofs.Value.Replica
/-!
# Replicas are faithful

What an endpoint publishes, a fresh connection takes in without a loss, however the bytes are cut
into chunks: every push is reported once, and in the end the replica of each value is what the
value was when it was last sent.

* `Mirrors.push` — a value and, in front of its first push, its announcement.
* `replicas_faithful` — everything that was published.
-/

namespace Observatory

open Framing (stream)

variable {τ σ : Type}

/-- The value as it was last sent under a name. -/
def lastSent (sent : List Value) (name : String) : Option Value :=
  (sent.filter fun v => v.name == name).getLast?

theorem lastSent_append (sent : List Value) (v : Value) (name : String) :
    lastSent (sent ++ [v]) name = if v.name = name then some v else lastSent sent name := by
  unfold lastSent
  rw [List.filter_append]
  by_cases h : v.name = name
  · simp [h]
  · simp [h]

theorem mem_of_lastSent {sent : List Value} {name : String} {v : Value}
    (h : lastSent sent name = some v) : v ∈ sent ∧ v.name = name := by
  have hmem := List.mem_filter.1 (List.mem_of_getLast? h)
  exact ⟨hmem.1, by simpa using hmem.2⟩

theorem lastSent_isSome {sent : List Value} {v : Value} (h : v ∈ sent) :
    ∃ u, lastSent sent v.name = some u := by
  have hne : sent.filter (fun u => u.name == v.name) ≠ [] :=
    List.ne_nil_of_mem (List.mem_filter.2 ⟨h, by simp⟩)
  exact ⟨_, List.getLast?_eq_some_getLast hne⟩

/-- A peer that took in all of it: still as open as it was, with no record dropped, each push
reported once, and the replicas equal to the values as they were last sent. -/
structure Faithful (c : Connection τ) (own : Local σ) (sent : List Value) (t : Turn τ σ) :
    Prop where
  state : t.conn.state = c.state
  parseErrors : t.conn.parseErrors = 0
  events : t.conn.events = sent.map fun v => .valueChanged c.id v.name
  output : t.conn.output = []
  own : t.own = own
  replicas : ∀ name,
    (t.conn.replica? name).map (fun r => r.value.plain) = (lastSent sent name).map Value.plain

/-! ## Records -/

/-- The frame of a record that fits. -/
def Record.frame (r : Record) : Framing.Frame := .ok (String.ofList r.encode)

namespace Connection

/-- A connection with other replicas and events. -/
def holding (c : Connection τ) (replicas : List (String × Replica)) (events : List Event) :
    Connection τ := { c with replicas, events }

/-- **A record** that is read and handled without an error. -/
theorem processFrame_record (dev : Device σ) {t : Turn τ σ} {r : Record} {d : Connection τ}
    (hopen : t.conn.isClosed = false) (hread : Record.parseChars r.encode = .ok r)
    (hhandled : dispatch dev r t = (⟨d, t.own⟩, none)) (herrors : d.parseErrors = 0) :
    processFrame dev t r.frame = ⟨d, t.own⟩ := by
  have hparse : Record.parse (String.ofList r.encode) = .ok r := by
    rw [Record.parse, String.toList_ofList, hread]
  rw [Record.frame, processFrame_ok dev hopen, processLine_ok dev t hparse, hhandled]
  show Turn.mk { d with parseErrors := 0 } t.own = _
  rw [← herrors]

end Connection

/-- One replica is new or replaced, and the others are as they were. -/
def Filed (name : String) (r : Replica) (rs rs' : List (String × Replica)) : Prop :=
  ∀ n, rs'.lookup n = if n = name then some r else rs.lookup n

theorem lookup_entry (n name : String) (r : Replica) (rs : List (String × Replica)) :
    List.lookup n ((name, r) :: rs) = if n = name then some r else List.lookup n rs := by
  rw [List.lookup_cons]
  by_cases h : n = name
  · simp [h]
  · rw [beq_false_of_ne h, if_neg h]

theorem filed_insertReplica (name : String) (r : Replica) (rs : List (String × Replica)) :
    Filed name r rs (Connection.insertReplica name r rs) := by
  intro n
  induction rs with
  | nil => rw [Connection.insertReplica, lookup_entry]
  | cons entry rs ih =>
    obtain ⟨other, s⟩ := entry
    unfold Connection.insertReplica
    split
    · next hsame =>
      rw [lookup_entry, lookup_entry, ← hsame]
      split <;> rfl
    · next hother =>
      split
      · rw [lookup_entry]
      · rw [lookup_entry, lookup_entry, ih]
        by_cases hn : n = name
        · rw [if_pos hn, if_neg (fun ho => hother (hn.symm.trans ho)), if_pos hn]
        · rw [if_neg hn, if_neg hn]

theorem Filed.trans {name : String} {r s : Replica} {rs rs' rs'' : List (String × Replica)}
    (h : Filed name r rs rs') (h' : Filed name s rs' rs'') : Filed name s rs rs'' := by
  intro n
  rw [h' n]
  split
  · rfl
  · next hn => rw [h n, if_neg hn]

theorem Filed.lookup {name : String} {r : Replica} {rs rs' : List (String × Replica)}
    (h : Filed name r rs rs') : rs'.lookup name = some r := by
  rw [h name, if_pos rfl]

section
variable (dev : Device σ) {c : Connection τ} (own : Local σ) {rs : List (String × Replica)}
  (es : List Event) (hopen : c.isClosed = false) (herrors : c.parseErrors = 0)

include hopen herrors

theorem processFrame_metaInfo {v : Value} (hk : v.kind.isAnnounceable = true) :
    ∃ r rs', Connection.processFrame dev ⟨c.holding rs es, own⟩
        (Record.metaInfo v.typeWord v.name v.description).frame = ⟨c.holding rs' es, own⟩ ∧
      Filed v.name r rs rs' ∧ r.value.profile = { v.profile with symbols := [] } := by
  obtain ⟨r, hr, hprofile⟩ := Replica.announce_profile hk
  refine ⟨r, Connection.insertReplica v.name r rs, ?_, filed_insertReplica _ _ _, hprofile⟩
  refine Connection.processFrame_record dev hopen (Record.parseChars_metaInfo _ _ _) ?_ herrors
  show (Turn.mk (Connection.announce v.typeWord v.name v.description _).1 own, _) = _
  unfold Connection.announce
  rw [hr]
  rfl

theorem processFrame_symbolInfo {name : String} {r : Replica} (hr : rs.lookup name = some r)
    (symbol : String) :
    ∃ rs', Connection.processFrame dev ⟨c.holding rs es, own⟩
        (Record.symbolInfo name symbol).frame = ⟨c.holding rs' es, own⟩ ∧
      Filed name (r.addSymbol symbol) rs rs' := by
  refine ⟨Connection.insertReplica name (r.addSymbol symbol) rs, ?_, filed_insertReplica _ _ _⟩
  refine Connection.processFrame_record dev hopen (Record.parseChars_symbolInfo _ _) ?_ herrors
  have hreplica : (c.holding rs es).replica? name = some r := hr
  show (Turn.mk (Connection.announceSymbol name symbol _) own, _) = _
  unfold Connection.announceSymbol
  rw [hreplica]
  rfl

theorem processFrame_symbols {name : String} (symbols : List String) {r : Replica}
    (hr : rs.lookup name = some r) :
    ∃ rs', ((symbols.map (Record.symbolInfo name)).map Record.frame).foldl
        (Connection.processFrame dev) ⟨c.holding rs es, own⟩ = ⟨c.holding rs' es, own⟩ ∧
      Filed name (symbols.foldl (fun r symbol => r.addSymbol symbol) r) rs rs' := by
  induction symbols generalizing rs r with
  | nil =>
    refine ⟨rs, rfl, fun n => ?_⟩
    split
    · next hn => rw [hn, hr]; rfl
    · rfl
  | cons symbol symbols ih =>
    obtain ⟨rs₁, hstep, hfiled⟩ := processFrame_symbolInfo dev own es hopen herrors hr symbol
    obtain ⟨rs₂, hrest, hfiled'⟩ := ih hfiled.lookup
    refine ⟨rs₂, ?_, hfiled.trans hfiled'⟩
    rw [List.map_cons, List.map_cons, List.foldl_cons, hstep, hrest]

/-- **An announcement** files a replica with the profile of the value. -/
theorem processFrame_metaRecords {v : Value} (hk : v.kind.isAnnounceable = true) :
    ∃ r rs', (v.metaRecords.map Record.frame).foldl (Connection.processFrame dev)
        ⟨c.holding rs es, own⟩ = ⟨c.holding rs' es, own⟩ ∧
      Filed v.name r rs rs' ∧ r.value.profile = v.profile := by
  obtain ⟨r, rs₁, hstep, hfiled, hprofile⟩ :=
    processFrame_metaInfo dev own es hopen herrors hk
  obtain ⟨rs₂, hrest, hfiled'⟩ := processFrame_symbols dev own es hopen herrors
    v.contents.symbols hfiled.lookup
  refine ⟨_, rs₂, ?_, hfiled.trans hfiled', ?_⟩
  · rw [Value.metaRecords_eq, List.map_cons, List.foldl_cons, hstep, hrest]
  · by_cases hsymbols : v.contents.symbols = []
    · rw [hsymbols, List.foldl_nil, hprofile]
      simp [Value.profile, hsymbols]
    · have hkind : r.value.kind = .selection :=
        (congrArg Profile.kind hprofile).trans (Replica.kind_of_symbols hsymbols)
      rw [Replica.profile_addSymbols hkind, hprofile]
      simp [Value.profile]

/-- **A push** gives the replica the data of the value, and is reported. -/
theorem processFrame_value {v : Value} {r : Replica} (hr : rs.lookup v.name = some r)
    (hprofile : r.value.profile = v.profile) (hv : v.Sendable) :
    ∃ s rs', Connection.processFrame dev ⟨c.holding rs es, own⟩ v.record.frame =
        ⟨c.holding rs' (es ++ [.valueChanged c.id v.name]), own⟩ ∧
      Filed v.name s rs rs' ∧ s.value.plain = v.plain := by
  obtain ⟨s, hs, hplain⟩ := Replica.receive_text hprofile hv
  refine ⟨s, Connection.insertReplica v.name s rs, ?_, filed_insertReplica _ _ _, hplain⟩
  have hread : Record.parseChars v.record.encode = .ok v.record := by
    refine Record.parseChars_value v.name ?_
    rw [Value.text, String.toList_ofList]
    exact Contents.trimmed hv.telling
  refine Connection.processFrame_record dev hopen hread ?_ herrors
  have hreplica : (c.holding rs es).replica? v.name = some r := hr
  show (Turn.mk (Connection.replicate v.name v.text _).1 own, _) = _
  unfold Connection.replicate
  rw [hreplica]
  dsimp only
  rw [hs]
  rfl

end

/-! ## Values -/

/-- A peer that took in the values so far. -/
def Mirrors (c : Connection τ) (own : Local σ) (done : List Value) (t : Turn τ σ) : Prop :=
  ∃ rs, t = ⟨c.holding rs (done.map fun v => .valueChanged c.id v.name), own⟩ ∧
    ∀ name, (rs.lookup name).map (fun r => r.value.plain) = (lastSent done name).map Value.plain

theorem Mirrors.file {c : Connection τ} {own : Local σ} {done : List Value} {v : Value}
    {r : Replica} {rs rs' : List (String × Replica)}
    (hrs : ∀ name, (rs.lookup name).map (fun r => r.value.plain) =
      (lastSent done name).map Value.plain)
    (hfiled : Filed v.name r rs rs') (hplain : r.value.plain = v.plain) :
    Mirrors c own (done ++ [v]) ⟨c.holding rs'
      (done.map (fun v => .valueChanged c.id v.name) ++ [.valueChanged c.id v.name]), own⟩ := by
  refine ⟨rs', by rw [List.map_append, List.map_cons, List.map_nil], fun name => ?_⟩
  rw [hfiled name, lastSent_append]
  by_cases hname : name = v.name
  · rw [if_pos hname, if_pos hname.symm, Option.map_some, Option.map_some, hplain]
  · rw [if_neg hname, if_neg (Ne.symm hname), hrs name]

/-- **A value** and, in front of its first push, its announcement. -/
theorem Mirrors.push (dev : Device σ) {c : Connection τ} {own : Local σ} {done : List Value}
    {t : Turn τ σ} (h : Mirrors c own done t) (hopen : c.isClosed = false)
    (herrors : c.parseErrors = 0) {v : Value} (hv : v.Sendable)
    (hprofiles : ∀ u ∈ done, u.name = v.name → u.profile = v.profile) :
    Mirrors c own (done ++ [v]) (((v.pushRecords (Value.published [] done)).map
      Record.frame).foldl (Connection.processFrame dev) t) := by
  obtain ⟨rs, rfl, hrs⟩ := h
  unfold Value.pushRecords
  rw [List.map_append, List.foldl_append]
  by_cases hknown : (Value.published [] done).contains v.name = true
  · -- the peer has a replica with the profile of the value as it was last sent
    obtain ⟨u, hu, huname⟩ : ∃ u ∈ done, u.name = v.name := by
      rw [List.contains_iff_mem, Value.mem_published] at hknown
      simpa using hknown
    obtain ⟨w, hw⟩ := lastSent_isSome hu
    rw [huname] at hw
    have hreplica := hrs v.name
    rw [hw, Option.map_some] at hreplica
    obtain ⟨r, hr, hplain⟩ := Option.map_eq_some_iff.1 hreplica
    have hprofile : r.value.profile = v.profile := by
      rw [← Value.profile_plain, hplain, Value.profile_plain]
      exact hprofiles w (mem_of_lastSent hw).1 (mem_of_lastSent hw).2
    obtain ⟨s, rs', hpush, hfiled, hplain⟩ :=
      processFrame_value dev own _ hopen herrors hr hprofile hv
    rw [if_pos hknown, List.map_nil, List.foldl_nil, List.map_cons, List.map_nil,
      List.foldl_cons, List.foldl_nil, hpush]
    exact Mirrors.file hrs hfiled hplain
  · obtain ⟨r, rs₁, hannounce, hfiled, hprofile⟩ :=
      processFrame_metaRecords dev own _ hopen herrors hv.announceable
    obtain ⟨s, rs₂, hpush, hfiled', hplain⟩ :=
      processFrame_value dev own _ hopen herrors hfiled.lookup hprofile hv
    rw [if_neg hknown, hannounce, List.map_cons, List.map_nil, List.foldl_cons, List.foldl_nil,
      hpush]
    exact Mirrors.file hrs (hfiled.trans hfiled') hplain

/-- **Values** one after the other. -/
theorem Mirrors.publish (dev : Device σ) {c : Connection τ} {own : Local σ}
    {done vs : List Value} {t : Turn τ σ} (h : Mirrors c own done t) (hopen : c.isClosed = false)
    (herrors : c.parseErrors = 0) (hvs : ∀ v ∈ vs, v.Sendable)
    (hprofiles : ∀ u ∈ done ++ vs, ∀ v ∈ done ++ vs, u.name = v.name → u.profile = v.profile) :
    Mirrors c own (done ++ vs) (((Value.publish (Value.published [] done) vs).map
      Record.frame).foldl (Connection.processFrame dev) t) := by
  induction vs generalizing done t with
  | nil =>
    rw [List.append_nil]
    exact h
  | cons v vs ih =>
    have hstep := h.push dev hopen herrors (hvs v List.mem_cons_self) fun u hu hname =>
      hprofiles u (List.mem_append_left _ hu) v (by simp) hname
    have hnames : Value.published [] (done ++ [v]) = v.pushNames (Value.published [] done) :=
      Value.published_append [] done [v]
    rw [List.append_cons] at hprofiles ⊢
    have hrest := ih hstep (fun u hu => hvs u (List.mem_cons_of_mem _ hu)) hprofiles
    rw [hnames] at hrest
    rw [Value.publish, List.map_append, List.foldl_append]
    exact hrest

/-! ## Whole outputs -/

theorem oneLine_of_mem_publish {names : List String} {vs : List Value} {r : Record}
    (h : r ∈ Value.publish names vs) : Text.OneLine r.encode := by
  induction vs generalizing names with
  | nil => cases h
  | cons v vs ih =>
    rcases List.mem_append.1 h with h | h
    · exact (Value.isPlain_of_mem_pushRecords h).1.oneLine
    · exact ih h

/-- Records that fit lead to their frames, however their bytes are cut into chunks. -/
theorem framesOfChunks_records {f : Framing} (hheld : f.held = []) (hskip : f.discarding = false)
    {records : List Record} (hrecords : ∀ r ∈ records, Text.OneLine r.encode)
    (hfit : ∀ line ∈ (Framing.cut (recordBytes records)).1, line.length ≤ f.limit)
    {chunks : List Bytes} (hchunks : chunks.flatten = recordBytes records) :
    f.framesOfChunks chunks = records.map Record.frame := by
  have hfree (l : Bytes) (hl : l ∈ records.map fun r => lineBytes r.encode) : lineFeed ∉ l := by
    obtain ⟨r, hr, rfl⟩ := List.mem_map.1 hl
    exact (hrecords r hr).lineFeed_not_mem_encode
  have hcut := Framing.cut_stream_append hfree (show lineFeed ∉ ([] : Bytes) by simp)
  rw [List.append_nil] at hcut
  rw [recordBytes, hcut] at hfit
  have htexts (t : List Char) (ht : t ∈ records.map Record.encode) : Text.OneLine t := by
    obtain ⟨r, hr, rfl⟩ := List.mem_map.1 ht
    exact hrecords r hr
  have hshort (t : List Char) (ht : t ∈ records.map Record.encode) :
      (lineBytes t).length ≤ f.limit := by
    obtain ⟨r, hr, rfl⟩ := List.mem_map.1 ht
    exact hfit _ (List.mem_map_of_mem hr)
  rw [Framing.framesOfChunks_texts hheld hskip htexts hshort
    (by rw [hchunks, recordBytes, List.map_map]; rfl), List.map_map]
  rfl

/-- **Replicas are faithful.** An endpoint publishes its values to one peer, in any order and
between any changes, and a fresh connection takes in all of it in any chunks. The limit of
malformed records of that connection may be zero, so none is dropped. -/
theorem replicas_faithful {τ υ σ : Type} {c : Connection τ} {d : Connection υ} (hc : c.IsNew)
    (hd : d.IsNew) {p : Publisher τ}
    (hrun : Relation.ReflTransGen Publisher.Step { conn := c } p)
    (hsent : ∀ v ∈ p.sent, v.kind.isAnnounceable = true ∧ v.contents.IsTelling)
    (hfit : ∀ line ∈ (Framing.cut p.conn.output).1, line.length ≤ d.input.limit)
    (dev : Device σ) (own : Local σ) {chunks : List (Instant × Bytes)}
    (hchunks : (chunks.map Prod.snd).flatten = p.conn.output) :
    Faithful d own p.sent (Connection.receiveAll dev chunks ⟨d, own⟩) := by
  have hkept := Publisher.kept_of_run hc hrun
  have houtput : p.conn.output = recordBytes (Value.publish [] p.sent) := by
    rw [hkept.conn]
  rw [houtput] at hfit hchunks
  have hframes := framesOfChunks_records hd.held hd.discarding
    (fun _ hr => oneLine_of_mem_publish hr) hfit hchunks
  have hopen : d.isClosed = false := by
    rcases hd.origin with ⟨hstate, -⟩ | ⟨hstate, -⟩ <;> simp [Connection.isClosed, hstate]
  have hstart : Mirrors d own [] ⟨d, own⟩ := by
    refine ⟨[], ?_, fun name => rfl⟩
    unfold Connection.holding
    rw [List.map_nil, ← hd.replicas, ← hd.events]
  have hsendable (v : Value) (hv : v ∈ p.sent) : v.Sendable :=
    ⟨(hsent v hv).1, hkept.proper v hv, (hsent v hv).2⟩
  have hmirrors := hstart.publish dev hopen hd.parseErrors hsendable fun u hu v hv hname =>
    hkept.profile_eq hu hv hname
  obtain ⟨rs, hall, hrs⟩ := hmirrors
  obtain ⟨h, hreceive⟩ := Connection.receiveAll_eq dev chunks ⟨d, own⟩
  rw [hreceive, hframes, show Value.publish [] p.sent =
    Value.publish (Value.published [] []) p.sent from rfl, hall]
  exact ⟨rfl, hd.parseErrors, rfl, hd.output, rfl, hrs⟩

/-- A selection that is sent with its symbols. -/
theorem replicas_faithful_of_selection : ∃ p : Publisher Unit,
    Relation.ReflTransGen Publisher.Step { conn := Connection.inMemory 1 .client "peer" 0 } p ∧
    p.sent.length = 1 ∧
    Faithful (Connection.inMemory 2 .device "own" 0 : Connection Unit) ⟨{}, ()⟩ p.sent
      (Connection.receiveAll Device.passive [(0, p.conn.output)]
        ⟨Connection.inMemory 2 .device "own" 0, ⟨{}, ()⟩⟩) := by
  let v : Value :=
    { name := "lamp"
      description := "calibration lamp"
      contents := .selection { index := 1, symbols := ["off", "on"] } }
  have hcreate : Publisher.Step
      ({ conn := Connection.inMemory 1 .client "peer" 0 } : Publisher Unit) _ :=
    .create (v := v) trivial rfl
  have hrun := (Relation.ReflTransGen.single hcreate).tail .sendAll
  refine ⟨_, hrun, rfl, replicas_faithful (Connection.isNew_inMemory 1 .client "peer" 0)
    (Connection.isNew_inMemory 2 .device "own" 0) hrun ?_ (by decide +kernel) Device.passive
    ⟨{}, ()⟩ (by simp)⟩
  intro u hu
  rw [show u = v.markDirty from List.mem_singleton.1 hu]
  exact ⟨rfl, .inr ⟨by decide, by decide⟩⟩

end Observatory
