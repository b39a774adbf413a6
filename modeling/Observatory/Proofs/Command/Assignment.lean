import Observatory.Proofs.Command.Parameters
import Observatory.Proofs.Command.Typed
import Observatory.Proofs.Connection.Answers
import Observatory.Proofs.Connection.Chunks
import Observatory.Proofs.Connection.Rulings
/-!
# Texts that are set from the command line

The client sends the arguments that it is to set a value to as parameters of one request, each
between quotes if it needs them, and shows them to its user with a space between any two. The
device takes all that stands behind the operator for one text, and to a string quotes mean
something around the whole of its text only. So one argument is stored as it is. Of several, those
that need quotes are stored with their quotes, or get the request refused if they come first.

* `Text.Quoted.joined_eq_iff` — when written arguments are the arguments with spaces between them.
* `Client.taken`, `Client.parseString_sentText` — what a string takes written arguments for.
* `Client.asking_of_start` — the request that the client sends.
* `Client.Exchange` — the request on its way to the device, and the answer on its way back.
* `Client.stored_as_typed_iff` — what is stored, answered and shown.
-/

namespace Observatory

open Text (isInk Solid)
open Text.Quoted (StandsBare arguments encodeArgument)
open Framing (stream)

/-! ## Arguments behind one another -/

namespace Text.Quoted

/-- Written arguments with a space between any two. -/
def joined (params : List (List Char)) : List Char := (arguments params).tail

theorem joined_cons (p : List Char) (params : List (List Char)) :
    joined (p :: params) = encodeArgument p ++ arguments params := rfl

theorem arguments_eq_space (p : List Char) (params : List (List Char)) :
    arguments (p :: params) = ' ' :: joined (p :: params) := rfl

theorem arguments_map (params : List String) : arguments (params.map String.toList) =
    params.flatMap fun p => ' ' :: encodeArgument p.toList := by
  rw [arguments, List.flatMap_map]

/-- There is something to see at both ends of written arguments. -/
theorem solid_joined (p : String) (params : List String) :
    Solid (joined ((p :: params).map String.toList)) := by
  rw [List.map_cons, joined_cons, arguments_map]
  exact Solid.arguments p params

theorem countP_joined (params : List (List Char)) :
    (joined params).countP isInk = (arguments params).countP isInk := by
  cases params with
  | nil => rfl
  | cons p params => rw [countP_arguments_cons, joined_cons, List.countP_append]

theorem countP_intercalate_space (params : List (List Char)) :
    ([' '].intercalate params).countP isInk = params.flatten.countP isInk := by
  induction params with
  | nil => rfl
  | cons p params ih =>
    cases params with
    | nil => simp
    | cons q params =>
      have hspace : [' '].countP isInk = 0 := by decide
      rw [List.intercalate_cons_cons, List.countP_append, List.countP_append, ih, hspace,
        Nat.add_zero, ← List.countP_append, ← List.flatten_cons]

theorem joined_of_standsBare {params : List (List Char)} (h : ∀ p ∈ params, StandsBare p) :
    joined params = [' '].intercalate params := by
  induction params with
  | nil => rfl
  | cons p params ih =>
    have hp : encodeArgument p = p := encodeArgument_of_standsBare (h p List.mem_cons_self)
    cases params with
    | nil => simp [joined_cons, arguments, hp]
    | cons q params =>
      rw [joined_cons, hp, arguments_eq_space, ih fun r hr => h r (List.mem_cons_of_mem p hr),
        List.intercalate_cons_cons, List.append_assoc, List.singleton_append]

/-- **Written arguments** are the arguments with spaces between them exactly when none of them needs
quotes: quotes are two more characters to see. -/
theorem joined_eq_iff (params : List (List Char)) :
    joined params = [' '].intercalate params ↔ ∀ p ∈ params, StandsBare p := by
  refine ⟨fun h => standsBare_of_countP_le (Nat.le_of_eq ?_), joined_of_standsBare⟩
  -- as much is to be seen on both sides, so no argument has got quotes
  rw [← countP_joined, h, countP_intercalate_space]

end Text.Quoted

open Text.Quoted (joined solid_joined)

/-! ## What a string takes them for -/

namespace Contents

/-- A text that does not start with a quote is taken as it is. -/
theorem parseString_of_solid {text : List Char} (h : Solid text) (hhead : text.head? ≠ some '"') :
    parseString text = .ok text := by
  have hskip : Text.skipBlank text = text := by
    cases text with
    | nil => rfl
    | cons c cs => exact Token.skipBlank_of_ink (h.head c rfl)
  unfold parseString
  rw [hskip]
  split
  · next hquote => exact absurd rfl hhead
  · rw [h.trimmed]

/-- Of a text that starts with a quote only what stands between quotes is taken, and nothing may
follow it. -/
theorem parseString_encode_append (s rest : List Char) :
    parseString (Text.Quoted.encode s ++ rest) = (fun _ => s) <$> Token.finish rest := by
  have hskip : Text.skipBlank (Text.Quoted.encode s ++ rest) =
      '"' :: (Text.Quoted.encode s ++ rest).tail := by
    rw [Text.Quoted.encode, List.cons_append, Token.skipBlank_of_ink (by decide), List.tail_cons]
  unfold parseString
  rw [hskip]
  show (Token.next _ >>= fun p => Token.finish p.2 >>= fun _ => pure p.1) = _
  rw [Token.next_encode]
  show (Token.finish rest >>= fun _ => pure s) = _
  cases Token.finish rest <;> rfl

end Contents

namespace Client

/-- The text that arguments are sent as. -/
def sentText (args : List String) : String := String.ofList (joined (args.map String.toList))

/-- What a string takes the text of some arguments for: a quote in front is taken to belong to the
whole text, and one further on is taken as it is. -/
def taken : List String → Except ParseError String
  | [] => .error .missingParameter
  | [a] => .ok a
  | a :: b :: rest =>
    if StandsBare a.toList then .ok (sentText (a :: b :: rest))
    else .error (.trailingParameter (sentText (b :: rest)))

theorem finish_arguments (b : String) (rest : List String) :
    Token.finish (arguments ((b :: rest).map String.toList)) =
      .error (.trailingParameter (sentText (b :: rest))) := by
  have hblank : Text.isBlank ' ' = true := by decide
  have hsolid : Solid (joined ((b :: rest).map String.toList)) := solid_joined b rest
  have hspace : arguments ((b :: rest).map String.toList) =
      ' ' :: joined ((b :: rest).map String.toList) := rfl
  have hend : Token.atEnd (arguments ((b :: rest).map String.toList)) = false := by
    have hink := hsolid.atEnd []
    rw [List.append_nil] at hink
    rw [hspace, Token.atEnd, Text.isBlankLine, List.all_cons, hblank, Bool.true_and]
    exact hink
  rw [Token.finish, hend, if_neg Bool.false_ne_true, hspace, Text.trim_cons hblank, hsolid.trimmed]
  rfl

theorem head?_joined_of_standsBare {p : List Char} (h : StandsBare p) (params : List (List Char)) :
    (joined (p :: params)).head? ≠ some '"' := by
  rw [Text.Quoted.joined_cons, Text.Quoted.encodeArgument_of_standsBare h]
  obtain ⟨c, cs, rfl⟩ := List.exists_cons_of_ne_nil h.nonempty
  simpa using (h.plain c List.mem_cons_self).1

/-- **A string** makes of the arguments what it takes them for. -/
theorem parseString_sentText {args : List String} (hargs : args ≠ []) :
    String.ofList <$> Contents.parseString (sentText args).toList = taken args := by
  obtain ⟨a, rest, rfl⟩ := List.exists_cons_of_ne_nil hargs
  rw [sentText, String.toList_ofList]
  -- what stands in front of the text decides how all of it is read
  by_cases ha : StandsBare a.toList
  · rw [Contents.parseString_of_solid (solid_joined a rest) (head?_joined_of_standsBare ha _)]
    cases rest with
    | nil => simp [taken, joined, arguments, Text.Quoted.encodeArgument_of_standsBare ha]
    | cons b rest => rw [taken, if_pos ha, sentText]; rfl
  · rw [List.map_cons, Text.Quoted.joined_cons, Text.Quoted.encodeArgument_of_not_standsBare ha,
      Contents.parseString_encode_append]
    cases rest with
    | nil => simp [taken, arguments, Token.finish, Token.atEnd, Text.isBlankLine]
    | cons b rest => rw [finish_arguments, taken, if_neg ha]; rfl

/-- Arguments as they are shown to the user. -/
def shown (args : List String) : String := " ".intercalate args

theorem sentText_eq_shown_iff (args : List String) :
    sentText args = shown args ↔ ∀ a ∈ args, StandsBare a.toList := by
  have hlists := Text.Quoted.joined_eq_iff (args.map String.toList)
  rw [List.forall_mem_map] at hlists
  rw [← hlists, ← String.toList_inj, sentText, shown, String.toList_ofList,
    String.toList_intercalate]
  rfl

/-- **As typed**: some arguments are taken for the text that is shown exactly when there is one of
them, or none of them needs quotes. -/
theorem taken_eq_shown_iff {args : List String} (hargs : args ≠ []) :
    taken args = .ok (shown args) ↔ args.length = 1 ∨ ∀ a ∈ args, StandsBare a.toList := by
  obtain ⟨a, rest, rfl⟩ := List.exists_cons_of_ne_nil hargs
  cases rest with
  | nil => simp [taken, shown]
  | cons b rest =>
    have hmore : (a :: b :: rest).length ≠ 1 := by simp
    rw [taken, ← sentText_eq_shown_iff, or_iff_right hmore]
    by_cases ha : StandsBare a.toList
    · rw [if_pos ha, Except.ok.injEq]
    · rw [if_neg ha, sentText_eq_shown_iff]
      exact iff_of_false (fun h => by cases h) fun h => ha (h a List.mem_cons_self)

/-! ## The request -/

/-- The request that arguments are sent with. -/
def assignment (name : String) (args : List String) : Command :=
  { opcode := "X", params := name :: "=" :: args }

theorem commandFor_set (name : String) (args : List String) :
    Session.commandFor (.set name "=" args) = some (assignment name args) := rfl

theorem isOpcode_assignment (name : String) (args : List String) :
    Record.IsOpcode (assignment name args).opcode := (by decide : Record.IsOpcode "X")

theorem oneLine_assignment (name : String) (args : List String) :
    Text.OneLine (assignment name args).encode :=
  Record.oneLine_commandEncode (isOpcode_assignment name args).bare.ink

/-- A request with a written parameter for its name. -/
theorem parseBody_set (name : String) (op : Operator) {text : List Char} (h : Solid text) :
    Record.parseBody ['X'] (' ' :: (encodeArgument name.toList ++
      ' ' :: ([op.symbol] ++ ' ' :: text))) = .ok (.set name op (String.ofList text)) := by
  have hname : Token.nextString (encodeArgument name.toList ++
      ' ' :: ([op.symbol] ++ ' ' :: text)) = .ok (name, ' ' :: ([op.symbol] ++ ' ' :: text)) :=
    Token.nextAs_of_next (Token.next_encodeArgument name.toList (Token.endsToken_space _))
      (by rw [String.ofList_toList])
  have hop : Token.nextAs Operator.parse ([op.symbol] ++ ' ' :: text) = .ok (op, ' ' :: text) :=
    Token.nextAs_bare (Record.bare_symbol op) op.parse_symbol (Token.endsToken_space _)
  have htext : text.isEmpty = false := by simpa using h.nonempty
  show (Token.nextString _ >>= _) = _
  rw [Token.nextString_space, hname]
  show (Token.nextAs Operator.parse _ >>= _) = _
  rw [Token.nextAs_space, hop]
  show (if (Token.remainder (' ' :: text)).isEmpty then _ else _) = _
  rw [Token.remainder_space, h.trimmed, htext]
  rfl

/-- The device reads the name, the operator, and the arguments as one text. -/
theorem parseChars_assignment (name : String) {args : List String} (hargs : args ≠ []) :
    Record.parseChars (assignment name args).encode = .ok (.set name .assign (sentText args)) := by
  obtain ⟨a, rest, rfl⟩ := List.exists_cons_of_ne_nil hargs
  have hword : (assignment name (a :: rest)).opcode.toList = ['X'] := by simp [assignment]
  have hparams : ((assignment name (a :: rest)).params.flatMap fun p =>
      ' ' :: encodeArgument p.toList) = ' ' :: (encodeArgument name.toList ++
        ' ' :: ([Operator.assign.symbol] ++ ' ' :: joined ((a :: rest).map String.toList))) := by
    rw [← Text.Quoted.arguments_map]
    rfl
  rw [Record.parseChars_commandEncode (isOpcode_assignment name _), hparams, hword]
  exact parseBody_set name .assign (solid_joined a rest)

/-! ## The device -/

/-- A value that holds a string and that peers may write. -/
def HoldsString (values : Registry) (name : String) : Prop :=
  ∃ v old, values.get? name = some v ∧ v.flags.writable = true ∧ v.contents = .scalar (.string old)

/-- The value of a name holds this text. -/
def HoldsText (values : Registry) (name text : String) : Prop :=
  ∃ v, values.get? name = some v ∧ v.contents = .scalar (.string text)

theorem HoldsText.unique {values : Registry} {name text text' : String}
    (h : HoldsText values name text) (h' : HoldsText values name text') : text = text' := by
  obtain ⟨v, hv, hcontents⟩ := h
  obtain ⟨v', hv', hcontents'⟩ := h'
  obtain rfl : v = v' := Option.some.inj (hv.symm.trans hv')
  simpa using hcontents.symm.trans hcontents'

theorem applyText_sentText {v : Value} {old : String} (hv : v.contents = .scalar (.string old))
    {args : List String} (hargs : args ≠ []) : v.applyText .assign (sentText args) =
      ((taken args).mapError OperationError.parse).map fun text =>
        v.withContents (.scalar (.string text)) := by
  have hset : v.set (sentText args) =
      (taken args).map fun text => v.withContents (.scalar (.string text)) := by
    rw [← parseString_sentText hargs, Value.set, hv]
    show v.withContents <$> (Contents.parseString _ >>= fun t => pure _) = _
    cases Contents.parseString (sentText args).toList <;> rfl
  rw [Value.applyText, if_pos rfl, hset]
  cases taken args <;> rfl

/-- The back end objects to no change. -/
def Consents {σ : Type} (dev : Device σ) : Prop :=
  ∀ current updated state, (dev.setValue current updated state).1 = .ok ()

variable {τ ρ σ : Type}

/-- A request is granted if the string takes its text. -/
theorem receiveSet_of_taken {dev : Device σ} (hdev : Consents dev) {t : Turn τ σ} {name : String}
    (hname : HoldsString t.own.values name) {args : List String} (hargs : args ≠ []) {text : String}
    (htext : taken args = .ok text) : ∃ own, HoldsText own.values name text ∧
      Connection.receiveSet dev name .assign (sentText args) t =
        ((Turn.reply 0 "OK" ⟨t.conn, own⟩).onConn (·.emit (.valueSet t.conn.id name)), none) := by
  obtain ⟨v, old, hfound, hwritable, hv⟩ := hname
  have happly := applyText_sentText hv hargs
  rw [htext] at happly
  have hproposes : Connection.Proposes t.own.values name .assign (sentText args) v
      (v.withContents (.scalar (.string text))) := ⟨hfound, hwritable, happly⟩
  have hsaid : Connection.Says dev t.own name .assign (sentText args) (.ok ()) :=
    ⟨v, _, hproposes, hdev _ _ _⟩
  have hsame : (v.withContents (.scalar (.string text))).name = name :=
    (Registry.mem_of_get? hfound).2
  have hstored : HoldsText (t.own.values.put name (v.withContents (.scalar (.string text)))) name
      text := ⟨_, Registry.find?_replaceFirst hsame hfound, rfl⟩
  have hruled := Connection.ruled_receiveSet dev name .assign (sentText args) t
  generalize Connection.receiveSet dev name .assign (sentText args) t = result at hruled ⊢
  cases hruled with
  | impossible e h => exact absurd hsaid (h _)
  | misspelt h => exact absurd h (hsaid.not_misspelt _)
  | vetoed h hverdict => cases hverdict.symm.trans (hdev _ _ _)
  | granted h _ =>
    obtain ⟨rfl, rfl⟩ := h.unique hproposes
    exact ⟨_, hstored, rfl⟩

/-- A request is refused if the string does not take its text. -/
theorem receiveSet_of_not_taken (dev : Device σ) {t : Turn τ σ} {name : String}
    (hname : HoldsString t.own.values name) {args : List String} (hargs : args ≠ [])
    {e : ParseError} (he : taken args = .error e) :
    Connection.receiveSet dev name .assign (sentText args) t =
      (t.reply (-3) e.message, some e) := by
  obtain ⟨v, old, hfound, hwritable, hv⟩ := hname
  have happly := applyText_sentText hv hargs
  rw [he] at happly
  have hmisspelt : Connection.Misspelt t.own.values name .assign (sentText args) e :=
    ⟨v, hfound, hwritable, happly⟩
  have hno (verdict : Except String Unit) :
      ¬ Connection.Says dev t.own name .assign (sentText args) verdict :=
    fun hsaid => hsaid.not_misspelt e hmisspelt
  have hruled := Connection.ruled_receiveSet dev name .assign (sentText args) t
  generalize Connection.receiveSet dev name .assign (sentText args) t = result at hruled ⊢
  cases hruled with
  | impossible _ _ hspelt => exact absurd hmisspelt (hspelt e)
  | misspelt h => rw [h.unique hmisspelt]
  | vetoed h hverdict => exact absurd ⟨_, _, h, hverdict⟩ (hno _)
  | granted h hverdict => exact absurd ⟨_, _, h, hverdict⟩ (hno _)

/-! ## The connection of the client -/

/-- A connection whose peer has sent nothing of a line. -/
structure IsFresh (c : Connection τ) : Prop where
  isOpen : c.isClosed = false
  held : c.input.held = []
  discarding : c.input.discarding = false

/-- A connection of the client with its one command under way. -/
structure Asking (command : Command) (c : Connection τ) : Prop extends IsFresh c where
  limit : c.input.limit = Session.settings.maxRecordSize
  output : c.output = stream [lineBytes command.encode]
  inFlight : ∃ q, c.queue.inFlight = some q ∧ q.command.tracked = true
  notices : c.queue.notices = []

/-- The connection of a session, once the device takes it. -/
def connected? (link : τ) (now : Instant) (s : Session τ) : Option (Connection τ) :=
  s.device?.map fun c => (c.pollConnect (.connected link) now).2

/-- The connection of a session before the device takes it. -/
def dialling (request : Request) (now : Instant) : Connection τ :=
  Endpoint.configure Session.settings (.connecting 1 .device Session.peer request.address now)

theorem endpoint_send (s : Session τ) (now : Instant) {command : Command}
    (h : Session.commandFor s.request.task = some command) : (s.send now).endpoint =
      (s.endpoint.queueCommandTo Session.peer { command with tracked := true }).2 := by
  unfold Session.send
  rw [h]
  dsimp only
  split <;> rfl

/-- A session starts with one connection, in whose queue the command waits. -/
theorem device?_start (request : Request) (now : Instant) {command : Command}
    (h : Session.commandFor request.task = some command) :
    (Session.start request now : Session τ).device? =
      some ((dialling request now).queueCommand false { command with tracked := true }).2 := by
  have hconnections : (Session.start request now : Session τ).endpoint.connections =
      ((⟨[dialling request now], 1⟩ : Connections τ).queueCommandTo Session.peer
        { command with tracked := true }).2 := by
    unfold Session.start
    dsimp only
    rw [@endpoint_send τ _ now command]
    · split <;> rfl
    · split <;> exact h
  unfold Session.device?
  rw [hconnections]
  rfl

/-- **The command goes out** as soon as the device takes the connection. -/
theorem asking_of_start (request : Request) (now later : Instant) (link : τ) {command : Command}
    (h : Session.commandFor request.task = some command) :
    ∃ c, connected? link later (Session.start request now) = some c ∧ Asking command c := by
  unfold connected?
  rw [device?_start request now h]
  refine ⟨_, rfl, ⟨⟨rfl, rfl, rfl⟩, rfl, ?_, ⟨_, rfl, rfl⟩, rfl⟩⟩
  show [] ++ (lineBytes command.encode ++ [lineFeed]) = _
  simp [stream]

/-! ## One request and its answer -/

/-- What the client has written reaches the device, and what the device writes then reaches the
client, each in any number of pieces and at any times. -/
structure Exchange (dev : Device σ) (c : Connection τ) (t : Turn ρ σ) where
  sent : List (Instant × Bytes)
  answers : List (Instant × Bytes)
  sent_whole : (sent.map Prod.snd).flatten = c.output
  answers_whole : (answers.map Prod.snd).flatten =
    (Connection.receiveAll dev sent t).conn.output.drop t.conn.output.length

namespace Exchange

variable {dev : Device σ} {c : Connection τ} {t : Turn ρ σ}

/-- The device afterwards. -/
def after (x : Exchange dev c t) : Turn ρ σ := Connection.receiveAll dev x.sent t

/-- The connection of the client afterwards. -/
def told (x : Exchange dev c t) : Connection τ :=
  (Connection.receiveAll Device.passive x.answers ⟨c, ⟨{}, ()⟩⟩).conn

/-- The one thing that the device wrote. -/
def Answers (x : Exchange dev c t) (code : Int32) (reason : String) : Prop :=
  x.after.conn.output = t.conn.output ++ recordBytes [.reply code reason]

/-- The device can read the line that the client has written. -/
def Fits (_ : Exchange dev c t) : Prop := c.output.length ≤ t.conn.input.limit + 1

/-- Both ways in one piece each. -/
def atOnce (dev : Device σ) (c : Connection τ) (t : Turn ρ σ) (now : Instant) :
    Exchange dev c t where
  sent := [(now, c.output)]
  answers := [(now,
    (Connection.receiveAll dev [(now, c.output)] t).conn.output.drop t.conn.output.length)]
  sent_whole := by simp
  answers_whole := by simp

end Exchange

/-- A line that arrives in pieces leads to one frame. -/
theorem framesOfChunks_line {c : Connection τ} (h : IsFresh c) {chunks : List Bytes}
    {line : List Char} (hline : Text.OneLine line)
    (hflat : chunks.flatten = stream [lineBytes line]) :
    c.input.framesOfChunks chunks =
      [if (lineBytes line).length ≤ c.input.limit then .ok (String.ofList line)
        else .error (.tooLong c.input.limit)] := by
  have hawaits : Framing.Awaits c.input chunks.flatten [lineBytes line] := by
    rw [hflat]
    exact Framing.awaits_fresh h.held h.discarding _
  have hwhole : ∀ l ∈ [lineBytes line], lineFeed ∉ l := by
    rintro l hl
    rw [List.mem_singleton.1 hl]
    exact hline.lineFeed_not_mem_encode
  have hframes := Framing.forall₂_framesOfChunks hwhole (by simp [h.held]) hawaits
  generalize c.input.framesOfChunks chunks = frames at hframes ⊢
  cases hframes with
  | @cons frame _ _ _ hframe hrest =>
    cases hrest
    have hread := Framing.frameOf_encode c.input.limit hline
    by_cases hfits : (lineBytes line).length ≤ c.input.limit
    · have hshort : ¬ c.input.limit < (lineBytes line).length := Nat.not_lt.2 hfits
      rw [if_pos hfits, hframe.resolve_right fun hlong => hshort hlong.1]
      exact congrArg (fun f => [f]) (hread.trans (if_neg hshort))
    · have hlong : c.input.limit < (lineBytes line).length := Nat.not_le.1 hfits
      rw [if_neg hfits]
      rcases hframe with hframe | ⟨-, hframe⟩
      · rw [hframe]
        exact congrArg (fun f => [f]) (hread.trans (if_pos hlong))
      · rw [hframe]

namespace Exchange

variable {dev : Device σ} {command : Command} {c : Connection τ} {t : Turn ρ σ}

theorem fits_iff (x : Exchange dev c t) (hc : Asking command c) :
    x.Fits ↔ (lineBytes command.encode).length ≤ t.conn.input.limit := by
  rw [Fits, hc.output]
  simp [stream]

/-- The device handles one frame. -/
theorem after_eq (x : Exchange dev c t) (hc : Asking command c) (ht : IsFresh t.conn)
    (hline : Text.OneLine command.encode) :
    ∃ h : Hearing, x.after = (Connection.processFrame dev t
      (if (lineBytes command.encode).length ≤ t.conn.input.limit then .ok command.line
        else .error (.tooLong t.conn.input.limit))).heard h := by
  obtain ⟨h, hall⟩ := Connection.receiveAll_eq dev x.sent t
  have hframes := framesOfChunks_line ht hline (x.sent_whole.trans hc.output)
  rw [hframes] at hall
  exact ⟨h, hall⟩

/-- What cannot be read is not answered and changes no value. -/
theorem after_of_not_fits (x : Exchange dev c t) (hc : Asking command c) (ht : IsFresh t.conn)
    (hline : Text.OneLine command.encode) (hlong : ¬ x.Fits) :
    x.after.conn.output = t.conn.output ∧ x.after.own.values = t.own.values := by
  obtain ⟨h, hafter⟩ := x.after_eq hc ht hline
  rw [fits_iff x hc] at hlong
  rw [if_neg hlong] at hafter
  have hframe (e : ParseError) :
      Connection.processFrame dev t (.error e) = t.onConn Connection.countParseError := by
    unfold Connection.processFrame
    rw [if_neg (by simp [ht.isOpen])]
  rw [hafter, hframe]
  exact ⟨Connection.output_countParseError t.conn, rfl⟩

/-- What can be read is handled as a line. -/
theorem after_of_fits (x : Exchange dev c t) (hc : Asking command c) (ht : IsFresh t.conn)
    (hline : Text.OneLine command.encode) (hfits : x.Fits) :
    x.after.conn.output = (Connection.processLine dev command.line t).conn.output ∧
      x.after.own = (Connection.processLine dev command.line t).own := by
  obtain ⟨h, hafter⟩ := x.after_eq hc ht hline
  rw [fits_iff x hc] at hfits
  rw [if_pos hfits, Connection.processFrame_ok dev ht.isOpen] at hafter
  rw [hafter]
  generalize Connection.processLine dev command.line t = u
  exact ⟨rfl, rfl⟩

end Exchange

/-! ## What is stored -/

section

variable {dev : Device σ} {c : Connection τ} {t : Turn ρ σ} {name : String} {args : List String}

theorem parse_assignment (hargs : args ≠ []) :
    Record.parse (assignment name args).line = .ok (.set name .assign (sentText args)) := by
  rw [Record.parse, Command.line, String.toList_ofList, parseChars_assignment name hargs]

theorem output_reply (code : Int32) (reason : String) (t : Turn ρ σ) :
    (t.reply code reason).conn.output = t.conn.output ++ recordBytes [.reply code reason] := by
  rw [Turn.reply, Turn.onConn, Connection.sendReply, Connection.send_eq]

/-- **A text that a string takes** is stored, and the device says so. -/
theorem stored_of_taken (hdev : Consents dev) (hargs : args ≠ [])
    (hc : Asking (assignment name args) c) (ht : IsFresh t.conn)
    (hname : HoldsString t.own.values name) (x : Exchange dev c t) (hfits : x.Fits) {text : String}
    (htext : taken args = .ok text) :
    x.Answers 0 "OK" ∧ HoldsText x.after.own.values name text := by
  obtain ⟨hout, hown⟩ := x.after_of_fits hc ht (oneLine_assignment name args) hfits
  obtain ⟨own, hstored, hset⟩ := receiveSet_of_taken hdev hname hargs htext
  have hline := Connection.processLine_ok dev t (@parse_assignment name args hargs)
  rw [show Connection.dispatch dev (.set name .assign (sentText args)) t = _ from hset] at hline
  rw [hline] at hout hown
  rw [Exchange.Answers, hown]
  exact ⟨hout.trans (output_reply 0 "OK" _), hstored⟩

/-- **A text that it does not take** is refused, and no value changes. -/
theorem refused_of_not_taken (hargs : args ≠ []) (hc : Asking (assignment name args) c)
    (ht : IsFresh t.conn) (hname : HoldsString t.own.values name) (x : Exchange dev c t)
    (hfits : x.Fits) {e : ParseError} (he : taken args = .error e) :
    x.Answers (-3) e.message ∧ x.after.own.values = t.own.values := by
  obtain ⟨hout, hown⟩ := x.after_of_fits hc ht (oneLine_assignment name args) hfits
  have hset := receiveSet_of_not_taken dev hname hargs he
  have hline := Connection.processLine_ok dev t (@parse_assignment name args hargs)
  rw [show Connection.dispatch dev (.set name .assign (sentText args)) t = _ from hset] at hline
  rw [hline] at hout hown
  rw [Exchange.Answers, hown]
  refine ⟨hout.trans ?_, rfl⟩
  exact (Connection.output_countParseError _).trans (output_reply (-3) e.message t)

end

/-! ## What the client is told -/

/-- What was reported does not change when the next command is sent. -/
theorem notices_pump (c : Connection τ) : c.pump.queue.notices = c.queue.notices := by
  rcases Connection.performs_pump c with h | ⟨-, -, q, h⟩
  · rw [h]
  · generalize c.pump = d at h ⊢
    cases h
    rfl

/-- A reply that grants a tracked command puts one report in front of whoever waits for it. -/
theorem notices_receiveReply {c : Connection τ} {q : Queued} (hq : c.queue.inFlight = some q)
    (htracked : q.command.tracked = true) (reason : String) :
    (c.receiveReply 0 reason).queue.notices = c.queue.notices ++ [q.complete .ok 0] := by
  have hqueued : (0 : Int32) ≠ Connection.codeQueued := by decide
  have hrequeue : (0 : Int32) ≠ Connection.codeRequeue := by decide
  have hok : (0 : Int32) ≤ 0 := by decide
  unfold Connection.receiveReply
  simp only [hq, Option.isNone_some, Bool.false_eq_true, if_false, hqueued, hrequeue, hok, if_true,
    CommandQueue.complete, CommandQueue.finish, notices_pump, htracked]
  rfl

/-- **A granted request** is reported to the client as done. -/
theorem told_of_answers {dev : Device σ} {command : Command} {c : Connection τ} {t : Turn ρ σ}
    (x : Exchange dev c t) (hc : Asking command c) (hanswer : x.Answers 0 "OK") :
    ∃ completion, x.told.queue.notices = [completion] ∧ completion.outcome = .ok := by
  obtain ⟨q, hq, htracked⟩ := hc.inFlight
  have hwritten : (x.answers.map Prod.snd).flatten =
      stream [lineBytes (Record.reply 0 "OK").encode] := by
    rw [x.answers_whole, show (Connection.receiveAll dev x.sent t).conn.output = _ from hanswer]
    exact List.drop_left
  have hframes := framesOfChunks_line hc.toIsFresh (Record.oneLine_reply 0 "OK") hwritten
  have hshort : (lineBytes (Record.reply 0 "OK").encode).length ≤ c.input.limit := by
    rw [hc.limit]
    decide
  rw [if_pos hshort] at hframes
  obtain ⟨h, hall⟩ := Connection.receiveAll_eq Device.passive x.answers
    (⟨c, ⟨{}, ()⟩⟩ : Turn τ Unit)
  have hparse : Record.parse (String.ofList (Record.reply 0 "OK").encode) =
      .ok (.reply 0 "OK") := by
    rw [Record.parse, String.toList_ofList, Record.parseChars_reply]
  refine ⟨q.complete .ok 0, ?_, rfl⟩
  rw [Exchange.told, hall, hframes, List.foldl_cons, List.foldl_nil,
    Connection.processFrame_ok _ hc.isOpen, Connection.processLine_ok _ _ hparse]
  have hnotices := notices_receiveReply hq htracked "OK"
  rw [hc.notices, List.nil_append] at hnotices
  exact hnotices

/-! ## As typed -/

theorem reply_code_inj {code code' : Int32} {reason reason' : String}
    (h : recordBytes [.reply code reason] = recordBytes [.reply code' reason']) : code = code' := by
  rw [recordBytes_singleton, recordBytes_singleton] at h
  have hread := congrArg readLine (List.append_cancel_right h)
  rw [readLine_lineBytes (Record.oneLine_reply code reason),
    readLine_lineBytes (Record.oneLine_reply code' reason'), Record.parseChars_reply,
    Record.parseChars_reply] at hread
  exact (Record.reply.inj (Option.some.inj hread)).1

/-- What is printed on a granted request. -/
theorem printed_conclude {s : Session τ} {name : String} {args : List String}
    (htask : s.request.task = .set name "=" args) {completion : Completion}
    (hok : completion.outcome = .ok) (T : Transport τ) :
    s.printed ++ [.out ("✅ " ++ name ++ " = " ++ shown args)] <+:
      (s.conclude T completion).printed := by
  have hsign : "✅ " ++ name ++ " " ++ "=" ++ " " = "✅ " ++ name ++ " = " := by
    simp only [String.append_assoc]
    rfl
  have hconclude : s.conclude T completion =
      (s.print (.out ("✅ " ++ name ++ " " ++ "=" ++ " " ++ shown args))).finish T := by
    unfold Session.conclude Session.succeed
    rw [hok, htask]
    rfl
  rw [hconclude, hsign]
  exact ⟨_, rfl⟩

/-- **A text that is set from the command line** is granted and stored as it is shown to the user
exactly when the device can read the line and there is one argument, or no argument needs quotes.
Whenever the request is granted, the client shows the arguments with spaces between them. What the
device can read it stores if a string takes it, and refuses otherwise; on what it cannot read
nothing happens. -/
theorem stored_as_typed_iff {dev : Device σ} (hdev : Consents dev) {request : Request}
    {name : String} {args : List String} (htask : request.task = .set name "=" args)
    (hargs : args ≠ []) {t : Turn ρ σ} (ht : IsFresh t.conn)
    (hname : HoldsString t.own.values name) (now later : Instant) (link : τ) :
    ∃ c, connected? link later (Session.start request now) = some c ∧ ∀ x : Exchange dev c t,
      (x.Answers 0 "OK" ∧ HoldsText x.after.own.values name (shown args) ↔
        x.Fits ∧ (args.length = 1 ∨ ∀ a ∈ args, StandsBare a.toList)) ∧
      (x.Answers 0 "OK" → ∃ completion, x.told.queue.notices = [completion] ∧
        ∀ (T : Transport τ) (s : Session τ), s.request = request →
          s.printed ++ [.out ("✅ " ++ name ++ " = " ++ shown args)] <+:
            (s.conclude T completion).printed) ∧
      (x.Fits → (∀ text, taken args = .ok text →
          x.Answers 0 "OK" ∧ HoldsText x.after.own.values name text) ∧
        ∀ e, taken args = .error e →
          x.Answers (-3) e.message ∧ x.after.own.values = t.own.values) ∧
      (¬ x.Fits → x.after.conn.output = t.conn.output ∧ x.after.own.values = t.own.values) := by
  have hcommand : Session.commandFor request.task = some (assignment name args) := by
    rw [htask, commandFor_set]
  obtain ⟨c, hconnected, hc⟩ := asking_of_start request now later link hcommand
  refine ⟨c, hconnected, fun x => ?_⟩
  have hstored (hfits : x.Fits) (text : String) (htext : taken args = .ok text) :
      x.Answers 0 "OK" ∧ HoldsText x.after.own.values name text :=
    stored_of_taken hdev hargs hc ht hname x hfits htext
  have hrefused (hfits : x.Fits) (e : ParseError) (he : taken args = .error e) :
      x.Answers (-3) e.message ∧ x.after.own.values = t.own.values :=
    refused_of_not_taken hargs hc ht hname x hfits he
  have hunread (hlong : ¬ x.Fits) :=
    x.after_of_not_fits hc ht (oneLine_assignment name args) hlong
  refine ⟨⟨fun ⟨hanswer, htext⟩ => ?_, fun ⟨hfits, htyped⟩ => ?_⟩, fun hanswer => ?_,
    fun hfits => ⟨hstored hfits, hrefused hfits⟩, hunread⟩
  · -- there is an answer, so the line was read, and its code says what the string did
    have hfits : x.Fits := by
      by_contra hlong
      have hnone := List.append_right_eq_self.1 (hanswer.symm.trans (hunread hlong).1)
      rw [recordBytes_singleton] at hnone
      simp at hnone
    refine ⟨hfits, (taken_eq_shown_iff hargs).1 ?_⟩
    cases htaken : taken args with
    | ok text => rw [(hstored hfits text htaken).2.unique htext]
    | error e =>
      have hsame := List.append_cancel_left (hanswer.symm.trans (hrefused hfits e htaken).1)
      exact absurd (reply_code_inj hsame) (by decide)
  · exact hstored hfits (shown args) ((taken_eq_shown_iff hargs).2 htyped)
  · obtain ⟨completion, hnotices, hok⟩ := told_of_answers x hc hanswer
    refine ⟨completion, hnotices, fun T s hs => printed_conclude ?_ hok T⟩
    rw [hs, htask]

/-- One argument with spaces at its ends and quotes. -/
theorem stored_as_typed_of_one_argument :
    let target : Value := { name := "TARGET", description := "name of the target",
                            flags := { writable := true }, contents := .scalar (.string "") }
    let t : Turn Unit Unit := ⟨.inMemory 1 .client "ui" 0, ⟨⟨[target]⟩, ()⟩⟩
    let request : Request := { host := "127.0.0.1", port := 6170, timeout := 5000000000,
                               task := .set "TARGET" "=" [" M \"31\" "] }
    Consents Device.passive ∧ IsFresh t.conn ∧ HoldsString t.own.values "TARGET" ∧
      ∃ c, connected? () 1 (Session.start request 0) = some c ∧
        let x : Exchange Device.passive c t := .atOnce Device.passive c t 2
        x.Answers 0 "OK" ∧ HoldsText x.after.own.values "TARGET" " M \"31\" " := by
  intro target t request
  have hdev : Consents Device.passive := fun _ _ _ => rfl
  have ht : IsFresh t.conn := ⟨rfl, rfl, rfl⟩
  have hname : HoldsString t.own.values "TARGET" := ⟨target, "", rfl, rfl, rfl⟩
  obtain ⟨c, hc, h⟩ := @stored_as_typed_iff Unit Unit Unit Device.passive hdev request "TARGET"
    [" M \"31\" "] rfl (by simp) t ht hname 0 1 ()
  obtain ⟨d, hd, hasks⟩ := asking_of_start request 0 1 () (commandFor_set "TARGET" _)
  obtain rfl : c = d := Option.some.inj (hc.symm.trans hd)
  have hfits : (Exchange.atOnce Device.passive c t 2).Fits :=
    (Exchange.fits_iff _ hasks).2 (by decide +kernel)
  exact ⟨hdev, ht, hname, c, hc, (h _).1.2 ⟨hfits, .inl rfl⟩⟩

/-- Of two arguments the quotes of the second one are stored with it, and those of the first one get
the request refused; what is shown has none. -/
theorem not_stored_as_typed :
    let target : Value := { name := "TARGET", description := "name of the target",
                            flags := { writable := true }, contents := .scalar (.string "") }
    let t : Turn Unit Unit := ⟨.inMemory 1 .client "ui" 0, ⟨⟨[target]⟩, ()⟩⟩
    let request (args : List String) : Request :=
      { host := "127.0.0.1", port := 6170, timeout := 5000000000, task := .set "TARGET" "=" args }
    shown ["a", "b c"] = "a b c" ∧
      (∃ c, connected? () 1 (Session.start (request ["a", "b c"]) 0) = some c ∧
        ∀ x : Exchange Device.passive c t, x.Answers 0 "OK" ∧
          HoldsText x.after.own.values "TARGET" "a \"b c\"" ∧
          ¬ HoldsText x.after.own.values "TARGET" "a b c") ∧
      ∃ c, connected? () 1 (Session.start (request ["b c", "a"]) 0) = some c ∧
        ∀ x : Exchange Device.passive c t,
          x.Answers (-3) "unexpected trailing parameter 'a'" ∧ x.after.own.values = ⟨[target]⟩ := by
  intro target t request
  have ht : IsFresh t.conn := ⟨rfl, rfl, rfl⟩
  have hname : HoldsString t.own.values "TARGET" := ⟨target, "", rfl, rfl, rfl⟩
  have htaken : taken ["a", "b c"] = .ok "a \"b c\"" := rfl
  have hnot : taken ["b c", "a"] = .error (.trailingParameter "a") := rfl
  have hcommand (args : List String) :
      Session.commandFor (request args).task = some (assignment "TARGET" args) :=
    commandFor_set "TARGET" args
  obtain ⟨c, hc, hasks⟩ := asking_of_start (request ["a", "b c"]) 0 1 () (hcommand _)
  obtain ⟨d, hd, hasks'⟩ := asking_of_start (request ["b c", "a"]) 0 1 () (hcommand _)
  refine ⟨rfl, ⟨c, hc, fun x => ?_⟩, d, hd, fun x => ?_⟩
  · have hfits : x.Fits := (x.fits_iff hasks).2 (by decide +kernel)
    obtain ⟨hanswer, htext⟩ :=
      stored_of_taken (fun _ _ _ => rfl) (by simp) hasks ht hname x hfits htaken
    exact ⟨hanswer, htext, fun h => absurd (h.unique htext) (by decide)⟩
  · have hfits : x.Fits := (x.fits_iff hasks').2 (by decide +kernel)
    obtain ⟨hanswer, hkept⟩ := refused_of_not_taken (by simp) hasks' ht hname x hfits hnot
    have hmessage : (ParseError.trailingParameter "a").message =
        "unexpected trailing parameter 'a'" := by decide
    rw [hmessage] at hanswer
    exact ⟨hanswer, hkept⟩

end Client

end Observatory
