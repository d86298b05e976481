import ForgottenServer.Lib.VectorMap
import ForgottenServer.Network.Message

/-! # The way to the client

The dispatcher gathers what it writes to a client in an output buffer. `OutputMessagePool` sends all the buffers a little
later, from a timer, and a full buffer is sent at once. The connection of a client has a queue of messages, and the socket
writes the first of it. The network thread and the dispatcher meet in the connection, under its lock: between two steps
under the lock, the threads take their steps in any order. -/

namespace ForgottenServer.Autosend
open Network (NETWORKMESSAGE_MAXSIZE INITIAL_BUFFER_POSITION MAX_BODY_LENGTH MAX_PROTOCOL_BODY_LENGTH)

/-- `direct`: it was not filled by `writeToOutputBuffer`, but handed to `send` by itself. -/
structure Message where
  body : List UInt8
  direct : Bool
  deriving DecidableEq, Repr

/-- `posted` and `writing` count the calls of `internalSend` that are still to come and the writes of the socket that are
not over, `releases` the tasks that release the protocol. The last three fields only tell what happened: `wire` is what
the socket wrote. -/
structure Connection where
  closed : Bool := false
  isOpen : Bool := true
  messageQueue : List Message := []
  posted : Nat := 0
  writing : Nat := 0
  releases : Nat := 0
  broken : Bool := false
  sent : List Message := []
  wire : List Message := []
  deriving DecidableEq, Repr

namespace Connection

variable (c : Connection)

def closeSocket : Connection := { c with isOpen := false }

def closeLocked (force : Bool) : Connection :=
  if c.closed then c
  else
    let c' := { c with closed := true, releases := c.releases + 1, broken := c.broken || force }
    if c'.messageQueue.isEmpty || force then c'.closeSocket else c'

/-- The way out of an error. -/
def fail : Connection := { c.closeLocked true with broken := true }

/-- `posts`: `asio::post` does not throw. -/
def send (posts : Bool) (msg : Message) : Connection :=
  if c.closed then c
  else
    let c' := { c with messageQueue := c.messageQueue ++ [msg], sent := c.sent ++ [msg] }
    if c.messageQueue.isEmpty then
      if posts then { c' with posted := c'.posted + 1 } else { c' with messageQueue := [] }.fail
    else c'

/-- `begins`: `async_write` does not throw. -/
def internalSend (begins : Bool) : Connection := if begins then { c with writing := c.writing + 1 } else c.fail

/-- No result is the `pop_front` of an empty queue. -/
def onWriteOperation (error begins : Bool) : Option Connection :=
  match c.messageQueue with
  | [] => none
  | msg :: rest =>
    if error then some { c with messageQueue := [] }.fail
    else
      let c' := { c with messageQueue := rest, wire := c.wire ++ [msg] }
      if !rest.isEmpty then some (c'.internalSend begins)
      else if c'.closed then some c'.closeSocket else some c'

end Connection

/-- `written` only tells what happened. -/
structure Protocol where
  outputBuffer : Option (List UInt8) := none
  inAutosend : Bool := false
  connection : Connection := {}
  written : List UInt8 := []
  deriving DecidableEq, Repr

/-- `OutputMessagePool` and the protocols. `timers` counts the calls of `sendAll` in the scheduler; `sending` is what is
left of the protocols of a call that is under way. -/
structure Pool where
  protocols : Nat → Protocol := fun _ => {}
  bufferedProtocols : List Nat := []
  sendScheduled : Bool := false
  timers : Nat := 0
  sending : Option (List Nat) := none

inductive Event where
  | write (p : Nat) (bytes : List UInt8) (posts : Bool)
  /-- `Protocol::send` of a message that was made for it. -/
  | direct (p : Nat) (bytes : List UInt8) (posts : Bool)
  /-- `Connection::close`, from the dispatcher, a timeout or an error of reading. -/
  | close (p : Nat) (force : Bool)
  /-- The scheduler calls `sendAll`. -/
  | sendAll
  /-- `sendAll` goes on to the next protocol. -/
  | next (posts : Bool)
  | release (p : Nat)
  /-- A call of `internalSend` that was posted comes. -/
  | post (p : Nat) (begins : Bool)
  /-- A write of the socket is over. -/
  | wrote (p : Nat) (error begins : Bool)
  deriving DecidableEq, Repr

namespace Pool

variable (s : Pool)

def setProtocol (p : Nat) (protocol : Protocol) : Pool :=
  { s with protocols := Function.update s.protocols p protocol }

def setConnection (p : Nat) (connection : Connection) : Pool :=
  s.setProtocol p { s.protocols p with connection := connection }

def setBuffer (p : Nat) (outputBuffer : Option (List UInt8)) : Pool :=
  s.setProtocol p { s.protocols p with outputBuffer := outputBuffer }

def setInAutosend (p : Nat) (inAutosend : Bool) : Pool :=
  s.setProtocol p { s.protocols p with inAutosend := inAutosend }

def send (p : Nat) (posts : Bool) (msg : Message) : Pool :=
  s.setConnection p ((s.protocols p).connection.send posts msg)

def scheduleSendAll : Pool := { s with sendScheduled := true, timers := s.timers + 1 }

def addProtocolToAutosend (p : Nat) : Pool :=
  if (s.protocols p).inAutosend then s
  else
    let s' := { s.setInAutosend p true with bufferedProtocols := s.bufferedProtocols ++ [p] }
    if !s'.sendScheduled then s'.scheduleSendAll else s'

def removeProtocolFromAutosend (p : Nat) : Pool :=
  if p ∈ s.bufferedProtocols then
    { s.setInAutosend p false with bufferedProtocols := VectorMap.swapRemove id s.bufferedProtocols p }
  else s

def getOutputBuffer (p size : Nat) (posts : Bool) : Pool :=
  match (s.protocols p).outputBuffer with
  | none => (s.setBuffer p (some [])).addProtocolToAutosend p
  | some body =>
    if body.length + size > MAX_PROTOCOL_BODY_LENGTH then
      ((s.send p posts ⟨body, false⟩).setBuffer p (some [])).addProtocolToAutosend p
    else s

/-- `OutputMessage::append` to the buffer of a protocol. -/
def append (p : Nat) (bytes : List UInt8) : Pool :=
  match (s.protocols p).outputBuffer with
  | none => s
  | some body =>
    if INITIAL_BUFFER_POSITION + body.length + bytes.length > NETWORKMESSAGE_MAXSIZE then s
    else s.setBuffer p (some (body ++ bytes))

def writeToOutputBuffer (p : Nat) (bytes : List UInt8) (posts : Bool) : Pool :=
  let s' := (s.getOutputBuffer p bytes.length posts).append p bytes
  s'.setProtocol p { s'.protocols p with written := (s'.protocols p).written ++ bytes }

def sendAll : Pool :=
  let s' := { s with sendScheduled := false, timers := s.timers - 1 }
  if s.bufferedProtocols = [] then s' else { s' with bufferedProtocols := [], sending := some s.bufferedProtocols }

def sendNext (posts : Bool) : List Nat → Pool
  | [] =>
    let s' := { s with sending := none }
    if s.bufferedProtocols ≠ [] then s'.scheduleSendAll else s'
  | p :: rest =>
    let s' := { s.setInAutosend p false with sending := some rest }
    match (s.protocols p).outputBuffer with
    | none => s'
    | some body => (s'.setBuffer p none).send p posts ⟨body, false⟩

/-- No result is a `pop_front` of an empty queue. What the dispatcher does waits for a `sendAll` that is under way. -/
def step : Event → Option Pool
  | .write p bytes posts => some (if s.sending = none then s.writeToOutputBuffer p bytes posts else s)
  | .direct p bytes posts => some (if s.sending = none then s.send p posts ⟨bytes, true⟩ else s)
  | .close p force => some (s.setConnection p ((s.protocols p).connection.closeLocked force))
  | .sendAll => some (if s.sending = none ∧ 0 < s.timers then s.sendAll else s)
  | .next posts => some (s.sending.elim s (s.sendNext posts))
  | .release p =>
    let c := (s.protocols p).connection
    some (if s.sending = none ∧ 0 < c.releases then
      (s.setConnection p { c with releases := c.releases - 1 }).removeProtocolFromAutosend p else s)
  | .post p begins =>
    let c := (s.protocols p).connection
    some (if 0 < c.posted then s.setConnection p ({ c with posted := c.posted - 1 }.internalSend begins) else s)
  | .wrote p error begins =>
    let c := (s.protocols p).connection
    if 0 < c.writing then ({ c with writing := c.writing - 1 }.onWriteOperation error begins).map (s.setConnection p)
    else some s

def run : Pool → List Event → Option Pool
  | s, [] => some s
  | s, event :: events => (s.step event).bind fun s' => s'.run events

end Pool

/-- A message that was filled under the checks of `NetworkMessage`. -/
def Event.Fits : Event → Prop
  | .write _ bytes _ => INITIAL_BUFFER_POSITION + bytes.length < MAX_BODY_LENGTH
  | _ => True

/-- What was written into the messages. -/
def contents (messages : List Message) : List UInt8 :=
  (messages.filter fun msg => !msg.direct).flatMap Message.body

/-! ## A connection -/

namespace Connection

variable {c : Connection}

/-- At most one write is posted or under way, and it is about the first message of the queue. Without an error, and unless
it was closed by force, a connection writes as long as there is a message in its queue, and keeps its socket until then. -/
structure Kept (c : Connection) : Prop where
  once : c.posted + c.writing ≤ 1
  queued : 0 < c.posted + c.writing → c.messageQueue ≠ []
  writes : c.broken = false → c.messageQueue ≠ [] → c.posted + c.writing = 1
  order : c.wire ++ c.messageQueue <+: c.sent
  whole : c.broken = false → c.wire ++ c.messageQueue = c.sent
  socket : c.broken = false → c.isOpen = false → c.closed = true ∧ c.messageQueue = []
  broken : c.broken = true → c.closed = true
  released : 0 < c.releases → c.closed = true

theorem Kept.sound (h : c.Kept) (hopen : c.closed = false) : c.broken = false := by
  by_contra hbroken
  rw [h.broken (Bool.of_not_eq_false hbroken)] at hopen
  cases hopen

theorem Kept.idle (h : c.Kept) (hempty : c.messageQueue = []) : c.posted + c.writing = 0 := by
  by_contra hbusy
  exact h.queued (Nat.pos_of_ne_zero hbusy) hempty

theorem closeLocked_cases (c : Connection) (force : Bool) :
    c.closed = true ∧ c.closeLocked force = c ∨
      c.closed = false ∧ ∃ isOpen, (isOpen = false → c.isOpen = false ∨ c.messageQueue = [] ∨ force = true) ∧
        c.closeLocked force =
          { c with closed := true, releases := c.releases + 1, broken := c.broken || force, isOpen := isOpen } := by
  by_cases hclosed : c.closed = true
  · exact .inl ⟨hclosed, if_pos hclosed⟩
  · refine .inr ⟨Bool.eq_false_iff.mpr hclosed, ?_⟩
    unfold closeLocked
    rw [if_neg hclosed]
    by_cases hshut : (c.messageQueue.isEmpty || force) = true
    · refine ⟨false, fun _ => .inr ?_, if_pos hshut⟩
      rw [Bool.or_eq_true, List.isEmpty_iff] at hshut
      exact hshut
    · exact ⟨c.isOpen, fun hopen => .inl hopen, if_neg hshut⟩

theorem fail_eq (c : Connection) : ∃ isOpen releases,
    c.fail = { c with closed := true, broken := true, isOpen := isOpen, releases := releases } := by
  unfold fail
  obtain ⟨hclosed, heq⟩ | ⟨_, isOpen, _, heq⟩ := c.closeLocked_cases true
  · exact ⟨c.isOpen, c.releases, by rw [heq, ← hclosed]⟩
  · exact ⟨isOpen, c.releases + 1, by rw [heq]⟩

/-- After an error there is no write, and what was not written by then never is. -/
theorem kept_fail (hidle : c.posted + c.writing = 0) (horder : c.wire ++ c.messageQueue <+: c.sent) : c.fail.Kept := by
  obtain ⟨isOpen, releases, heq⟩ := c.fail_eq
  rw [heq]
  exact {
    once := by simp only; omega
    queued := fun hpos => absurd hpos (by simp only; omega)
    writes := fun hsound => by cases hsound
    order := horder
    whole := fun hsound => by cases hsound
    socket := fun hsound => by cases hsound
    broken := fun _ => rfl
    released := fun _ => rfl }

theorem Kept.closeLocked (h : c.Kept) (force : Bool) : (c.closeLocked force).Kept := by
  obtain ⟨_, heq⟩ | ⟨hopen, isOpen, hshut, heq⟩ := c.closeLocked_cases force
  · rwa [heq]
  have hsound := h.sound hopen
  rw [heq]
  refine ⟨h.once, h.queued, fun _ => h.writes hsound, h.order, fun _ => h.whole hsound, fun hsound' hclosed => ⟨rfl, ?_⟩,
    fun _ => rfl, fun _ => rfl⟩
  obtain hclosed | hempty | hforce := hshut hclosed
  · exact (h.socket hsound hclosed).2
  · exact hempty
  · rw [hforce, Bool.or_true] at hsound'
    cases hsound'

theorem Kept.send (h : c.Kept) (posts : Bool) (msg : Message) : (c.send posts msg).Kept := by
  unfold Connection.send
  by_cases hclosed : c.closed = true
  · rwa [if_pos hclosed]
  rw [if_neg hclosed]
  have hopen : c.closed = false := Bool.eq_false_iff.mpr hclosed
  have hsound := h.sound hopen
  have hwhole : c.wire ++ (c.messageQueue ++ [msg]) = c.sent ++ [msg] := by
    rw [← List.append_assoc, h.whole hsound]
  have hsome : c.messageQueue ++ [msg] ≠ [] := List.append_ne_nil_of_right_ne_nil _ (List.cons_ne_nil _ _)
  have hsocket : c.isOpen ≠ false := fun hshut => hclosed (h.socket hsound hshut).1
  by_cases hempty : c.messageQueue = []
  · have hidle := h.idle hempty
    rw [if_pos (List.isEmpty_iff.mpr hempty)]
    cases posts with
    | false =>
      rw [if_neg Bool.false_ne_true]
      refine kept_fail hidle ⟨c.messageQueue ++ [msg], ?_⟩
      simp only [List.append_nil]
      exact hwhole
    | true =>
      rw [if_pos rfl]
      exact {
        once := by simp only; omega
        queued := fun _ => hsome
        writes := fun _ _ => by simp only; omega
        order := hwhole ▸ List.prefix_refl _
        whole := fun _ => hwhole
        socket := fun _ hshut => absurd hshut hsocket
        broken := h.broken
        released := h.released }
  · rw [if_neg (by rwa [List.isEmpty_iff])]
    exact {
      once := h.once
      queued := fun _ => hsome
      writes := fun _ _ => h.writes hsound hempty
      order := hwhole ▸ List.prefix_refl _
      whole := fun _ => hwhole
      socket := fun _ hshut => absurd hshut hsocket
      broken := h.broken
      released := h.released }

/-- A call of `internalSend`, where there was no other one and no write. -/
theorem kept_internalSend (begins : Bool) (hidle : c.posted + c.writing = 0) (hsome : c.messageQueue ≠ [])
    (horder : c.wire ++ c.messageQueue <+: c.sent) (hwhole : c.broken = false → c.wire ++ c.messageQueue = c.sent)
    (hsocket : c.broken = false → c.isOpen ≠ false) (hbroken : c.broken = true → c.closed = true)
    (hreleased : 0 < c.releases → c.closed = true) : (c.internalSend begins).Kept := by
  unfold internalSend
  cases begins with
  | false =>
    rw [if_neg Bool.false_ne_true]
    exact kept_fail hidle horder
  | true =>
    rw [if_pos rfl]
    exact {
      once := by simp only; omega
      queued := fun _ => hsome
      writes := fun _ _ => by simp only; omega
      order := horder
      whole := hwhole
      socket := fun hsound hshut => absurd hshut (hsocket hsound)
      broken := hbroken
      released := hreleased }

theorem Kept.post (h : c.Kept) (begins : Bool) (hposted : 0 < c.posted) :
    ({ c with posted := c.posted - 1 }.internalSend begins).Kept := by
  have honce := h.once
  have hsome := h.queued (by omega)
  exact kept_internalSend begins (by simp only; omega) hsome h.order h.whole
    (fun hsound hshut => hsome (h.socket hsound hshut).2) h.broken h.released

/-- The queue has its first message when a write is over. -/
theorem Kept.wrote (h : c.Kept) (error begins : Bool) (hwriting : 0 < c.writing) :
    ∃ c', { c with writing := c.writing - 1 }.onWriteOperation error begins = some c' ∧ c'.Kept := by
  have honce := h.once
  have hidle : c.posted + (c.writing - 1) = 0 := by omega
  have hsocket : c.broken = false → c.isOpen ≠ false := fun hsound hshut =>
    h.queued (by omega) (h.socket hsound hshut).2
  obtain ⟨msg, rest, hqueue⟩ := List.exists_cons_of_ne_nil (h.queued (by omega))
  have horder := h.order
  have hwhole := h.whole
  rw [hqueue, List.append_cons] at horder hwhole
  unfold onWriteOperation
  simp only [hqueue]
  cases error with
  | true =>
    rw [if_pos rfl]
    refine ⟨_, rfl, kept_fail hidle ?_⟩
    rw [List.append_nil]
    exact (List.prefix_append _ _).trans ((List.append_cons _ _ _).symm ▸ horder)
  | false =>
    rw [if_neg Bool.false_ne_true]
    cases rest with
    | cons next rest =>
      exact ⟨_, rfl, kept_internalSend begins hidle (List.cons_ne_nil _ _) horder hwhole hsocket h.broken h.released⟩
    | nil =>
      rw [List.append_nil] at horder hwhole
      have hend (isOpen : Bool) (hshut : c.broken = false → isOpen = false → c.closed = true) :
          Kept { c with writing := c.writing - 1, messageQueue := [], wire := c.wire ++ [msg], isOpen := isOpen } := {
        once := by simp only; omega
        queued := fun hpos => absurd hpos (by simp only; omega)
        writes := fun _ hsome => absurd rfl hsome
        order := by simpa only [List.append_nil] using horder
        whole := by simpa only [List.append_nil] using hwhole
        socket := fun hsound hisOpen => ⟨hshut hsound hisOpen, rfl⟩
        broken := h.broken
        released := h.released }
      by_cases hclosed : c.closed = true
      · exact ⟨_, if_pos hclosed, hend false fun _ _ => hclosed⟩
      · exact ⟨_, if_neg hclosed, hend c.isOpen fun hsound hshut => absurd hshut (hsocket hsound)⟩

/-! What an operation does to the messages that were handed over, and that no connection is opened again. -/

theorem sent_closeLocked (c : Connection) (force : Bool) : (c.closeLocked force).sent = c.sent := by
  obtain ⟨_, heq⟩ | ⟨_, _, _, heq⟩ := c.closeLocked_cases force <;> rw [heq]

theorem closed_closeLocked (c : Connection) (force : Bool) : (c.closeLocked force).closed = true := by
  obtain ⟨hclosed, heq⟩ | ⟨_, _, _, heq⟩ := c.closeLocked_cases force <;> rw [heq]
  exact hclosed

theorem sent_send (c : Connection) (posts : Bool) (msg : Message) :
    (c.send posts msg).sent = if c.closed then c.sent else c.sent ++ [msg] := by
  unfold send
  split_ifs
  · rfl
  · rfl
  · obtain ⟨_, _, heq⟩ := fail_eq { c with messageQueue := [], sent := c.sent ++ [msg] }
    rw [heq]
  · rfl

theorem closed_send {posts : Bool} {msg : Message} (h : (c.send posts msg).closed = false) : c.closed = false := by
  by_contra hclosed
  rw [Connection.send, if_pos (Bool.of_not_eq_false hclosed)] at h
  exact hclosed h

theorem internalSend_frame (c : Connection) (begins : Bool) :
    (c.internalSend begins).sent = c.sent ∧ ((c.internalSend begins).closed = false → c.closed = false) := by
  cases begins with
  | false =>
    obtain ⟨_, _, heq⟩ := c.fail_eq
    rw [internalSend, if_neg Bool.false_ne_true, heq]
    exact ⟨rfl, fun h => by cases h⟩
  | true => exact ⟨rfl, id⟩

theorem onWriteOperation_frame {c' : Connection} {error begins : Bool} (h : c.onWriteOperation error begins = some c') :
    c'.sent = c.sent ∧ (c'.closed = false → c.closed = false) := by
  unfold onWriteOperation at h
  split at h
  · cases h
  · rename_i msg rest _
    cases error with
    | true =>
      obtain ⟨_, _, heq⟩ := fail_eq { c with messageQueue := [] }
      rw [if_pos rfl, heq, Option.some.injEq] at h
      subst h
      exact ⟨rfl, fun h => by cases h⟩
    | false =>
      cases rest with
      | cons next rest =>
        obtain rfl := Option.some.inj h
        exact internalSend_frame _ begins
      | nil =>
        by_cases hclosed : c.closed = true
        · obtain rfl := Option.some.inj ((if_pos hclosed).symm.trans h)
          exact ⟨rfl, id⟩
        · obtain rfl := Option.some.inj ((if_neg hclosed).symm.trans h)
          exact ⟨rfl, id⟩

end Connection

/-! ## A protocol -/

theorem contents_append (messages messages' : List Message) :
    contents (messages ++ messages') = contents messages ++ contents messages' := by
  simp only [contents, List.filter_append, List.flatMap_append]

theorem contents_direct (messages : List Message) (body : List UInt8) :
    contents (messages ++ [⟨body, true⟩]) = contents messages := by
  rw [contents_append]
  exact List.append_nil _

theorem contents_filled (messages : List Message) (body : List UInt8) :
    contents (messages ++ [⟨body, false⟩]) = contents messages ++ body := by
  rw [contents_append]
  exact congrArg _ (List.append_nil body)

theorem contents_mono {messages messages' : List Message} (h : messages <+: messages') :
    contents messages <+: contents messages' := by
  obtain ⟨rest, rfl⟩ := h
  rw [contents_append]
  exact List.prefix_append _ _

/-- There is room behind a body, as `NetworkMessage` counts it. -/
def Short (body : List UInt8) : Prop := INITIAL_BUFFER_POSITION + body.length < MAX_BODY_LENGTH

theorem short_nil : Short [] := by
  unfold Short
  decide

/-- What was written to an open connection is in its messages and, behind them, in the buffer. -/
structure Protocol.Kept (protocol : Protocol) : Prop where
  connection : protocol.connection.Kept
  told : contents protocol.connection.sent <+: protocol.written
  filled : protocol.connection.closed = false →
    contents protocol.connection.sent ++ protocol.outputBuffer.getD [] = protocol.written
  short : ∀ msg ∈ protocol.connection.sent, msg.direct = false → Short msg.body
  room : ∀ body, protocol.outputBuffer = some body → Short body

namespace Protocol.Kept

variable {protocol : Protocol}

theorem setConnection (h : protocol.Kept) {c : Connection} (hc : c.Kept) (hsent : c.sent = protocol.connection.sent)
    (hopen : c.closed = false → protocol.connection.closed = false) :
    Protocol.Kept { protocol with connection := c } where
  connection := hc
  told := hsent ▸ h.told
  filled := fun hclosed => hsent ▸ h.filled (hopen hclosed)
  short := hsent ▸ h.short
  room := h.room

theorem direct (h : protocol.Kept) (posts : Bool) (body : List UInt8) :
    Protocol.Kept { protocol with connection := protocol.connection.send posts ⟨body, true⟩ } := by
  have hcontents : contents (protocol.connection.send posts ⟨body, true⟩).sent = contents protocol.connection.sent := by
    rw [Connection.sent_send]
    split_ifs
    · rfl
    · exact contents_direct _ body
  refine ⟨h.connection.send posts _, hcontents ▸ h.told, fun hclosed => ?_, fun msg hmsg hfilled => ?_, h.room⟩
  · rw [hcontents]
    exact h.filled (Connection.closed_send hclosed)
  · rw [Connection.sent_send] at hmsg
    split_ifs at hmsg
    · exact h.short msg hmsg hfilled
    · obtain hmsg | hmsg := List.mem_append.mp hmsg
      · exact h.short msg hmsg hfilled
      · obtain rfl := List.mem_singleton.mp hmsg
        cases hfilled

/-- The buffer is sent, and a new one takes its place if there is one. -/
theorem flush (h : protocol.Kept) (posts : Bool) {body : List UInt8} (hbody : protocol.outputBuffer = some body)
    {outputBuffer : Option (List UInt8)} (hempty : outputBuffer = none ∨ outputBuffer = some []) :
    Protocol.Kept { protocol with
      connection := protocol.connection.send posts ⟨body, false⟩
      outputBuffer := outputBuffer } := by
  have hshort := h.room body hbody
  have hnone : outputBuffer.getD [] = [] := by
    obtain rfl | rfl := hempty <;> rfl
  refine ⟨h.connection.send posts _, ?_, fun hclosed => ?_, fun msg hmsg hfilled => ?_, fun new hnew => ?_⟩
  · simp only
    rw [Connection.sent_send]
    split_ifs with hclosed
    · exact h.told
    · have hfilled := h.filled (Bool.eq_false_iff.mpr hclosed)
      rw [hbody, Option.getD_some] at hfilled
      rw [contents_filled, hfilled]
  · have hopen := Connection.closed_send hclosed
    have hfilled := h.filled hopen
    rw [hbody, Option.getD_some] at hfilled
    simp only [Connection.sent_send, hopen, Bool.false_eq_true, if_false, hnone, List.append_nil, contents_filled,
      hfilled]
  · simp only [Connection.sent_send] at hmsg
    split_ifs at hmsg
    · exact h.short msg hmsg hfilled
    · obtain hmsg | hmsg := List.mem_append.mp hmsg
      · exact h.short msg hmsg hfilled
      · obtain rfl := List.mem_singleton.mp hmsg
        exact hshort
  · have hnil : new = [] := by
      rw [← Option.getD_some (a := new) (b := []), ← hnew]
      exact hnone
    subst hnil
    exact short_nil

/-- Bytes that there is room for go to the end of the buffer. -/
theorem write (h : protocol.Kept) {body bytes : List UInt8} (hbody : protocol.outputBuffer = some body)
    (hroom : Short (body ++ bytes)) :
    Protocol.Kept { protocol with outputBuffer := some (body ++ bytes), written := protocol.written ++ bytes } where
  connection := h.connection
  told := h.told.trans (List.prefix_append _ _)
  filled := fun hclosed => by
    have hfilled := h.filled hclosed
    rw [hbody, Option.getD_some] at hfilled
    simp only [Option.getD_some]
    rw [← List.append_assoc, hfilled]
  short := h.short
  room := fun new hnew => by
    obtain rfl := Option.some.inj hnew
    exact hroom

end Protocol.Kept

/-! ## All protocols -/

namespace Pool

variable {s : Pool}

/-- The protocols whose buffers a `sendAll` that is under way, or else the next one, will send. -/
def waiting (s : Pool) : List Nat := s.bufferedProtocols ++ s.sending.getD []

/-- Every buffer of an open connection waits to be sent, and a timer runs as long as there is one. -/
structure Kept (s : Pool) : Prop where
  protocols : ∀ p, (s.protocols p).Kept
  listed : ∀ p, (s.protocols p).inAutosend = true ↔ p ∈ s.waiting
  once : s.waiting.Nodup
  timers : s.timers = if s.sendScheduled then 1 else 0
  scheduled : s.bufferedProtocols ≠ [] → s.sendScheduled = true
  alone : s.sending ≠ none → s.bufferedProtocols = []
  waits : ∀ p, (s.protocols p).connection.closed = false → (s.protocols p).outputBuffer.isSome →
    (s.protocols p).inAutosend = true

theorem protocols_setProtocol_self (s : Pool) (p : Nat) (protocol : Protocol) :
    (s.setProtocol p protocol).protocols p = protocol := Function.update_self _ _ _

theorem protocols_setProtocol_of_ne (s : Pool) {p q : Nat} (h : q ≠ p) (protocol : Protocol) :
    (s.setProtocol p protocol).protocols q = s.protocols q := Function.update_of_ne h _ _

theorem setProtocol_setProtocol (s : Pool) (p : Nat) (protocol protocol' : Protocol) :
    (s.setProtocol p protocol).setProtocol p protocol' = s.setProtocol p protocol' := by
  simp only [setProtocol, Function.update_idem]

theorem setProtocol_protocols {p : Nat} {protocol : Protocol} {P : Nat → Protocol → Prop} (hp : P p protocol)
    (h : ∀ q, P q (s.protocols q)) (q : Nat) : P q ((s.setProtocol p protocol).protocols q) := by
  by_cases hq : q = p
  · subst hq
    rwa [protocols_setProtocol_self]
  · rw [protocols_setProtocol_of_ne s hq]
    exact h q

/-- A protocol changes, and waits as it did. -/
theorem Kept.setProtocol (h : s.Kept) {p : Nat} {protocol : Protocol} (hprotocol : protocol.Kept)
    (hsame : protocol.inAutosend = (s.protocols p).inAutosend)
    (hwaits : protocol.connection.closed = false → protocol.outputBuffer.isSome → protocol.inAutosend = true) :
    (s.setProtocol p protocol).Kept where
  protocols := setProtocol_protocols (P := fun _ protocol => protocol.Kept) hprotocol h.protocols
  listed := setProtocol_protocols (P := fun p protocol => protocol.inAutosend = true ↔ p ∈ s.waiting)
    (hsame ▸ h.listed p) h.listed
  once := h.once
  timers := h.timers
  scheduled := h.scheduled
  alone := h.alone
  waits := setProtocol_protocols
    (P := fun _ protocol => protocol.connection.closed = false → protocol.outputBuffer.isSome → protocol.inAutosend = true)
    hwaits h.waits

theorem Kept.setConnection (h : s.Kept) {p : Nat} {c : Connection} (hc : c.Kept)
    (hsent : c.sent = (s.protocols p).connection.sent)
    (hopen : c.closed = false → (s.protocols p).connection.closed = false) : (s.setConnection p c).Kept :=
  h.setProtocol ((h.protocols p).setConnection hc hsent hopen) rfl fun hclosed => h.waits p (hopen hclosed)

theorem Kept.direct (h : s.Kept) (p : Nat) (posts : Bool) (body : List UInt8) : (s.send p posts ⟨body, true⟩).Kept :=
  h.setProtocol ((h.protocols p).direct posts body) rfl fun hclosed => h.waits p (Connection.closed_send hclosed)

/-- A protocol with a new buffer waits. -/
theorem Kept.add (h : s.Kept) (hidle : s.sending = none) {p : Nat} (protocol : Protocol) (hprotocol : protocol.Kept)
    (hsame : protocol.inAutosend = (s.protocols p).inAutosend) :
    ((s.setProtocol p protocol).addProtocolToAutosend p).Kept ∧
      ((s.setProtocol p protocol).addProtocolToAutosend p).sending = none ∧
      ((s.setProtocol p protocol).addProtocolToAutosend p).protocols p = { protocol with inAutosend := true } := by
  unfold addProtocolToAutosend
  rw [protocols_setProtocol_self]
  by_cases hauto : protocol.inAutosend = true
  · rw [if_pos hauto]
    refine ⟨h.setProtocol hprotocol hsame fun _ _ => hauto, hidle, ?_⟩
    rw [protocols_setProtocol_self, ← hauto]
  rw [if_neg hauto]
  have hwaiting : s.waiting = s.bufferedProtocols := by
    rw [waiting, hidle]
    exact List.append_nil _
  have hnew : p ∉ s.bufferedProtocols := by
    rw [← hwaiting, ← h.listed p, ← hsame]
    exact hauto
  have hwaits (protocols : Nat → Protocol) (timers : Nat) :
      waiting { s with
        protocols := protocols
        bufferedProtocols := s.bufferedProtocols ++ [p]
        sendScheduled := true
        timers := timers } = s.bufferedProtocols ++ [p] := by
    rw [waiting, hidle]
    exact List.append_nil _
  have hnext : Kept { s with
      protocols := Function.update s.protocols p { protocol with inAutosend := true }
      bufferedProtocols := s.bufferedProtocols ++ [p]
      sendScheduled := true
      timers := 1 } := {
    protocols := setProtocol_protocols (P := fun _ protocol => protocol.Kept)
      ⟨hprotocol.connection, hprotocol.told, hprotocol.filled, hprotocol.short, hprotocol.room⟩ h.protocols
    listed := fun q => by
      rw [hwaits, List.mem_append, List.mem_singleton]
      simp only
      by_cases hq : q = p
      · subst hq
        rw [Function.update_self]
        exact iff_of_true rfl (.inr rfl)
      · rw [Function.update_of_ne hq, h.listed q, hwaiting]
        exact (or_iff_left hq).symm
    once := by
      rw [hwaits, List.nodup_append_comm]
      exact List.nodup_cons.mpr ⟨hnew, hwaiting ▸ h.once⟩
    timers := rfl
    scheduled := fun _ => rfl
    alone := fun hsome => absurd hidle hsome
    waits := setProtocol_protocols
      (P := fun _ protocol => protocol.connection.closed = false → protocol.outputBuffer.isSome →
        protocol.inAutosend = true) (fun _ _ => rfl) h.waits }
  have heq : (let s' := { (s.setProtocol p protocol).setInAutosend p true with
        bufferedProtocols := (s.setProtocol p protocol).bufferedProtocols ++ [p] }
      if !s'.sendScheduled then s'.scheduleSendAll else s') = { s with
      protocols := Function.update s.protocols p { protocol with inAutosend := true }
      bufferedProtocols := s.bufferedProtocols ++ [p]
      sendScheduled := true
      timers := 1 } := by
    have htimers := h.timers
    rw [setInAutosend, protocols_setProtocol_self, setProtocol_setProtocol]
    by_cases hscheduled : s.sendScheduled = true
    · rw [if_pos hscheduled] at htimers
      simp only [Pool.setProtocol, hscheduled, Bool.not_true, Bool.false_eq_true, if_false, htimers]
    · rw [if_neg hscheduled] at htimers
      rw [Bool.not_eq_true] at hscheduled
      simp only [Pool.setProtocol, scheduleSendAll, hscheduled, Bool.not_false, if_true, htimers, Nat.zero_add]
  rw [heq]
  exact ⟨hnext, hidle, Function.update_self _ _ _⟩

/-- There is a buffer then, and room in it unless it is new. -/
theorem Kept.getOutputBuffer (h : s.Kept) (hidle : s.sending = none) (p size : Nat) (posts : Bool) :
    (s.getOutputBuffer p size posts).Kept ∧ (s.getOutputBuffer p size posts).sending = none ∧
      ∃ body, ((s.getOutputBuffer p size posts).protocols p).outputBuffer = some body ∧
        (body = [] ∨ body.length + size ≤ MAX_PROTOCOL_BODY_LENGTH) := by
  have hprotocol := h.protocols p
  unfold Pool.getOutputBuffer
  cases hbuffer : (s.protocols p).outputBuffer with
  | none =>
    have hfilled (hclosed : (s.protocols p).connection.closed = false) := hbuffer ▸ hprotocol.filled hclosed
    obtain ⟨hkept, hsending, heq⟩ := h.add hidle { s.protocols p with outputBuffer := some [] }
      ⟨hprotocol.connection, hprotocol.told, hfilled, hprotocol.short, fun body hbody => Option.some.inj hbody ▸ short_nil⟩
      rfl
    exact ⟨hkept, hsending, [], by rw [setBuffer, heq], .inl rfl⟩
  | some body =>
    simp only
    by_cases hfull : body.length + size > MAX_PROTOCOL_BODY_LENGTH
    · rw [if_pos hfull, setBuffer, send, Pool.setConnection, protocols_setProtocol_self, setProtocol_setProtocol]
      obtain ⟨hkept, hsending, heq⟩ := h.add hidle _ (hprotocol.flush posts hbuffer (.inr rfl)) rfl
      exact ⟨hkept, hsending, [], by rw [heq], .inl rfl⟩
    · rw [if_neg hfull]
      exact ⟨h, hidle, body, hbuffer, .inr (Nat.le_of_not_lt hfull)⟩

theorem Kept.writeToOutputBuffer (h : s.Kept) (hidle : s.sending = none) (p : Nat) {bytes : List UInt8} (posts : Bool)
    (hfits : Short bytes) : (s.writeToOutputBuffer p bytes posts).Kept := by
  obtain ⟨hkept, _, body, hbody, hroom⟩ := h.getOutputBuffer hidle p bytes.length posts
  have hshort : Short (body ++ bytes) := by
    obtain rfl | hroom := hroom
    · exact hfits
    · unfold Short
      rw [List.length_append]
      simp only [INITIAL_BUFFER_POSITION, MAX_BODY_LENGTH, MAX_PROTOCOL_BODY_LENGTH, NETWORKMESSAGE_MAXSIZE,
        Network.HEADER_LENGTH, Network.CHECKSUM_LENGTH, Network.XTEA_MULTIPLE] at hroom ⊢
      omega
  have hsize : ¬ INITIAL_BUFFER_POSITION + body.length + bytes.length > NETWORKMESSAGE_MAXSIZE := by
    unfold Short at hshort
    rw [List.length_append] at hshort
    simp only [MAX_BODY_LENGTH, NETWORKMESSAGE_MAXSIZE] at hshort ⊢
    omega
  unfold Pool.writeToOutputBuffer append
  simp only [hbody, if_neg hsize, setBuffer, protocols_setProtocol_self, setProtocol_setProtocol]
  exact hkept.setProtocol ((hkept.protocols p).write hbody hshort) rfl fun hclosed _ => hkept.waits p hclosed
    (Option.isSome_of_eq_some hbody)

/-- A protocol that does not wait any more has no buffer to send, or no connection. -/
theorem Kept.dropped (h : s.Kept) {p : Nat} {bufferedProtocols : List Nat} (sending : Option (List Nat))
    (protocol : Protocol) (hprotocol : protocol.Kept) (hout : protocol.inAutosend = false)
    (hwaits : protocol.connection.closed = false → protocol.outputBuffer = none)
    (hlist : ∀ q, q ∈ bufferedProtocols ++ sending.getD [] ↔ q ∈ s.waiting ∧ q ≠ p)
    (hnodup : (bufferedProtocols ++ sending.getD []).Nodup) (hsub : bufferedProtocols ⊆ s.bufferedProtocols)
    (hsending : sending ≠ none → s.sending ≠ none) :
    Kept { s.setProtocol p protocol with bufferedProtocols := bufferedProtocols, sending := sending } where
  protocols := setProtocol_protocols (P := fun _ protocol => protocol.Kept) hprotocol h.protocols
  listed := by
    intro q
    rw [waiting]
    simp only
    rw [hlist q]
    by_cases hq : q = p
    · subst hq
      rw [protocols_setProtocol_self, hout]
      exact iff_of_false Bool.false_ne_true fun hmem => hmem.2 rfl
    · rw [protocols_setProtocol_of_ne s hq, h.listed q]
      exact (and_iff_left hq).symm
  once := hnodup
  timers := h.timers
  scheduled := fun hsome => h.scheduled fun hempty => hsome (List.subset_nil.mp (hempty ▸ hsub))
  alone := fun hsome => List.subset_nil.mp (h.alone (hsending hsome) ▸ hsub)
  waits := setProtocol_protocols
    (P := fun _ protocol => protocol.connection.closed = false → protocol.outputBuffer.isSome → protocol.inAutosend = true)
    (fun hclosed hsome => by rw [hwaits hclosed] at hsome; cases hsome) h.waits

theorem Kept.release (h : s.Kept) (hidle : s.sending = none) {p : Nat}
    (hclosed : (s.protocols p).connection.closed = true) : (s.removeProtocolFromAutosend p).Kept := by
  unfold removeProtocolFromAutosend
  split_ifs with hmem
  · have hprotocol := h.protocols p
    have hwaiting : s.waiting = s.bufferedProtocols := by
      rw [waiting, hidle]
      exact List.append_nil _
    have honce : (s.bufferedProtocols.map id).Nodup := by
      rw [List.map_id, ← hwaiting]
      exact h.once
    have hsending : s.sending.getD [] = [] := by rw [hidle]; rfl
    refine h.dropped s.sending { s.protocols p with inAutosend := false }
      ⟨hprotocol.connection, hprotocol.told, hprotocol.filled, hprotocol.short, hprotocol.room⟩ rfl
      (fun hopen => by rw [hclosed] at hopen; cases hopen) (fun q => ?_) ?_ (fun q hq => ?_) id
    · rw [hsending, List.append_nil, VectorMap.mem_swapRemove honce, hwaiting]
      rfl
    · rw [hsending, List.append_nil]
      simpa only [List.map_id] using VectorMap.nodup_swapRemove honce
    · exact ((VectorMap.mem_swapRemove honce).mp hq).1
  · exact h

/-- The list of `sendAll` is the one that waited. -/
theorem Kept.sendAll (h : s.Kept) (hidle : s.sending = none) : s.sendAll.Kept := by
  have htimers : s.timers - 1 = 0 := by
    rw [h.timers]
    split <;> rfl
  unfold Pool.sendAll
  simp only [htimers]
  split_ifs with hempty
  · exact ⟨h.protocols, h.listed, h.once, rfl, fun hsome => absurd hempty hsome, h.alone, h.waits⟩
  · have hwaiting (protocols : Nat → Protocol) : waiting { s with
        protocols := protocols, sendScheduled := false, timers := 0
        bufferedProtocols := [], sending := some s.bufferedProtocols } = s.waiting := by
      rw [waiting, waiting, hidle]
      exact (List.append_nil _).symm
    exact ⟨h.protocols, fun p => hwaiting s.protocols ▸ h.listed p, hwaiting s.protocols ▸ h.once, rfl,
      fun hsome => absurd rfl hsome, fun _ => rfl, h.waits⟩

theorem Kept.sendNext (h : s.Kept) (posts : Bool) {sending : List Nat} (hsending : s.sending = some sending) :
    (s.sendNext posts sending).Kept := by
  have hnone := h.alone (by rw [hsending]; exact Option.some_ne_none _)
  have hwaiting : s.waiting = sending := by
    rw [waiting, hnone, hsending]
    rfl
  cases sending with
  | nil =>
    rw [Pool.sendNext]
    simp only [hnone, ne_eq, not_true_eq_false, if_false]
    refine ⟨h.protocols, fun p => ?_, List.nodup_nil, h.timers, fun hsome => absurd rfl hsome, fun _ => rfl, h.waits⟩
    rw [h.listed p, hwaiting]
    rfl
  | cons p rest =>
    have honce := h.once
    rw [hwaiting, List.nodup_cons] at honce
    have hlist (q : Nat) : q ∈ s.bufferedProtocols ++ (some rest).getD [] ↔ q ∈ s.waiting ∧ q ≠ p := by
      rw [hnone, hwaiting, List.mem_cons]
      exact ⟨fun hq => ⟨.inr hq, fun hsame => honce.1 (hsame ▸ hq)⟩, fun hq => hq.1.resolve_left hq.2⟩
    have hnodup : (s.bufferedProtocols ++ (some rest).getD []).Nodup := by
      rw [hnone]
      exact honce.2
    have hstill : some rest ≠ none → s.sending ≠ none := fun _ => by rw [hsending]; exact Option.some_ne_none _
    have hprotocol := h.protocols p
    rw [Pool.sendNext]
    cases hbuffer : (s.protocols p).outputBuffer with
    | none =>
      exact h.dropped _ { s.protocols p with inAutosend := false }
        ⟨hprotocol.connection, hprotocol.told, hprotocol.filled, hprotocol.short, hprotocol.room⟩ rfl
        (fun _ => hbuffer) hlist hnodup (List.Subset.refl _) hstill
    | some body =>
      have hflush := hprotocol.flush posts hbuffer (.inl rfl)
      have hnext := h.dropped _ { s.protocols p with
          connection := (s.protocols p).connection.send posts ⟨body, false⟩, outputBuffer := none, inAutosend := false }
        ⟨hflush.connection, hflush.told, hflush.filled, hflush.short, hflush.room⟩ rfl (fun _ => rfl) hlist hnodup
        (List.Subset.refl _) hstill
      simp only [send, setBuffer, Pool.setConnection, setInAutosend, Pool.setProtocol, Function.update_self,
        Function.update_idem] at hnext ⊢
      exact hnext

theorem Kept.step (h : s.Kept) {event : Event} (hfits : event.Fits) : ∃ s', s.step event = some s' ∧ s'.Kept := by
  cases event with
  | write p bytes posts =>
    refine ⟨_, rfl, ?_⟩
    split_ifs with hidle
    · exact h.writeToOutputBuffer hidle p posts hfits
    · exact h
  | direct p bytes posts =>
    refine ⟨_, rfl, ?_⟩
    split_ifs
    · exact h.direct p posts bytes
    · exact h
  | close p force =>
    refine ⟨_, rfl, h.setConnection ((h.protocols p).connection.closeLocked force) ?_ fun hopen => ?_⟩
    · exact Connection.sent_closeLocked _ force
    · rw [Connection.closed_closeLocked] at hopen
      cases hopen
  | sendAll =>
    refine ⟨_, rfl, ?_⟩
    split_ifs with hdue
    · exact h.sendAll hdue.1
    · exact h
  | next posts =>
    refine ⟨_, rfl, ?_⟩
    cases hsending : s.sending with
    | none => exact h
    | some sending => exact h.sendNext posts hsending
  | release p =>
    refine ⟨_, rfl, ?_⟩
    split_ifs with hdue
    · have hc := (h.protocols p).connection
      have hclosed := hc.released hdue.2
      have hnext := h.setConnection (p := p)
        (c := { (s.protocols p).connection with releases := (s.protocols p).connection.releases - 1 })
        ⟨hc.once, hc.queued, hc.writes, hc.order, hc.whole, hc.socket, hc.broken, fun _ => hclosed⟩ rfl id
      exact hnext.release hdue.1 (by rw [Pool.setConnection, protocols_setProtocol_self]; exact hclosed)
    · exact h
  | post p begins =>
    refine ⟨_, rfl, ?_⟩
    split_ifs with hposted
    · obtain ⟨hsent, hopen⟩ := Connection.internalSend_frame
        { (s.protocols p).connection with posted := (s.protocols p).connection.posted - 1 } begins
      exact h.setConnection ((h.protocols p).connection.post begins hposted) hsent hopen
    · exact h
  | wrote p error begins =>
    rw [Pool.step]
    split_ifs with hwriting
    · obtain ⟨c, heq, hc⟩ := (h.protocols p).connection.wrote error begins hwriting
      obtain ⟨hsent, hopen⟩ := Connection.onWriteOperation_frame heq
      exact ⟨_, by rw [heq]; rfl, h.setConnection hc hsent hopen⟩
    · exact ⟨s, rfl, h⟩

theorem Kept.run (events : List Event) : ∀ {s : Pool}, s.Kept → (∀ event ∈ events, event.Fits) →
    ∃ s', s.run events = some s' ∧ s'.Kept := by
  induction events with
  | nil => exact fun h _ => ⟨_, rfl, h⟩
  | cons event events ih =>
    intro s h hfits
    obtain ⟨next, hstep, hnext⟩ := h.step (hfits event List.mem_cons_self)
    obtain ⟨s', hrun, hs'⟩ := ih hnext fun event hevent => hfits event (List.mem_cons_of_mem _ hevent)
    exact ⟨s', by rw [Pool.run, hstep]; exact hrun, hs'⟩

theorem kept_start : Kept {} where
  protocols := fun _ => {
    connection := {
      once := Nat.zero_le 1
      queued := fun hpos => absurd hpos (Nat.lt_irrefl 0)
      writes := fun _ hsome => absurd rfl hsome
      order := List.prefix_refl _
      whole := fun _ => rfl
      socket := fun _ hshut => by cases hshut
      broken := fun hbroken => by cases hbroken
      released := fun hpos => absurd hpos (Nat.lt_irrefl 0) }
    told := List.prefix_refl _
    filled := fun _ => rfl
    short := fun _ hmsg => by cases hmsg
    room := fun _ hbody => by cases hbody }
  listed := fun _ => iff_of_false Bool.false_ne_true List.not_mem_nil
  once := List.nodup_nil
  timers := rfl
  scheduled := fun hsome => absurd rfl hsome
  alone := fun hsome => absurd rfl hsome
  waits := fun _ _ hsome => by cases hsome

/-- Nothing is under way or still to come: no timer, no `sendAll`, no write. -/
structure Quiet (s : Pool) : Prop where
  timers : s.timers = 0
  sending : s.sending = none
  writes : ∀ p, (s.protocols p).connection.posted + (s.protocols p).connection.writing = 0

/-- What a client gets. -/
structure Delivers (s : Pool) (protocol : Protocol) : Prop where
  /-- What the socket wrote begins what was written to the client. -/
  received : contents protocol.connection.wire <+: protocol.written
  /-- Nothing that was written to an open connection is lost, sent twice or out of its order. -/
  order : protocol.connection.closed = false → contents protocol.connection.wire ++
    contents protocol.connection.messageQueue ++ protocol.outputBuffer.getD [] = protocol.written
  /-- The writes of a socket do not overlap. -/
  once : protocol.connection.posted + protocol.connection.writing ≤ 1
  /-- A connection that is closed, but not by force, still writes what was handed to it, and keeps its socket for it. -/
  finishes : protocol.connection.broken = false →
    protocol.connection.wire ++ protocol.connection.messageQueue = protocol.connection.sent ∧
      (protocol.connection.isOpen = false → protocol.connection.messageQueue = [])
  /-- Each message can still take its header and its padding. -/
  short : ∀ msg ∈ protocol.connection.sent, msg.direct = false → Short msg.body
  /-- When all has come to rest, an open connection has written everything. -/
  rests : s.Quiet → protocol.connection.closed = false → contents protocol.connection.wire = protocol.written

theorem Kept.delivers (h : s.Kept) (p : Nat) : s.Delivers (s.protocols p) := by
  have hprotocol := h.protocols p
  have hc := hprotocol.connection
  have horder (hopen : (s.protocols p).connection.closed = false) : contents (s.protocols p).connection.wire ++
      contents (s.protocols p).connection.messageQueue ++ (s.protocols p).outputBuffer.getD [] =
        (s.protocols p).written := by
    rw [← contents_append, hc.whole (hc.sound hopen)]
    exact hprotocol.filled hopen
  refine ⟨?_, horder, hc.once, fun hsound => ⟨hc.whole hsound, fun hshut => (hc.socket hsound hshut).2⟩, hprotocol.short,
    fun hquiet hopen => ?_⟩
  · exact (contents_mono ((List.prefix_append _ _).trans hc.order)).trans hprotocol.told
  · have hqueue : (s.protocols p).connection.messageQueue = [] := by
      by_contra hsome
      have hwrites := hc.writes (hc.sound hopen) hsome
      rw [hquiet.writes p] at hwrites
      cases hwrites
    have hlist : s.waiting = [] := by
      have htimers := h.timers
      rw [hquiet.timers] at htimers
      rw [waiting, hquiet.sending]
      by_contra hsome
      rw [h.scheduled fun hempty => hsome (by rw [hempty]; rfl)] at htimers
      cases htimers
    have hbuffer : (s.protocols p).outputBuffer = none := by
      by_contra hsome
      have hmem := (h.listed p).mp (h.waits p hopen (Option.isSome_iff_ne_none.mpr hsome))
      rw [hlist] at hmem
      cases hmem
    rw [← horder hopen, hqueue, hbuffer]
    exact ((List.append_nil _).trans (List.append_nil _)).symm

/-- In whatever order the threads take their steps and connections fail or are closed, no queue is cut when it is empty,
and every client gets what was written to it. -/
theorem run_delivers (events : List Event) (hfits : ∀ event ∈ events, event.Fits) :
    ∃ s, run {} events = some s ∧ ∀ p, s.Delivers (s.protocols p) := by
  obtain ⟨s, hrun, hkept⟩ := kept_start.run events hfits
  exact ⟨s, hrun, hkept.delivers⟩

/-- Two writes to one client, one to another who is thrown out, and the timer in between. -/
def twoClients : List Event :=
  [.write 0 [1, 2] true, .write 1 [3] true, .write 0 [4] true, .sendAll, .next true, .close 1 true, .next true,
    .next true, .post 0 true, .release 1, .wrote 0 false true, .write 0 [5] true]

theorem run_delivers_twoClients : ∃ s, run {} twoClients = some s ∧ ∀ p, s.Delivers (s.protocols p) :=
  run_delivers twoClients (by
    intro event hevent
    simp only [twoClients, List.mem_cons, List.not_mem_nil, or_false] at hevent
    obtain rfl | rfl | rfl | rfl | rfl | rfl | rfl | rfl | rfl | rfl | rfl | rfl := hevent
    all_goals unfold Event.Fits
    all_goals decide)

end Pool

end ForgottenServer.Autosend
