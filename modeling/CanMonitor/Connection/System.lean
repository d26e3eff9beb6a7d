import CanMonitor.Connection.Output
import CanMonitor.Connection.Routes

/-!
# A connection and the threads that work on it

One connection, from its registration with the event loop on: `handleRead` and
`processRequest`, `pumpSse` called by the event loop, `handleWrite`, the calls of
`updateEvent` that each of them makes, removal, and the CAN receiver that appends to the
frame store meanwhile.

## The model

`step` is one atomic step of one of these, `run step` any interleaving of them.

* A mutex that is held for the whole of a call lets one call at a time in, whichever
  thread makes it, so the state says where that call is: `reader` for `handleRead`
  (`read_mutex_`) and `Output.writer` for `handleWrite` (`write_mutex_`). Calls that wait
  for the mutex have done nothing yet.
* The event loop is one thread; `pump` says where it is in `pumpSse` and the `updateEvent`
  after it. `pumpSse` holds `sse_mutex_`, and so does `startSse`, which is why a stream is
  started only while the loop is not in `pumpSse`.
* `updateEvent` is two steps: the lookup under `conn_mutex_`, and `epoll_ctl` after it.
* A request is parsed and answered from the store in one step and its answer queued in
  another; what is parsed belongs to the thread that holds `read_mutex_`.
* A read of the socket may bring any bytes, a write may take any part, the clock may say
  anything, and the connection may be removed at any time.

`queued` records what was put in the buffer, and `appended` the frames as the receiver
gave them to the store.

## What is proved

* `trans_of_step` — what each step can do, guards included; every later proof goes by it.
* `output_of_step` — a step is a step of `Output`, or does not touch it.
-/

namespace CanMonitor.Connection

open CanMonitor.Library CanMonitor.Can CanMonitor.Http

/-- The interest mask of the connection, less `EPOLLET`. -/
structure Interest where
  epollin : Bool
  epollout : Bool
  deriving DecidableEq

/-- What `handleRead` does after its `updateEvent`. -/
inductive AfterUpdate where
  /-- Erase the request from the buffer and go on. -/
  | erase (requestLen : ℕ)
  /-- Clear the buffer and return. -/
  | clear
  deriving DecidableEq

/-- Where the call of `handleRead` that holds `read_mutex_` is. -/
inductive ReaderState where
  /-- There is none. -/
  | idle
  /-- In the read loop. -/
  | draining
  /-- At the top of the parse loop. -/
  | parsing
  /-- In `processRequest`, with this response to queue. -/
  | responding (response : Bytes) (requestLen : ℕ)
  /-- In `processRequest`, with a stream to start. -/
  | starting (afterSequence : UInt64) (requestLen : ℕ)
  /-- In `updateEvent`, which has looked the connection up or has yet to. -/
  | updating (next : AfterUpdate) (found : Bool)
  deriving DecidableEq

/-- Where the event loop is. -/
inductive Pump where
  /-- Elsewhere. -/
  | idle
  /-- In `pumpSse`, with frames to queue, the store they were taken from, and whether
  anything was queued. -/
  | sending (rest : List CanFrame) (seen : FrameStore) (appended : Bool)
  /-- In `updateEvent`, which has looked the connection up or has yet to. -/
  | updating (found : Bool)
  deriving DecidableEq

/-- What was queued. -/
inductive Item where
  /-- A response. -/
  | response (text : Bytes)
  /-- The head of a stream. -/
  | head
  /-- A frame, by a pump that saw this store. -/
  | frame (frame : CanFrame) (seen : FrameStore)
  /-- A comment. -/
  | heartbeat
  deriving DecidableEq

/-- The bytes of what is queued. -/
def Item.payload : Item → Bytes
  | .response text => text
  | .head => sseHead
  | .frame f _ => frameToSse f
  | .heartbeat => Connection.heartbeat

/-- A part of an event stream after its head. -/
def Item.IsEvent : Item → Prop
  | .frame _ _ => True
  | .heartbeat => True
  | _ => False

/-- The connection, the loop's data about it, and the store. -/
structure State where
  /-- The frame store. -/
  store : FrameStore
  /-- What the receiver appended so far. -/
  appended : List CanFrame
  /-- `can_runtime_ != nullptr`. -/
  hasRuntime : Bool
  /-- `recv_buf`. -/
  recvBuf : Bytes
  /-- `req`. -/
  req : HttpRequest
  /-- `send_buf` and what belongs to it. -/
  out : Output
  /-- `sse_active_`. -/
  sseActive : Bool
  /-- `sse_after_sequence_`. -/
  sseAfterSequence : UInt64
  /-- `sse_last_heartbeat_`, in nanoseconds. -/
  sseLastHeartbeat : ℤ
  /-- The connection is in `conn_map`. -/
  registered : Bool
  /-- Its interest mask. -/
  interest : Interest
  /-- Where `handleRead` is. -/
  reader : ReaderState
  /-- Where the event loop is. -/
  pump : Pump
  /-- What was queued, with the size of `send_buf` after it. -/
  queued : List (Item × ℕ)

/-- A connection right after `addEvent(fd, EPOLLIN, conn)`. -/
def State.start (capacity : ℕ) (hc : 0 < capacity) (hasRuntime : Bool) : State where
  store := FrameStore.empty capacity hc
  appended := []
  hasRuntime := hasRuntime
  recvBuf := []
  req := .fresh
  out := .new
  sseActive := false
  sseAfterSequence := 0
  sseLastHeartbeat := 0
  registered := true
  interest := ⟨true, false⟩
  reader := .idle
  pump := .idle
  queued := []

/-- The callers of `updateEvent`. -/
inductive Caller where
  | reader
  | pump
  | writer
  deriving DecidableEq

/-- What a request handler finds, other than the store. -/
structure Surroundings where
  busStats : CanBusStatisticsSnapshot
  senderIsOpen : Bool
  sendRaw : UInt32 → Bool → List UInt8 → Bool
  openFile : Bytes → Option File
  allocates : ℕ → Bool
  iteration : Iteration

/-- The steps. -/
inductive Act where
  /-- The receiver appends a frame to the store. -/
  | append (frame : CanFrame)
  /-- The connection is removed. -/
  | remove
  /-- `handleRead` gets the lock. -/
  | lockRead
  /-- `read` returns bytes. -/
  | recv (chunk : Bytes)
  /-- `read` says `EAGAIN`. -/
  | drained
  /-- `read` says end of file, or fails. -/
  | hangUp
  /-- One turn of the parse loop, up to what it queues. -/
  | parse (around : Surroundings)
  /-- `processRequest` queues its response. -/
  | respond
  /-- `startSse`. -/
  | startSse (now : ℤ)
  /-- `pumpSse` gets the lock and queries the store. -/
  | query
  /-- `pumpSse` queues the next frame. -/
  | sendFrame
  /-- The end of `pumpSse`. -/
  | endPump (now : ℤ)
  /-- `handleWrite` gets the lock. -/
  | lockWrite
  /-- It tests and copies the buffer. -/
  | copy
  /-- `write` takes so many bytes. -/
  | write (n : ℕ)
  /-- The bytes written are erased. -/
  | erase
  /-- `write` says `EAGAIN`. -/
  | again
  /-- `write` fails. -/
  | fail
  /-- `updateEvent` looks the connection up. -/
  | lookup (caller : Caller)
  /-- `updateEvent` changes the mask. -/
  | modify (caller : Caller)

/-- The environment of a request handler. -/
def State.environment (s : State) (around : Surroundings) : Environment where
  canRuntime :=
    if s.hasRuntime then some ⟨s.store, around.busStats, around.senderIsOpen, around.sendRaw⟩ else none
  openFile := around.openFile
  allocates := around.allocates
  iteration := around.iteration

/-- `appendSendBuf` of an item. -/
def State.queue (s : State) (item : Item) : State :=
  { s with
    out := s.out.appendSendBuf item.payload
    queued := s.queued ++ [(item, (s.out.appendSendBuf item.payload).sendBuf.length)] }

/-- `appendSsePayload` of an item. -/
def State.queueSse (s : State) (item : Item) : Bool × State :=
  match s.out.appendSsePayload item.payload with
  | (true, out) => (true, { s with out, queued := s.queued ++ [(item, out.sendBuf.length)] })
  | (false, out) => (false, { s with out })

/-- What `handleRead` does once its `updateEvent` is over. -/
def State.afterUpdate (s : State) : AfterUpdate → State
  | .erase requestLen =>
    { s with recvBuf := s.recvBuf.drop requestLen, req := .fresh, reader := .parsing }
  | .clear => { s with recvBuf := [], reader := .idle }

/-- What `pumpSse` returns makes the loop call `updateEvent`, or not. -/
def Pump.ending (appended : Bool) : Pump := if appended then .updating false else .idle

/-- The mask that `handleRead` asks for. -/
def AfterUpdate.interest : AfterUpdate → Interest
  | .erase _ => ⟨true, true⟩
  | .clear => ⟨false, true⟩

/-- `epoll_ctl(EPOLL_CTL_MOD)`, which fails once the connection is removed. -/
def State.setInterest (s : State) (interest : Interest) : State :=
  { s with interest := if s.registered then interest else s.interest }

/-- A step of `handleWrite`. -/
def State.stepOutput (s : State) (a : Output.Act) : Option State := (s.out.step a).map fun out => { s with out }

/-- The lookup of `updateEvent`. -/
def lookup (s : State) : Caller → Option State
  | .reader =>
    match s.reader with
    | .updating next false =>
      if s.registered then some { s with reader := .updating next true } else some (s.afterUpdate next)
    | _ => none
  | .pump =>
    match s.pump with
    | .updating false => some { s with pump := if s.registered then .updating true else .idle }
    | _ => none
  | .writer =>
    match s.out.writer with
    | .updating false => s.stepOutput (if s.registered then .found else .leave)
    | _ => none

/-- The `epoll_ctl` of `updateEvent`. -/
def modify (s : State) : Caller → Option State
  | .reader =>
    match s.reader with
    | .updating next true => some ((s.setInterest next.interest).afterUpdate next)
    | _ => none
  | .pump =>
    match s.pump with
    | .updating true => some { s.setInterest ⟨true, true⟩ with pump := .idle }
    | _ => none
  | .writer =>
    match s.out.writer with
    | .updating true => (s.setInterest ⟨true, false⟩).stepOutput .leave
    | _ => none

/-- The turn of the parse loop. A request handler that throws ends the program, and the
run with it. -/
def parseTurn (s : State) (around : Surroundings) : Option State :=
  match parseStep s.req s.recvBuf with
  | .wait => some { s with reader := .idle }
  | .bad _ req =>
    some { ({ s with req } : State).queue (.response badRequest) with reader := .updating .clear false }
  | .dispatch req requestLen =>
    match processRequest req (s.environment around) with
    | .respond response => some { s with req, reader := .responding response requestLen }
    | .stream afterSequence => some { s with req, reader := .starting afterSequence requestLen }
    | .throws => none

/-- `pumpSse` after its queries: the next frame. -/
def sendFrame (s : State) : Option State :=
  match s.pump with
  | .sending (frame :: rest) seen appended =>
    let s := { s with sseAfterSequence := max s.sseAfterSequence frame.sequence }
    match s.queueSse (.frame frame seen) with
    | (true, s) => some { s with pump := .sending rest seen true }
    | (false, s) => some { s with pump := .ending appended }
  | _ => none

/-- Ten seconds, in nanoseconds. -/
def heartbeatInterval : ℤ := 10 * 1000000000

/-- The end of `pumpSse`: a comment, if there was none for ten seconds. -/
def endPump (s : State) (now : ℤ) : Option State :=
  match s.pump with
  | .sending [] _ appended =>
    if heartbeatInterval ≤ now - s.sseLastHeartbeat then
      let (sent, s) := s.queueSse .heartbeat
      some { s with sseLastHeartbeat := now, pump := .ending (sent || appended) }
    else some { s with pump := .ending appended }
  | _ => none

/-- One step. -/
def step (s : State) : Act → Option State
  | .append frame => some { s with store := (s.store.append frame).2, appended := s.appended ++ [frame] }
  | .remove => some { s with registered := false }
  | .lockRead => if s.reader = .idle then some { s with reader := .draining } else none
  | .recv chunk => if s.reader = .draining then some { s with recvBuf := s.recvBuf ++ chunk } else none
  | .drained => if s.reader = .draining then some { s with reader := .parsing } else none
  | .hangUp => if s.reader = .draining then some { s with registered := false, reader := .idle } else none
  | .parse around => if s.reader = .parsing then parseTurn s around else none
  | .respond =>
    match s.reader with
    | .responding response requestLen =>
      some { s.queue (.response response) with reader := .updating (.erase requestLen) false }
    | _ => none
  | .startSse now =>
    match s.reader, s.pump with
    | .starting _ _, .sending _ _ _ => none
    | .starting afterSequence requestLen, _ =>
      some { s.queue .head with
        sseActive := true
        sseAfterSequence := afterSequence
        sseLastHeartbeat := now
        reader := .updating (.erase requestLen) false }
    | _, _ => none
  | .query =>
    if s.pump = .idle ∧ s.sseActive ∧ s.hasRuntime ∧ !s.out.overflow then
      some { s with pump := .sending (s.store.queryAfter s.sseAfterSequence none 100) s.store false }
    else none
  | .sendFrame => sendFrame s
  | .endPump now => endPump s now
  | .lockWrite => s.stepOutput .lock
  | .copy => s.stepOutput .copy
  | .write n => s.stepOutput (.write n)
  | .erase => s.stepOutput .erase
  | .again =>
    match s.out.writer with
    | .copied _ => s.stepOutput .leave
    | _ => none
  | .fail =>
    match s.out.writer with
    | .copied _ => ({ s with registered := false } : State).stepOutput .leave
    | _ => none
  | .lookup caller => lookup s caller
  | .modify caller => modify s caller

/-! ### What each step can do -/

/-- An item that was put in the buffer. -/
def State.push (s : State) (item : Item) : State :=
  { s with
    out := s.out.push item.payload
    queued := s.queued ++ [(item, (s.out.push item.payload).sendBuf.length)] }

/-- An item for which there was no room. -/
def State.overrun (s : State) : State := { s with out := { s.out with overflow := true } }

/-- Is there room for an item? -/
def State.Fits (s : State) (item : Item) : Prop :=
  s.out.sendBuf.length + item.payload.length ≤ kMaxSsePendingBytes

/-- The steps of `handleWrite` that concern the output alone. -/
def Act.IsWriter : Act → Prop
  | .lockWrite | .copy | .write _ | .erase | .again | .lookup .writer => True
  | _ => False

/-- The steps, by what they need and what they do. -/
inductive Trans : State → Act → State → Prop where
  | append (s : State) (frame : CanFrame) : Trans s (.append frame)
      { s with store := (s.store.append frame).2, appended := s.appended ++ [frame] }
  | remove (s : State) : Trans s .remove { s with registered := false }
  | lockRead (s : State) (h : s.reader = .idle) : Trans s .lockRead { s with reader := .draining }
  | recv (s : State) (chunk : Bytes) (h : s.reader = .draining) :
      Trans s (.recv chunk) { s with recvBuf := s.recvBuf ++ chunk }
  | drained (s : State) (h : s.reader = .draining) : Trans s .drained { s with reader := .parsing }
  | hangUp (s : State) (h : s.reader = .draining) :
      Trans s .hangUp { s with registered := false, reader := .idle }
  | wait (s : State) (around : Surroundings) (h : s.reader = .parsing)
      (hstep : parseStep s.req s.recvBuf = .wait) : Trans s (.parse around) { s with reader := .idle }
  | bad (s : State) (around : Surroundings) (text : Bytes) (req : HttpRequest) (h : s.reader = .parsing)
      (hstep : parseStep s.req s.recvBuf = .bad text req) : Trans s (.parse around)
        { ({ s with req } : State).queue (.response badRequest) with reader := .updating .clear false }
  | dispatch (s : State) (around : Surroundings) (req : HttpRequest) (requestLen : ℕ) (response : Bytes)
      (h : s.reader = .parsing) (hstep : parseStep s.req s.recvBuf = .dispatch req requestLen)
      (hreply : processRequest req (s.environment around) = .respond response) :
      Trans s (.parse around) { s with req, reader := .responding response requestLen }
  | dispatchStream (s : State) (around : Surroundings) (req : HttpRequest) (requestLen : ℕ)
      (afterSequence : UInt64) (h : s.reader = .parsing)
      (hstep : parseStep s.req s.recvBuf = .dispatch req requestLen)
      (hreply : processRequest req (s.environment around) = .stream afterSequence) :
      Trans s (.parse around) { s with req, reader := .starting afterSequence requestLen }
  | respond (s : State) (response : Bytes) (requestLen : ℕ) (h : s.reader = .responding response requestLen) :
      Trans s .respond { s.queue (.response response) with reader := .updating (.erase requestLen) false }
  | startSse (s : State) (now : ℤ) (afterSequence : UInt64) (requestLen : ℕ)
      (h : s.reader = .starting afterSequence requestLen)
      (hpump : ∀ rest seen appended, s.pump ≠ .sending rest seen appended) :
      Trans s (.startSse now) { s.queue .head with
        sseActive := true
        sseAfterSequence := afterSequence
        sseLastHeartbeat := now
        reader := .updating (.erase requestLen) false }
  | query (s : State) (h : s.pump = .idle) (hactive : s.sseActive = true) (hover : s.out.overflow = false) :
      Trans s .query
        { s with pump := .sending (s.store.queryAfter s.sseAfterSequence none 100) s.store false }
  | sent (s : State) (frame : CanFrame) (rest : List CanFrame) (seen : FrameStore) (appended : Bool)
      (h : s.pump = .sending (frame :: rest) seen appended) (hfits : s.Fits (.frame frame seen)) :
      Trans s .sendFrame { s.push (.frame frame seen) with
        sseAfterSequence := max s.sseAfterSequence frame.sequence
        pump := .sending rest seen true }
  | unsent (s : State) (frame : CanFrame) (rest : List CanFrame) (seen : FrameStore) (appended : Bool)
      (h : s.pump = .sending (frame :: rest) seen appended) (hfull : ¬ s.Fits (.frame frame seen)) :
      Trans s .sendFrame { s.overrun with
        sseAfterSequence := max s.sseAfterSequence frame.sequence
        pump := .ending appended }
  | quiet (s : State) (now : ℤ) (seen : FrameStore) (appended : Bool) (h : s.pump = .sending [] seen appended) :
      Trans s (.endPump now) { s with pump := .ending appended }
  | heartbeat (s : State) (now : ℤ) (seen : FrameStore) (appended : Bool)
      (h : s.pump = .sending [] seen appended) (hfits : s.Fits .heartbeat) :
      Trans s (.endPump now) { s.push .heartbeat with sseLastHeartbeat := now, pump := .updating false }
  | noHeartbeat (s : State) (now : ℤ) (seen : FrameStore) (appended : Bool)
      (h : s.pump = .sending [] seen appended) (hfull : ¬ s.Fits .heartbeat) :
      Trans s (.endPump now) { s.overrun with sseLastHeartbeat := now, pump := .ending appended }
  | writing (s : State) (a : Act) (b : Output.Act) (out : Output) (ha : a.IsWriter) (hb : b.IsWriter)
      (hout : s.out.step b = some out) : Trans s a { s with out }
  | fail (s : State) (out : Output) (hout : s.out.step .leave = some out) :
      Trans s .fail { s with registered := false, out }
  | lookupReader (s : State) (next : AfterUpdate) (h : s.reader = .updating next false)
      (hreg : s.registered = true) : Trans s (.lookup .reader) { s with reader := .updating next true }
  | lostReader (s : State) (next : AfterUpdate) (h : s.reader = .updating next false)
      (hreg : s.registered = false) : Trans s (.lookup .reader) (s.afterUpdate next)
  | lookupPump (s : State) (h : s.pump = .updating false) (hreg : s.registered = true) :
      Trans s (.lookup .pump) { s with pump := .updating true }
  | lostPump (s : State) (h : s.pump = .updating false) (hreg : s.registered = false) :
      Trans s (.lookup .pump) { s with pump := .idle }
  | modifyReader (s : State) (next : AfterUpdate) (h : s.reader = .updating next true) :
      Trans s (.modify .reader) ((s.setInterest next.interest).afterUpdate next)
  | modifyPump (s : State) (h : s.pump = .updating true) :
      Trans s (.modify .pump) { s.setInterest ⟨true, true⟩ with pump := .idle }
  | modifyWriter (s : State) (h : s.out.writer = .updating true) :
      Trans s (.modify .writer) { s.setInterest ⟨true, false⟩ with out := { s.out with writer := .idle } }

theorem frame_payload_ne_nil (frame : CanFrame) (seen : FrameStore) : (Item.frame frame seen).payload ≠ [] := by
  simp [Item.payload, frameToSse, bytes]

theorem heartbeat_payload_ne_nil : Item.heartbeat.payload ≠ [] := by decide

theorem queueSse_eq (s : State) (item : Item) (hne : item.payload ≠ []) :
    (s.Fits item ∧ s.queueSse item = (true, s.push item)) ∨
      (¬ s.Fits item ∧ s.queueSse item = (false, s.overrun)) := by
  unfold State.queueSse Output.appendSsePayload State.Fits
  rw [if_neg hne]
  by_cases h : kMaxSsePendingBytes < s.out.sendBuf.length + item.payload.length
  · rw [if_pos h]
    exact .inr ⟨by omega, rfl⟩
  · rw [if_neg h]
    exact .inl ⟨by omega, rfl⟩

theorem trans_of_parseTurn {s s' : State} {around : Surroundings} (h : s.reader = .parsing)
    (hs : parseTurn s around = some s') : Trans s (.parse around) s' := by
  unfold parseTurn at hs
  split at hs
  · cases hs
    exact .wait s around h ‹_›
  · cases hs
    exact .bad s around _ _ h ‹_›
  · split at hs <;> cases hs
    · exact .dispatch s around _ _ _ h ‹_› ‹_›
    · exact .dispatchStream s around _ _ _ h ‹_› ‹_›

theorem trans_of_sendFrame {s s' : State} (hs : sendFrame s = some s') : Trans s .sendFrame s' := by
  unfold sendFrame at hs
  split at hs
  · rename_i frame rest seen appended h
    simp only at hs
    rcases queueSse_eq { s with sseAfterSequence := max s.sseAfterSequence frame.sequence } (.frame frame seen)
      (frame_payload_ne_nil frame seen) with ⟨hfits, hq⟩ | ⟨hfull, hq⟩ <;> rw [hq] at hs <;> cases hs
    · exact .sent s frame rest seen appended h hfits
    · exact .unsent s frame rest seen appended h hfull
  · cases hs

theorem trans_of_endPump {s s' : State} {now : ℤ} (hs : endPump s now = some s') : Trans s (.endPump now) s' := by
  unfold endPump at hs
  split at hs
  · rename_i seen appended h
    split_ifs at hs
    · rcases queueSse_eq s .heartbeat heartbeat_payload_ne_nil with ⟨hfits, hq⟩ | ⟨hfull, hq⟩ <;> rw [hq] at hs <;> cases hs
      · exact .heartbeat s now seen appended h hfits
      · exact .noHeartbeat s now seen appended h hfull
    · cases hs
      exact .quiet s now seen appended h
  · cases hs

theorem trans_of_stepOutput {s s' : State} {a : Act} (ha : a.IsWriter) {b : Output.Act} (hb : b.IsWriter)
    (hs : s.stepOutput b = some s') : Trans s a s' := by
  obtain ⟨out, hout, rfl⟩ := Option.map_eq_some_iff.mp hs
  exact .writing s a b out ha hb hout

theorem trans_of_lookup {s s' : State} {caller : Caller} (hs : lookup s caller = some s') :
    Trans s (.lookup caller) s' := by
  cases caller with
  | reader =>
    simp only [lookup] at hs
    split at hs
    · split_ifs at hs with hreg <;> cases hs
      · exact .lookupReader s _ ‹_› hreg
      · exact .lostReader s _ ‹_› (by simpa using hreg)
    · cases hs
  | pump =>
    simp only [lookup] at hs
    split at hs <;> cases hs
    by_cases hreg : s.registered = true
    · rw [if_pos hreg]
      exact .lookupPump s ‹_› hreg
    · rw [if_neg hreg]
      exact .lostPump s ‹_› (by simpa using hreg)
  | writer =>
    simp only [lookup] at hs
    split at hs
    · exact trans_of_stepOutput trivial (by split_ifs <;> trivial) hs
    · cases hs

/-- The last `epoll_ctl` of `handleWrite`. -/
theorem step_modifyWriter {s s' : State} (hs : step s (.modify .writer) = some s') :
    s.out.writer = .updating true ∧
      s' = { s.setInterest ⟨true, false⟩ with out := { s.out with writer := .idle } } := by
  simp only [step, modify] at hs
  split at hs
  · rename_i h
    simp only [State.stepOutput, State.setInterest, Output.step, h, Option.map_some] at hs
    exact ⟨h, (Option.some.inj hs).symm⟩
  · cases hs

theorem trans_of_modify {s s' : State} {caller : Caller} (hs : modify s caller = some s') :
    Trans s (.modify caller) s' := by
  cases caller with
  | reader =>
    simp only [modify] at hs
    split at hs <;> cases hs
    exact .modifyReader s _ ‹_›
  | pump =>
    simp only [modify] at hs
    split at hs <;> cases hs
    exact .modifyPump s ‹_›
  | writer =>
    obtain ⟨h, rfl⟩ := step_modifyWriter hs
    exact .modifyWriter s h

/-- **What each step can do.** -/
theorem trans_of_step {s s' : State} {a : Act} (hs : step s a = some s') : Trans s a s' := by
  cases a with
  | append frame => cases hs; exact .append s frame
  | remove => cases hs; exact .remove s
  | lockRead =>
    obtain ⟨h, rfl⟩ := Option.ite_none_right_eq_some.mp hs |>.imp_right Option.some.inj
    exact .lockRead s h
  | recv chunk =>
    obtain ⟨h, rfl⟩ := Option.ite_none_right_eq_some.mp hs |>.imp_right Option.some.inj
    exact .recv s chunk h
  | drained =>
    obtain ⟨h, rfl⟩ := Option.ite_none_right_eq_some.mp hs |>.imp_right Option.some.inj
    exact .drained s h
  | hangUp =>
    obtain ⟨h, rfl⟩ := Option.ite_none_right_eq_some.mp hs |>.imp_right Option.some.inj
    exact .hangUp s h
  | parse around =>
    obtain ⟨h, hs⟩ := Option.ite_none_right_eq_some.mp hs
    exact trans_of_parseTurn h hs
  | respond =>
    simp only [step] at hs
    split at hs <;> cases hs
    exact .respond s _ _ ‹_›
  | startSse now =>
    simp only [step] at hs
    split at hs
    · cases hs
    · rename_i hpump
      cases hs
      exact .startSse s now _ _ ‹_› hpump
    · cases hs
  | query =>
    simp only [step] at hs
    obtain ⟨⟨hpump, hactive, -, hover⟩, rfl⟩ := Option.ite_none_right_eq_some.mp hs |>.imp_right Option.some.inj
    exact .query s hpump hactive (by simpa using hover)
  | sendFrame => exact trans_of_sendFrame hs
  | endPump now => exact trans_of_endPump hs
  | lockWrite => exact trans_of_stepOutput (b := .lock) trivial trivial hs
  | copy => exact trans_of_stepOutput (b := .copy) trivial trivial hs
  | write n => exact trans_of_stepOutput (b := .write n) trivial trivial hs
  | erase => exact trans_of_stepOutput (b := .erase) trivial trivial hs
  | again =>
    simp only [step] at hs
    split at hs
    · exact trans_of_stepOutput (b := .leave) trivial trivial hs
    · cases hs
  | fail =>
    simp only [step] at hs
    split at hs
    · obtain ⟨out, hout, rfl⟩ := Option.map_eq_some_iff.mp hs
      exact .fail s out hout
    · cases hs
  | lookup caller => exact trans_of_lookup hs
  | modify caller => exact trans_of_modify hs

/-! ### What a step does to the output -/

@[simp] theorem setInterest_out (s : State) (interest : Interest) : (s.setInterest interest).out = s.out := rfl

@[simp] theorem setInterest_queued (s : State) (interest : Interest) :
    (s.setInterest interest).queued = s.queued := rfl

@[simp] theorem setInterest_registered (s : State) (interest : Interest) :
    (s.setInterest interest).registered = s.registered := rfl

@[simp] theorem setInterest_sseActive (s : State) (interest : Interest) :
    (s.setInterest interest).sseActive = s.sseActive := rfl

@[simp] theorem setInterest_pump (s : State) (interest : Interest) : (s.setInterest interest).pump = s.pump := rfl

@[simp] theorem afterUpdate_out (s : State) (next : AfterUpdate) : (s.afterUpdate next).out = s.out := by
  cases next <;> rfl

@[simp] theorem afterUpdate_queued (s : State) (next : AfterUpdate) : (s.afterUpdate next).queued = s.queued := by
  cases next <;> rfl

@[simp] theorem afterUpdate_sseActive (s : State) (next : AfterUpdate) :
    (s.afterUpdate next).sseActive = s.sseActive := by
  cases next <;> rfl

@[simp] theorem afterUpdate_registered (s : State) (next : AfterUpdate) :
    (s.afterUpdate next).registered = s.registered := by
  cases next <;> rfl

@[simp] theorem afterUpdate_interest (s : State) (next : AfterUpdate) :
    (s.afterUpdate next).interest = s.interest := by
  cases next <;> rfl

@[simp] theorem afterUpdate_pump (s : State) (next : AfterUpdate) : (s.afterUpdate next).pump = s.pump := by
  cases next <;> rfl

/-- After its `updateEvent`, `handleRead` is at the top of the parse loop, or over. -/
theorem afterUpdate_reader (s : State) (next : AfterUpdate) :
    (s.afterUpdate next).reader = .parsing ∨ (s.afterUpdate next).reader = .idle := by
  cases next
  · exact .inl rfl
  · exact .inr rfl

/-- Room was there: `appendSsePayload` appends. -/
theorem appendSsePayload_push {s : State} {item : Item} (hne : item.payload ≠ []) (h : s.Fits item) :
    s.out.step (.appendSsePayload item.payload) = some (s.push item).out := by
  have : ¬ kMaxSsePendingBytes < s.out.sendBuf.length + item.payload.length := Nat.not_lt.mpr h
  simp only [Output.step, Output.appendSsePayload, if_neg hne, if_neg this, State.push]

/-- There was none: `appendSsePayload` says so. -/
theorem appendSsePayload_overrun {s : State} {item : Item} (hne : item.payload ≠ []) (h : ¬ s.Fits item) :
    s.out.step (.appendSsePayload item.payload) = some s.overrun.out := by
  have : kMaxSsePendingBytes < s.out.sendBuf.length + item.payload.length := Nat.lt_of_not_le h
  simp only [Output.step, Output.appendSsePayload, if_neg hne, if_pos this, State.overrun]

/-- **A step of the connection** is a step of its output, or does not touch it. -/
theorem output_of_step {s s' : State} {a : Act} (hs : step s a = some s') :
    s'.out = s.out ∨ ∃ b, s.out.step b = some s'.out := by
  cases trans_of_step hs with
  | bad _ _ => exact .inr ⟨.appendSendBuf badRequest, rfl⟩
  | respond response => exact .inr ⟨.appendSendBuf response, rfl⟩
  | startSse => exact .inr ⟨.appendSendBuf sseHead, rfl⟩
  | sent frame _ seen _ _ hfits => exact .inr ⟨_, appendSsePayload_push (frame_payload_ne_nil frame seen) hfits⟩
  | unsent frame _ seen _ _ hfull =>
    exact .inr ⟨_, appendSsePayload_overrun (frame_payload_ne_nil frame seen) hfull⟩
  | heartbeat _ _ _ _ hfits => exact .inr ⟨_, appendSsePayload_push heartbeat_payload_ne_nil hfits⟩
  | noHeartbeat _ _ _ _ hfull => exact .inr ⟨_, appendSsePayload_overrun heartbeat_payload_ne_nil hfull⟩
  | writing _ b out _ hb hout => exact .inr ⟨b, hout⟩
  | fail out hout => exact .inr ⟨.leave, hout⟩
  | modifyWriter h => exact .inr ⟨.leave, by simp [Output.step, h]⟩
  | _ => simp

/-- The output of a connection keeps its books. -/
theorem conserved_run {capacity : ℕ} {hc : 0 < capacity} {hasRuntime : Bool} {as : List Act} {s : State}
    (h : run step (.start capacity hc hasRuntime) as = some s) : s.out.Conserved := by
  refine run_invariant (I := fun s => s.out.Conserved) (fun s a s' hI hs => ?_) Output.conserved_new h
  rcases output_of_step hs with hsame | ⟨b, hb⟩
  · rwa [hsame]
  · exact hI.step s.out b s'.out hb

/-- What was queued is what was accepted. -/
def Recorded (s : State) : Prop := s.queued.flatMap (·.1.payload) = s.out.accepted.flatten

theorem recorded_start (capacity : ℕ) (hc : 0 < capacity) (hasRuntime : Bool) :
    Recorded (.start capacity hc hasRuntime) := rfl

theorem Recorded.queue {s : State} (h : Recorded s) (item : Item) : Recorded (s.queue item) := by
  unfold Recorded at h ⊢
  rw [State.queue, Output.appendSendBuf_accepted, ← h]
  simp

theorem Recorded.push {s : State} (h : Recorded s) (item : Item) : Recorded (s.push item) := by
  unfold Recorded at h ⊢
  simp [State.push, Output.push, h]

theorem Recorded.step (s : State) (a : Act) (s' : State) (h : Recorded s) (hs : step s a = some s') : Recorded s' := by
  cases trans_of_step hs with
  | bad _ _ _ => exact Recorded.queue (s := { s with req := _ }) h _
  | respond response => exact h.queue (.response response)
  | startSse => exact h.queue .head
  | sent frame _ seen => exact h.push (.frame frame seen)
  | heartbeat => exact h.push .heartbeat
  | writing _ b out _ hb hout => exact h.trans (congrArg _ (Output.step_writer hb hout).2.2.symm)
  | fail out hout => exact h.trans (congrArg _ (Output.step_writer (a := .leave) trivial hout).2.2.symm)
  | _ => simpa [Recorded, State.overrun] using h

/-! ### A small world to run in -/

/-- A request for a page that is not there. -/
def pageRequest : Bytes := bytes "GET /x HTTP/1.1\r\n\r\n"

/-- Nothing to be found but the store. -/
def plainSurroundings : Surroundings where
  busStats := ⟨0, 0, [], [], []⟩
  senderIsOpen := false
  sendRaw := fun _ _ _ => false
  openFile := fun _ => none
  allocates := fun size => decide (size < 2 ^ 32)
  iteration := ⟨id, fun l => List.Perm.refl l⟩

end CanMonitor.Connection
