import CanMonitor.Connection.Pipelining
import CanMonitor.Http.Decoding

/-!
# The connection on the wire

`Connection.step` interleaves `handleRead` with the event loop, `handleWrite`, the receiver
and removal; `Http.serve` makes calls of `handleRead` one after the other and nothing else.
This module shows the first to be the second, as far as requests are concerned, and from it
what a client sees that writes requests to one end of the connection and reads responses
from it.

## The model

`readings` are the results of `read` in a run, call by call, and `events` what the parse
loop made of them. `State.ahead` is what the call of `handleRead` that is under way has yet
to do if nothing more comes in.

## What is proved

* `Served.step` — every step keeps `serve` on the readings where the connection is.
* `connection_serves` — so the events of a run are those of `serve`, whatever else happens
  in between.
* `exchange` — a client that sends well-formed requests, cut in any way, reads for each the
  body that its route fills in, in order.
* `answers_determined` — in one and the same world, what is queued is a function of the readings.
* `queued_same` — in any two runs without a CAN runtime, equal readings give equal answers.
-/

namespace CanMonitor.Connection

open CanMonitor.Library CanMonitor.Can CanMonitor.Http

/-! ### What was read, and what was made of it -/

/-- One result more in the last call. -/
def addResult (calls : List (List ReadResult)) (result : ReadResult) : List (List ReadResult) :=
  calls.dropLast ++ [calls.getLast?.getD [] ++ [result]]

/-- What a step reads: `lockRead` begins a call. -/
def recordRead (calls : List (List ReadResult)) : Act → List (List ReadResult)
  | .lockRead => calls ++ [[]]
  | .recv chunk => addResult calls (.data chunk)
  | .hangUp => addResult calls .closed
  | _ => calls

/-- What the calls of `handleRead` read in a run, call by call. -/
def readings (as : List Act) : List (List ReadResult) := as.foldl recordRead []

theorem readings_concat (as : List Act) (a : Act) : readings (as ++ [a]) = recordRead (readings as) a := by
  rw [readings, List.foldl_append]
  rfl

theorem addResult_concat (before : List (List ReadResult)) (call : List ReadResult) (result : ReadResult) :
    addResult (before ++ [call]) result = before ++ [call ++ [result]] := by
  simp [addResult]

/-- The event that a step of `handleRead` is, if it is one. -/
def event (s : State) : Act → List Event
  | .parse _ =>
    match parseStep s.req s.recvBuf with
    | .wait => []
    | .bad text _ => [.rejected text]
    | .dispatch req _ => [.dispatched req]
  | .hangUp => [.removed]
  | _ => []

/-- The events of a run. -/
def events (s : State) (as : List Act) : List Event := emitted event step s as

/-- What the call of `handleRead` that is under way has yet to do with what it has read. -/
def State.ahead (s : State) : List Event × Reader :=
  match s.reader with
  | .idle => ([], ⟨s.recvBuf, s.req⟩)
  | .draining => ([], ⟨s.recvBuf, s.req⟩)
  | .parsing => parseLoop ⟨s.recvBuf, s.req⟩
  | .responding _ requestLen => parseLoop ⟨s.recvBuf.drop requestLen, .fresh⟩
  | .starting _ requestLen => parseLoop ⟨s.recvBuf.drop requestLen, .fresh⟩
  | .updating (.erase requestLen) _ => parseLoop ⟨s.recvBuf.drop requestLen, .fresh⟩
  | .updating .clear _ => ([], ⟨[], s.req⟩)

/-- After these readings and events, `serve` is where the connection is. -/
structure Served (calls : List (List ReadResult)) (es : List Event) (s : State) : Prop where
  /-- In the read loop, the last call is yet to be parsed. -/
  draining : s.reader = .draining → ∃ (before : List (List ReadResult)) (chunks : List Bytes) (buf : Bytes),
    calls = before ++ [chunks.map .data] ∧ serve .fresh before = (es, ⟨buf, s.req⟩) ∧ s.recvBuf = buf ++ chunks.flatten
  /-- Elsewhere it is what is ahead. -/
  serve_eq : s.reader ≠ .draining → serve .fresh calls = (es ++ s.ahead.1, s.ahead.2)

theorem served_start (capacity : ℕ) (hc : 0 < capacity) (hasRuntime : Bool) :
    Served [] [] (.start capacity hc hasRuntime) :=
  ⟨nofun, fun _ => rfl⟩

/-- Steps that are not of `handleRead` change nothing of what was served. -/
theorem Served.of_eq {calls : List (List ReadResult)} {es : List Event} {s s' : State} (h : Served calls es s)
    (hreader : s'.reader = s.reader) (hbuf : s'.recvBuf = s.recvBuf) (hreq : s'.req = s.req) :
    Served calls (es ++ []) s' := by
  rw [List.append_nil]
  constructor
  · intro hd
    rw [hbuf, hreq]
    exact h.draining (hreader ▸ hd)
  · intro hd
    have hahead : s'.ahead = s.ahead := by
      unfold State.ahead
      rw [hreader, hbuf, hreq]
    rw [hahead]
    exact h.serve_eq (hreader ▸ hd)

/-- Steps of `handleRead` after its read loop: what they do was ahead. -/
theorem Served.move {calls : List (List ReadResult)} {es es' : List Event} {s s' : State} (h : Served calls es s)
    (hs : s.reader ≠ .draining) (hs' : s'.reader ≠ .draining) (hahead : s.ahead = (es' ++ s'.ahead.1, s'.ahead.2)) :
    Served calls (es ++ es') s' := by
  refine ⟨fun hd => absurd hd hs', fun _ => ?_⟩
  rw [h.serve_eq hs, hahead, List.append_assoc]

/-- After `updateEvent` the request is erased or the buffer cleared, as was ahead. -/
theorem ahead_afterUpdate (s : State) (next : AfterUpdate) (found : Bool) (h : s.reader = .updating next found) :
    s.ahead = (s.afterUpdate next).ahead := by
  unfold State.ahead
  rw [h]
  cases next <;> rfl

theorem afterUpdate_not_draining (s : State) (next : AfterUpdate) : (s.afterUpdate next).reader ≠ .draining := by
  cases next <;> exact nofun

/-- `handleRead` gets the lock: a new call. -/
theorem Served.lockRead {calls : List (List ReadResult)} {es : List Event} {s : State} (h : Served calls es s)
    (hr : s.reader = .idle) : Served (calls ++ [[]]) (es ++ []) { s with reader := .draining } := by
  refine ⟨fun _ => ⟨calls, [], s.recvBuf, rfl, ?_, (List.append_nil _).symm⟩, fun hd => absurd rfl hd⟩
  have hserve := h.serve_eq (by simp [hr])
  rw [hserve, State.ahead, hr]

/-- A chunk is read. -/
theorem Served.recv {calls : List (List ReadResult)} {es : List Event} {s : State} (h : Served calls es s)
    (hr : s.reader = .draining) (chunk : Bytes) :
    Served (addResult calls (.data chunk)) (es ++ []) { s with recvBuf := s.recvBuf ++ chunk } := by
  obtain ⟨before, chunks, buf, rfl, hserve, hbuf⟩ := h.draining hr
  refine ⟨fun _ => ⟨before, chunks ++ [chunk], buf, ?_, ?_, ?_⟩, fun hd => absurd hr hd⟩
  · rw [addResult_concat, List.map_append, List.map_singleton]
  · rw [List.append_nil]
    exact hserve
  · show s.recvBuf ++ chunk = _
    rw [hbuf, List.flatten_append, List.flatten_singleton, List.append_assoc]

/-- The read loop ends, and the parse loop begins. -/
theorem Served.drained {calls : List (List ReadResult)} {es : List Event} {s : State} (h : Served calls es s)
    (hr : s.reader = .draining) : Served calls (es ++ []) { s with reader := .parsing } := by
  obtain ⟨before, chunks, buf, rfl, hserve, hbuf⟩ := h.draining hr
  refine ⟨nofun, fun _ => ?_⟩
  rw [List.append_nil, serve_concat, hserve, handleRead_data]
  simp only [State.ahead, hbuf]

/-- The peer has closed the connection, or reading failed. -/
theorem Served.hangUp {calls : List (List ReadResult)} {es : List Event} {s : State} (h : Served calls es s)
    (hr : s.reader = .draining) :
    Served (addResult calls .closed) (es ++ [.removed]) { s with registered := false, reader := .idle } := by
  obtain ⟨before, chunks, buf, rfl, hserve, hbuf⟩ := h.draining hr
  refine ⟨nofun, fun _ => ?_⟩
  have hdrain : ∀ (buf : Bytes) (chunks : List Bytes),
      drain buf (chunks.map .data ++ [.closed]) = (buf ++ chunks.flatten, false) := by
    intro buf chunks
    induction chunks generalizing buf with
    | nil => simp [drain]
    | cons chunk chunks ih => rw [List.map_cons, List.cons_append, drain, ih, List.flatten_cons, List.append_assoc]
  rw [addResult_concat, serve_concat, hserve, handleRead, hdrain]
  simp only [State.ahead, hbuf, List.append_nil]

/-- **Every step** keeps `serve` where the connection is. -/
theorem Served.step {calls : List (List ReadResult)} {es : List Event} {s : State} {a : Act} {s' : State}
    (h : Served calls es s) (hs : Connection.step s a = some s') :
    Served (recordRead calls a) (es ++ event s a) s' := by
  cases trans_of_step hs with
  | lockRead hr => exact h.lockRead hr
  | recv chunk hr => exact h.recv hr chunk
  | drained hr => exact h.drained hr
  | hangUp hr => exact h.hangUp hr
  | wait around hr hstep =>
    have hevent : event s (.parse around) = [] := by simp only [event, hstep]
    rw [hevent]
    refine h.move (by simp [hr]) nofun ?_
    simp only [State.ahead, hr, List.nil_append]
    exact parseLoop_wait (s := ⟨s.recvBuf, s.req⟩) hstep
  | bad around text req hr hstep =>
    have hevent : event s (.parse around) = [.rejected text] := by simp only [event, hstep]
    rw [hevent]
    refine h.move (by simp [hr]) nofun ?_
    simp only [State.ahead, hr, List.append_nil]
    exact parseLoop_bad (s := ⟨s.recvBuf, s.req⟩) hstep
  | dispatch around req len response hr hstep =>
    have hevent : event s (.parse around) = [.dispatched req] := by simp only [event, hstep]
    rw [hevent]
    refine h.move (by simp [hr]) nofun ?_
    simp only [State.ahead, hr, List.singleton_append]
    exact parseLoop_dispatch (s := ⟨s.recvBuf, s.req⟩) hstep
  | dispatchStream around req len after hr hstep =>
    have hevent : event s (.parse around) = [.dispatched req] := by simp only [event, hstep]
    rw [hevent]
    refine h.move (by simp [hr]) nofun ?_
    simp only [State.ahead, hr, List.singleton_append]
    exact parseLoop_dispatch (s := ⟨s.recvBuf, s.req⟩) hstep
  | respond response len hr =>
    refine h.move (by simp [hr]) nofun ?_
    simp only [State.ahead, hr]
    rfl
  | startSse now after len hr =>
    refine h.move (by simp [hr]) nofun ?_
    simp only [State.ahead, hr]
    rfl
  | lookupReader next hr =>
    refine h.move (by simp [hr]) nofun ?_
    simp only [State.ahead, hr]
    cases next <;> rfl
  | lostReader next hr =>
    refine h.move (by simp [hr]) (afterUpdate_not_draining s next) ?_
    exact ahead_afterUpdate s next false hr
  | modifyReader next hr =>
    refine h.move (by simp [hr]) (afterUpdate_not_draining _ next) ?_
    exact ahead_afterUpdate (s.setInterest next.interest) next true hr
  | writing _ b out ha =>
    have hrecord : recordRead calls a = calls := by cases a <;> first | rfl | cases ha
    have hevent : event s a = [] := by cases a <;> first | rfl | cases ha
    rw [hrecord, hevent]
    exact h.of_eq rfl rfl rfl
  | _ => exact h.of_eq rfl rfl rfl

theorem events_concat {s t : State} {as : List Act} (h : run step s as = some t) (a : Act) :
    events s (as ++ [a]) = events s as ++ event t a :=
  emitted_concat h a

/-- Every run does. -/
theorem served_run {capacity : ℕ} {hc : 0 < capacity} {hasRuntime : Bool} {as : List Act} {s : State}
    (h : run step (.start capacity hc hasRuntime) as = some s) :
    Served (readings as) (events (.start capacity hc hasRuntime) as) s := by
  refine run_history (I := fun as s => Served (readings as) (events (.start capacity hc hasRuntime) as) s)
    (served_start capacity hc hasRuntime) (fun as t a t' ht hI hstep => ?_) h
  rw [readings_concat, events_concat ht]
  exact hI.step hstep

/-- What was made of the readings so far is the beginning of what `serve` makes of them. -/
theorem Served.events_le {calls : List (List ReadResult)} {es : List Event} {s : State} (h : Served calls es s) :
    es <+: (serve .fresh calls).1 := by
  by_cases hr : s.reader = .draining
  · obtain ⟨before, chunks, buf, rfl, hserve, -⟩ := h.draining hr
    rw [serve_concat, hserve]
    exact List.prefix_append _ _
  · rw [h.serve_eq hr]
    exact List.prefix_append _ _

/-- **The connection serves**: in every interleaving with the event loop, with `handleWrite`,
the receiver and removal, the requests found, the texts rejected and the ends of the
connection are, in order, the beginning of those that `serve` makes of the results of
`read`; between calls of `handleRead` they are all of them, and the buffer and the request
object are those that `serve` leaves. -/
theorem connection_serves {capacity : ℕ} {hc : 0 < capacity} {hasRuntime : Bool} {as : List Act} {s : State}
    (h : run step (.start capacity hc hasRuntime) as = some s) :
    events (.start capacity hc hasRuntime) as <+: (serve .fresh (readings as)).1 ∧
      (s.reader = .idle →
        serve .fresh (readings as) = (events (.start capacity hc hasRuntime) as, ⟨s.recvBuf, s.req⟩)) := by
  have hserved := served_run h
  refine ⟨hserved.events_le, fun hidle => ?_⟩
  rw [hserved.serve_eq (by simp [hidle]), State.ahead, hidle, List.append_nil]

/-- A request in two pieces, between which the receiver appends a frame; the first answer is
being written, and the connection removed, while `handleRead` is in `updateEvent`. -/
def twoPieces : List Act :=
  [.lockRead, .recv (pageRequest.take 9), .drained, .parse plainSurroundings, .append {}, .lockRead,
    .recv (pageRequest.drop 9), .drained, .lockWrite, .parse plainSurroundings, .respond, .copy, .lookup .reader,
    .remove, .modify .reader, .write 4, .parse plainSurroundings]

theorem connection_serves_twoPieces : ∃ s, run step (.start 8 (by decide) true) twoPieces = some s ∧
    serve .fresh (readings twoPieces) = (events (.start 8 (by decide) true) twoPieces, ⟨s.recvBuf, s.req⟩) := by
  have h : (run step (.start 8 (by decide) true) twoPieces).map (·.reader) = some .idle := by decide +kernel
  obtain ⟨s, hs, hidle⟩ := Option.map_eq_some_iff.mp h
  exact ⟨s, hs, (connection_serves hs).2 hidle⟩

/-! ### Requests and responses -/

/-- The bytes that `read` returned in a run. -/
def receivedBytes (as : List Act) : Bytes :=
  as.flatMap fun
    | .recv chunk => chunk
    | _ => []

/-- Without the end of the connection, the readings are chunks of these bytes. -/
theorem exists_deliveries {as : List Act} (h : ∀ a ∈ as, a ≠ .hangUp) : ∃ deliveries : List (List Bytes),
    readings as = deliveries.map (·.map .data) ∧ deliveries.flatten.flatten = receivedBytes as := by
  induction as using List.reverseRecOn with
  | nil => exact ⟨[], rfl, rfl⟩
  | append_singleton as a ih =>
    obtain ⟨deliveries, hreadings, hbytes⟩ := ih fun b hb => h b (List.mem_append_left _ hb)
    rw [readings_concat, hreadings]
    cases a with
    | lockRead => exact ⟨deliveries ++ [[]], by simp [recordRead], by simp [hbytes, receivedBytes]⟩
    | recv chunk =>
      cases deliveries using List.reverseRecOn with
      | nil => exact ⟨[[chunk]], by simp [recordRead, addResult], by simpa [receivedBytes] using hbytes⟩
      | append_singleton before call _ =>
        refine ⟨before ++ [call ++ [chunk]], ?_, ?_⟩
        · rw [List.map_append, List.map_singleton, recordRead, addResult_concat]
          simp
        · have hsplit : receivedBytes (as ++ [.recv chunk]) = receivedBytes as ++ chunk := by simp [receivedBytes]
          rw [hsplit, ← hbytes]
          simp
    | hangUp => exact absurd rfl (h .hangUp (by simp))
    | _ => exact ⟨deliveries, rfl, by simp [hbytes, receivedBytes]⟩

/-- The request that a turn accepts. -/
def Turn.request : Turn → Option HttpRequest
  | .accepted req _ => some req
  | .rejected => none

/-- The requests that an event finds, `none` for a text that is rejected. -/
def found : Event → List (Option HttpRequest)
  | .dispatched req => [some req]
  | .rejected _ => [none]
  | .removed => []

theorem turn_request (s : State) (a : Act) : (turn s a).toList.map Turn.request = (event s a).flatMap found := by
  cases a with
  | parse around =>
    simp only [turn, event]
    cases parseStep s.req s.recvBuf <;> rfl
  | _ => rfl

/-- The turns of a run are those of its events that find something. -/
theorem turns_request (s : State) (as : List Act) : (turns s as).map Turn.request = (events s as).flatMap found := by
  induction as generalizing s with
  | nil => rfl
  | cons a as ih =>
    rw [turns, events, emitted, List.map_append, List.flatMap_append, turn_request]
    cases step s a with
    | none => rfl
    | some s' => exact congrArg _ (ih s')

/-- Whole texts and a beginning of one more are served as these and no more. -/
theorem serve_beginning {ms : List Message} {p : Bytes} (h : p <+: ms.flatMap (·.render)) {calls : List (List ReadResult)}
    (hcalls : ∃ deliveries : List (List Bytes), calls = deliveries.map (·.map .data) ∧ deliveries.flatten.flatten = p) :
    ∃ ms₁ ms₂, ms = ms₁ ++ ms₂ ∧ (serve .fresh calls).1 = ms₁.map (fun m => .dispatched m.toHttpRequest) ∧
      (p = ms.flatMap (·.render) → ms₂ = []) := by
  obtain ⟨deliveries, rfl, hp⟩ := hcalls
  have hwholes : ∀ ms : List Message, ms.flatMap (·.render) = (ms.map Message.whole).flatMap (·.text) := fun ms => by
    rw [List.flatMap_map]
    rfl
  have hevents : ∀ ms : List Message, (ms.map Message.whole).map (fun w => Event.dispatched w.req) =
      ms.map fun m => .dispatched m.toHttpRequest := fun ms => by
    rw [List.map_map]
    rfl
  have hall : p <+: (ms.map Message.whole).flatMap (·.text) ++ [] := by rwa [List.append_nil, ← hwholes]
  rcases exists_short_or_all _ hall with ⟨ws₁, w, ws₂, rest, hws, hsplit, hrest, hne⟩ | ⟨u, hu⟩
  · obtain ⟨ms₁, ms', rfl, rfl, hms'⟩ := List.map_eq_append_iff.mp hws
    obtain ⟨m, ms₂, rfl, rfl, rfl⟩ := List.map_eq_cons_iff.mp hms'
    refine ⟨ms₁, m :: ms₂, rfl, ?_, fun heq => ?_⟩
    · rw [serve_then_waiting _ (fun _ hu => m.whole.parseStep_shorter hrest hne hu) (hp.trans hsplit), hevents]
    · -- then nothing would be missing
      rw [heq, List.flatMap_append, List.flatMap_cons, hwholes] at hsplit
      have hlong := congrArg List.length (List.append_cancel_left hsplit)
      have hshort : rest.length < m.render.length :=
        lt_of_le_of_ne hrest.length_le fun h => hne (hrest.eq_of_length h)
      rw [List.length_append] at hlong
      omega
  · have hnil : u = [] := by
      rw [List.append_nil, hu] at hall
      have hle := hall.length_le
      rw [List.length_append] at hle
      exact List.length_eq_zero_iff.mp (by omega)
    refine ⟨ms, [], (List.append_nil _).symm, ?_, fun _ => rfl⟩
    rw [serve_then_waiting (ms.map Message.whole) (fun u hu => parseStep_nil u hu) (hp.trans (hnil ▸ hu)), hevents]

/-- What was written is the beginning of what was accepted, and all of it when nothing is left. -/
theorem written_accepted {o : Output} (h : o.Conserved) :
    o.written <+: o.accepted.flatten ∧ (o.sendBuf = [] → o.written = o.accepted.flatten) := by
  refine ⟨⟨_, h.bytes⟩, fun hempty => ?_⟩
  have hbytes := h.bytes
  rwa [hempty, List.drop_nil, List.append_nil] at hbytes

/-- **An exchange**: a client sends well-formed requests, one after the other, cut in any way,
none of them a successful request for a stream, and keeps the connection open. At any time
what the server has written is the beginning of a text that the client reads as the bodies
that the routes set for the first requests, in order; and once all requests are read and
handled and `send_buf` is empty, it is that text, with a body for each request. -/
theorem exchange {capacity : ℕ} {hc : 0 < capacity} {hasRuntime : Bool} {as : List Act} {s : State}
    (h : run step (.start capacity hc hasRuntime) as = some s)
    (hstream : Meets NoStream step (.start capacity hc hasRuntime) as) (hopen : ∀ a ∈ as, a ≠ .hangUp)
    (ms : List Message) (hsent : receivedBytes as <+: ms.flatMap (·.render)) :
    (∃ text bodies, s.out.written <+: text ∧ decodeResponses text = some bodies ∧
      bodies.map some <+: (turns (.start capacity hc hasRuntime) as).map Turn.body) ∧
    (turns (.start capacity hc hasRuntime) as).map Turn.request <+: ms.map (fun m => some m.toHttpRequest) ∧
    (receivedBytes as = ms.flatMap (·.render) → s.reader = .idle → s.out.sendBuf = [] →
      ∃ bodies, decodeResponses s.out.written = some bodies ∧
        (turns (.start capacity hc hasRuntime) as).map Turn.body = bodies.map some ∧
        (turns (.start capacity hc hasRuntime) as).map Turn.request = ms.map fun m => some m.toHttpRequest) := by
  have hpipelined := (pipelined_start capacity hc hasRuntime).run h hstream
  rw [List.nil_append] at hpipelined
  obtain ⟨bodies, last, hdecode, hbodies, hlast⟩ := hpipelined.answered.decode
  obtain ⟨hwritten, hall⟩ := written_accepted (conserved_run h)
  obtain ⟨ms₁, ms₂, rfl, hserve, hrest⟩ := serve_beginning hsent (exists_deliveries hopen)
  have hserved := served_run h
  have hle := hserved.events_le
  have hfound : ∀ ms : List Message, (ms.map fun m => Event.dispatched m.toHttpRequest).flatMap found =
      ms.map fun m => some m.toHttpRequest := fun ms => by
    rw [List.flatMap_map]
    exact List.flatMap_pure_eq_map _ ms
  refine ⟨⟨_, bodies, hwritten, hdecode, ?_⟩, ?_, fun hreceived hidle hempty => ?_⟩
  · rw [hbodies, List.map_append]
    exact List.prefix_append _ _
  · rw [turns_request, List.map_append]
    obtain ⟨later, hlater⟩ := hle
    rw [hserve] at hlater
    refine List.IsPrefix.trans ⟨later.flatMap found, ?_⟩ (List.prefix_append _ _)
    rw [← List.flatMap_append, hlater, hfound]
  · have hnone : last = [] := by
      rw [State.inHand, hidle] at hlast
      exact List.length_eq_zero_iff.mp hlast
    rw [hnone, List.append_nil] at hbodies
    have hevents := hserved.serve_eq (by simp [hidle])
    rw [State.ahead, hidle, List.append_nil] at hevents
    refine ⟨bodies, (hall hempty).symm ▸ hdecode, hbodies, ?_⟩
    rw [hrest hreceived, List.append_nil, turns_request, ← hfound, ← hserve, hevents]

/-- A request to send a frame and one for a page, in three pieces; what is written of the first
answer is erased only when the second request is there. -/
def twoExchanges : List Act :=
  [.lockRead, .recv (sendMessage.render.take 30), .recv (sendMessage.render.drop 30 ++ pageMessage.render.take 16),
    .drained, .parse plainSurroundings, .respond, .lookup .reader, .modify .reader, .parse plainSurroundings,
    .lockWrite, .copy, .write 40, .lockRead, .recv (pageMessage.render.drop 16), .drained, .erase,
    .parse plainSurroundings, .respond, .lookup .reader, .modify .reader, .parse plainSurroundings,
    .copy, .write 250, .erase]

theorem exchange_two : ∃ s, run step (.start 8 (by decide) true) twoExchanges = some s ∧
    ∃ bodies, decodeResponses s.out.written = some bodies ∧
      (turns (.start 8 (by decide) true) twoExchanges).map Turn.body = bodies.map some ∧
      (turns (.start 8 (by decide) true) twoExchanges).map Turn.request =
        [sendMessage, pageMessage].map fun m => some m.toHttpRequest := by
  have h : (run step (.start 8 (by decide) true) twoExchanges).map (fun s => (s.reader, s.out.sendBuf)) =
      some (.idle, []) := by decide +kernel
  obtain ⟨s, hs, hfields⟩ := Option.map_eq_some_iff.mp h
  obtain ⟨hidle, hempty⟩ := Prod.mk.inj hfields
  have hreceived : receivedBytes twoExchanges = [sendMessage, pageMessage].flatMap (·.render) := by decide +kernel
  exact ⟨s, hs, (exchange hs (by decide +kernel) (by simp [twoExchanges]) _ ⟨[], by rw [hreceived, List.append_nil]⟩).2.2
    hreceived hidle hempty⟩

/-! ### The connection as a function -/

/-- What is queued for an event by handlers that find the world `env`. -/
def answerTo (env : Environment) : Event → Bytes
  | .dispatched req =>
    match processRequest req env with
    | .respond response => response
    | _ => []
  | .rejected _ => badRequest
  | .removed => []

/-- A step whose handler, if it has one, finds the world `env`, and starts no stream. -/
def InWorld (env : Environment) (s : State) (a : Act) : Prop :=
  NoStream s a ∧ ∀ around, a = .parse around → s.environment around = env

/-- A connection without a stream that has answered the events `es` in the world `env`. -/
structure Answering (env : Environment) (es : List Event) (s : State) : Prop where
  inactive : s.sseActive = false
  pump : s.pump = .idle
  reader : ∀ after len, s.reader ≠ .starting after len
  queued : s.out.accepted.flatten ++ s.inHand.flatten = es.flatMap (answerTo env)

/-- Steps that find no request and queue nothing. -/
theorem Answering.of_eq {env : Environment} {es : List Event} {s s' : State} (h : Answering env es s)
    (hactive : s'.sseActive = s.sseActive) (hpump : s'.pump = s.pump)
    (hout : s'.out.accepted.flatten = s.out.accepted.flatten) (hhand : s'.inHand = s.inHand)
    (hreader : ∀ after len, s'.reader ≠ .starting after len) : Answering env (es ++ []) s' := by
  refine ⟨hactive.trans h.inactive, hpump.trans h.pump, hreader, ?_⟩
  rw [List.append_nil, hout, hhand]
  exact h.queued

/-- **Every step in this world** queues the answer to its event. -/
theorem Answering.step {env : Environment} {es : List Event} {s : State} {a : Act} {s' : State}
    (h : Answering env es s) (hw : InWorld env s a) (hs : Connection.step s a = some s') :
    Answering env (es ++ event s a) s' := by
  have hqueued := h.queued
  cases trans_of_step hs with
  | wait around hr hstep =>
    have hevent : event s (.parse around) = [] := by simp only [event, hstep]
    rw [hevent]
    exact h.of_eq rfl rfl rfl (by simp [State.inHand, hr]) (by simp)
  | bad around text req hr hstep =>
    have hevent : event s (.parse around) = [.rejected text] := by simp only [event, hstep]
    have hhand : s.inHand = [] := by rw [State.inHand, hr]
    rw [hhand, List.flatten_nil, List.append_nil] at hqueued
    refine ⟨h.inactive, h.pump, by simp, ?_⟩
    rw [hevent, List.flatMap_append, ← hqueued, List.flatMap_singleton]
    exact (List.append_nil _).trans (Output.appendSendBuf_accepted s.out badRequest)
  | dispatch around req len response hr hstep hreply =>
    have hevent : event s (.parse around) = [.dispatched req] := by simp only [event, hstep]
    have hhand : s.inHand = [] := by rw [State.inHand, hr]
    rw [hhand, List.flatten_nil, List.append_nil] at hqueued
    rw [hw.2 around rfl] at hreply
    refine ⟨h.inactive, h.pump, by simp, ?_⟩
    rw [hevent, List.flatMap_append, ← hqueued, List.flatMap_singleton, answerTo, hreply]
    exact congrArg (s.out.accepted.flatten ++ ·) List.flatten_singleton
  | dispatchStream around req len after hr hstep hreply =>
    have hno := hw.1 (.accepted req (s.environment around)) (by simp [turn, hstep])
    simp [Turn.isStream, hreply] at hno
  | respond response len hr =>
    have hhand : s.inHand = [response] := by rw [State.inHand, hr]
    rw [hhand, List.flatten_singleton] at hqueued
    refine ⟨h.inactive, h.pump, by simp, ?_⟩
    have hevent : event s .respond = [] := rfl
    rw [hevent, List.append_nil, ← hqueued]
    exact (List.append_nil _).trans (Output.appendSendBuf_accepted s.out response)
  | startSse now after len hr => exact absurd hr (h.reader after len)
  | query _ hactive => exact absurd hactive (by simp [h.inactive])
  | sent _ _ _ _ hp | unsent _ _ _ _ hp | quiet _ _ _ hp | heartbeat _ _ _ hp | noHeartbeat _ _ _ hp | lookupPump hp
  | lostPump hp | modifyPump hp => exact absurd (h.pump.symm.trans hp) (by simp)
  | lockRead hr | drained hr | lookupReader _ hr =>
    exact h.of_eq rfl rfl rfl (by simp [State.inHand, hr]) (by simp)
  | hangUp hr =>
    have hhand : s.inHand = [] := by rw [State.inHand, hr]
    rw [hhand] at hqueued
    refine ⟨h.inactive, h.pump, by simp, ?_⟩
    rw [List.flatMap_append, ← hqueued]
    exact (List.append_nil _).symm
  | lostReader next hr =>
    refine h.of_eq (by simp) (by simp) (by simp) ?_ ?_
    · rw [afterUpdate_inHand, State.inHand, hr]
    · rcases afterUpdate_reader s next with hr | hr <;> rw [hr] <;> simp
  | modifyReader next hr =>
    refine h.of_eq (by simp) (by simp) (by simp) ?_ ?_
    · rw [afterUpdate_inHand, State.inHand, hr]
    · rcases afterUpdate_reader (s.setInterest next.interest) next with hr | hr <;> rw [hr] <;> simp
  | writing _ b out ha hb hout =>
    have hevent : event s a = [] := by cases a <;> first | rfl | cases ha
    rw [hevent]
    exact h.of_eq rfl rfl (congrArg _ (Output.step_writer hb hout).2.2) rfl h.reader
  | fail out hout =>
    exact h.of_eq rfl rfl (congrArg _ (Output.step_writer (a := .leave) trivial hout).2.2) rfl h.reader
  | _ => exact h.of_eq rfl rfl rfl rfl h.reader

/-- Without a CAN runtime no request for a stream succeeds. -/
theorem processRequest_ne_stream {req : HttpRequest} {env : Environment} (h : env.canRuntime = none) {after : UInt64} :
    processRequest req env ≠ .stream after := by
  rcases processRequest_cases req env with ⟨resp, -, hreply⟩ | ⟨after', hreply⟩ | ⟨hreply, -⟩
  · rw [hreply]
    exact nofun
  · simp only [processRequest, h] at hreply
    split_ifs at hreply
    split at hreply <;> cases hreply
  · rw [hreply]
    exact nofun

/-- No step gives the connection a CAN runtime, or takes it away. -/
theorem hasRuntime_of_step {s s' : State} {a : Act} (hs : step s a = some s') : s'.hasRuntime = s.hasRuntime := by
  cases trans_of_step hs with
  | lostReader next => cases next <;> rfl
  | modifyReader next => cases next <;> rfl
  | _ => rfl

/-- The run of the connection has queued the answers to its events. -/
theorem answering_of_run {capacity : ℕ} {hc : 0 < capacity} {hasRuntime : Bool} {env : Environment} {as : List Act}
    {s : State} (h : run step (.start capacity hc hasRuntime) as = some s)
    (hworld : Meets (InWorld env) step (.start capacity hc hasRuntime) as) :
    Answering env (events (.start capacity hc hasRuntime) as) s := by
  refine run_history (I := fun as s => Meets (InWorld env) step (.start capacity hc hasRuntime) as →
    Answering env (events (.start capacity hc hasRuntime) as) s) ?_ (fun as t a t' ht hI hstep hmeets => ?_) h hworld
  · exact fun _ => ⟨rfl, rfl, nofun, rfl⟩
  · obtain ⟨hbefore, hlast⟩ := hmeets.append ht
    rw [events_concat ht]
    exact (hI hbefore).step hlast.1 hstep

/-- Between calls of `handleRead` the events are those of `serve`. -/
theorem Answering.serve {env : Environment} {capacity : ℕ} {hc : 0 < capacity} {hasRuntime : Bool} {as : List Act}
    {s : State} (hanswering : Answering env (events (.start capacity hc hasRuntime) as) s)
    (h : Library.run Connection.step (.start capacity hc hasRuntime) as = some s) (hidle : s.reader = .idle) :
    s.out.accepted.flatten = (Http.serve .fresh (readings as)).1.flatMap (answerTo env) := by
  have hserve := (served_run h).serve_eq (by simp [hidle])
  rw [State.ahead, hidle, List.append_nil] at hserve
  have hqueued := hanswering.queued
  have hhand : s.inHand = [] := by rw [State.inHand, hidle]
  rw [hserve, ← hqueued, hhand, List.flatten_nil, List.append_nil]

/-- **The connection is a function** of what it reads, as long as its handlers find one and the
same world and no request for a stream succeeds: between calls of `handleRead`, what was
queued is the answers to the events of `serve`, whatever happens in between and in whatever
order. -/
theorem answers_determined {capacity : ℕ} {hc : 0 < capacity} {hasRuntime : Bool} {env : Environment}
    {as : List Act} {s : State} (h : run step (.start capacity hc hasRuntime) as = some s)
    (hworld : Meets (InWorld env) step (.start capacity hc hasRuntime) as) (hidle : s.reader = .idle) :
    s.out.accepted.flatten = (serve .fresh (readings as)).1.flatMap (answerTo env) :=
  (answering_of_run h hworld).serve h hidle

/-- The handlers find these files, this memory and this order of the header map. -/
def Finds (env : Environment) (as : List Act) : Prop :=
  ∀ around, .parse around ∈ as →
    around.openFile = env.openFile ∧ around.allocates = env.allocates ∧ around.iteration = env.iteration

/-- Without a CAN runtime, the world is what the handlers find. -/
theorem meets_inWorld {env : Environment} (hruntime : env.canRuntime = none) {s : State} (hnone : s.hasRuntime = false)
    {as : List Act} (h : Finds env as) : Meets (InWorld env) step s as := by
  induction as generalizing s with
  | nil => trivial
  | cons a as ih =>
    have henv : ∀ around, a = .parse around → s.environment around = env := by
      rintro around rfl
      obtain ⟨hopen, hmemory, horder⟩ := h around List.mem_cons_self
      simp only [State.environment, hnone, Bool.false_eq_true, if_false, ← hruntime, hopen, hmemory, horder]
    refine ⟨⟨fun t ht => ?_, henv⟩, fun s' hs => ih ?_ fun around' hmem => h around' (List.mem_cons_of_mem a hmem)⟩
    · cases a with
      | parse around' =>
        simp only [turn] at ht
        split at ht
        · cases ht
        · cases ht
          rfl
        · cases ht
          simp only [Turn.isStream, henv around' rfl]
          split
          · rename_i hreply
            exact absurd hreply (processRequest_ne_stream hruntime)
          · rfl
      | _ => cases ht
    · rw [← hnone]
      exact hasRuntime_of_step hs

/-- **Equal readings, equal answers.** Take two runs of a connection without a CAN runtime, in
which the handlers find the same files, the same memory and the same order of the header map,
and everything else is as it likes. If `read` has returned the same in both, then between
calls of `handleRead` both have queued the same bytes. -/
theorem queued_same {env : Environment} {capacity capacity' : ℕ} {hc : 0 < capacity} {hc' : 0 < capacity'}
    {as bs : List Act} {s t : State} (hs : run step (.start capacity hc false) as = some s)
    (ht : run step (.start capacity' hc' false) bs = some t) (has : Finds env as) (hbs : Finds env bs)
    (hreadings : readings as = readings bs) (hsidle : s.reader = .idle) (htidle : t.reader = .idle) :
    s.out.accepted.flatten = t.out.accepted.flatten := by
  have hworld : ∀ {capacity : ℕ} {hc : 0 < capacity} {as : List Act}, Finds env as →
      Meets (InWorld { env with canRuntime := none }) step (.start capacity hc false) as :=
    fun hfinds => meets_inWorld rfl rfl hfinds
  rw [(answering_of_run hs (hworld has)).serve hs hsidle, (answering_of_run ht (hworld hbs)).serve ht htidle, hreadings]

/-- A request, and after it a text that is none. -/
def answeredAndRejected : List Act :=
  [.lockRead, .recv (pageRequest ++ blankLine), .drained, .parse plainSurroundings, .respond, .append {},
    .lookup .reader, .modify .reader, .parse plainSurroundings, .lockWrite, .copy, .lookup .reader, .modify .reader]

theorem answers_determined_rejected : ∃ s,
    run step (.start 8 (by decide) false) answeredAndRejected = some s ∧
      s.out.accepted.flatten = (serve .fresh (readings answeredAndRejected)).1.flatMap
        (answerTo ⟨none, plainSurroundings.openFile, plainSurroundings.allocates, plainSurroundings.iteration⟩) := by
  have h : (run step (.start 8 (by decide) false) answeredAndRejected).map (·.reader) = some .idle := by decide +kernel
  obtain ⟨s, hs, hidle⟩ := Option.map_eq_some_iff.mp h
  exact ⟨s, hs, answers_determined hs (meets_inWorld rfl rfl (by simp [Finds, answeredAndRejected])) hidle⟩

end CanMonitor.Connection
