import CanMonitor.EventLoop.Handlers
import CanMonitor.Service.System

/-!
# What the service does for the handlers

A step of a connection is a call of one of its handlers, as the event loop knows them
(`EventLoop.Handlers`), or part of one that nobody else sees: a request is answered before its
answer is queued, the buffer is copied before `write` and erased after it, and `pumpSse` queues
frame by frame.

## What is proved

* `told_seen` — a step of a connection is the step of its handlers that it is told to be.
* `refines` — so is every step of the service, for each connection.
-/

namespace CanMonitor.Service

open CanMonitor.Library CanMonitor.Can CanMonitor.Http
open CanMonitor.EventLoop (Conn Handlers)

/-! ### What a connection is for its handlers -/

/-- Where `handleRead` is. -/
def readPlace : Connection.ReaderState → Option EventLoop.ReadPlace
  | .idle => none
  | .draining => some .reading
  | .parsing | .responding _ _ | .starting _ _ => some .parsing
  | .updating (.erase _) found => some (.updating false found)
  | .updating .clear found => some (.updating true found)

/-- Where `handleWrite` is. -/
def writePlace : Connection.Writer → Option EventLoop.WritePlace
  | .idle => none
  | .testing | .copied _ | .wrote _ => some .writing
  | .updating found => some (.updating found)

/-- Where the loop thread is in the `updateEvent` after `pumpSse`. -/
def pumpPlace : Connection.Pump → Option Bool
  | .idle | .sending _ _ _ => none
  | .updating found => some found

/-- A connection as its handlers see it. -/
def handlersOf (c : Connection.State) : Handlers where
  removed := !c.registered
  sseActive := c.sseActive
  sseOverflow := c.out.overflow
  reader := readPlace c.reader
  writer := writePlace c.out.writer
  pump := pumpPlace c.pump

/-- Who calls `updateEvent`. -/
def callerOf : Connection.Caller → Handlers.Caller
  | .reader => .reader
  | .writer => .writer
  | .pump => .pump

instance (s : Connection.State) (item : Connection.Item) : Decidable (s.Fits item) :=
  inferInstanceAs (Decidable (_ ≤ _))

/-- What a step of a connection is for its handlers. -/
def told (c : Connection.State) : Connection.Act → Option Handlers.Call
  | .append _ | .query | .erase => none
  | .remove => some .remove
  | .lockRead => some .lockRead
  | .recv _ => some .recv
  | .drained => some .drained
  | .hangUp => some .hangUp
  | .parse _ =>
    match parseStep c.req c.recvBuf with
    | .wait => some (.parse .wait)
    | .bad _ _ => some (.parse .bad)
    | .dispatch _ _ => none
  | .respond => some (.parse (.dispatch false))
  | .startSse _ => some (.parse (.dispatch true))
  | .sendFrame =>
    match c.pump with
    | .sending (frame :: _) seen appended =>
      if c.Fits (.frame frame seen) then none else some (.pump appended true)
    | _ => none
  | .endPump now =>
    match c.pump with
    | .sending [] _ appended =>
      if Connection.heartbeatInterval ≤ now - c.sseLastHeartbeat then
        if c.Fits .heartbeat then some (.pump true c.out.overflow) else some (.pump appended true)
      else some (.pump appended c.out.overflow)
    | _ => none
  | .lockWrite => some .lockWrite
  | .copy => if c.out.sendBuf = [] then some (.write .empty) else none
  | .write _ => some (.write .taken)
  | .again => some (.write .again)
  | .fail => some .fail
  | .lookup caller => some (.lookup (callerOf caller))
  | .modify caller => some (.modify (callerOf caller))

variable {c c' : Connection.State} {a : Connection.Act}

@[simp] theorem handlersOf_removed (c : Connection.State) : (handlersOf c).removed = !c.registered := rfl
@[simp] theorem handlersOf_sseActive (c : Connection.State) : (handlersOf c).sseActive = c.sseActive := rfl
@[simp] theorem handlersOf_sseOverflow (c : Connection.State) : (handlersOf c).sseOverflow = c.out.overflow := rfl
@[simp] theorem handlersOf_reader (c : Connection.State) : (handlersOf c).reader = readPlace c.reader := rfl
@[simp] theorem handlersOf_writer (c : Connection.State) : (handlersOf c).writer = writePlace c.out.writer := rfl
@[simp] theorem handlersOf_pump (c : Connection.State) : (handlersOf c).pump = pumpPlace c.pump := rfl

/-- A step that is no call, and after which the handlers see what they saw. -/
theorem seen_silent (htold : told c a = none) (h : handlersOf c' = handlersOf c) :
    run Handlers.step (handlersOf c) (told c a).toList = some (handlersOf c') := by
  rw [htold, h]
  rfl

theorem seen_call {call : Handlers.Call} (htold : told c a = some call)
    (h : (handlersOf c).step call = some (handlersOf c')) :
    run Handlers.step (handlersOf c) (told c a).toList = some (handlersOf c') := by
  rw [htold, Option.toList_some, run_cons, h]
  rfl

@[simp] theorem appendSendBuf_overflow (o : Connection.Output) (data : Bytes) :
    (o.appendSendBuf data).overflow = o.overflow := by
  unfold Connection.Output.appendSendBuf
  split_ifs <;> rfl

@[simp] theorem appendSendBuf_writer (o : Connection.Output) (data : Bytes) :
    (o.appendSendBuf data).writer = o.writer := by
  unfold Connection.Output.appendSendBuf
  split_ifs <;> rfl

@[simp] theorem pumpPlace_ending (appended : Bool) :
    pumpPlace (.ending appended) = if appended then some false else none := by
  cases appended <;> rfl

/-- A step of `handleWrite` that concerns the output alone. -/
theorem told_seen_writer (ha : a.IsWriter) (h : Connection.step c a = some c') :
    run Handlers.step (handlersOf c) (told c a).toList = some (handlersOf c') := by
  cases a with
  | lockWrite =>
    obtain ⟨out, hout, rfl⟩ := Option.map_eq_some_iff.mp h
    simp only [Connection.Output.step] at hout
    split at hout <;> cases hout
    refine seen_call rfl ?_
    simp [Handlers.step, handlersOf, writePlace, *]
  | copy =>
    obtain ⟨out, hout, rfl⟩ := Option.map_eq_some_iff.mp h
    simp only [Connection.Output.step] at hout
    split at hout
    · split_ifs at hout with hempty <;> cases hout
      · refine seen_call (if_pos hempty) ?_
        simp [Handlers.step, handlersOf, writePlace, *]
      · refine seen_silent (if_neg hempty) ?_
        simp [handlersOf, writePlace, *]
    · cases hout
  | write n =>
    obtain ⟨out, hout, rfl⟩ := Option.map_eq_some_iff.mp h
    simp only [Connection.Output.step] at hout
    split at hout
    · split_ifs at hout
      cases hout
      refine seen_call rfl ?_
      simp [Handlers.step, handlersOf, writePlace, *]
    · cases hout
  | erase =>
    obtain ⟨out, hout, rfl⟩ := Option.map_eq_some_iff.mp h
    simp only [Connection.Output.step] at hout
    split at hout <;> cases hout
    refine seen_silent rfl ?_
    simp [handlersOf, writePlace, *]
  | again =>
    simp only [Connection.step] at h
    split at h
    · rename_i hw
      obtain ⟨out, hout, rfl⟩ := Option.map_eq_some_iff.mp h
      simp only [Connection.Output.step, hw] at hout
      cases hout
      refine seen_call rfl ?_
      simp [Handlers.step, handlersOf, writePlace, hw]
    · cases h
  | lookup caller =>
    cases caller with
    | writer =>
      simp only [Connection.step, Connection.lookup] at h
      split at h
      · rename_i hw
        refine seen_call rfl ?_
        split_ifs at h with hreg
        · obtain ⟨out, hout, rfl⟩ := Option.map_eq_some_iff.mp h
          simp only [Connection.Output.step, hw] at hout
          cases hout
          simp [Handlers.step, handlersOf, callerOf, writePlace, hw, hreg]
        · obtain ⟨out, hout, rfl⟩ := Option.map_eq_some_iff.mp h
          simp only [Connection.Output.step, hw] at hout
          cases hout
          simp [Handlers.step, handlersOf, callerOf, writePlace, hw, hreg]
      · cases h
    | reader | pump => exact ha.elim
  | _ => exact ha.elim

@[simp] theorem setInterest_reader (s : Connection.State) (interest : Connection.Interest) :
    (s.setInterest interest).reader = s.reader := rfl

/-- The end of `pumpSse`. -/
theorem told_seen_endPump {now : ℤ} (h : Connection.step c (.endPump now) = some c') :
    run Handlers.step (handlersOf c) (told c (.endPump now)).toList = some (handlersOf c') := by
  replace h : Connection.endPump c now = some c' := h
  unfold Connection.endPump at h
  split at h
  · rename_i seen appended hp
    have hplace : pumpPlace c.pump = none := by rw [hp]; rfl
    split_ifs at h with hdue
    · rcases Connection.queueSse_eq c .heartbeat Connection.heartbeat_payload_ne_nil with ⟨hfits, hq⟩ | ⟨hfull, hq⟩
        <;> rw [hq] at h <;> cases h
      · refine seen_call (show told c _ = some (.pump true c.out.overflow) by
          simp only [told, hp, if_pos hdue, if_pos hfits]) ?_
        simp [Handlers.step, handlersOf, Connection.State.push, Connection.Output.push, hplace]
      · refine seen_call (show told c _ = some (.pump appended true) by
          simp only [told, hp, if_pos hdue, if_neg hfull]) ?_
        simp [Handlers.step, handlersOf, Connection.State.overrun, hplace]
    · cases h
      refine seen_call (show told c _ = some (.pump appended c.out.overflow) by
        simp only [told, hp, if_neg hdue]) ?_
      simp [Handlers.step, handlersOf, hplace]
  · cases h

/-- **A step of a connection** is a step of its handlers, or none. -/
theorem told_seen (h : Connection.step c a = some c') :
    run Handlers.step (handlersOf c) (told c a).toList = some (handlersOf c') := by
  by_cases ha : a.IsWriter
  · exact told_seen_writer ha h
  · cases Connection.trans_of_step h with
    | append frame => exact seen_silent rfl rfl
    | remove => exact seen_call rfl rfl
    | lockRead hr =>
      refine seen_call rfl ?_
      simp [Handlers.step, handlersOf, readPlace, hr]
    | recv chunk hr =>
      refine seen_call rfl ?_
      simp [Handlers.step, handlersOf, readPlace, hr]
    | drained hr =>
      refine seen_call rfl ?_
      simp [Handlers.step, handlersOf, readPlace, hr]
    | hangUp hr =>
      refine seen_call rfl ?_
      simp [Handlers.step, handlersOf, readPlace, hr]
    | wait around hr hstep =>
      refine seen_call (show told c _ = some (.parse .wait) by simp only [told, hstep]) ?_
      simp [Handlers.step, handlersOf, readPlace, hr]
    | bad around text req hr hstep =>
      refine seen_call (show told c _ = some (.parse .bad) by simp only [told, hstep]) ?_
      simp [Handlers.step, handlersOf, Connection.State.queue, readPlace, hr]
    | dispatch around req requestLen response hr hstep =>
      refine seen_silent (by simp only [told, hstep]) ?_
      simp [handlersOf, readPlace, hr]
    | dispatchStream around req requestLen afterSequence hr hstep =>
      refine seen_silent (by simp only [told, hstep]) ?_
      simp [handlersOf, readPlace, hr]
    | respond response requestLen hr =>
      refine seen_call rfl ?_
      simp [Handlers.step, handlersOf, Connection.State.queue, readPlace, hr]
    | startSse now afterSequence requestLen hr hpump =>
      refine seen_call rfl ?_
      simp [Handlers.step, handlersOf, Connection.State.queue, readPlace, hr]
    | query hp =>
      refine seen_silent rfl ?_
      simp [handlersOf, pumpPlace, hp]
    | sent frame rest seen appended hp hfits =>
      refine seen_silent (by simp only [told, hp, if_pos hfits]) ?_
      simp [handlersOf, Connection.State.push, Connection.Output.push, pumpPlace, hp]
    | unsent frame rest seen appended hp hfull =>
      have hplace : pumpPlace c.pump = none := by rw [hp]; rfl
      refine seen_call (show told c _ = some (.pump appended true) by simp only [told, hp, if_neg hfull]) ?_
      simp [Handlers.step, handlersOf, Connection.State.overrun, hplace]
    | quiet | heartbeat | noHeartbeat => exact told_seen_endPump h
    | writing b out => exact absurd ‹_› ha
    | fail out hout =>
      simp only [Connection.step] at h
      split at h
      · rename_i hw
        simp only [Connection.Output.step, hw] at hout
        cases hout
        refine seen_call rfl ?_
        simp [Handlers.step, handlersOf, writePlace, hw]
      · cases h
    | lookupReader next hr hreg =>
      refine seen_call rfl ?_
      cases next <;> simp [Handlers.step, handlersOf, callerOf, readPlace, hr, hreg]
    | lostReader next hr hreg =>
      refine seen_call rfl ?_
      cases next <;> simp [Handlers.step, Handlers.afterUpdate, handlersOf, callerOf, readPlace, hr, hreg,
        Connection.State.afterUpdate]
    | lookupPump hp hreg =>
      refine seen_call rfl ?_
      simp [Handlers.step, handlersOf, callerOf, pumpPlace, hp, hreg]
    | lostPump hp hreg =>
      refine seen_call rfl ?_
      simp [Handlers.step, handlersOf, callerOf, pumpPlace, hp, hreg]
    | modifyReader next hr =>
      refine seen_call rfl ?_
      cases next <;> simp [Handlers.step, Handlers.afterUpdate, handlersOf, callerOf, readPlace, hr,
        Connection.State.afterUpdate]
    | modifyPump hp =>
      refine seen_call rfl ?_
      simp [Handlers.step, handlersOf, callerOf, pumpPlace, hp]
    | modifyWriter hw =>
      refine seen_call rfl ?_
      simp [Handlers.step, handlersOf, callerOf, writePlace, hw]

/-! ### What the service is for the handlers -/

/-- What a step of the service is for the handlers of a connection. -/
def State.call (s : State Conn) : Act Conn → Option (Conn × Handlers.Call)
  | .runtime _ => none
  | .parse conn answers => (told (s.connection conn) (.parse (s.surroundings answers))).map (conn, ·)
  | .connection conn a => (told (s.connection conn) a).map (conn, ·)

theorem addressed_map (i j : Conn) (call : Option Handlers.Call) :
    addressed i (call.map (j, ·)) = if j = i then call.toList else [] := by
  cases call with
  | none => simp
  | some call =>
    by_cases h : j = i
    · simp [h]
    · simp [h, addressed_of_ne h]

/-- A step of one connection, as the handlers of any see it. -/
theorem seen_of_connection {s s' : State Conn} {conn j : Conn} {a : Connection.Act}
    (h : run Connection.step (s.connection conn) (if j = conn then [a] else []) = some (s'.connection conn)) :
    run Handlers.step (handlersOf (s.connection conn)) (addressed conn ((told (s.connection j) a).map (j, ·))) =
      some (handlersOf (s'.connection conn)) := by
  rw [addressed_map]
  by_cases hj : j = conn
  · subst hj
    rw [if_pos rfl] at h ⊢
    obtain ⟨c, hc, hnil⟩ := run_cons_some h
    cases hnil
    exact told_seen hc
  · rw [if_neg hj] at h ⊢
    rw [Option.some.inj h]
    rfl

/-- **The service** does to each connection what its handlers do in turn. -/
theorem refines : Refines Handlers.step step State.call (fun s conn => handlersOf (s.connection conn)) fun _ => True where
  kept := fun _ _ _ _ _ => trivial
  seen := by
    intro s a s' _ hs conn
    have hseen := connection_of_step conn s a s' hs
    cases a with
    | parse j answers => exact seen_of_connection hseen
    | connection j a => exact seen_of_connection hseen
    | runtime action =>
      have hsame : handlersOf (s'.connection conn) = handlersOf (s.connection conn) := by
        cases action with
        | receive receive =>
          rw [seenBy, Connection.run_appends] at hseen
          rw [← Option.some.inj hseen]
          rfl
        | _ => exact congrArg handlersOf (Option.some.inj hseen).symm
      rw [hsame]
      rfl

end CanMonitor.Service
