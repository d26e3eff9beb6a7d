import CanMonitor.EventLoop.Mutexes
import CanMonitor.Library.Product

/-!
# The handlers of a connection

Workers call `handleRead` and `handleWrite` of a connection, the loop thread calls `pumpSse`, and
both look it up again in `updateEvent`. What they do to the connection goes in turn: `Handlers`
is their control flow, with the places of the two calls and of the loop thread in the
`updateEvent` after `pumpSse`, and with what the rest of the server can see of the connection.

## What is proved

* `refines` — every step of the loop thread or of a worker is for one connection a step of its
  handlers, and for the others none.
* `handlers_exclusive` — in every run there is one call at a time, and what is done to a
  connection is a run of its handlers.
-/

namespace CanMonitor.EventLoop

open CanMonitor.Library

/-! ### The control flow -/

/-- Where the call of `handleRead` that holds `read_mutex_` is. -/
inductive ReadPlace where
  /-- In the read loop. -/
  | reading
  /-- In the parse loop. -/
  | parsing
  /-- In `updateEvent`, after which it returns or goes on; it has looked the connection up or has
  yet to. -/
  | updating (ends found : Bool)
  deriving DecidableEq, Repr

/-- Where the call of `handleWrite` that holds `write_mutex_` is. -/
inductive WritePlace where
  /-- In its loop. -/
  | writing
  /-- In `updateEvent`. -/
  | updating (found : Bool)
  deriving DecidableEq, Repr

/-- A connection as its handlers see it. -/
structure Handlers where
  /-- It was removed from `conn_map`. -/
  removed : Bool
  /-- `sse_active_`. -/
  sseActive : Bool
  /-- `sse_overflow_`. -/
  sseOverflow : Bool
  reader : Option ReadPlace
  writer : Option WritePlace
  /-- The loop thread is in the `updateEvent` of its stream, and has found the connection. -/
  pump : Option Bool
  deriving DecidableEq, Repr

namespace Handlers

/-- The callers of `updateEvent`. -/
inductive Caller where
  | reader
  | writer
  | pump
  deriving DecidableEq, Repr

/-- What is done to a connection. -/
inductive Call where
  /-- `removeEvent`, by the loop thread or for an error event. -/
  | remove
  /-- `handleRead` gets the lock. -/
  | lockRead
  /-- `read` returns bytes. -/
  | recv
  /-- `read` says `EAGAIN`. -/
  | drained
  /-- The end of the stream: `removeEvent`, and `handleRead` returns. -/
  | hangUp
  /-- A turn of the parse loop. -/
  | parse (result : ParseResult)
  /-- `handleWrite` gets the lock. -/
  | lockWrite
  /-- A turn of its loop. -/
  | write (result : WriteResult)
  /-- `write` has failed: `removeEvent`, and `handleWrite` returns. -/
  | fail
  /-- `pumpSse`. -/
  | pump (appended overflow : Bool)
  /-- `updateEvent` looks the connection up. -/
  | lookup (caller : Caller)
  /-- `updateEvent` changes the mask. -/
  | modify (caller : Caller)
  deriving DecidableEq

/-- A connection right after it was accepted. -/
def new : Handlers := ⟨false, false, false, none, none, none⟩

/-- Where `handleRead` is after its `updateEvent`. -/
def afterUpdate (ends : Bool) : Option ReadPlace := if ends then none else some .parsing

/-- One step. -/
def step (h : Handlers) : Call → Option Handlers
  | .remove => some { h with removed := true }
  | .lockRead => if h.reader = none then some { h with reader := some .reading } else none
  | .recv => if h.reader = some .reading then some h else none
  | .drained => if h.reader = some .reading then some { h with reader := some .parsing } else none
  | .hangUp => if h.reader = some .reading then some { h with removed := true, reader := none } else none
  | .parse result =>
    if h.reader = some .parsing then
      match result with
      | .wait => some { h with reader := none }
      | .bad => some { h with reader := some (.updating true false) }
      | .dispatch stream => some { h with sseActive := stream || h.sseActive, reader := some (.updating false false) }
    else none
  | .lockWrite => if h.writer = none then some { h with writer := some .writing } else none
  | .write result =>
    if h.writer = some .writing then
      match result with
      | .empty => some { h with writer := some (.updating false) }
      | .taken => some h
      | .again => some { h with writer := none }
      | .failed => none
    else none
  | .fail => if h.writer = some .writing then some { h with removed := true, writer := none } else none
  | .pump appended overflow =>
    if h.pump = none then
      some { h with sseOverflow := overflow, pump := if appended then some false else none }
    else none
  | .lookup .reader =>
    match h.reader with
    | some (.updating ends false) =>
      some { h with reader := if h.removed then afterUpdate ends else some (.updating ends true) }
    | _ => none
  | .lookup .writer =>
    if h.writer = some (.updating false) then
      some { h with writer := if h.removed then none else some (.updating true) }
    else none
  | .lookup .pump =>
    if h.pump = some false then some { h with pump := if h.removed then none else some true } else none
  | .modify .reader =>
    match h.reader with
    | some (.updating ends true) => some { h with reader := afterUpdate ends }
    | _ => none
  | .modify .writer => if h.writer = some (.updating true) then some { h with writer := none } else none
  | .modify .pump => if h.pump = some true then some { h with pump := none } else none

end Handlers

variable {s s' : State} {w : ℕ} {worker worker' : Worker}

/-! ### What the handlers see -/

/-- Where a worker is in `handleRead`. -/
def Worker.readPlace : Worker → Option ReadPlace
  | .reading _ | .readFailed _ => some .reading
  | .parsing _ => some .parsing
  | .updating _ .parse found => some (.updating false found)
  | .updating _ .endRead found => some (.updating true found)
  | _ => none

/-- Where a worker is in `handleWrite`. -/
def Worker.writePlace : Worker → Option WritePlace
  | .writing _ | .writeFailed _ => some .writing
  | .updating _ .endWrite found => some (.updating found)
  | _ => none

/-- Where the loop thread is in the `updateEvent` of a stream. -/
def LoopState.pumpPlace (conn : Conn) : LoopState → Option Bool
  | .updating _ _ _ c looked => if c = conn then some looked else none
  | _ => none

/-- The worker that is in a handler. -/
def State.holder (s : State) (handler : Handler) (conn : Conn) : Option Worker :=
  Library.holder Worker.handler s.workers (handler, conn)

/-- A connection as its handlers see it. -/
def State.handlers (s : State) (conn : Conn) : Handlers where
  removed := 0 < s.closes conn
  sseActive := (s.data conn).sseActive
  sseOverflow := (s.data conn).sseOverflow
  reader := (s.holder .read conn).bind Worker.readPlace
  writer := (s.holder .write conn).bind Worker.writePlace
  pump := s.loop.pumpPlace conn

/-- What a worker does to a connection. -/
def Worker.call : Worker → WorkAct → Option (Conn × Handlers.Call)
  | .started job, .begin => if job.revents.epollerr then some (job.conn, .remove) else none
  | .wantRead job, .lockRead => some (job.conn, .lockRead)
  | .reading job, .read .data => some (job.conn, .recv)
  | .reading job, .read .drained => some (job.conn, .drained)
  | .readFailed job, .remove => some (job.conn, .hangUp)
  | .parsing job, .parse result => some (job.conn, .parse result)
  | .updating job .endWrite _, .lookup => some (job.conn, .lookup .writer)
  | .updating job _ _, .lookup => some (job.conn, .lookup .reader)
  | .updating job .endWrite _, .modify => some (job.conn, .modify .writer)
  | .updating job _ _, .modify => some (job.conn, .modify .reader)
  | .wantWrite job, .lockWrite => some (job.conn, .lockWrite)
  | .writing _, .write .failed => none
  | .writing job, .write result => some (job.conn, .write result)
  | .writeFailed job, .remove => some (job.conn, .fail)
  | _, _ => none

/-- The connection of an entry that is removed. -/
def State.removal (s : State) (fd : Fd) : Option (Conn × Handlers.Call) := (s.connMap.lookup fd).join.map (·, .remove)

/-- What the loop thread does to a connection. -/
def State.loopCall (s : State) : LoopAct → Option (Conn × Handlers.Call)
  | .timeOut =>
    match s.loop with
    | .timedOut _ fd => s.removal fd
    | _ => none
  | .drop =>
    match s.loop with
    | .dropping ((fd, conn) :: _) => if s.isRegistered fd conn then some (conn, .remove) else none
    | _ => none
  | .handle =>
    match s.loop, s.batch with
    | .handling, event :: _ =>
      if event.fd ≠ s.listenFd ∧ event.revents.submits = false ∧ event.revents.epollerr then s.removal event.fd
      else none
    | _, _ => none
  | .pump appended overflow =>
    match s.loop with
    | .pumping (⟨_, some conn⟩ :: _) _ =>
      if (s.data conn).sseActive ∧ (s.data conn).sseOverflow = false then some (conn, .pump appended overflow) else none
    | _ => none
  | .lookup =>
    match s.loop with
    | .updating _ _ _ conn false => some (conn, .lookup .pump)
    | _ => none
  | .modify =>
    match s.loop with
    | .updating _ _ _ conn true => some (conn, .modify .pump)
    | _ => none
  | _ => none

/-- What a step does to a connection. -/
def State.call (s : State) : Act → Option (Conn × Handlers.Call)
  | .loop a => s.loopCall a
  | .work w a => s.workers[w]?.bind fun worker => worker.call a

/-! ### What a worker does -/

/-- The connection of a worker's job was found in the table. -/
theorem Handles.knows_job (h : Handles s) (hw : s.workers[w]? = some worker) {job : Job}
    (hentries : worker.entries = [(job.conn.fd, job.conn)]) : s.Knows (job.conn.fd, job.conn) :=
  h.met.workers worker (List.mem_of_getElem? hw) _ (by rw [hentries]; exact List.mem_singleton.mpr rfl)

/-- Where a worker is in `handleRead`, as the handlers see it. -/
theorem Handles.reader_of (h : Handles s) (hw : s.workers[w]? = some worker) {conn : Conn}
    (hh : worker.handler = some (.read, conn)) : (s.handlers conn).reader = worker.readPlace := by
  simp only [State.handlers, State.holder, h.held.holder_of_place hw hh, Option.bind_some]

/-- Where a worker is in `handleWrite`, as the handlers see it. -/
theorem Handles.writer_of (h : Handles s) (hw : s.workers[w]? = some worker) {conn : Conn}
    (hh : worker.handler = some (.write, conn)) : (s.handlers conn).writer = worker.writePlace := by
  simp only [State.handlers, State.holder, h.held.holder_of_place hw hh, Option.bind_some]

/-- Nobody is in a handler whose mutex is free. -/
theorem Handles.holder_none (h : Handles s) {handler : Handler} {conn : Conn}
    (hfree : s.locked (handler, conn) = false) : s.holder handler conn = none := by
  refine holder_eq_none fun worker hworker hplace => ?_
  obtain ⟨w, hw⟩ := List.mem_iff_getElem?.mp hworker
  cases hfree.symm.trans (h.held.locked_of_place hw hplace)

/-- No call of `handleRead` holds a `read_mutex_` that is free. -/
theorem Handles.reader_none (h : Handles s) {conn : Conn} (hfree : s.locked (.read, conn) = false) :
    (s.handlers conn).reader = none := by
  rw [State.handlers, h.holder_none hfree, Option.bind_none]

/-- No call of `handleWrite` holds a `write_mutex_` that is free. -/
theorem Handles.writer_none (h : Handles s) {conn : Conn} (hfree : s.locked (.write, conn) = false) :
    (s.handlers conn).writer = none := by
  rw [State.handlers, h.holder_none hfree, Option.bind_none]

/-- A call is seen by the connection that it is for, and by no other. -/
theorem seen_of_call {c : Conn} {call : Handlers.Call} (hself : (s.handlers c).step call = some (s'.handlers c))
    (hother : ∀ conn, c ≠ conn → s'.handlers conn = s.handlers conn) (conn : Conn) :
    run Handlers.step (s.handlers conn) (addressed conn (some (c, call))) = some (s'.handlers conn) := by
  by_cases hc : c = conn
  · subst hc
    rw [addressed_self, run_cons, hself]
    rfl
  · rw [addressed_of_ne hc, hother conn hc]
    rfl

theorem seen_of_none (h : ∀ conn, s'.handlers conn = s.handlers conn) (conn : Conn) :
    run Handlers.step (s.handlers conn) (addressed conn none) = some (s'.handlers conn) := by
  rw [h conn]
  rfl

/-- The flags of a connection stay as they are. -/
structure Plain (s s' : State) (conn : Conn) : Prop where
  sseActive : (s'.data conn).sseActive = (s.data conn).sseActive
  sseOverflow : (s'.data conn).sseOverflow = (s.data conn).sseOverflow
  closes : s'.closes conn = s.closes conn

variable {t : State} {conn : Conn}

theorem Plain.refl (s : State) (conn : Conn) : Plain s s conn := ⟨rfl, rfl, rfl⟩

theorem Plain.trans {u : State} (h : Plain s t conn) (h' : Plain t u conn) : Plain s u conn :=
  ⟨h'.sseActive.trans h.sseActive, h'.sseOverflow.trans h.sseOverflow, h'.closes.trans h.closes⟩

theorem Plain.setWorker (h : Plain s t conn) (w : ℕ) (worker : Worker) : Plain s (t.setWorker w worker) conn :=
  ⟨h.sseActive, h.sseOverflow, h.closes⟩

theorem Plain.setLoop (h : Plain s t conn) (loop : LoopState) : Plain s { t with loop } conn :=
  ⟨h.sseActive, h.sseOverflow, h.closes⟩

theorem Plain.setData (h : Plain s t conn) {c : Conn} {data : ConnData}
    (hdata : c = conn → data.sseActive = (t.data c).sseActive ∧ data.sseOverflow = (t.data c).sseOverflow) :
    Plain s (t.setData c data) conn := by
  by_cases hc : conn = c
  · subst hc
    obtain ⟨hactive, hoverflow⟩ := hdata rfl
    refine ⟨?_, ?_, h.closes⟩
    · simp only [State.setData, Function.update_self]
      exact hactive.trans h.sseActive
    · simp only [State.setData, Function.update_self]
      exact hoverflow.trans h.sseOverflow
  · refine ⟨?_, ?_, h.closes⟩
    · simp only [State.setData, Function.update_of_ne hc]
      exact h.sseActive
    · simp only [State.setData, Function.update_of_ne hc]
      exact h.sseOverflow

theorem Plain.record (h : Plain s t conn) (cause : Cause) (op : Op) (fd : Fd) (hop : op ≠ .close) :
    Plain s (t.record cause op fd) conn :=
  ⟨h.sseActive, h.sseOverflow, ((same_record t cause op fd hop).closes conn).trans h.closes⟩

theorem Plain.epollMod (h : Plain s t conn) (cause : Cause) (fd : Fd) (mask : Events) :
    Plain s (t.epollMod cause fd mask) conn :=
  ⟨h.sseActive, h.sseOverflow, ((same_epollMod t cause fd mask).closes conn).trans h.closes⟩

theorem Plain.endRead (h : Plain s t conn) (w : ℕ) (job : Job) : Plain s (t.endRead w job) conn :=
  (h.setData fun _ => by exact ⟨rfl, rfl⟩).setWorker w _

theorem Plain.endWrite (h : Plain s t conn) (w : ℕ) (job : Job) : Plain s (t.endWrite w job) conn :=
  (h.setData fun _ => by exact ⟨rfl, rfl⟩).setWorker w _

theorem Plain.afterUpdate (h : Plain s t conn) (w : ℕ) (job : Job) (next : AfterUpdate) :
    Plain s (t.afterUpdate w job next) conn := by
  cases next with
  | parse => exact h.setWorker w _
  | endRead => exact h.endRead w job
  | endWrite => exact h.endWrite w job

/-- What the handlers see of a step of a worker. -/
theorem Handles.handlers_work (h : Handles s) (h' : Handles s') (hw : s.workers[w]? = some worker)
    (hworkers : s'.workers = s.workers.set w worker') (hloop : s'.loop = s.loop) (conn : Conn) : s'.handlers conn = {
      removed := 0 < s'.closes conn
      sseActive := (s'.data conn).sseActive
      sseOverflow := (s'.data conn).sseOverflow
      reader := if worker'.handler = some (.read, conn) then worker'.readPlace
        else if worker.handler = some (.read, conn) then none else (s.handlers conn).reader
      writer := if worker'.handler = some (.write, conn) then worker'.writePlace
        else if worker.handler = some (.write, conn) then none else (s.handlers conn).writer
      pump := (s.handlers conn).pump } := by
  have hheld' := h'.held
  rw [hworkers] at hheld'
  have hread := h.held.holder_set hheld' hw (.read, conn)
  have hwrite := h.held.holder_set hheld' hw (.write, conn)
  simp only [State.handlers, State.holder, hworkers, hloop, hread, hwrite]
  congr 1
  · split_ifs <;> rfl
  · split_ifs <;> rfl

/-- A worker that goes on to a place that the handlers do not tell from the one before. -/
theorem Handles.handlers_silent (h : Handles s) (h' : Handles s') (hw : s.workers[w]? = some worker)
    (hworkers : s'.workers = s.workers.set w worker') (hloop : s'.loop = s.loop) (hplain : Plain s s' conn)
    (hhandler : worker'.handler = worker.handler) (hread : worker'.readPlace = worker.readPlace)
    (hwrite : worker'.writePlace = worker.writePlace) : s'.handlers conn = s.handlers conn := by
  rw [h.handlers_work h' hw hworkers hloop, hplain.sseActive, hplain.sseOverflow, hplain.closes, hhandler, hread,
    hwrite]
  have hr : (if worker.handler = some (.read, conn) then worker.readPlace
      else if worker.handler = some (.read, conn) then none else (s.handlers conn).reader) =
      (s.handlers conn).reader := by
    split_ifs with hin
    · exact (h.reader_of hw hin).symm
    · rfl
  have hwr : (if worker.handler = some (.write, conn) then worker.writePlace
      else if worker.handler = some (.write, conn) then none else (s.handlers conn).writer) =
      (s.handlers conn).writer := by
    split_ifs with hin
    · exact (h.writer_of hw hin).symm
    · rfl
  rw [hr, hwr]
  rfl

/-- Other connections do not see what a worker does. -/
theorem Handles.handlers_other (h : Handles s) (h' : Handles s') (hw : s.workers[w]? = some worker)
    (hworkers : s'.workers = s.workers.set w worker') (hloop : s'.loop = s.loop) (hplain : Plain s s' conn)
    (hx : ∀ k ∈ worker.handler, k.2 ≠ conn) (hy : ∀ k ∈ worker'.handler, k.2 ≠ conn) :
    s'.handlers conn = s.handlers conn := by
  have hno : ∀ {x : Worker}, (∀ k ∈ x.handler, k.2 ≠ conn) → ∀ handler, x.handler ≠ some (handler, conn) :=
    fun hx handler heq => hx _ heq rfl
  rw [h.handlers_work h' hw hworkers hloop, if_neg (hno hy _), if_neg (hno hx _), if_neg (hno hy _), if_neg (hno hx _),
    hplain.sseActive, hplain.sseOverflow, hplain.closes]
  rfl

/-- A step of a worker in a handler, into one or out of it. -/
theorem Handles.seen_job (h : Handles s) (h' : Handles s') (hw : s.workers[w]? = some worker) (job : Job)
    (hworkers : s'.workers = s.workers.set w worker') (hloop : s'.loop = s.loop)
    (hplain : ∀ conn, job.conn ≠ conn → Plain s s' conn) (hx : ∀ k ∈ worker.handler, k.2 = job.conn)
    (hy : ∀ k ∈ worker'.handler, k.2 = job.conn) {call : Handlers.Call}
    (hself : (s.handlers job.conn).step call = some {
      removed := 0 < s'.closes job.conn
      sseActive := (s'.data job.conn).sseActive
      sseOverflow := (s'.data job.conn).sseOverflow
      reader := if worker'.handler = some (.read, job.conn) then worker'.readPlace
        else if worker.handler = some (.read, job.conn) then none else (s.handlers job.conn).reader
      writer := if worker'.handler = some (.write, job.conn) then worker'.writePlace
        else if worker.handler = some (.write, job.conn) then none else (s.handlers job.conn).writer
      pump := (s.handlers job.conn).pump }) (conn : Conn) :
    run Handlers.step (s.handlers conn) (addressed conn (some (job.conn, call))) = some (s'.handlers conn) := by
  refine seen_of_call ?_ (fun conn hc => ?_) conn
  · rw [h.handlers_work h' hw hworkers hloop]
    exact hself
  · exact h.handlers_other h' hw hworkers hloop (hplain conn hc) (fun k hk => hx k hk ▸ hc) (fun k hk => hy k hk ▸ hc)

/-- A step of a worker in a handler, into one or out of it, that leaves the flags as they are. -/
theorem Handles.seen_plain (h : Handles s) (h' : Handles s') (hw : s.workers[w]? = some worker) (job : Job)
    (hworkers : s'.workers = s.workers.set w worker') (hloop : s'.loop = s.loop) (hplain : ∀ conn, Plain s s' conn)
    (hx : ∀ k ∈ worker.handler, k.2 = job.conn) (hy : ∀ k ∈ worker'.handler, k.2 = job.conn) {call : Handlers.Call}
    (hself : (s.handlers job.conn).step call = some { s.handlers job.conn with
      reader := if worker'.handler = some (.read, job.conn) then worker'.readPlace
        else if worker.handler = some (.read, job.conn) then none else (s.handlers job.conn).reader
      writer := if worker'.handler = some (.write, job.conn) then worker'.writePlace
        else if worker.handler = some (.write, job.conn) then none else (s.handlers job.conn).writer }) (conn : Conn) :
    run Handlers.step (s.handlers conn) (addressed conn (some (job.conn, call))) = some (s'.handlers conn) := by
  refine h.seen_job h' hw job hworkers hloop (fun conn _ => hplain conn) hx hy ?_ conn
  rw [hself, (hplain job.conn).sseActive, (hplain job.conn).sseOverflow, (hplain job.conn).closes]
  rfl

/-- A step of a call of `handleRead`, which goes on or returns. -/
theorem Handles.seen_read (h : Handles s) (h' : Handles s') (hw : s.workers[w]? = some worker) (job : Job)
    (hworkers : s'.workers = s.workers.set w worker') (hloop : s'.loop = s.loop) (hplain : ∀ conn, Plain s s' conn)
    (hx : worker.handler = some (.read, job.conn))
    (hy : worker'.handler = worker'.readPlace.map fun _ => (.read, job.conn)) {call : Handlers.Call}
    (hself : (s.handlers job.conn).reader = worker.readPlace →
      (s.handlers job.conn).step call = some { s.handlers job.conn with reader := worker'.readPlace }) (conn : Conn) :
    run Handlers.step (s.handlers conn) (addressed conn (some (job.conn, call))) = some (s'.handlers conn) := by
  refine h.seen_plain h' hw job hworkers hloop hplain (by simp [hx]) (fun k hk => ?_) ?_ conn
  · obtain ⟨_, -, rfl⟩ := Option.mem_map.mp (hy ▸ hk)
    rfl
  · rw [hself (h.reader_of hw hx), hx, hy]
    cases worker'.readPlace <;> simp

/-- A step of a call of `handleWrite`, which goes on or returns. -/
theorem Handles.seen_write (h : Handles s) (h' : Handles s') (hw : s.workers[w]? = some worker) (job : Job)
    (hworkers : s'.workers = s.workers.set w worker') (hloop : s'.loop = s.loop) (hplain : ∀ conn, Plain s s' conn)
    (hx : worker.handler = some (.write, job.conn))
    (hy : worker'.handler = worker'.writePlace.map fun _ => (.write, job.conn)) {call : Handlers.Call}
    (hself : (s.handlers job.conn).writer = worker.writePlace →
      (s.handlers job.conn).step call = some { s.handlers job.conn with writer := worker'.writePlace }) (conn : Conn) :
    run Handlers.step (s.handlers conn) (addressed conn (some (job.conn, call))) = some (s'.handlers conn) := by
  refine h.seen_plain h' hw job hworkers hloop hplain (by simp [hx]) (fun k hk => ?_) ?_ conn
  · obtain ⟨_, -, rfl⟩ := Option.mem_map.mp (hy ▸ hk)
    rfl
  · rw [hself (h.writer_of hw hx), hx, hy]
    cases worker'.writePlace <;> simp

/-- `updateEvent` of a worker looks the connection up. -/
theorem Handles.isRegistered_job (h : Handles s) (hw : s.workers[w]? = some worker) {job : Job}
    (hentries : worker.entries = [(job.conn.fd, job.conn)]) :
    s.isRegistered job.conn.fd job.conn ↔ (s.handlers job.conn).removed = false := by
  rw [h.registered_iff (h.knows_job hw hentries)]
  simp [State.handlers]

/-- `updateEvent` of a worker finds the connection. -/
theorem Handles.seen_lookup (h : Handles s) {job : Job} {next : AfterUpdate}
    (hw : s.workers[w]? = some (.updating job next false)) (hreg : s.isRegistered job.conn.fd job.conn)
    (h' : Handles (s.setWorker w (.updating job next true))) (conn : Conn) :
    run Handlers.step (s.handlers conn) (addressed conn ((Worker.updating job next false).call .lookup)) =
      some ((s.setWorker w (.updating job next true)).handlers conn) := by
  have hremoved := (h.isRegistered_job hw rfl).mp hreg
  have hplain := fun c => (Plain.refl s c).setWorker w (.updating job next true)
  cases next with
  | parse | endRead =>
    refine h.seen_read h' hw job rfl rfl hplain rfl rfl (fun hreader => ?_) conn
    simp [Handlers.step, hreader, hremoved, Worker.readPlace]
  | endWrite =>
    refine h.seen_write h' hw job rfl rfl hplain rfl rfl (fun hwriter => ?_) conn
    simp [Handlers.step, hwriter, hremoved, Worker.writePlace]

/-- `updateEvent` of a worker does not find the connection, and its handler goes on. -/
theorem Handles.seen_lost (h : Handles s) {job : Job} {next : AfterUpdate}
    (hw : s.workers[w]? = some (.updating job next false)) (hreg : ¬ s.isRegistered job.conn.fd job.conn)
    (h' : Handles (s.afterUpdate w job next)) (conn : Conn) :
    run Handlers.step (s.handlers conn) (addressed conn ((Worker.updating job next false).call .lookup)) =
      some ((s.afterUpdate w job next).handlers conn) := by
  have hremoved : (s.handlers job.conn).removed = true := by
    rw [h.isRegistered_job hw rfl] at hreg
    simpa using hreg
  have hplain := fun c => (Plain.refl s c).afterUpdate w job next
  cases next with
  | parse | endRead =>
    refine h.seen_read h' hw job rfl rfl hplain rfl rfl (fun hreader => ?_) conn
    simp [Handlers.step, Handlers.afterUpdate, hreader, hremoved, Worker.readPlace]
  | endWrite =>
    refine h.seen_write h' hw job rfl rfl hplain rfl rfl (fun hwriter => ?_) conn
    simp [Handlers.step, hwriter, hremoved, Worker.writePlace]

/-- `updateEvent` of a worker changes the mask, and its handler goes on. -/
theorem Handles.seen_modify (h : Handles s) {job : Job} {next : AfterUpdate}
    (hw : s.workers[w]? = some (.updating job next true))
    (h' : Handles ((s.epollMod job.cause job.conn.fd next.mask).afterUpdate w job next)) (conn : Conn) :
    run Handlers.step (s.handlers conn) (addressed conn ((Worker.updating job next true).call .modify)) =
      some (((s.epollMod job.cause job.conn.fd next.mask).afterUpdate w job next).handlers conn) := by
  have hplain := fun c => ((Plain.refl s c).epollMod job.cause job.conn.fd next.mask).afterUpdate w job next
  cases next with
  | parse | endRead =>
    refine h.seen_read h' hw job rfl rfl hplain rfl rfl (fun hreader => ?_) conn
    simp [Handlers.step, Handlers.afterUpdate, hreader, Worker.readPlace]
  | endWrite =>
    refine h.seen_write h' hw job rfl rfl hplain rfl rfl (fun hwriter => ?_) conn
    simp [Handlers.step, hwriter, Worker.writePlace]

/-- `removeEvent` of an entry that it finds. -/
theorem removeEvent_of_registered {fd : Fd} {conn : Conn} (h : s.isRegistered fd conn) (cause : Cause) :
    s.removeEvent fd conn cause = s.erase fd cause := by
  rw [State.removeEvent]
  split
  · rename_i hnone
    cases hnone.symm.trans h
  · rename_i c hc
    obtain rfl : some conn = c := Option.some.inj (h.symm.trans hc)
    rw [if_neg fun hne => hne.2 rfl]

theorem removeEvent_of_not_registered {fd : Fd} {conn : Conn} {cause : Cause} (h : ¬ s.isRegistered fd conn) :
    s.removeEvent fd conn cause = s := by
  rcases removeEvent_cases s fd conn cause with hsame | ⟨c, hremoves, hexpected⟩
  · exact hsame
  · obtain rfl : c = some conn := hexpected rfl
    exact absurd hremoves.entry h

/-- `removeEvent` of a connection that is registered removes that one, and no other. -/
theorem Entered.removeEvent_registered (h : Entered s) {fd : Fd} {c : Conn} (hreg : s.isRegistered fd c) (cause : Cause) :
    (∀ conn, c ≠ conn → Plain s (s.removeEvent fd c cause) conn) ∧ 0 < (s.removeEvent fd c cause).closes c := by
  have hremoves := removes_erase (s := s) hreg cause
  have hopen := (h.isRegistered hreg).2
  rw [removeEvent_of_registered hreg]
  refine ⟨fun conn hc => ⟨rfl, rfl, ?_⟩, ?_⟩
  · rw [hremoves.closes, hopen, if_neg (by simpa using hc), Nat.add_zero]
  · rw [hremoves.closes, hopen, if_pos rfl]
    exact Nat.succ_pos _

/-- `removeEvent` of a connection that was found in the table removes it, if it is not removed. -/
theorem Handles.removeEvent_known (h : Handles s) {fd : Fd} {c : Conn} (hk : s.Knows (fd, c)) (cause : Cause) :
    (∀ conn, c ≠ conn → Plain s (s.removeEvent fd c cause) conn) ∧ 0 < (s.removeEvent fd c cause).closes c := by
  by_cases hreg : s.isRegistered fd c
  · exact h.entered.removeEvent_registered hreg cause
  · rw [removeEvent_of_not_registered hreg]
    exact ⟨fun conn _ => .refl s conn, Nat.pos_of_ne_zero fun hzero => hreg ((h.registered_iff hk).mpr hzero)⟩

/-- `removeEvent` of a worker removes the connection of its job, if it is not removed. -/
theorem Handles.removeEvent_job (h : Handles s) (hw : s.workers[w]? = some worker) {job : Job}
    (hentries : worker.entries = [(job.conn.fd, job.conn)]) :
    (∀ conn, job.conn ≠ conn → Plain s (s.removeEvent job.conn.fd job.conn job.cause) conn) ∧
      0 < (s.removeEvent job.conn.fd job.conn job.cause).closes job.conn :=
  h.removeEvent_known (h.knows_job hw hentries) job.cause

/-- A step of a worker that removes the connection of its job, in a handler or outside. -/
theorem Handles.seen_remove (h : Handles s) (h' : Handles s') (hw : s.workers[w]? = some worker) (job : Job)
    (hworkers : s'.workers = s.workers.set w worker') (hloop : s'.loop = s.loop)
    (hentries : worker.entries = [(job.conn.fd, job.conn)])
    (hplain : ∀ conn, Plain (s.removeEvent job.conn.fd job.conn job.cause) s' conn)
    (hx : ∀ k ∈ worker.handler, k.2 = job.conn) (hy : ∀ k ∈ worker'.handler, k.2 = job.conn) {call : Handlers.Call}
    (hself : (s.handlers job.conn).step call = some { s.handlers job.conn with
      removed := true
      reader := if worker'.handler = some (.read, job.conn) then worker'.readPlace
        else if worker.handler = some (.read, job.conn) then none else (s.handlers job.conn).reader
      writer := if worker'.handler = some (.write, job.conn) then worker'.writePlace
        else if worker.handler = some (.write, job.conn) then none else (s.handlers job.conn).writer }) (conn : Conn) :
    run Handlers.step (s.handlers conn) (addressed conn (some (job.conn, call))) = some (s'.handlers conn) := by
  obtain ⟨hother, hpos⟩ := h.removeEvent_job hw hentries
  refine h.seen_job h' hw job hworkers hloop (fun conn hc => (hother conn hc).trans (hplain conn)) hx hy ?_ conn
  rw [hself, (hplain job.conn).sseActive, (hplain job.conn).sseOverflow, (hplain job.conn).closes, removeEvent_data,
    decide_eq_true hpos]
  rfl

/-- What a step of a worker does is seen by the connection of its job. -/
theorem Handles.seen_work (h : Handles s) (h' : Handles s') {a : WorkAct} (hw : s.workers[w]? = some worker)
    (ht : WorkTrans s w worker a s') (conn : Conn) :
    run Handlers.step (s.handlers conn) (addressed conn (worker.call a)) = some (s'.handlers conn) := by
  have hrefl := Plain.refl s
  have hread := fun (job : Job) c => (hrefl c).record job.cause .read job.conn.fd (by simp)
  have hwrite := fun (job : Job) c => (hrefl c).record job.cause .write job.conn.fd (by simp)
  cases ht with
  | take task taskQueue hqueue =>
    refine seen_of_none (fun conn => h.handlers_silent h' hw rfl rfl ⟨rfl, rfl, rfl⟩ ?_ ?_ ?_) conn
      <;> unfold Task.start <;> cases task.conn <;> rfl
  | toRead job herr hreads | toCheck job herr hreads =>
    have hcall : (Worker.started job).call .begin = none := by simp [Worker.call, herr]
    rw [hcall]
    exact seen_of_none (fun conn => h.handlers_silent h' hw rfl rfl ((hrefl conn).setWorker w _) rfl rfl rfl) conn
  | toWrite job | done job =>
    exact seen_of_none (fun conn => h.handlers_silent h' hw rfl rfl ((hrefl conn).setWorker w _) rfl rfl rfl) conn
  | closed job =>
    exact seen_of_none (fun conn => h.handlers_silent h' hw rfl rfl ((hread job conn).setWorker w _) rfl rfl rfl) conn
  | writeFails job =>
    exact seen_of_none (fun conn => h.handlers_silent h' hw rfl rfl ((hwrite job conn).setWorker w _) rfl rfl rfl) conn
  | failed job herr =>
    have hcall : (Worker.started job).call .begin = some (job.conn, .remove) := by simp [Worker.call, herr]
    rw [hcall]
    refine h.seen_remove h' hw job (congrArg (·.set w .idle) (removeEvent_workers ..)) (removeEvent_loop ..) rfl
      (fun c => (Plain.refl _ c).setWorker w _) (by simp [Worker.handler]) (by simp [Worker.handler]) ?_ conn
    simp [Handlers.step, Worker.handler]
  | lockRead job hlock =>
    have hfree : (s.handlers job.conn).reader = none := h.reader_none hlock
    refine h.seen_plain h' hw job rfl rfl (fun c => ((hrefl c).setData fun _ => by exact ⟨rfl, rfl⟩).setWorker w _)
      (by simp [Worker.handler]) (by simp [Worker.handler]) ?_ conn
    simp [Handlers.step, hfree, Worker.handler, Worker.readPlace]
  | lockWrite job hlock =>
    have hfree : (s.handlers job.conn).writer = none := h.writer_none hlock
    refine h.seen_plain h' hw job rfl rfl (fun c => ((hrefl c).setData fun _ => by exact ⟨rfl, rfl⟩).setWorker w _)
      (by simp [Worker.handler]) (by simp [Worker.handler]) ?_ conn
    simp [Handlers.step, hfree, Worker.handler, Worker.writePlace]
  | read job hopen =>
    have hsame : (s.record job.cause .read job.conn.fd).workers = _ := (steps_same hw rfl rfl).1
    refine h.seen_read h' hw job hsame rfl (hread job) rfl rfl (fun hreader => ?_) conn
    rw [← hreader]
    exact if_pos hreader
  | drained job hopen =>
    refine h.seen_read h' hw job rfl rfl (fun c => (hread job c).setWorker w _) rfl rfl (fun hreader => ?_) conn
    simp [Handlers.step, hreader, Worker.readPlace]
  | parsedAll job =>
    refine h.seen_read h' hw job rfl rfl (fun c => (hrefl c).endRead w job) rfl rfl (fun hreader => ?_) conn
    simp [Handlers.step, hreader, Worker.readPlace]
  | bad job =>
    refine h.seen_read h' hw job rfl rfl (fun c => (hrefl c).setWorker w _) rfl rfl (fun hreader => ?_) conn
    simp [Handlers.step, hreader, Worker.readPlace]
  | dispatch job stream =>
    have hreader : (s.handlers job.conn).reader = _ := h.reader_of hw rfl
    refine h.seen_job h' hw job rfl rfl (fun c hc => ((hrefl c).setData fun heq => absurd heq hc).setWorker w _)
      (by simp [Worker.handler]) (by simp [Worker.handler]) ?_ conn
    simp only [Handlers.step, hreader, Worker.handler, Worker.readPlace, if_true, State.setWorker, State.setData,
      Function.update_self]
    rfl
  | removeRead job =>
    have hreader : (s.handlers job.conn).reader = _ := h.reader_of hw rfl
    refine h.seen_remove h' hw job (congrArg (·.set w (.checking job)) (removeEvent_workers ..)) (removeEvent_loop ..) rfl
      (fun c => (Plain.refl _ c).endRead w job) (by simp [Worker.handler]) (by simp [Worker.handler]) ?_ conn
    simp [Handlers.step, hreader, Worker.handler, Worker.readPlace]
  | written job =>
    refine h.seen_write h' hw job rfl rfl (fun c => (hrefl c).setWorker w _) rfl rfl (fun hwriter => ?_) conn
    simp [Handlers.step, hwriter, Worker.writePlace]
  | write job hopen =>
    have hsame : (s.record job.cause .write job.conn.fd).workers = _ := (steps_same hw rfl rfl).1
    refine h.seen_write h' hw job hsame rfl (hwrite job) rfl rfl (fun hwriter => ?_) conn
    rw [← hwriter]
    exact if_pos hwriter
  | again job hopen =>
    refine h.seen_write h' hw job rfl rfl (fun c => (hwrite job c).endWrite w job) rfl rfl
      (fun hwriter => ?_) conn
    simp [Handlers.step, hwriter, Worker.writePlace]
  | removeWrite job =>
    have hwriter : (s.handlers job.conn).writer = _ := h.writer_of hw rfl
    refine h.seen_remove h' hw job (congrArg (·.set w .idle) (removeEvent_workers ..)) (removeEvent_loop ..) rfl
      (fun c => (Plain.refl _ c).endWrite w job) (by simp [Worker.handler]) (by simp [Worker.handler]) ?_ conn
    simp [Handlers.step, hwriter, Worker.handler, Worker.writePlace]
  | lookup job next hreg => exact h.seen_lookup hw hreg h' conn
  | lost job next hreg => exact h.seen_lost hw hreg h' conn
  | modify job next => exact h.seen_modify hw h' conn

/-! ### What the loop thread does -/

/-- What the handlers see of a step of the loop thread. -/
theorem handlers_loop (hworkers : s'.workers = s.workers) (conn : Conn) : s'.handlers conn = { s.handlers conn with
    removed := 0 < s'.closes conn
    sseActive := (s'.data conn).sseActive
    sseOverflow := (s'.data conn).sseOverflow
    pump := s'.loop.pumpPlace conn } := by
  simp only [State.handlers, State.holder, hworkers]

/-- The loop thread is somewhere else, as before. -/
theorem handlers_elsewhere (hworkers : s'.workers = s.workers) (hplain : Plain s s' conn)
    (hpump : s'.loop.pumpPlace conn = s.loop.pumpPlace conn) : s'.handlers conn = s.handlers conn := by
  rw [handlers_loop hworkers, hplain.sseActive, hplain.sseOverflow, hplain.closes, hpump]
  rfl

/-- What `removeEvent` closes when it is told a number only. -/
theorem Entered.removeEvent_plain (h : Entered s) {fd : Fd} {cause : Cause}
    (hother : ∀ c, (s.connMap.lookup fd).join = some c → c ≠ conn) : Plain s (s.removeEvent fd none cause) conn := by
  refine ⟨by simp, by simp, ?_⟩
  rcases removeEvent_cases s fd none cause with hsame | ⟨c, hremoves, -⟩
  · rw [hsame]
  · rw [hremoves.closes, if_neg, Nat.add_zero]
    intro hopen
    have hsocket := (h.table fd c hremoves.entry).symm.trans hopen
    cases c with
    | none => cases hsocket
    | some client =>
      cases hsocket
      exact hother conn (by rw [hremoves.entry]; rfl) rfl

theorem Entered.removeEvent_closes (h : Entered s) {fd : Fd} {cause : Cause}
    (hentry : (s.connMap.lookup fd).join = some conn) : 0 < (s.removeEvent fd none cause).closes conn := by
  have hlookup : s.connMap.lookup fd = some (some conn) := Option.join_eq_some_iff.mp hentry
  have herase : s.removeEvent fd none cause = s.erase fd cause := by
    rw [State.removeEvent, hlookup]
    exact if_neg (by simp)
  have hopen : s.fdTable fd = some (.client conn) := h.table fd _ hlookup
  rw [herase, (removes_erase hlookup cause).closes, if_pos hopen]
  exact Nat.succ_pos _

/-- The loop thread removes what it finds under a number. -/
theorem Handles.seen_removed (h : Handles s) {fd : Fd} {cause : Cause} (hworkers : s'.workers = s.workers)
    (hplain : ∀ conn, Plain (s.removeEvent fd none cause) s' conn)
    (hpump : ∀ conn, s'.loop.pumpPlace conn = s.loop.pumpPlace conn) (conn : Conn) :
    run Handlers.step (s.handlers conn) (addressed conn (s.removal fd)) = some (s'.handlers conn) := by
  have hother : ∀ conn, (∀ c, (s.connMap.lookup fd).join = some c → c ≠ conn) → s'.handlers conn = s.handlers conn := by
    intro conn hc
    have hsame : Plain s (s.removeEvent fd none cause) conn := h.entered.removeEvent_plain hc
    exact handlers_elsewhere hworkers (hsame.trans (hplain conn)) (hpump conn)
  cases hentry : (s.connMap.lookup fd).join with
  | none =>
    have hcall : s.removal fd = none := by rw [State.removal, hentry]; rfl
    rw [hcall]
    exact seen_of_none (fun conn => hother conn fun c hc => by cases hentry.symm.trans hc) conn
  | some c =>
    have hcall : s.removal fd = some (c, .remove) := by rw [State.removal, hentry]; rfl
    rw [hcall]
    refine seen_of_call ?_ (fun conn hc => hother conn fun c' hc' => ?_) conn
    · have hpos : 0 < (s.removeEvent fd none cause).closes c := h.entered.removeEvent_closes hentry
      have ht := hplain c
      rw [handlers_loop hworkers, ht.sseActive, ht.sseOverflow, ht.closes, hpump, decide_eq_true hpos]
      simp [Handlers.step, State.handlers]
    · obtain rfl := Option.some.inj (hentry.symm.trans hc')
      exact hc

/-- The events that are left do not matter to `removeEvent`. -/
theorem removeEvent_batch (s : State) (batch : List Event) (fd : Fd) (expected : Option Conn) (cause : Cause) :
    ({ s with batch } : State).removeEvent fd expected cause = { s.removeEvent fd expected cause with batch } := by
  cases hentry : s.connMap.lookup fd with
  | none => simp only [State.removeEvent, hentry]
  | some conn =>
    simp only [State.removeEvent, hentry]
    split_ifs <;> rfl

/-- The loop thread is where it looks up or changes the connection of a stream. -/
theorem pumpPlace_updating (items : List (Σ _ : Fd, Option Conn)) (overflowed : List (Fd × Conn)) (fd : Fd) (c : Conn)
    (looked : Bool) (conn : Conn) :
    (LoopState.updating items overflowed fd c looked).pumpPlace conn = if c = conn then some looked else none := rfl

/-- What the loop thread does about a connection is seen by that one only. -/
theorem seen_of_loop {c : Conn} {call : Handlers.Call} (hworkers : s'.workers = s.workers)
    (hself : (s.handlers c).step call = some { s.handlers c with
      removed := 0 < s'.closes c
      sseActive := (s'.data c).sseActive
      sseOverflow := (s'.data c).sseOverflow
      pump := s'.loop.pumpPlace c })
    (hplain : ∀ conn, c ≠ conn → Plain s s' conn)
    (hpump : ∀ conn, c ≠ conn → s'.loop.pumpPlace conn = s.loop.pumpPlace conn) (conn : Conn) :
    run Handlers.step (s.handlers conn) (addressed conn (some (c, call))) = some (s'.handlers conn) := by
  refine seen_of_call ?_ (fun conn hc => handlers_elsewhere hworkers (hplain conn hc) (hpump conn hc)) conn
  rw [hself, handlers_loop hworkers]

/-- `pumpSse` of the loop thread sets `sse_overflow_`, and `updateEvent` follows if it has appended. -/
theorem seen_pump {items : List (Σ _ : Fd, Option Conn)} {overflowed : List (Fd × Conn)} {c : Conn}
    {appended overflow : Bool} (hl : s.loop = .pumping items overflowed) {loop : LoopState}
    (hs' : s' = { s.setData c { s.data c with sseOverflow := overflow } with loop })
    (hpump : ∀ conn, loop.pumpPlace conn = if c = conn ∧ appended = true then some false else none) (conn : Conn) :
    run Handlers.step (s.handlers conn) (addressed conn (some (c, .pump appended overflow))) =
      some (s'.handlers conn) := by
  have hworkers : s'.workers = s.workers := by rw [hs']; rfl
  refine seen_of_loop hworkers ?_ (fun conn hc => ?_) (fun conn hc => ?_) conn <;> subst hs'
  · have hnone : (s.handlers c).pump = none := by simp [State.handlers, hl, LoopState.pumpPlace]
    simp only [Handlers.step, hnone, if_true, hpump, true_and, State.setData, Function.update_self]
    rfl
  · exact ((Plain.refl s conn).setData fun heq => absurd heq hc).setLoop _
  · rw [hl, hpump, if_neg fun hpumped => hc hpumped.1]
    rfl

/-- A step of the loop thread in the `updateEvent` of a stream. -/
theorem seen_update {items : List (Σ _ : Fd, Option Conn)} {overflowed : List (Fd × Conn)} {fd : Fd} {c : Conn}
    {looked : Bool} (hl : s.loop = .updating items overflowed fd c looked) {call : Handlers.Call}
    (hworkers : s'.workers = s.workers) (hplain : ∀ conn, Plain s s' conn) {place : Option Bool}
    (hpump : ∀ conn, s'.loop.pumpPlace conn = if c = conn then place else none)
    (hself : (s.handlers c).pump = some looked →
      (s.handlers c).step call = some { s.handlers c with pump := place }) (conn : Conn) :
    run Handlers.step (s.handlers conn) (addressed conn (some (c, call))) = some (s'.handlers conn) := by
  refine seen_of_loop hworkers ?_ (fun conn _ => hplain conn) (fun conn hc => ?_) conn
  · rw [hself (by simp [State.handlers, hl, LoopState.pumpPlace]), hpump, if_pos rfl, (hplain c).sseActive,
      (hplain c).sseOverflow, (hplain c).closes]
    rfl
  · rw [hl, hpump, pumpPlace_updating, if_neg hc, if_neg hc]

/-- `updateEvent` of the loop thread looks the connection up. -/
theorem Handles.isRegistered_loop (h : Handles s) {items : List (Σ _ : Fd, Option Conn)} {overflowed : List (Fd × Conn)}
    {fd : Fd} {c : Conn} {looked : Bool} (hl : s.loop = .updating items overflowed fd c looked) :
    s.isRegistered fd c ↔ (s.handlers c).removed = false := by
  rw [h.registered_iff (h.met.loop _ (by rw [hl]; exact List.mem_cons_self))]
  simp [State.handlers]

/-- What a step of the loop thread does is seen by the connection that it is about. -/
theorem Handles.seen_loop (h : Handles s) {a : LoopAct} (ht : LoopTrans s a s') (conn : Conn) :
    run Handlers.step (s.handlers conn) (addressed conn (s.loopCall a)) = some (s'.handlers conn) := by
  have hworkers := (workers_of_loop ht).1
  have hnothing : ∀ {t : State} {a : LoopAct}, s.loopCall a = none → t.workers = s.workers → (∀ conn, Plain s t conn) →
      (∀ conn, t.loop.pumpPlace conn = s.loop.pumpPlace conn) →
      run Handlers.step (s.handlers conn) (addressed conn (s.loopCall a)) = some (t.handlers conn) := by
    intro t a hcall hworkers hplain hpump
    rw [hcall]
    exact seen_of_none (fun conn => handlers_elsewhere hworkers (hplain conn) (hpump conn)) conn
  cases ht with
  | timeOut expired fd hl =>
    have hcall : s.loopCall .timeOut = s.removal fd := by simp only [State.loopCall, hl]
    rw [hcall]
    exact h.seen_removed hworkers (fun conn => ⟨rfl, rfl, rfl⟩) (fun conn => by rw [hl]; rfl) conn
  | failed event batch hl hbatch hfd hsubmits herr =>
    have hcall : s.loopCall .handle = s.removal event.fd := by
      simp only [State.loopCall, hl, hbatch, hfd, hsubmits, herr, ne_eq, not_false_eq_true, and_self, if_true]
    rw [hcall, removeEvent_batch]
    exact h.seen_removed (removeEvent_workers ..) (fun conn => ⟨rfl, rfl, rfl⟩)
      (fun conn => by simp [removeEvent_loop]) conn
  | drop fd c overflowed hl =>
    by_cases hreg : s.isRegistered fd c
    · have hcall : s.loopCall .drop = some (c, .remove) := by simp only [State.loopCall, hl, if_pos hreg]
      obtain ⟨hother, hpos⟩ := h.entered.removeEvent_registered hreg (.stream c)
      rw [hcall]
      refine seen_of_loop hworkers ?_ (fun conn hc => (hother conn hc).setLoop _) (fun conn hc => by rw [hl]; rfl) conn
      have hremoved : 0 < State.closes { s.removeEvent fd c (.stream c) with loop := .dropping overflowed } c := hpos
      rw [decide_eq_true hremoved]
      simp [Handlers.step, State.handlers, hl, LoopState.pumpPlace]
    · refine hnothing (by simp only [State.loopCall, hl, if_neg hreg]) hworkers (fun conn => ?_)
        (fun conn => by rw [hl]; rfl)
      rw [removeEvent_of_not_registered hreg]
      exact ⟨rfl, rfl, rfl⟩
  | skip appended overflow fd c items overflowed hl hsse =>
    refine hnothing ?_ rfl (fun conn => ⟨rfl, rfl, rfl⟩) (fun conn => by rw [hl]; rfl)
    simp only [State.loopCall, hl]
    cases c with
    | none => rfl
    | some c => simp [hsse c rfl]
  | full appended overflow fd c items overflowed hl hsse hover =>
    refine hnothing ?_ rfl (fun conn => ⟨rfl, rfl, rfl⟩) (fun conn => by rw [hl]; rfl)
    simp [State.loopCall, hl, hover]
  | pumped overflow fd c items overflowed hl hsse hover =>
    have hcall : s.loopCall (.pump true overflow) = some (c, .pump true overflow) := by
      simp [State.loopCall, hl, hsse, hover]
    rw [hcall]
    exact seen_pump hl rfl (fun conn => by simp [pumpPlace_updating]) conn
  | nothing overflow fd c items overflowed hl hsse hover =>
    have hcall : s.loopCall (.pump false overflow) = some (c, .pump false overflow) := by
      simp [State.loopCall, hl, hsse, hover]
    rw [hcall]
    exact seen_pump hl rfl (fun conn => by simp [LoopState.pumpPlace]) conn
  | lookup items overflowed fd c hl hreg =>
    have hcall : s.loopCall .lookup = some (c, .lookup .pump) := by simp only [State.loopCall, hl]
    have hremoved := (h.isRegistered_loop hl).mp hreg
    rw [hcall]
    refine seen_update hl hworkers (fun conn => ⟨rfl, rfl, rfl⟩) (pumpPlace_updating _ _ _ _ _)
      (fun hpump => ?_) conn
    simp [Handlers.step, hpump, hremoved]
  | lost items overflowed fd c hl hreg =>
    have hcall : s.loopCall .lookup = some (c, .lookup .pump) := by simp only [State.loopCall, hl]
    have hremoved : (s.handlers c).removed = true := by
      rw [h.isRegistered_loop hl] at hreg
      simpa using hreg
    rw [hcall]
    refine seen_update hl hworkers (fun conn => ⟨rfl, rfl, rfl⟩) (fun conn => (ite_self none).symm)
      (fun hpump => ?_) conn
    simp [Handlers.step, hpump, hremoved]
  | modify items overflowed fd c hl =>
    have hcall : s.loopCall .modify = some (c, .modify .pump) := by simp only [State.loopCall, hl]
    rw [hcall]
    refine seen_update hl hworkers (fun conn => ((Plain.refl s conn).epollMod _ _ _).setLoop _)
      (fun conn => (ite_self none).symm) (fun hpump => ?_) conn
    simp [Handlers.step, hpump]
  | addEvent c hl =>
    rw [h.entered.addEvent_eq hl] at hworkers ⊢
    exact hnothing rfl hworkers (fun conn => ⟨rfl, rfl, rfl⟩) (fun conn => by rw [hl]; rfl)
  | gone event batch hl hbatch hfd hsubmits | found event batch c hl hbatch hfd hsubmits =>
    exact hnothing (by simp [State.loopCall, hl, hbatch, hsubmits]) rfl (fun conn => ⟨rfl, rfl, rfl⟩)
      (fun conn => by simp [hl, LoopState.pumpPlace])
  | pass event batch hl hbatch hfd hsubmits herr =>
    exact hnothing (by simp [State.loopCall, hl, hbatch, herr]) rfl (fun conn => ⟨rfl, rfl, rfl⟩) (fun conn => rfl)
  | listen event batch hl hbatch hfd =>
    exact hnothing (by simp [State.loopCall, hl, hbatch, hfd]) rfl (fun conn => ⟨rfl, rfl, rfl⟩)
      (fun conn => by rw [hl]; rfl)
  | handledAll hl hbatch =>
    exact hnothing (by simp [State.loopCall, hl, hbatch]) rfl (fun conn => ⟨rfl, rfl, rfl⟩)
      (fun conn => by rw [hl]; rfl)
  | pumpedAll overflowed hl | droppedAll hl =>
    exact hnothing (by simp [State.loopCall, hl]) rfl (fun conn => ⟨rfl, rfl, rfl⟩) (fun conn => by rw [hl]; rfl)
  | _ => exact hnothing rfl rfl (fun conn => ⟨rfl, rfl, rfl⟩) (fun conn => by simp [*, LoopState.pumpPlace])

/-! ### Whole runs -/

/-- **The loop thread and the workers** do to each connection what its handlers do in turn. -/
theorem refines : Refines Handlers.step EventLoop.step State.call State.handlers Handles where
  kept := Handles.step
  seen := by
    intro s a s' h hs conn
    cases trans_of_step hs with
    | loop a s' ht => exact h.seen_loop ht conn
    | work w worker a s' hw ht =>
      have hcall : s.call (.work w a) = worker.call a := by rw [State.call, hw, Option.bind_some]
      rw [hcall]
      exact h.seen_work (h.step _ _ _ hs) hw ht conn

theorem handlers_start (listenFd numThreads : ℕ) (conn : Conn) :
    (State.start listenFd numThreads).handlers conn = .new := by
  have hnone : ∀ handler, (State.start listenFd numThreads).holder handler conn = none := by
    refine fun handler => holder_eq_none fun worker hworker => ?_
    rw [List.eq_of_mem_replicate hworker]
    simp [Worker.handler]
  simp only [State.handlers, hnone]
  rfl

/-- A mutex is taken exactly if there is a call of its handler. -/
theorem Handles.locked_iff (h : Handles s) (handler : Handler) (conn : Conn) :
    s.locked (handler, conn) = true ↔ ∃ worker ∈ s.workers, worker.handler = some (handler, conn) := by
  constructor
  · intro hlocked
    have hone : 0 < holders Worker.handler s.workers (handler, conn) := by
      rw [h.held, hlocked]
      exact Nat.one_pos
    obtain ⟨worker, hworker, hplace⟩ := List.countP_pos_iff.mp hone
    exact ⟨worker, hworker, by simpa using hplace⟩
  · rintro ⟨worker, hworker, hplace⟩
    obtain ⟨w, hw⟩ := List.mem_iff_getElem?.mp hworker
    exact h.held.locked_of_place hw hplace

theorem Worker.readPlace_ne_none {worker : Worker} {conn : Conn} (h : worker.handler = some (.read, conn)) :
    worker.readPlace ≠ none := by
  cases worker with
  | updating job next found =>
    cases next with
    | parse | endRead => simp [Worker.readPlace]
    | endWrite => cases h
  | reading | parsing | readFailed => simp [Worker.readPlace]
  | _ => cases h

theorem Worker.writePlace_ne_none {worker : Worker} {conn : Conn} (h : worker.handler = some (.write, conn)) :
    worker.writePlace ≠ none := by
  cases worker with
  | updating job next found =>
    cases next with
    | parse | endRead => cases h
    | endWrite => simp [Worker.writePlace]
  | writing | writeFailed => simp [Worker.writePlace]
  | _ => cases h

/-- `read_mutex_` is taken as long as `handleRead` is somewhere. -/
theorem Handles.readLocked_iff (h : Handles s) (conn : Conn) :
    (s.data conn).readLocked = true ↔ (s.handlers conn).reader ≠ none := by
  by_cases hlocked : s.locked (.read, conn) = true
  · obtain ⟨worker, hworker, hplace⟩ := (h.locked_iff .read conn).mp hlocked
    obtain ⟨w, hw⟩ := List.mem_iff_getElem?.mp hworker
    rw [h.reader_of hw hplace]
    exact iff_of_true hlocked (Worker.readPlace_ne_none hplace)
  · exact iff_of_false hlocked (not_not.mpr (h.reader_none (Bool.eq_false_iff.mpr hlocked)))

/-- `write_mutex_` is taken as long as `handleWrite` is somewhere. -/
theorem Handles.writeLocked_iff (h : Handles s) (conn : Conn) :
    (s.data conn).writeLocked = true ↔ (s.handlers conn).writer ≠ none := by
  by_cases hlocked : s.locked (.write, conn) = true
  · obtain ⟨worker, hworker, hplace⟩ := (h.locked_iff .write conn).mp hlocked
    obtain ⟨w, hw⟩ := List.mem_iff_getElem?.mp hworker
    rw [h.writer_of hw hplace]
    exact iff_of_true hlocked (Worker.writePlace_ne_none hplace)
  · exact iff_of_false hlocked (not_not.mpr (h.writer_none (Bool.eq_false_iff.mpr hlocked)))

/-- **One call at a time**, in every run of the loop thread and of any number of workers: no two
workers are in `handleRead` of one connection, or in its `handleWrite`; a worker is there exactly
if the mutex is taken; and what is done to a connection, by whatever threads, is a run of its
handlers. -/
theorem handlers_exclusive {listenFd numThreads : ℕ} {as : List Act}
    (h : run EventLoop.step (.start listenFd numThreads) as = some s) (conn : Conn) :
    (∀ (handler : Handler) (v w : ℕ) (x y : Worker), s.workers[v]? = some x → s.workers[w]? = some y →
      x.handler = some (handler, conn) → y.handler = some (handler, conn) → v = w) ∧
    (∀ handler, s.locked (handler, conn) = true ↔ ∃ worker ∈ s.workers, worker.handler = some (handler, conn)) ∧
    run Handlers.step .new
        (emitted (fun s a => addressed conn (s.call a)) EventLoop.step (.start listenFd numThreads) as) =
      some (s.handlers conn) := by
  have hs := handles_run h
  refine ⟨fun handler v w x y hv hw hx hy => hs.held.eq_of_place hv hw hx hy,
    fun handler => hs.locked_iff handler conn, ?_⟩
  rw [← handlers_start listenFd numThreads conn]
  exact refines.run_view (handles_start listenFd numThreads) h conn

/-- Two workers have a task each for one connection. -/
def twoTasks : List Act :=
  acceptTurn 5 ++ readTurn ⟨0, 5⟩ ++ readTurn ⟨0, 5⟩ ++ ([.take, .begin, .lockRead] : List WorkAct).map (.work 0) ++
    ([.take, .begin] : List WorkAct).map (.work 1)

/-- The second waits for the first. -/
theorem handlers_exclusive_twoTasks : ∃ s, run EventLoop.step (.start 3 2) twoTasks = some s ∧
    EventLoop.step s (.work 1 .lockRead) = none ∧ ∃ worker ∈ s.workers, worker.handler = some (.read, ⟨0, 5⟩) := by
  have h : (run EventLoop.step (.start 3 2) twoTasks).map
      (fun s => (s.locked (.read, ⟨0, 5⟩), (EventLoop.step s (.work 1 .lockRead)).isNone)) = some (true, true) := by
    decide +kernel
  obtain ⟨s, hs, hwaits⟩ := Option.map_eq_some_iff.mp h
  obtain ⟨hlocked, hnone⟩ := Prod.ext_iff.mp hwaits
  exact ⟨s, hs, Option.isNone_iff_eq_none.mp hnone, ((handlers_exclusive hs ⟨0, 5⟩).2.1 .read).mp hlocked⟩

end CanMonitor.EventLoop
