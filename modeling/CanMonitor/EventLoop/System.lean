import CanMonitor.EventLoop.Timer
import CanMonitor.Library.Names
import CanMonitor.Library.Runs

/-!
# The event loop and its pool

The event loop waits for events, closes connections that have timed out, feeds the
streams, and then goes through the events it was given: it accepts connections, and
hands reading and writing to the tasks of a thread pool. All of it goes by descriptor
number, and the kernel gives the number of a closed connection to a new one.

## The model

`step` is one atomic step of the loop thread or of a worker, `run step` any interleaving.

* `fdTable` is the kernel's table of open files. `close` frees a number and `accept` may
  hand out any that is free. A socket and the `Connection` made for it have one name,
  `Conn`, with the number that the connection keeps in `fd_`.
* What `conn_mutex_` protects is one step. So the lookup of `updateEvent` and its
  `epoll_ctl` are two, and so are `isRegistered` and the write after it.
* `epoll_wait` may report any events for the descriptors it watches, and the socket that
  an event was about is kept with it, though the code does not have it.
* What a read or write finds, what the parse loop finds in the buffer, and whether there
  was anything to pump, is for the environment to say. A read or write of a number that
  is not open fails.
* `read_mutex_` and `write_mutex_` of each connection let in one task at a time.

`effects` records the system calls on a descriptor, with what they were made for and the
socket they acted on.

## What is proved

* `trans_of_step` — what each step can do; later proofs go by it.
-/

namespace CanMonitor.EventLoop

open CanMonitor.Library

/-- A set of `EPOLLIN`, `EPOLLPRI`, `EPOLLOUT`, `EPOLLERR` and `EPOLLHUP`. -/
structure Events where
  epollin : Bool := false
  epollpri : Bool := false
  epollout : Bool := false
  epollerr : Bool := false
  epollhup : Bool := false
  deriving DecidableEq, Repr

/-- What `epoll_wait` may report for this mask: errors are always reported. -/
def Events.Reports (mask revents : Events) : Prop :=
  (revents.epollin → mask.epollin) ∧ (revents.epollpri → mask.epollpri) ∧ (revents.epollout → mask.epollout) ∧
    revents ≠ {}

instance (mask revents : Events) : Decidable (mask.Reports revents) := inferInstanceAs (Decidable (_ ∧ _))

/-- A `Connection`, and the socket it was made for. -/
structure Conn where
  /-- Which of the accepted ones. -/
  serial : ℕ
  /-- `fd_`. -/
  fd : Fd
  deriving DecidableEq, Repr

/-- A socket. -/
inductive Socket where
  | listener
  | client (conn : Conn)
  deriving DecidableEq, Repr

/-- An event in `events`. -/
structure Event where
  /-- `data.fd`. -/
  fd : Fd
  /-- `events`. -/
  revents : Events
  /-- What it was about. -/
  origin : Socket
  deriving DecidableEq, Repr

/-- A task of the pool: `handleIOEvent(conn.get(), revents)`. -/
structure Task where
  conn : Option Conn
  revents : Events
  /-- What the event was about. -/
  origin : Socket
  deriving DecidableEq, Repr

/-- A task that a worker is at. -/
structure Job where
  conn : Conn
  revents : Events
  /-- What the event was about. -/
  origin : Socket
  deriving DecidableEq, Repr

/-- What a system call was made for. -/
inductive Cause where
  /-- An event on this socket. -/
  | event (origin : Socket)
  /-- The stream of this connection. -/
  | stream (conn : Conn)
  /-- A deadline of this number. -/
  | timeout (fd : Fd)
  deriving DecidableEq, Repr

/-- A system call. -/
inductive Op where
  | read
  | write
  | epollMod
  | epollDel
  | close
  deriving DecidableEq, Repr

/-- A system call that was made. -/
structure Effect where
  cause : Cause
  op : Op
  /-- The socket that the number denoted, if any. -/
  target : Option Socket
  deriving DecidableEq, Repr

/-- Where the loop thread is. -/
inductive LoopState where
  /-- Before `epoll_wait`. -/
  | waiting
  /-- Before `tick`. -/
  | ticking
  /-- In the timer phase, with these numbers left. -/
  | expiring (expired : List Fd)
  /-- It has looked up `fd`. -/
  | judging (expired : List Fd) (fd : Fd) (conn : Option Conn)
  /-- Before the `addTimer` of a stream. -/
  | renewing (expired : List Fd) (fd : Fd)
  /-- Before `removeEvent`. -/
  | timedOut (expired : List Fd) (fd : Fd)
  /-- In `dispatchSseEvents`, with these entries left. -/
  | pumping (items : List (Σ _ : Fd, Option Conn)) (overflowed : List (Fd × Conn))
  /-- In `updateEvent`, which has looked the connection up or has yet to. -/
  | updating (items : List (Σ _ : Fd, Option Conn)) (overflowed : List (Fd × Conn)) (fd : Fd) (conn : Conn)
      (found : Bool)
  /-- Before `sseOverflowed`. -/
  | overflowing (items : List (Σ _ : Fd, Option Conn)) (overflowed : List (Fd × Conn)) (fd : Fd) (conn : Conn)
  /-- At the end of `dispatchSseEvents`, with these to remove. -/
  | dropping (overflowed : List (Fd × Conn))
  /-- In `handleEvents`. -/
  | handling
  /-- It has looked up the connection for the event. -/
  | found (event : Event) (conn : Option Conn)
  /-- It has set its timer. -/
  | submitting (event : Event) (conn : Option Conn)
  /-- In `handleNewConnection`. -/
  | accepting
  /-- Before `addEvent`. -/
  | accepted (conn : Conn)
  /-- Before `addTimer`. -/
  | added (conn : Conn)
  deriving DecidableEq, Repr

/-- What a handler does after its `updateEvent`. -/
inductive AfterUpdate where
  /-- Go on with the parse loop. -/
  | parse
  /-- Return from `handleRead`. -/
  | endRead
  /-- Return from `handleWrite`. -/
  | endWrite
  deriving DecidableEq, Repr

/-- The mask that the `updateEvent` of a handler asks for. -/
def AfterUpdate.mask : AfterUpdate → Events
  | .parse => { epollin := true, epollout := true }
  | .endRead => { epollout := true }
  | .endWrite => { epollin := true }

/-- Where a worker is. -/
inductive Worker where
  | idle
  /-- At the start of `handleIOEvent`. -/
  | started (job : Job)
  /-- Before the lock of `handleRead`. -/
  | wantRead (job : Job)
  /-- In its read loop. -/
  | reading (job : Job)
  /-- In its parse loop. -/
  | parsing (job : Job)
  /-- Before `removeEvent` in `handleRead`. -/
  | readFailed (job : Job)
  /-- In `updateEvent`, which has looked the connection up or has yet to. -/
  | updating (job : Job) (next : AfterUpdate) (found : Bool)
  /-- In `handleIOEvent`, before `isRegistered`. -/
  | checking (job : Job)
  /-- Before the lock of `handleWrite`. -/
  | wantWrite (job : Job)
  /-- In its loop. -/
  | writing (job : Job)
  /-- Before `removeEvent` in `handleWrite`. -/
  | writeFailed (job : Job)
  deriving DecidableEq, Repr

/-- What changes of a connection. -/
structure ConnData where
  /-- `sse_active_`. -/
  sseActive : Bool := false
  /-- `sse_overflow_`. -/
  sseOverflow : Bool := false
  /-- `read_mutex_` is held. -/
  readLocked : Bool := false
  /-- `write_mutex_` is held. -/
  writeLocked : Bool := false
  deriving DecidableEq, Repr

/-- The process and what the kernel knows of it. -/
structure State where
  /-- The open files. -/
  fdTable : Fd → Option Socket
  /-- The masks of what epoll watches. -/
  interest : Fd → Option Events
  /-- `conn_map`, with a null pointer for the listening socket. -/
  connMap : AList fun _ : Fd => Option Conn
  /-- `timer_`. -/
  timer : Timer
  /-- The connections. -/
  data : Conn → ConnData
  /-- How many were accepted. -/
  accepted : ℕ
  /-- `Server::getListenfd()`. -/
  listenFd : Fd
  /-- The events in `events` that are yet to be handled. -/
  batch : List Event
  /-- Where the loop is. -/
  loop : LoopState
  /-- `task_queue_`. -/
  taskQueue : List Task
  /-- `threads_`. -/
  workers : List Worker
  /-- The system calls so far. -/
  effects : List Effect

/-- The server at the start of its loop, with a pool of `numThreads`. -/
def State.start (listenFd numThreads : ℕ) : State where
  fdTable := Function.update (fun _ => none) listenFd (some .listener)
  interest := Function.update (fun _ => none) listenFd (some { epollin := true })
  connMap := AList.singleton listenFd none
  timer := .empty
  data := fun _ => {}
  accepted := 0
  listenFd := listenFd
  batch := []
  loop := .waiting
  taskQueue := []
  workers := List.replicate numThreads .idle
  effects := []

/-- `MAX_EVENTS`. -/
def maxEvents : ℕ := 1024

/-- `TIMEOUT_SEC`. -/
def timeoutSec : ℤ := 15

/-- What a read of the socket returns. -/
inductive ReadResult where
  /-- Bytes. -/
  | data
  /-- `EAGAIN`. -/
  | drained
  /-- End of file, or an error. -/
  | closed
  deriving DecidableEq

/-- What a turn of the parse loop finds. -/
inductive ParseResult where
  /-- No complete request. -/
  | wait
  /-- A bad one. -/
  | bad
  /-- A request, which starts a stream or not. -/
  | dispatch (stream : Bool)
  deriving DecidableEq

/-- What a turn of the loop of `handleWrite` finds. -/
inductive WriteResult where
  /-- Nothing to write. -/
  | empty
  /-- `write` takes some. -/
  | taken
  /-- `EAGAIN`. -/
  | again
  /-- Another error. -/
  | failed
  deriving DecidableEq

/-- The steps of the loop thread. -/
inductive LoopAct where
  /-- `epoll_wait` returns these events. -/
  | wait (batch : List Event)
  /-- `tick`. -/
  | tick (now : ℤ)
  /-- The lookup of the next number that has expired. -/
  | lookupExpired
  /-- `isSse`. -/
  | judge
  /-- `addTimer` of a stream. -/
  | renew (now : ℤ)
  /-- `removeEvent` of what has timed out. -/
  | timeOut
  /-- `dispatchSseEvents` copies the connection table, in this order. -/
  | snapshot (items : List (Σ _ : Fd, Option Conn))
  /-- `isSse`, and `pumpSse` with these results. -/
  | pump (appended overflow : Bool)
  /-- `updateEvent` looks the connection up. -/
  | lookup
  /-- `updateEvent` changes the mask. -/
  | modify
  /-- `sseOverflowed`. -/
  | checkOverflow
  /-- `removeEvent` of what has overflowed. -/
  | drop
  /-- The next event. -/
  | handle
  /-- `updateTimer`. -/
  | updateTimer (now : ℤ)
  /-- `submit`. -/
  | submit
  /-- `accept` returns this number. -/
  | accept (fd : Fd)
  /-- `accept` fails. -/
  | acceptFails
  /-- `addEvent`. -/
  | addEvent
  /-- `addTimer`. -/
  | addTimer (now : ℤ)
  deriving DecidableEq

/-- The steps of a worker. -/
inductive WorkAct where
  /-- It takes the first task. -/
  | take
  /-- The start of `handleIOEvent`. -/
  | begin
  /-- `handleRead` gets the lock. -/
  | lockRead
  /-- `read`. -/
  | read (result : ReadResult)
  /-- A turn of the parse loop. -/
  | parse (result : ParseResult)
  /-- `updateEvent` looks the connection up. -/
  | lookup
  /-- `updateEvent` changes the mask. -/
  | modify
  /-- `removeEvent`. -/
  | remove
  /-- `isRegistered`. -/
  | check
  /-- `handleWrite` gets the lock. -/
  | lockWrite
  /-- A turn of its loop. -/
  | write (result : WriteResult)
  deriving DecidableEq

/-- The steps. -/
inductive Act where
  | loop (a : LoopAct)
  | work (w : ℕ) (a : WorkAct)
  deriving DecidableEq

/-! ### The functions of the event loop -/

/-- A system call on a number. -/
def State.record (s : State) (cause : Cause) (op : Op) (fd : Fd) : State :=
  { s with effects := s.effects ++ [⟨cause, op, s.fdTable fd⟩] }

/-- `epoll_ctl(EPOLL_CTL_MOD)`, which fails if the number is not watched. -/
def State.epollMod (s : State) (cause : Cause) (fd : Fd) (mask : Events) : State :=
  { s.record cause .epollMod fd with
    interest := if (s.interest fd).isSome then Function.update s.interest fd (some mask) else s.interest }

/-- `close`, by which epoll forgets the number too. -/
def State.close (s : State) (cause : Cause) (fd : Fd) : State :=
  { s.record cause .close fd with
    fdTable := Function.update s.fdTable fd none
    interest := Function.update s.interest fd none }

/-- `addEvent`. -/
def State.addEvent (s : State) (fd : Fd) (mask : Events) (conn : Option Conn) (cause : Cause) : State :=
  if fd ∈ s.connMap then s.epollMod cause fd mask
  else { s with connMap := s.connMap.insert fd conn, interest := Function.update s.interest fd (some mask) }

/-- `isRegistered`, and the test of `updateEvent`. -/
def State.isRegistered (s : State) (fd : Fd) (conn : Conn) : Prop := s.connMap.lookup fd = some (some conn)

instance (s : State) (fd : Fd) (conn : Conn) : Decidable (s.isRegistered fd conn) :=
  inferInstanceAs (Decidable (_ = _))

/-- `removeEvent` of what it has found in the table. -/
def State.erase (s : State) (fd : Fd) (cause : Cause) : State :=
  let s := { s with timer := s.timer.removeTimer fd, connMap := s.connMap.erase fd }
  (s.record cause .epollDel fd).close cause fd

/-- `removeEvent`. -/
def State.removeEvent (s : State) (fd : Fd) (expected : Option Conn) (cause : Cause) : State :=
  match s.connMap.lookup fd with
  | none => s
  | some conn => if expected.isSome ∧ conn ≠ expected then s else s.erase fd cause

/-- Changes to a connection. -/
def State.setData (s : State) (conn : Conn) (data : ConnData) : State :=
  { s with data := Function.update s.data conn data }

/-- `epoll_wait` may report the event. -/
def State.Reports (s : State) (event : Event) : Prop :=
  s.fdTable event.fd = some event.origin ∧ ∃ mask ∈ s.interest event.fd, mask.Reports event.revents

instance (s : State) (event : Event) : Decidable (s.Reports event) := inferInstanceAs (Decidable (_ ∧ _))

/-- Does `handleIOEvent` read? -/
def Events.reads (revents : Events) : Bool := revents.epollin || revents.epollpri

/-- Does `handleEvents` submit a task? -/
def Events.submits (revents : Events) : Bool := revents.epollin || revents.epollpri || revents.epollout

/-! ### The loop thread -/

/-- `handleEvents` at the next event. -/
def handleEvent (s : State) (event : Event) : State :=
  if event.fd = s.listenFd then { s with loop := .accepting }
  else if event.revents.submits then
    match s.connMap.lookup event.fd with
    | none => s
    | some conn => { s with loop := .found event conn }
  else if event.revents.epollerr then s.removeEvent event.fd none (.event event.origin)
  else s

/-- A step of the loop thread. -/
def loopStep (s : State) : LoopAct → Option State
  | .wait batch =>
    if s.loop = .waiting ∧ batch.length ≤ maxEvents ∧ (batch.map (·.fd)).Nodup ∧ ∀ e ∈ batch, s.Reports e then
      some { s with batch, loop := .ticking }
    else none
  | .tick now =>
    if s.loop = .ticking then some { s with timer := (s.timer.tick now).2, loop := .expiring (s.timer.tick now).1 }
    else none
  | .lookupExpired =>
    match s.loop with
    | .expiring (fd :: expired) => some { s with loop := .judging expired fd (s.connMap.lookup fd).join }
    | _ => none
  | .judge =>
    match s.loop with
    | .judging expired fd conn =>
      if ∃ c ∈ conn, (s.data c).sseActive then some { s with loop := .renewing expired fd }
      else some { s with loop := .timedOut expired fd }
    | _ => none
  | .renew now =>
    match s.loop with
    | .renewing expired fd => some { s with timer := s.timer.addTimer fd timeoutSec now, loop := .expiring expired }
    | _ => none
  | .timeOut =>
    match s.loop with
    | .timedOut expired fd => some { s.removeEvent fd none (.timeout fd) with loop := .expiring expired }
    | _ => none
  | .snapshot items =>
    if s.loop = .expiring [] ∧ items.Perm s.connMap.entries then some { s with loop := .pumping items [] } else none
  | .pump appended overflow =>
    match s.loop with
    | .pumping (⟨fd, some conn⟩ :: items) overflowed =>
      if ¬ (s.data conn).sseActive then some { s with loop := .pumping items overflowed }
      else if (s.data conn).sseOverflow then some { s with loop := .overflowing items overflowed fd conn }
      else
        let s := s.setData conn { s.data conn with sseOverflow := overflow }
        if appended then some { s with loop := .updating items overflowed fd conn false }
        else some { s with loop := .overflowing items overflowed fd conn }
    | .pumping (⟨_, none⟩ :: items) overflowed => some { s with loop := .pumping items overflowed }
    | _ => none
  | .lookup =>
    match s.loop with
    | .updating items overflowed fd conn false =>
      if s.isRegistered fd conn then some { s with loop := .updating items overflowed fd conn true }
      else some { s with loop := .overflowing items overflowed fd conn }
    | _ => none
  | .modify =>
    match s.loop with
    | .updating items overflowed fd conn true =>
      some { s.epollMod (.stream conn) fd { epollin := true, epollout := true } with
        loop := .overflowing items overflowed fd conn }
    | _ => none
  | .checkOverflow =>
    match s.loop with
    | .overflowing items overflowed fd conn =>
      some { s with
        loop := .pumping items (if (s.data conn).sseOverflow then overflowed ++ [(fd, conn)] else overflowed) }
    | _ => none
  | .drop =>
    match s.loop with
    | .pumping [] overflowed => some { s with loop := .dropping overflowed }
    | .dropping ((fd, conn) :: overflowed) =>
      some { s.removeEvent fd conn (.stream conn) with loop := .dropping overflowed }
    | .dropping [] => some { s with loop := .handling }
    | _ => none
  | .handle =>
    match s.loop, s.batch with
    | .handling, event :: batch => some (handleEvent { s with batch } event)
    | .handling, [] => some { s with loop := .waiting }
    | _, _ => none
  | .updateTimer now =>
    match s.loop with
    | .found event conn =>
      some { s with timer := s.timer.updateTimer event.fd timeoutSec now, loop := .submitting event conn }
    | _ => none
  | .submit =>
    match s.loop with
    | .submitting event conn =>
      some { s with taskQueue := s.taskQueue ++ [⟨conn, event.revents, event.origin⟩], loop := .handling }
    | _ => none
  | .accept fd =>
    if s.loop = .accepting ∧ s.fdTable fd = none then
      some { s with
        fdTable := Function.update s.fdTable fd (some (.client ⟨s.accepted, fd⟩))
        accepted := s.accepted + 1
        loop := .accepted ⟨s.accepted, fd⟩ }
    else none
  | .acceptFails => if s.loop = .accepting then some { s with loop := .handling } else none
  | .addEvent =>
    match s.loop with
    | .accepted conn =>
      some { s.addEvent conn.fd { epollin := true } conn (.event .listener) with loop := .added conn }
    | _ => none
  | .addTimer now =>
    match s.loop with
    | .added conn => some { s with timer := s.timer.addTimer conn.fd timeoutSec now, loop := .accepting }
    | _ => none

/-! ### The workers -/

/-- What a worker does next. -/
def State.setWorker (s : State) (w : ℕ) (worker : Worker) : State := { s with workers := s.workers.set w worker }

/-- The task is begun, unless its pointer is null. -/
def Task.start (task : Task) : Worker :=
  match task.conn with
  | none => .idle
  | some conn => .started ⟨conn, task.revents, task.origin⟩

/-- A system call that a job makes. -/
def Job.cause (job : Job) : Cause := .event job.origin

/-- `handleRead` returns and releases its lock. -/
def State.endRead (s : State) (w : ℕ) (job : Job) : State :=
  (s.setData job.conn { s.data job.conn with readLocked := false }).setWorker w (.checking job)

/-- `handleWrite` returns and releases its lock. -/
def State.endWrite (s : State) (w : ℕ) (job : Job) : State :=
  (s.setData job.conn { s.data job.conn with writeLocked := false }).setWorker w .idle

/-- A handler goes on after its `updateEvent`. -/
def State.afterUpdate (s : State) (w : ℕ) (job : Job) : AfterUpdate → State
  | .parse => s.setWorker w (.parsing job)
  | .endRead => s.endRead w job
  | .endWrite => s.endWrite w job

/-- A step of the worker `w`, which is at `worker`. -/
def workStep (s : State) (w : ℕ) (worker : Worker) : WorkAct → Option State
  | .take =>
    match worker, s.taskQueue with
    | .idle, task :: taskQueue => some (({ s with taskQueue } : State).setWorker w task.start)
    | _, _ => none
  | .begin =>
    match worker with
    | .started job =>
      if job.revents.epollerr then some ((s.removeEvent job.conn.fd job.conn job.cause).setWorker w .idle)
      else if job.revents.reads then some (s.setWorker w (.wantRead job))
      else some (s.setWorker w (.checking job))
    | _ => none
  | .lockRead =>
    match worker with
    | .wantRead job =>
      if (s.data job.conn).readLocked then none
      else some ((s.setData job.conn { s.data job.conn with readLocked := true }).setWorker w (.reading job))
    | _ => none
  | .read result =>
    match worker with
    | .reading job =>
      if s.fdTable job.conn.fd = none ∧ result ≠ .closed then none
      else
        let s := s.record job.cause .read job.conn.fd
        match result with
        | .data => some s
        | .drained => some (s.setWorker w (.parsing job))
        | .closed => some (s.setWorker w (.readFailed job))
    | _ => none
  | .parse result =>
    match worker with
    | .parsing job =>
      match result with
      | .wait => some (s.endRead w job)
      | .bad => some (s.setWorker w (.updating job .endRead false))
      | .dispatch stream =>
        let s := s.setData job.conn { s.data job.conn with sseActive := stream || (s.data job.conn).sseActive }
        some (s.setWorker w (.updating job .parse false))
    | _ => none
  | .lookup =>
    match worker with
    | .updating job next false =>
      if s.isRegistered job.conn.fd job.conn then some (s.setWorker w (.updating job next true))
      else some (s.afterUpdate w job next)
    | _ => none
  | .modify =>
    match worker with
    | .updating job next true => some ((s.epollMod job.cause job.conn.fd next.mask).afterUpdate w job next)
    | _ => none
  | .remove =>
    match worker with
    | .readFailed job => some ((s.removeEvent job.conn.fd job.conn job.cause).endRead w job)
    | .writeFailed job => some ((s.removeEvent job.conn.fd job.conn job.cause).endWrite w job)
    | _ => none
  | .check =>
    match worker with
    | .checking job =>
      if job.revents.epollout ∧ s.isRegistered job.conn.fd job.conn then some (s.setWorker w (.wantWrite job))
      else some (s.setWorker w .idle)
    | _ => none
  | .lockWrite =>
    match worker with
    | .wantWrite job =>
      if (s.data job.conn).writeLocked then none
      else some ((s.setData job.conn { s.data job.conn with writeLocked := true }).setWorker w (.writing job))
    | _ => none
  | .write result =>
    match worker with
    | .writing job =>
      if result = .empty then some (s.setWorker w (.updating job .endWrite false))
      else if s.fdTable job.conn.fd = none ∧ result ≠ .failed then none
      else
        let s := s.record job.cause .write job.conn.fd
        match result with
        | .empty | .taken => some s
        | .again => some (s.endWrite w job)
        | .failed => some (s.setWorker w (.writeFailed job))
    | _ => none

/-- One step. -/
def step (s : State) : Act → Option State
  | .loop a => loopStep s a
  | .work w a => s.workers[w]?.bind fun worker => workStep s w worker a

/-! ### What each step can do -/

/-- The steps of the loop thread, by what they need and what they do. -/
inductive LoopTrans (s : State) : LoopAct → State → Prop where
  | wait (batch : List Event) (h : s.loop = .waiting) (hlen : batch.length ≤ maxEvents)
      (hnodup : (batch.map (·.fd)).Nodup) (hreports : ∀ e ∈ batch, s.Reports e) :
      LoopTrans s (.wait batch) { s with batch, loop := .ticking }
  | tick (now : ℤ) (h : s.loop = .ticking) :
      LoopTrans s (.tick now) { s with timer := (s.timer.tick now).2, loop := .expiring (s.timer.tick now).1 }
  | lookupExpired (fd : Fd) (expired : List Fd) (h : s.loop = .expiring (fd :: expired)) :
      LoopTrans s .lookupExpired { s with loop := .judging expired fd (s.connMap.lookup fd).join }
  | keep (expired : List Fd) (fd : Fd) (conn : Conn) (h : s.loop = .judging expired fd conn)
      (hsse : (s.data conn).sseActive = true) : LoopTrans s .judge { s with loop := .renewing expired fd }
  | giveUp (expired : List Fd) (fd : Fd) (conn : Option Conn) (h : s.loop = .judging expired fd conn)
      (hsse : ∀ c ∈ conn, (s.data c).sseActive = false) :
      LoopTrans s .judge { s with loop := .timedOut expired fd }
  | renew (now : ℤ) (expired : List Fd) (fd : Fd) (h : s.loop = .renewing expired fd) :
      LoopTrans s (.renew now)
        { s with timer := s.timer.addTimer fd timeoutSec now, loop := .expiring expired }
  | timeOut (expired : List Fd) (fd : Fd) (h : s.loop = .timedOut expired fd) :
      LoopTrans s .timeOut { s.removeEvent fd none (.timeout fd) with loop := .expiring expired }
  | snapshot (items : List (Σ _ : Fd, Option Conn)) (h : s.loop = .expiring []) (hitems : items.Perm s.connMap.entries) :
      LoopTrans s (.snapshot items) { s with loop := .pumping items [] }
  | skip (appended overflow : Bool) (fd : Fd) (conn : Option Conn) (items : List (Σ _ : Fd, Option Conn))
      (overflowed : List (Fd × Conn)) (h : s.loop = .pumping (⟨fd, conn⟩ :: items) overflowed)
      (hsse : ∀ c ∈ conn, (s.data c).sseActive = false) :
      LoopTrans s (.pump appended overflow) { s with loop := .pumping items overflowed }
  | full (appended overflow : Bool) (fd : Fd) (conn : Conn) (items : List (Σ _ : Fd, Option Conn))
      (overflowed : List (Fd × Conn)) (h : s.loop = .pumping (⟨fd, some conn⟩ :: items) overflowed)
      (hsse : (s.data conn).sseActive = true) (hover : (s.data conn).sseOverflow = true) :
      LoopTrans s (.pump appended overflow) { s with loop := .overflowing items overflowed fd conn }
  | pumped (overflow : Bool) (fd : Fd) (conn : Conn) (items : List (Σ _ : Fd, Option Conn))
      (overflowed : List (Fd × Conn)) (h : s.loop = .pumping (⟨fd, some conn⟩ :: items) overflowed)
      (hsse : (s.data conn).sseActive = true) (hover : (s.data conn).sseOverflow = false) :
      LoopTrans s (.pump true overflow) { s.setData conn { s.data conn with sseOverflow := overflow } with
        loop := .updating items overflowed fd conn false }
  | nothing (overflow : Bool) (fd : Fd) (conn : Conn) (items : List (Σ _ : Fd, Option Conn))
      (overflowed : List (Fd × Conn)) (h : s.loop = .pumping (⟨fd, some conn⟩ :: items) overflowed)
      (hsse : (s.data conn).sseActive = true) (hover : (s.data conn).sseOverflow = false) :
      LoopTrans s (.pump false overflow) { s.setData conn { s.data conn with sseOverflow := overflow } with
        loop := .overflowing items overflowed fd conn }
  | lookup (items : List (Σ _ : Fd, Option Conn)) (overflowed : List (Fd × Conn)) (fd : Fd) (conn : Conn)
      (h : s.loop = .updating items overflowed fd conn false) (hreg : s.isRegistered fd conn) :
      LoopTrans s .lookup { s with loop := .updating items overflowed fd conn true }
  | lost (items : List (Σ _ : Fd, Option Conn)) (overflowed : List (Fd × Conn)) (fd : Fd) (conn : Conn)
      (h : s.loop = .updating items overflowed fd conn false) (hreg : ¬ s.isRegistered fd conn) :
      LoopTrans s .lookup { s with loop := .overflowing items overflowed fd conn }
  | modify (items : List (Σ _ : Fd, Option Conn)) (overflowed : List (Fd × Conn)) (fd : Fd) (conn : Conn)
      (h : s.loop = .updating items overflowed fd conn true) :
      LoopTrans s .modify { s.epollMod (.stream conn) fd { epollin := true, epollout := true } with
        loop := .overflowing items overflowed fd conn }
  | checkOverflow (items : List (Σ _ : Fd, Option Conn)) (overflowed : List (Fd × Conn)) (fd : Fd) (conn : Conn)
      (h : s.loop = .overflowing items overflowed fd conn) :
      LoopTrans s .checkOverflow { s with
        loop := .pumping items (if (s.data conn).sseOverflow then overflowed ++ [(fd, conn)] else overflowed) }
  | pumpedAll (overflowed : List (Fd × Conn)) (h : s.loop = .pumping [] overflowed) :
      LoopTrans s .drop { s with loop := .dropping overflowed }
  | drop (fd : Fd) (conn : Conn) (overflowed : List (Fd × Conn)) (h : s.loop = .dropping ((fd, conn) :: overflowed)) :
      LoopTrans s .drop { s.removeEvent fd conn (.stream conn) with loop := .dropping overflowed }
  | droppedAll (h : s.loop = .dropping []) : LoopTrans s .drop { s with loop := .handling }
  | listen (event : Event) (batch : List Event) (h : s.loop = .handling) (hbatch : s.batch = event :: batch)
      (hfd : event.fd = s.listenFd) : LoopTrans s .handle { s with batch, loop := .accepting }
  | found (event : Event) (batch : List Event) (conn : Option Conn) (h : s.loop = .handling)
      (hbatch : s.batch = event :: batch) (hfd : event.fd ≠ s.listenFd) (hsubmits : event.revents.submits = true)
      (hconn : s.connMap.lookup event.fd = some conn) :
      LoopTrans s .handle { s with batch, loop := .found event conn }
  | failed (event : Event) (batch : List Event) (h : s.loop = .handling) (hbatch : s.batch = event :: batch)
      (hfd : event.fd ≠ s.listenFd) (hsubmits : event.revents.submits = false)
      (herr : event.revents.epollerr = true) :
      LoopTrans s .handle (({ s with batch } : State).removeEvent event.fd none (.event event.origin))
  | gone (event : Event) (batch : List Event) (h : s.loop = .handling) (hbatch : s.batch = event :: batch)
      (hfd : event.fd ≠ s.listenFd) (hsubmits : event.revents.submits = true)
      (hconn : s.connMap.lookup event.fd = none) : LoopTrans s .handle { s with batch }
  | pass (event : Event) (batch : List Event) (h : s.loop = .handling) (hbatch : s.batch = event :: batch)
      (hfd : event.fd ≠ s.listenFd) (hsubmits : event.revents.submits = false)
      (herr : event.revents.epollerr = false) : LoopTrans s .handle { s with batch }
  | handledAll (h : s.loop = .handling) (hbatch : s.batch = []) : LoopTrans s .handle { s with loop := .waiting }
  | updateTimer (now : ℤ) (event : Event) (conn : Option Conn) (h : s.loop = .found event conn) :
      LoopTrans s (.updateTimer now)
        { s with timer := s.timer.updateTimer event.fd timeoutSec now, loop := .submitting event conn }
  | submit (event : Event) (conn : Option Conn) (h : s.loop = .submitting event conn) :
      LoopTrans s .submit
        { s with taskQueue := s.taskQueue ++ [⟨conn, event.revents, event.origin⟩], loop := .handling }
  | accept (fd : Fd) (h : s.loop = .accepting) (hfree : s.fdTable fd = none) :
      LoopTrans s (.accept fd) { s with
        fdTable := Function.update s.fdTable fd (some (.client ⟨s.accepted, fd⟩))
        accepted := s.accepted + 1
        loop := .accepted ⟨s.accepted, fd⟩ }
  | acceptFails (h : s.loop = .accepting) : LoopTrans s .acceptFails { s with loop := .handling }
  | addEvent (conn : Conn) (h : s.loop = .accepted conn) :
      LoopTrans s .addEvent
        { s.addEvent conn.fd { epollin := true } conn (.event .listener) with loop := .added conn }
  | addTimer (now : ℤ) (conn : Conn) (h : s.loop = .added conn) :
      LoopTrans s (.addTimer now)
        { s with timer := s.timer.addTimer conn.fd timeoutSec now, loop := .accepting }

/-- The steps of the worker `w`, by where it is and what they do. -/
inductive WorkTrans (s : State) (w : ℕ) : Worker → WorkAct → State → Prop where
  | take (task : Task) (taskQueue : List Task) (hqueue : s.taskQueue = task :: taskQueue) :
      WorkTrans s w .idle .take (({ s with taskQueue } : State).setWorker w task.start)
  | failed (job : Job) (herr : job.revents.epollerr = true) :
      WorkTrans s w (.started job) .begin ((s.removeEvent job.conn.fd job.conn job.cause).setWorker w .idle)
  | toRead (job : Job) (herr : job.revents.epollerr = false) (hreads : job.revents.reads = true) :
      WorkTrans s w (.started job) .begin (s.setWorker w (.wantRead job))
  | toCheck (job : Job) (herr : job.revents.epollerr = false) (hreads : job.revents.reads = false) :
      WorkTrans s w (.started job) .begin (s.setWorker w (.checking job))
  | lockRead (job : Job) (hlock : (s.data job.conn).readLocked = false) :
      WorkTrans s w (.wantRead job) .lockRead
        ((s.setData job.conn { s.data job.conn with readLocked := true }).setWorker w (.reading job))
  | read (job : Job) (hopen : s.fdTable job.conn.fd ≠ none) :
      WorkTrans s w (.reading job) (.read .data) (s.record job.cause .read job.conn.fd)
  | drained (job : Job) (hopen : s.fdTable job.conn.fd ≠ none) :
      WorkTrans s w (.reading job) (.read .drained)
        ((s.record job.cause .read job.conn.fd).setWorker w (.parsing job))
  | closed (job : Job) : WorkTrans s w (.reading job) (.read .closed)
        ((s.record job.cause .read job.conn.fd).setWorker w (.readFailed job))
  | parsedAll (job : Job) : WorkTrans s w (.parsing job) (.parse .wait) (s.endRead w job)
  | bad (job : Job) : WorkTrans s w (.parsing job) (.parse .bad) (s.setWorker w (.updating job .endRead false))
  | dispatch (job : Job) (stream : Bool) : WorkTrans s w (.parsing job) (.parse (.dispatch stream))
      ((s.setData job.conn { s.data job.conn with
        sseActive := stream || (s.data job.conn).sseActive }).setWorker w (.updating job .parse false))
  | lookup (job : Job) (next : AfterUpdate) (hreg : s.isRegistered job.conn.fd job.conn) :
      WorkTrans s w (.updating job next false) .lookup (s.setWorker w (.updating job next true))
  | lost (job : Job) (next : AfterUpdate) (hreg : ¬ s.isRegistered job.conn.fd job.conn) :
      WorkTrans s w (.updating job next false) .lookup (s.afterUpdate w job next)
  | modify (job : Job) (next : AfterUpdate) : WorkTrans s w (.updating job next true) .modify
      ((s.epollMod job.cause job.conn.fd next.mask).afterUpdate w job next)
  | removeRead (job : Job) : WorkTrans s w (.readFailed job) .remove
      ((s.removeEvent job.conn.fd job.conn job.cause).endRead w job)
  | removeWrite (job : Job) : WorkTrans s w (.writeFailed job) .remove
      ((s.removeEvent job.conn.fd job.conn job.cause).endWrite w job)
  | toWrite (job : Job) (hout : job.revents.epollout = true) (hreg : s.isRegistered job.conn.fd job.conn) :
      WorkTrans s w (.checking job) .check (s.setWorker w (.wantWrite job))
  | done (job : Job) (hdone : ¬ (job.revents.epollout = true ∧ s.isRegistered job.conn.fd job.conn)) :
      WorkTrans s w (.checking job) .check (s.setWorker w .idle)
  | lockWrite (job : Job) (hlock : (s.data job.conn).writeLocked = false) :
      WorkTrans s w (.wantWrite job) .lockWrite
        ((s.setData job.conn { s.data job.conn with writeLocked := true }).setWorker w (.writing job))
  | written (job : Job) : WorkTrans s w (.writing job) (.write .empty)
      (s.setWorker w (.updating job .endWrite false))
  | write (job : Job) (hopen : s.fdTable job.conn.fd ≠ none) :
      WorkTrans s w (.writing job) (.write .taken) (s.record job.cause .write job.conn.fd)
  | again (job : Job) (hopen : s.fdTable job.conn.fd ≠ none) :
      WorkTrans s w (.writing job) (.write .again) ((s.record job.cause .write job.conn.fd).endWrite w job)
  | writeFails (job : Job) : WorkTrans s w (.writing job) (.write .failed)
      ((s.record job.cause .write job.conn.fd).setWorker w (.writeFailed job))

/-- A step is one of the loop thread or of a worker. -/
inductive Trans (s : State) : Act → State → Prop where
  | loop (a : LoopAct) (s' : State) (h : LoopTrans s a s') : Trans s (.loop a) s'
  | work (w : ℕ) (worker : Worker) (a : WorkAct) (s' : State) (hw : s.workers[w]? = some worker)
      (h : WorkTrans s w worker a s') : Trans s (.work w a) s'

theorem loopTrans_of_handle {s s' : State} (hs : loopStep s .handle = some s') : LoopTrans s .handle s' := by
  simp only [loopStep] at hs
  split at hs
  · rename_i event batch h hbatch
    cases hs
    unfold handleEvent
    split_ifs with hfd hsubmits herr
    · exact .listen event batch h hbatch hfd
    · split
      · exact .gone event batch h hbatch hfd hsubmits ‹_›
      · exact .found event batch _ h hbatch hfd hsubmits ‹_›
    · exact .failed event batch h hbatch hfd (Bool.eq_false_iff.mpr hsubmits) herr
    · exact .pass event batch h hbatch hfd (Bool.eq_false_iff.mpr hsubmits) (Bool.eq_false_iff.mpr herr)
  · cases hs
    exact .handledAll ‹_› ‹_›
  · cases hs

theorem loopTrans_of_pump {s s' : State} {appended overflow : Bool}
    (hs : loopStep s (.pump appended overflow) = some s') : LoopTrans s (.pump appended overflow) s' := by
  simp only [loopStep] at hs
  split at hs
  · rename_i fd conn items overflowed h
    split_ifs at hs with hsse hover happended <;> cases hs
    · exact .full appended overflow fd conn items overflowed h hsse hover
    · subst happended
      exact .pumped overflow fd conn items overflowed h hsse (Bool.eq_false_iff.mpr hover)
    · obtain rfl : appended = false := Bool.eq_false_iff.mpr happended
      exact .nothing overflow fd conn items overflowed h hsse (Bool.eq_false_iff.mpr hover)
    · exact .skip appended overflow fd conn items overflowed h (by simpa using hsse)
  · rename_i fd items overflowed h
    cases hs
    exact .skip appended overflow fd none items overflowed h nofun
  · cases hs

theorem loopTrans_of_step {s s' : State} {a : LoopAct} (hs : loopStep s a = some s') : LoopTrans s a s' := by
  cases a with
  | handle => exact loopTrans_of_handle hs
  | pump appended overflow => exact loopTrans_of_pump hs
  | wait batch =>
    obtain ⟨⟨h, hlen, hnodup, hreports⟩, ⟨⟩⟩ := Option.ite_none_right_eq_some.mp hs
    exact .wait batch h hlen hnodup hreports
  | tick now =>
    obtain ⟨h, ⟨⟩⟩ := Option.ite_none_right_eq_some.mp hs
    exact .tick now h
  | snapshot items =>
    obtain ⟨⟨h, hitems⟩, ⟨⟩⟩ := Option.ite_none_right_eq_some.mp hs
    exact .snapshot items h hitems
  | accept fd =>
    obtain ⟨⟨h, hfree⟩, ⟨⟩⟩ := Option.ite_none_right_eq_some.mp hs
    exact .accept fd h hfree
  | acceptFails =>
    obtain ⟨h, ⟨⟩⟩ := Option.ite_none_right_eq_some.mp hs
    exact .acceptFails h
  | judge =>
    simp only [loopStep] at hs
    split at hs
    · rename_i expired fd conn h
      split_ifs at hs with hsse <;> cases hs
      · obtain ⟨c, rfl, hc⟩ := hsse
        exact .keep expired fd c h hc
      · exact .giveUp expired fd conn h fun c hc => Bool.eq_false_iff.mpr fun hactive => hsse ⟨c, hc, hactive⟩
    · cases hs
  | lookup =>
    simp only [loopStep] at hs
    split at hs
    · rename_i items overflowed fd conn h
      split_ifs at hs with hreg <;> cases hs
      · exact .lookup items overflowed fd conn h hreg
      · exact .lost items overflowed fd conn h hreg
    · cases hs
  | drop =>
    simp only [loopStep] at hs
    split at hs <;> cases hs
    · exact .pumpedAll _ ‹_›
    · exact .drop _ _ _ ‹_›
    · exact .droppedAll ‹_›
  | lookupExpired =>
    simp only [loopStep] at hs
    split at hs <;> cases hs
    exact .lookupExpired _ _ ‹_›
  | renew now =>
    simp only [loopStep] at hs
    split at hs <;> cases hs
    exact .renew now _ _ ‹_›
  | timeOut =>
    simp only [loopStep] at hs
    split at hs <;> cases hs
    exact .timeOut _ _ ‹_›
  | modify =>
    simp only [loopStep] at hs
    split at hs <;> cases hs
    exact .modify _ _ _ _ ‹_›
  | checkOverflow =>
    simp only [loopStep] at hs
    split at hs <;> cases hs
    exact .checkOverflow _ _ _ _ ‹_›
  | updateTimer now =>
    simp only [loopStep] at hs
    split at hs <;> cases hs
    exact .updateTimer now _ _ ‹_›
  | submit =>
    simp only [loopStep] at hs
    split at hs <;> cases hs
    exact .submit _ _ ‹_›
  | addEvent =>
    simp only [loopStep] at hs
    split at hs <;> cases hs
    exact .addEvent _ ‹_›
  | addTimer now =>
    simp only [loopStep] at hs
    split at hs <;> cases hs
    exact .addTimer now _ ‹_›

theorem workTrans_of_read {s s' : State} {w : ℕ} {worker : Worker} {result : ReadResult}
    (hs : workStep s w worker (.read result) = some s') : WorkTrans s w worker (.read result) s' := by
  simp only [workStep] at hs
  split at hs
  · rename_i job
    split_ifs at hs with hclosed
    have hopen : result ≠ .closed → s.fdTable job.conn.fd ≠ none := fun hr hnone => hclosed ⟨hnone, hr⟩
    cases result <;> cases hs
    · exact .read job (hopen nofun)
    · exact .drained job (hopen nofun)
    · exact .closed job
  · cases hs

theorem workTrans_of_write {s s' : State} {w : ℕ} {worker : Worker} {result : WriteResult}
    (hs : workStep s w worker (.write result) = some s') : WorkTrans s w worker (.write result) s' := by
  simp only [workStep] at hs
  split at hs
  · rename_i job
    split_ifs at hs with hempty hclosed
    · cases hs
      subst hempty
      exact .written job
    · have hopen : result ≠ .failed → s.fdTable job.conn.fd ≠ none := fun hr hnone => hclosed ⟨hnone, hr⟩
      cases result <;> cases hs
      · exact absurd rfl hempty
      · exact .write job (hopen nofun)
      · exact .again job (hopen nofun)
      · exact .writeFails job
  · cases hs

theorem workTrans_of_step {s s' : State} {w : ℕ} {worker : Worker} {a : WorkAct}
    (hs : workStep s w worker a = some s') : WorkTrans s w worker a s' := by
  cases a with
  | read result => exact workTrans_of_read hs
  | write result => exact workTrans_of_write hs
  | take =>
    simp only [workStep] at hs
    split at hs <;> cases hs
    exact .take _ _ ‹_›
  | begin =>
    simp only [workStep] at hs
    split at hs
    · rename_i job
      split_ifs at hs with herr hreads <;> cases hs
      · exact .failed job herr
      · exact .toRead job (Bool.eq_false_iff.mpr herr) hreads
      · exact .toCheck job (Bool.eq_false_iff.mpr herr) (Bool.eq_false_iff.mpr hreads)
    · cases hs
  | lockRead =>
    simp only [workStep] at hs
    split at hs
    · split_ifs at hs with hlock
      cases hs
      exact .lockRead _ (Bool.eq_false_iff.mpr hlock)
    · cases hs
  | lockWrite =>
    simp only [workStep] at hs
    split at hs
    · split_ifs at hs with hlock
      cases hs
      exact .lockWrite _ (Bool.eq_false_iff.mpr hlock)
    · cases hs
  | parse result =>
    simp only [workStep] at hs
    split at hs
    · rename_i job
      cases result <;> cases hs
      · exact .parsedAll job
      · exact .bad job
      · exact .dispatch job _
    · cases hs
  | lookup =>
    simp only [workStep] at hs
    split at hs
    · split_ifs at hs with hreg <;> cases hs
      · exact .lookup _ _ hreg
      · exact .lost _ _ hreg
    · cases hs
  | modify =>
    simp only [workStep] at hs
    split at hs <;> cases hs
    exact .modify _ _
  | remove =>
    simp only [workStep] at hs
    split at hs <;> cases hs
    · exact .removeRead _
    · exact .removeWrite _
  | check =>
    simp only [workStep] at hs
    split at hs
    · split_ifs at hs with hcheck <;> cases hs
      · exact .toWrite _ hcheck.1 hcheck.2
      · exact .done _ hcheck
    · cases hs

/-- **What a step can do.** -/
theorem trans_of_step {s s' : State} {a : Act} (hs : step s a = some s') : Trans s a s' := by
  cases a with
  | loop a => exact .loop a s' (loopTrans_of_step hs)
  | work w a =>
    obtain ⟨worker, hw, hs⟩ := Option.bind_eq_some_iff.mp hs
    exact .work w worker a s' hw (workTrans_of_step hs)

/-! ### Some runs -/

/-- One turn of the loop up to its events, with no stream to feed. -/
def turn (batch : List Event) (items : List (Σ _ : Fd, Option Conn)) : List Act :=
  ([.wait batch, .tick 0, .snapshot items] ++ items.map (fun _ => .pump false false) ++
    [.drop, .drop] : List LoopAct).map .loop

/-- A turn that accepts one connection. -/
def acceptTurn (fd : Fd) : List Act :=
  turn [⟨3, { epollin := true }, .listener⟩] [⟨3, none⟩] ++
    ([.handle, .accept fd, .addEvent, .addTimer 0, .acceptFails, .handle] : List LoopAct).map .loop

/-- A turn in which there is something to read on this connection. -/
def readTurn (conn : Conn) : List Act :=
  turn [⟨conn.fd, { epollin := true }, .client conn⟩] [⟨conn.fd, conn⟩, ⟨3, none⟩] ++
    ([.handle, .updateTimer 0, .submit, .handle] : List LoopAct).map .loop

/-- A worker finds the end of the stream and removes the connection. -/
def readToEnd (w : ℕ) : List Act :=
  ([.take, .begin, .lockRead, .read .data, .read .closed, .remove, .check] : List WorkAct).map (.work w)

/-- Two connections with one number, the second accepted when the first is done with. -/
def inTurn : List Act :=
  acceptTurn 5 ++ readTurn ⟨0, 5⟩ ++ readToEnd 0 ++ acceptTurn 5 ++ readTurn ⟨1, 5⟩ ++ readToEnd 1

end CanMonitor.EventLoop
