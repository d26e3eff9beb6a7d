import CanMonitor.Library.Locking

/-!
# The threads of the program

Four kinds of threads run at once: the main thread with the event loop, the workers of the pool,
which handle what the event loop submits, and the receive thread. They share the connections,
the table of them, the timer, the queue of tasks, the store and the statistics, which are
guarded by a dozen kinds of locks, and the logger, which is not guarded.

## The model

Each function is given by the locks that it takes, by the shared variables that it reads and
writes, and by the functions that it calls. Left out are atomic variables, what is set before
the threads that read it are there, what one thread has for itself, what is destroyed with its
last owner, the standard streams and the texts of `strerror`, which the library looks after
itself, and `stop_flag_`, which a signal sets.

A test is a choice, so a loop may end at any turn or go on: what `running_` and the predicate of
`cv_` make of the loops of the receive thread and of a worker is not said here (it is in
`Can.Stopping` and `EventLoop.ThreadPool`). A `wait` on a condition variable gives the lock back
and takes it again. To join a thread is to take a lock that the thread holds from the beginning
of its course to the end, and a course is finite.

## What is proved

* `program_safe` — the program keeps to a discipline (`discipline`): locks are taken in the order
  of their ranks, and each variable that has a lock is accessed under it only.
* `threads_no_race_iff` — so no two threads ever access such a variable at once, unless both read
  it; and the two that have no lock are the logger's, for which workers do race.
* `threads_no_deadlock` — and no thread ever waits in a circle for mutexes and for threads that
  it joins: the courses that are under way can always be brought to their ends.
-/

namespace CanMonitor.Service.Threads

open CanMonitor.Library CanMonitor.Library.Locking CanMonitor.Library.Locking.Cmd

/-! ### What is shared -/

/-- The locks. Connections and workers are numbered. -/
inductive Lock where
  /-- `Connection::read_mutex_`. -/
  | read (c : ℕ)
  /-- `Connection::write_mutex_`. -/
  | write (c : ℕ)
  /-- `Connection::sse_mutex_`. -/
  | sse (c : ℕ)
  /-- `Connection::send_mutex_`. -/
  | send (c : ℕ)
  /-- `EventLoop::conn_mutex_`. -/
  | conn
  /-- `Timer::mutex_`. -/
  | timer
  /-- `ThreadPool::mtx_`. -/
  | tasks
  /-- `FrameStore::mutex_`. -/
  | store
  /-- `CanBusStatistics::mutex_`. -/
  | statistics
  /-- `CanReceiver::lifecycle_mutex_`. -/
  | lifecycle
  /-- What `receive_thread_` holds as long as it runs. -/
  | receiveThread
  /-- What a worker holds as long as it runs. -/
  | workerThread (w : ℕ)
  deriving DecidableEq

/-- The variables. -/
inductive Var where
  | recvBuf (c : ℕ)
  | req (c : ℕ)
  | sendBuf (c : ℕ)
  | sseAfterSequence (c : ℕ)
  | sseLastHeartbeat (c : ℕ)
  | connMap
  | heap
  | fdExpireMap
  | taskQueue
  /-- `ThreadPool::stop_`. -/
  | stop
  /-- `frames_` and the counters with it. -/
  | frames
  /-- The counters, `per_id_` and the window. -/
  | counters
  /-- `receive_thread_`. -/
  | receiveThread
  /-- `Logger::file_`. -/
  | logFile
  /-- The `struct tm` of `localtime`, which has one for all threads. -/
  | localTime
  deriving DecidableEq

/-- The order of the locks, and the lock of each variable. The logger has none. -/
def discipline : Discipline Lock Var where
  rank
    | .lifecycle | .workerThread _ => 0
    | .receiveThread | .read _ | .write _ => 1
    | .sse _ | .conn => 2
    | .send _ | .timer | .tasks | .store | .statistics => 3
  guard
    | .recvBuf c | .req c => some (.read c)
    | .sendBuf c => some (.send c)
    | .sseAfterSequence c | .sseLastHeartbeat c => some (.sse c)
    | .connMap => some .conn
    | .heap | .fdExpireMap => some .timer
    | .taskQueue | .stop => some .tasks
    | .frames => some .store
    | .counters => some .statistics
    | .receiveThread => some .lifecycle
    | .logFile | .localTime => none

/-- What a function does with locks and variables. -/
abbrev Code := Cmd Lock Var ℕ

/-! ### The logger -/

/-- `Logger::log`, with `getCurrentTime`. -/
def log : Code := block [Cmd.write .localTime, Cmd.read .localTime, Cmd.write .logFile]

/-- `Connection::~Connection`, in whatever thread gives up the last reference. -/
def destroyConnection : Code := log

/-! ### The timer and the pool -/

/-- `Timer::addTimer`, and `updateTimer`. -/
def addTimer : Code := locked .timer .exclusive (block [Cmd.write .heap, Cmd.write .fdExpireMap])

/-- `Timer::removeTimer`. -/
def removeTimer : Code := locked .timer .exclusive (block [Cmd.write .fdExpireMap])

/-- `Timer::tick`. -/
def tick : Code :=
  locked .timer .exclusive (block [
    loop (block [Cmd.read .heap, Cmd.write .heap, Cmd.read .fdExpireMap, optional (Cmd.write .fdExpireMap)]),
    Cmd.read .heap])

/-- `ThreadPool::submit`. -/
def submit : Code := locked .tasks .exclusive (block [Cmd.write .taskQueue])

/-! ### The table of connections -/

/-- `EventLoop::addEvent`. -/
def addEvent : Code :=
  locked .conn .exclusive (block [Cmd.read .connMap, optional (block [Cmd.write .connMap, log])])

/-- `EventLoop::updateEvent`, whose call of `epoll_ctl` is after the lock. -/
def updateEvent : Code := locked .conn .exclusive (block [Cmd.read .connMap])

/-- `EventLoop::removeEvent`. -/
def removeEvent : Code :=
  locked .conn .exclusive (block [Cmd.read .connMap,
    optional (block [removeTimer, Cmd.write .connMap, optional destroyConnection, log])])

/-- `EventLoop::isRegistered`. -/
def isRegistered : Code := locked .conn .exclusive (block [Cmd.read .connMap])

/-! ### The store, the statistics and the runtime -/

/-- `FrameStore::append`. -/
def append : Code := locked .store .exclusive (block [Cmd.read .frames, Cmd.write .frames])

/-- `FrameStore::queryAfter`, and `CanRuntime::queryFrames`. -/
def queryAfter : Code := optional (locked .store .shared (block [loop (Cmd.read .frames)]))

/-- `CanBusStatistics::recordReceived`. -/
def recordReceived : Code := locked .statistics .exclusive (block [Cmd.read .counters, Cmd.write .counters])

/-- `CanBusStatistics::snapshot`, and `CanRuntime::busStats`. -/
def snapshot : Code := locked .statistics .exclusive (block [Cmd.read .counters, Cmd.write .counters])

/-- `CanReceiver::receiveLoop`, which is the receive thread. That it ends once `running_` is off is
not said here. -/
def receiveLoop : Code := locked .receiveThread .exclusive (loop (block [optional recordReceived, append]))

/-- `CanReceiver::start`. -/
def startReceiver : Code := locked .lifecycle .exclusive (optional (Cmd.write .receiveThread))

/-- `CanReceiver::stop`, which joins the receive thread: it waits for the end of its course. -/
def stopReceiver : Code :=
  locked .lifecycle .exclusive (block [Cmd.read .receiveThread,
    optional (block [locked .receiveThread .exclusive skip, Cmd.write .receiveThread])])

/-- `CanRuntime::start`; a receiver that does not start is destroyed. -/
def startRuntime : Code := optional (block [startReceiver, optional stopReceiver])

/-- `CanRuntime::stop`; the receiver is destroyed. -/
def stopRuntime : Code := optional (block [stopReceiver, stopReceiver])

/-! ### A connection -/

/-- `Connection::appendSendBuf`. -/
def appendSendBuf (c : ℕ) : Code := optional (locked (.send c) .exclusive (block [Cmd.write (.sendBuf c)]))

/-- `Connection::startSse`. -/
def startSse (c : ℕ) : Code :=
  locked (.sse c) .exclusive (block [Cmd.write (.sseAfterSequence c), Cmd.write (.sseLastHeartbeat c), appendSendBuf c])

/-- `Connection::appendSsePayload`. -/
def appendSsePayload (c : ℕ) : Code :=
  optional (locked (.send c) .exclusive (block [Cmd.read (.sendBuf c), optional (Cmd.write (.sendBuf c))]))

/-- `Connection::pumpSse`. -/
def pumpSse (c : ℕ) : Code :=
  optional (locked (.sse c) .exclusive (optional (block [
    Cmd.read (.sseAfterSequence c), queryAfter,
    loop (block [Cmd.read (.sseAfterSequence c), Cmd.write (.sseAfterSequence c), appendSsePayload c]),
    optional (block [Cmd.read (.sseLastHeartbeat c),
      optional (block [appendSsePayload c, Cmd.write (.sseLastHeartbeat c)])])])))

/-- The end of most ways through `processRequest`. -/
def respond (c : ℕ) : Code := block [appendSendBuf c, updateEvent]

/-- `Connection::processRequest`, which `handleRead` calls. -/
def processRequest (c : ℕ) : Code :=
  block [Cmd.read (.req c), log,
    choice (block [optional queryAfter, respond c]) <|
      choice (block [optional snapshot, respond c]) <|
        choice (block [startSse c, updateEvent]) (respond c)]

/-- `Connection::handleRead`. -/
def handleRead (c : ℕ) : Code :=
  locked (.read c) .exclusive (block [
    loop (Cmd.write (.recvBuf c)),
    choice (block [log, removeEvent]) (block [
      loop (block [Cmd.read (.recvBuf c), Cmd.write (.req c), processRequest c, Cmd.write (.recvBuf c), Cmd.write (.req c)]),
      Cmd.read (.recvBuf c),
      optional (block [Cmd.write (.req c), appendSendBuf c, updateEvent, Cmd.write (.recvBuf c)])])])

/-- `Connection::handleWrite`. -/
def handleWrite (c : ℕ) : Code :=
  locked (.write c) .exclusive (block [
    loop (block [
      locked (.send c) .exclusive (block [Cmd.read (.sendBuf c)]),
      optional (locked (.send c) .exclusive (block [Cmd.write (.sendBuf c)]))]),
    choice skip (choice (block [log, removeEvent]) updateEvent)])

/-! ### The event loop -/

/-- `EventLoop::handleIOEvent`. -/
def handleIOEvent (c : ℕ) : Code :=
  choice (block [log, removeEvent])
    (block [optional (handleRead c), optional (block [isRegistered, optional (handleWrite c)])])

/-- `ThreadPool::workerLoop`, which is a worker: it waits for a task, takes it and does it. That it
is woken by a task or by `stop_`, and ends only with both `stop_` and no task, is not said here. -/
def workerLoop (w : ℕ) : Code :=
  locked (.workerThread w) .exclusive (loop (block [
    loop (locked .tasks .exclusive (block [Cmd.read .stop, Cmd.read .taskQueue])),
    optional (block [
      locked .tasks .exclusive (block [Cmd.read .stop, Cmd.read .taskQueue, Cmd.write .taskQueue]),
      any handleIOEvent, optional destroyConnection])]))

/-- `EventLoop::dispatchSseEvents`. -/
def dispatchSseEvents : Code :=
  block [
    locked .conn .exclusive (block [Cmd.read .connMap]),
    loop (any fun c => block [pumpSse c, optional updateEvent]),
    loop (block [log, removeEvent]),
    loop destroyConnection]

/-- `EventLoop::handleNewConnection`. -/
def handleNewConnection : Code :=
  block [loop (block [log, addEvent, addTimer, optional destroyConnection]), optional log]

/-- `EventLoop::handleEvents`. -/
def handleEvents : Code :=
  loop (choice handleNewConnection (choice (block [log, removeEvent]) (block [
    locked .conn .exclusive (block [Cmd.read .connMap]),
    optional (block [addTimer, choice submit (any handleIOEvent), optional destroyConnection])])))

/-- `EventLoop::loop`. -/
def eventLoop : Code :=
  block [
    log,
    loop (block [
      tick,
      loop (block [
        locked .conn .exclusive (block [Cmd.read .connMap]),
        choice addTimer (block [log, removeEvent]),
        optional destroyConnection]),
      dispatchSseEvents,
      handleEvents]),
    optional log,
    log]

/-- `ThreadPool::~ThreadPool`, which joins the workers. -/
def destroyPool : Code :=
  block [
    locked .tasks .exclusive (block [Cmd.write .stop]),
    loop (any fun w => locked (.workerThread w) .exclusive skip),
    log,
    loop destroyConnection]

/-- `EventLoop::~EventLoop`. -/
def destroyEventLoop : Code :=
  block [locked .conn .exclusive (block [Cmd.write .connMap, loop destroyConnection]), optional destroyPool]

/-- `Server::init`. -/
def initServer : Code := block [loop log, optional (block [addEvent, log])]

/-- `Server::start`, which starts the workers. -/
def startServer : Code := block [log, eventLoop]

/-- `Server::~Server`. -/
def destroyServer : Code := block [optional log, optional destroyEventLoop]

/-- `main`, in which the runtime or the server may fail to start. -/
def main : Code :=
  block [
    startRuntime,
    choice log (block [
      initServer,
      choice log startServer,
      stopRuntime,
      destroyServer]),
    stopRuntime]

/-! ### Every function keeps to the discipline -/

/-- The logger may be called with any locks held. -/
theorem log_safe {S : Set (List (Lock × Mode))} : log.SafeFor discipline S :=
  .cons (.unguarded rfl) (.cons (.unguarded rfl) (.cons (.unguarded rfl) .nil))

theorem destroyConnection_safe {S : Set (List (Lock × Mode))} : destroyConnection.SafeFor discipline S := log_safe

theorem addTimer_safe : addTimer.SafeFor discipline (discipline.below 3) :=
  .locked (Nat.le_refl 3) (.cons (.write rfl) (.cons (.write rfl) .nil))

theorem removeTimer_safe : removeTimer.SafeFor discipline (discipline.below 3) :=
  .locked (Nat.le_refl 3) (.cons (.write rfl) .nil)

theorem tick_safe : tick.SafeFor discipline (discipline.below 3) := by
  refine .locked (Nat.le_refl 3) (.cons (.loop ?_) (.cons (.read rfl) .nil))
  exact .cons (.read rfl) (.cons (.write rfl) (.cons (.read rfl) (.cons (.optional (.write rfl)) .nil)))

theorem submit_safe : submit.SafeFor discipline (discipline.below 3) := .locked (Nat.le_refl 3) (.cons (.write rfl) .nil)

theorem addEvent_safe : addEvent.SafeFor discipline (discipline.below 2) :=
  .locked (Nat.le_refl 2) (.cons (.read rfl) (.cons (.optional (.cons (.write rfl) (.cons log_safe .nil))) .nil))

theorem updateEvent_safe : updateEvent.SafeFor discipline (discipline.below 2) :=
  .locked (Nat.le_refl 2) (.cons (.read rfl) .nil)

theorem removeEvent_safe : removeEvent.SafeFor discipline (discipline.below 2) := by
  refine .locked (Nat.le_refl 2) (.cons (.read rfl) (.cons (.optional ?_) .nil))
  exact .cons (.call (Nat.lt_succ_self 2) removeTimer_safe)
    (.cons (.write rfl) (.cons (.optional destroyConnection_safe) (.cons log_safe .nil)))

/-- A connection is removed, and why is logged. -/
theorem logRemove_safe : (block [log, removeEvent]).SafeFor discipline (discipline.below 2) :=
  .cons log_safe (.cons removeEvent_safe .nil)

theorem isRegistered_safe : isRegistered.SafeFor discipline (discipline.below 2) :=
  .locked (Nat.le_refl 2) (.cons (.read rfl) .nil)

theorem append_safe : append.SafeFor discipline (discipline.below 3) :=
  .locked (Nat.le_refl 3) (.cons (.read rfl) (.cons (.write rfl) .nil))

theorem queryAfter_safe : queryAfter.SafeFor discipline (discipline.below 3) :=
  .optional (.locked (Nat.le_refl 3) (.cons (.loop (.read rfl)) .nil))

theorem recordReceived_safe : recordReceived.SafeFor discipline (discipline.below 3) :=
  .locked (Nat.le_refl 3) (.cons (.read rfl) (.cons (.write rfl) .nil))

theorem snapshot_safe : snapshot.SafeFor discipline (discipline.below 3) :=
  .locked (Nat.le_refl 3) (.cons (.read rfl) (.cons (.write rfl) .nil))

theorem receiveLoop_safe : receiveLoop.SafeFor discipline (discipline.below 0) := by
  have hlt : discipline.rank .receiveThread < 3 := by decide
  refine .locked (Nat.zero_le _) (.loop (.cons (.optional ?_) (.cons ?_ .nil)))
  · exact .call hlt recordReceived_safe
  · exact .call hlt append_safe

theorem stopReceiver_safe : stopReceiver.SafeFor discipline (discipline.below 0) := by
  refine .locked (Nat.le_refl 0) (.cons (.read rfl) (.cons (.optional (.cons ?_ (.cons (.write rfl) .nil))) .nil))
  -- the thread that is joined takes no lock that is held here
  exact .call (Nat.lt_succ_self 0) (.locked (Nat.le_refl 1) .nil)

theorem startRuntime_safe : startRuntime.SafeFor discipline (discipline.below 0) :=
  .optional (.cons (.locked (Nat.le_refl 0) (.optional (.write rfl))) (.cons (.optional stopReceiver_safe) .nil))

theorem stopRuntime_safe : stopRuntime.SafeFor discipline (discipline.below 0) :=
  .optional (.cons stopReceiver_safe (.cons stopReceiver_safe .nil))

theorem appendSendBuf_safe (c : ℕ) : (appendSendBuf c).SafeFor discipline (discipline.below 3) :=
  .optional (.locked (Nat.le_refl 3) (.cons (.write rfl) .nil))

theorem startSse_safe (c : ℕ) : (startSse c).SafeFor discipline (discipline.below 2) := by
  refine .locked (Nat.le_refl 2) (.cons (.write rfl) (.cons (.write rfl) (.cons ?_ .nil)))
  exact .call (Nat.lt_succ_self 2) (appendSendBuf_safe c)

theorem appendSsePayload_safe (c : ℕ) : (appendSsePayload c).SafeFor discipline (discipline.below 3) :=
  .optional (.locked (Nat.le_refl 3) (.cons (.read rfl) (.cons (.optional (.write rfl)) .nil)))

theorem pumpSse_safe (c : ℕ) : (pumpSse c).SafeFor discipline (discipline.below 2) := by
  have hpayload : (appendSsePayload c).SafeFor discipline (discipline.under (.sse c) .exclusive) :=
    .call (Nat.lt_succ_self 2) (appendSsePayload_safe c)
  refine .optional (.locked (Nat.le_refl 2) (.optional (.cons (.read rfl) (.cons ?_ (.cons (.loop ?_) (.cons ?_ .nil))))))
  · exact .call (Nat.lt_succ_self 2) queryAfter_safe
  · exact .cons (.read rfl) (.cons (.write rfl) (.cons hpayload .nil))
  · exact .optional (.cons (.read rfl) (.cons (.optional (.cons hpayload (.cons (.write rfl) .nil))) .nil))

/-- What `processRequest` ends with, where `read_mutex_` is held. -/
theorem respond_safe (c : ℕ) : (respond c).SafeFor discipline (discipline.under (.read c) .exclusive) :=
  .cons (.call (by decide : 1 < 3) (appendSendBuf_safe c)) (.cons (.call (Nat.lt_succ_self 1) updateEvent_safe) .nil)

theorem processRequest_safe (c : ℕ) : (processRequest c).SafeFor discipline (discipline.under (.read c) .exclusive) := by
  have hlt : discipline.rank (.read c) < 3 := (by decide : 1 < 3)
  refine .cons (.read rfl) (.cons log_safe (.cons (.choice ?_ (.choice ?_ (.choice ?_ (respond_safe c)))) .nil))
  · exact .cons (.optional (.call hlt queryAfter_safe)) (.cons (respond_safe c) .nil)
  · exact .cons (.optional (.call hlt snapshot_safe)) (.cons (respond_safe c) .nil)
  · exact .cons (.call (Nat.lt_succ_self 1) (startSse_safe c)) (.cons (.call (Nat.lt_succ_self 1) updateEvent_safe) .nil)

theorem handleRead_safe (c : ℕ) : (handleRead c).SafeFor discipline (discipline.below 1) := by
  have hlt : discipline.rank (.read c) < 3 := (by decide : 1 < 3)
  refine .locked (Nat.le_refl 1) (.cons (.loop (.write rfl)) (.cons (.choice ?_ ?_) .nil))
  · exact .call (Nat.lt_succ_self 1) logRemove_safe
  · refine .cons (.loop ?_) (.cons (.read rfl) (.cons (.optional ?_) .nil))
    · exact .cons (.read rfl) (.cons (.write rfl) (.cons (processRequest_safe c) (.cons (.write rfl) (.cons (.write rfl) .nil))))
    · refine .cons (.write rfl) (.cons (.call hlt (appendSendBuf_safe c)) (.cons ?_ (.cons (.write rfl) .nil)))
      exact .call (Nat.lt_succ_self 1) updateEvent_safe

theorem handleWrite_safe (c : ℕ) : (handleWrite c).SafeFor discipline (discipline.below 1) := by
  have hlt : discipline.rank (.write c) < 3 := (by decide : 1 < 3)
  refine .locked (Nat.le_refl 1) (.cons (.loop (.cons ?_ (.cons (.optional ?_) .nil))) (.cons (.choice ?_ (.choice ?_ ?_)) .nil))
  · exact .call hlt (.locked (Nat.le_refl 3) (.cons (.read rfl) .nil))
  · exact .call hlt (.locked (Nat.le_refl 3) (.cons (.write rfl) .nil))
  · exact .nil
  · exact .call (Nat.lt_succ_self 1) logRemove_safe
  · exact .call (Nat.lt_succ_self 1) updateEvent_safe

theorem handleIOEvent_safe (c : ℕ) : (handleIOEvent c).SafeFor discipline (discipline.below 1) := by
  have hlower : 1 ≤ 2 := Nat.le_succ 1
  refine .choice (.lower hlower logRemove_safe) (.cons (.optional (handleRead_safe c)) (.cons (.optional ?_) .nil))
  exact .cons (.lower hlower isRegistered_safe) (.cons (.optional (handleWrite_safe c)) .nil)

theorem workerLoop_safe (w : ℕ) : (workerLoop w).SafeFor discipline (discipline.below 0) := by
  have hlt : discipline.rank (.workerThread w) < 3 := (by decide : 0 < 3)
  have htask : (any handleIOEvent).SafeFor discipline (discipline.under (.workerThread w) .exclusive) :=
    .any fun c => .call (Nat.lt_succ_self 0) (handleIOEvent_safe c)
  refine .locked (Nat.le_refl 0) (.loop (.cons (.loop ?_) (.cons (.optional (.cons ?_ (.cons htask ?_))) .nil)))
  · exact .call hlt (.locked (Nat.le_refl 3) (.cons (.read rfl) (.cons (.read rfl) .nil)))
  · exact .call hlt (.locked (Nat.le_refl 3) (.cons (.read rfl) (.cons (.read rfl) (.cons (.write rfl) .nil))))
  · exact .cons (.optional destroyConnection_safe) .nil

/-- The table is looked at. -/
theorem readTable_safe : (locked .conn .exclusive (block [Cmd.read .connMap]) : Code).SafeFor discipline (discipline.below 2) :=
  isRegistered_safe

theorem dispatchSseEvents_safe : dispatchSseEvents.SafeFor discipline (discipline.below 2) := by
  refine .cons readTable_safe (.cons (.loop (.any fun c => ?_))
    (.cons (.loop logRemove_safe) (.cons (.loop destroyConnection_safe) .nil)))
  exact .cons (pumpSse_safe c) (.cons (.optional updateEvent_safe) .nil)

theorem handleNewConnection_safe : handleNewConnection.SafeFor discipline (discipline.below 2) :=
  .cons (.loop (.cons log_safe (.cons addEvent_safe (.cons (.lower (Nat.le_succ 2) addTimer_safe)
    (.cons (.optional destroyConnection_safe) .nil))))) (.cons (.optional log_safe) .nil)

theorem handleEvents_safe : handleEvents.SafeFor discipline (discipline.below 1) := by
  have hlower : 1 ≤ 2 := Nat.le_succ 1
  refine .loop (.choice (.lower hlower handleNewConnection_safe) (.choice (.lower hlower logRemove_safe) ?_))
  refine .cons (.lower hlower readTable_safe) (.cons (.optional ?_) .nil)
  refine .cons ?_ (.cons (.choice ?_ (.any handleIOEvent_safe)) (.cons (.optional destroyConnection_safe) .nil))
  · exact .lower (by decide) addTimer_safe
  · exact .lower (by decide) submit_safe

theorem eventLoop_safe : eventLoop.SafeFor discipline (discipline.below 1) := by
  have hlower : 1 ≤ 2 := Nat.le_succ 1
  refine .cons log_safe (.cons (.loop ?_) (.cons (.optional log_safe) (.cons log_safe .nil)))
  refine .cons (.lower (by decide) tick_safe) (.cons (.loop ?_)
    (.cons (.lower hlower dispatchSseEvents_safe) (.cons handleEvents_safe .nil)))
  -- what has expired
  refine .cons (.lower hlower readTable_safe) (.cons (.choice ?_ ?_) (.cons (.optional destroyConnection_safe) .nil))
  · exact .lower (by decide) addTimer_safe
  · exact .lower hlower logRemove_safe

theorem destroyPool_safe : destroyPool.SafeFor discipline (discipline.below 0) := by
  refine .cons ?_ (.cons (.loop (.any fun w => ?_)) (.cons log_safe (.cons (.loop destroyConnection_safe) .nil)))
  · exact .locked (Nat.zero_le _) (.cons (.write rfl) .nil)
  · -- the workers are joined when the main thread holds nothing
    exact .locked (Nat.le_refl 0) .nil

theorem destroyEventLoop_safe : destroyEventLoop.SafeFor discipline (discipline.below 0) :=
  .cons (.locked (Nat.zero_le _) (.cons (.write rfl) (.cons (.loop destroyConnection_safe) .nil)))
    (.cons (.optional destroyPool_safe) .nil)

theorem initServer_safe : initServer.SafeFor discipline (discipline.below 0) :=
  .cons (.loop log_safe) (.cons (.optional (.cons (.lower (Nat.zero_le 2) addEvent_safe) (.cons log_safe .nil))) .nil)

theorem main_safe : main.SafeFor discipline (discipline.below 0) := by
  refine .cons startRuntime_safe (.cons (.choice log_safe ?_) (.cons stopRuntime_safe .nil))
  refine .cons initServer_safe (.cons (.choice log_safe ?_) (.cons stopRuntime_safe (.cons ?_ .nil)))
  · exact .cons log_safe (.cons (.lower (Nat.zero_le 1) eventLoop_safe) .nil)
  · exact .cons (.optional log_safe) (.cons (.optional destroyEventLoop_safe) .nil)

/-! ### All threads -/

/-- The threads. -/
inductive Thread where
  | main
  | receive
  | worker (w : ℕ)
  deriving DecidableEq

/-- What each does. -/
def program : Thread → Code
  | .main => main
  | .receive => receiveLoop
  | .worker w => workerLoop w

theorem program_safe (i : Thread) : (program i).Safe discipline [] := by
  cases i with
  | main => exact main_safe.safe
  | receive => exact receiveLoop_safe.safe
  | worker w => exact (workerLoop_safe w).safe

theorem rank_le (l : Lock) : discipline.rank l ≤ 3 := by
  cases l <;> exact Nat.le_of_ble_eq_true rfl

/-! ### Races -/

/-- Some run comes to where two threads race for the variable. -/
def Raced (x : Var) : Prop :=
  ∃ (as : List (Locking.Act Thread Lock Var)) (s : Locking.State Thread Lock Var) (i j : Thread),
    (∀ a ∈ as, Calls program a) ∧ run Locking.step (.start Thread Lock Var) as = some s ∧ i ≠ j ∧ s.Races i j x

/-- The variables other than the logger's have a lock. -/
theorem guard_isSome {x : Var} (hfile : x ≠ .logFile) (htime : x ≠ .localTime) : ∃ l, discipline.guard x = some l := by
  cases x with
  | logFile => exact absurd rfl hfile
  | localTime => exact absurd rfl htime
  | _ => exact ⟨_, rfl⟩

/-- A worker finds an error on a connection, logs it, and finds that the connection is gone. -/
def erring (w : ℕ) : List (Op Lock Var) :=
  [.acquire (.workerThread w) .exclusive, .acquire .tasks .exclusive, .access .stop false, .access .taskQueue false,
    .access .taskQueue true, .release .tasks, .access .localTime true, .access .localTime false, .access .logFile true,
    .acquire .conn .exclusive, .access .connMap false, .release .conn, .release (.workerThread w)]

theorem erring_trace (w : ℕ) : (program (.worker w)).Trace (erring w) := by
  have hlog : log.Trace [.access .localTime true, .access .localTime false, .access .logFile true] :=
    .seq (.access _ _) (.seq (.access _ _) (.seq (.access _ _) .skip))
  have hremove : removeEvent.Trace [.acquire .conn .exclusive, .access .connMap false, .release .conn] :=
    .locked (.seq (.access _ _) (.seq (.first .skip) .skip))
  have hevent : (handleIOEvent 0).Trace [.access .localTime true, .access .localTime false, .access .logFile true,
      .acquire .conn .exclusive, .access .connMap false, .release .conn] :=
    .first (.seq hlog (.seq hremove .skip))
  have htake : (locked .tasks .exclusive (block [Cmd.read .stop, Cmd.read .taskQueue, Cmd.write .taskQueue]) : Code).Trace
      [.acquire .tasks .exclusive, .access .stop false, .access .taskQueue false, .access .taskQueue true,
        .release .tasks] :=
    .locked (.seq (.access _ _) (.seq (.access _ _) (.seq (.access _ _) .skip)))
  exact .locked (.again (.seq (.done _) (.seq (.second (.seq htake (.seq (.any 0 hevent) (.seq (.first .skip) .skip))))
    .skip)) (.done _))

/-- Two workers find errors; each does the first six steps of its course, and `k` more. -/
def bothErr (k : ℕ) : List (Locking.Act Thread Lock Var) :=
  [.begin (.worker 0) (erring 0), .begin (.worker 1) (erring 1)] ++ List.replicate (6 + k) (.next (.worker 0)) ++
    List.replicate (6 + k) (.next (.worker 1))

theorem bothErr_calls (k : ℕ) : ∀ a ∈ bothErr k, Calls program a := by
  intro a ha
  simp only [bothErr, List.mem_append, List.mem_cons, List.not_mem_nil, or_false, List.mem_replicate] at ha
  rcases ha with ((rfl | rfl) | ⟨-, rfl⟩) | ⟨-, rfl⟩
  · exact erring_trace 0
  · exact erring_trace 1
  · trivial
  · trivial

theorem logger_raced : Raced .logFile ∧ Raced .localTime :=
  ⟨⟨bothErr 2, _, .worker 0, .worker 1, bothErr_calls 2, rfl, by decide, true, true, _, _, rfl, rfl, .inl rfl⟩,
    ⟨bothErr 0, _, .worker 0, .worker 1, bothErr_calls 0, rfl, by decide, true, true, _, _, rfl, rfl, .inl rfl⟩⟩

/-- **Data races**: in any interleaving of the main thread, the receive thread and any number of
workers, for any number of connections, no two threads are about to access a shared variable at
once, unless both read it, if and only if the variable is not one of the logger's. -/
theorem threads_no_race_iff (x : Var) : ¬ Raced x ↔ x ≠ .logFile ∧ x ≠ .localTime := by
  constructor
  · intro hno
    refine ⟨?_, ?_⟩
    · rintro rfl
      exact hno logger_raced.1
    · rintro rfl
      exact hno logger_raced.2
  · rintro ⟨hfile, htime⟩ ⟨as, s, i, j, has, h, hij, hraces⟩
    obtain ⟨l, hl⟩ := guard_isSome hfile htime
    exact (sound_run program_safe has h).no_race hij hl hraces

/-! ### Deadlocks -/

/-- **No deadlocks** for mutexes and joins: in any interleaving of finite courses of them, a thread
that is at work is not blocked, or waits, perhaps through others, for one that is not; and there
is always an order of the steps that are left in which all come to the ends of their courses and
no lock is held. -/
theorem threads_no_deadlock {as : List (Locking.Act Thread Lock Var)} {s : Locking.State Thread Lock Var}
    (has : ∀ a ∈ as, Calls program a) (h : run Locking.step (.start Thread Lock Var) as = some s) :
    (∀ i, s.rest i ≠ [] → ∃ j, Relation.ReflTransGen s.WaitsFor i j ∧ s.Unblocked j) ∧
      ∃ (js : List Thread) (t : Locking.State Thread Lock Var), run Locking.step s (js.map .next) = some t ∧
        (∀ i, t.rest i = []) ∧ ∀ l, t.holders l = [] := by
  have hsound := sound_run program_safe has h
  exact ⟨fun i hi => hsound.leads_to_unblocked rank_le hi, hsound.finishes rank_le fun i hi => idle_of_run h hi⟩

/-- The receive thread stores a frame and ends. -/
def receiving : List (Op Lock Var) :=
  [.acquire .receiveThread .exclusive, .acquire .store .exclusive, .access .frames false, .access .frames true,
    .release .store, .release .receiveThread]

/-- The main thread finds that the server does not start, and stops the runtime. -/
def stopping : List (Op Lock Var) :=
  [.access .localTime true, .access .localTime false, .access .logFile true, .acquire .lifecycle .exclusive,
    .access .receiveThread false, .acquire .receiveThread .exclusive, .release .receiveThread,
    .access .receiveThread true, .release .lifecycle, .acquire .lifecycle .exclusive, .access .receiveThread false,
    .release .lifecycle]

theorem receiving_trace : (program .receive).Trace receiving := by
  have happend : append.Trace [.acquire .store .exclusive, .access .frames false, .access .frames true, .release .store] :=
    .locked (.seq (.access _ _) (.seq (.access _ _) .skip))
  exact .locked (.again (.seq (.first .skip) (.seq happend .skip)) (.done _))

theorem stopping_trace : (program .main).Trace stopping := by
  have hlog : log.Trace [.access .localTime true, .access .localTime false, .access .logFile true] :=
    .seq (.access _ _) (.seq (.access _ _) (.seq (.access _ _) .skip))
  have hjoin : stopReceiver.Trace [.acquire .lifecycle .exclusive, .access .receiveThread false,
      .acquire .receiveThread .exclusive, .release .receiveThread, .access .receiveThread true, .release .lifecycle] :=
    .locked (.seq (.access _ _) (.seq (.second (.seq (.locked .skip) (.seq (.access _ _) .skip))) .skip))
  have hagain : stopReceiver.Trace [.acquire .lifecycle .exclusive, .access .receiveThread false, .release .lifecycle] :=
    .locked (.seq (.access _ _) (.seq (.first .skip) .skip))
  have hinit : initServer.Trace [] := .seq (.done _) (.seq (.first .skip) .skip)
  have hdestroy : destroyServer.Trace [] := .seq (.first .skip) (.seq (.first .skip) .skip)
  have hstop : stopRuntime.Trace [] := .first .skip
  exact .seq (.first .skip) (.seq (.second (.seq hinit (.seq (.first hlog) (.seq (.second (.seq hjoin (.seq hagain .skip)))
    (.seq hdestroy .skip))))) (.seq hstop .skip))

/-- The main thread waits for the receive thread, which has begun. -/
def joining : List (Locking.Act Thread Lock Var) :=
  [.begin .receive receiving, .begin .main stopping, .next .receive, .next .main, .next .main, .next .main, .next .main,
    .next .main, .next .receive, .next .receive]

theorem joining_calls : ∀ a ∈ joining, Calls program a := by
  intro a ha
  simp only [joining, List.mem_cons, List.not_mem_nil, or_false] at ha
  rcases ha with rfl | rfl | rfl | rfl | rfl | rfl | rfl | rfl | rfl | rfl
  · exact receiving_trace
  · exact stopping_trace
  all_goals trivial

theorem threads_no_deadlock_joining : ∃ s, run Locking.step (.start Thread Lock Var) joining = some s ∧
    s.WaitsFor .main .receive ∧ (∃ j, Relation.ReflTransGen s.WaitsFor .main j ∧ s.Unblocked j) ∧
    ∃ (js : List Thread) (t : Locking.State Thread Lock Var), run Locking.step s (js.map .next) = some t ∧
      (∀ i, t.rest i = []) ∧ ∀ l, t.holders l = [] := by
  refine ⟨_, rfl, ⟨.receiveThread, .exclusive, _, rfl, .exclusive, List.mem_cons_self⟩, ?_⟩
  obtain ⟨hleads, hends⟩ := threads_no_deadlock joining_calls rfl
  exact ⟨hleads .main (List.cons_ne_nil _ _), hends⟩

end CanMonitor.Service.Threads
