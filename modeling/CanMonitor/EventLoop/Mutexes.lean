import CanMonitor.EventLoop.Timeout
import CanMonitor.Library.Holders

/-!
# The mutexes of a connection

`read_mutex_` and `write_mutex_` of a connection let one worker at a time into `handleRead` and
one into `handleWrite`, whatever tasks the pool has for it. The connection of a task was found in
the connection table, and may have been removed since.

## What is proved

* `steps_of_work` — a step of a worker takes a mutex that is free, gives back its own, or does
  nothing to them.
* `Handles.step` — every step keeps it that a worker is in a handler of a connection exactly if
  the mutex is taken, and that what the threads have in hand was found in the table.
-/

namespace CanMonitor.EventLoop

open CanMonitor.Library

/-! ### Workers in a handler -/

/-- The two functions that have a mutex of their own. -/
inductive Handler where
  | read
  | write
  deriving DecidableEq, Repr

/-- The handler that a worker is in after it has taken the lock. -/
def Worker.handler : Worker → Option (Handler × Conn)
  | .reading job | .parsing job | .readFailed job => some (.read, job.conn)
  | .updating job .parse _ | .updating job .endRead _ => some (.read, job.conn)
  | .updating job .endWrite _ => some (.write, job.conn)
  | .writing job | .writeFailed job => some (.write, job.conn)
  | .idle | .started _ | .wantRead _ | .checking _ | .wantWrite _ => none

/-- Is the mutex of a handler taken? -/
def State.locked (s : State) : Handler × Conn → Bool
  | (.read, conn) => (s.data conn).readLocked
  | (.write, conn) => (s.data conn).writeLocked

variable {s s' : State} {w : ℕ} {worker worker' : Worker}

theorem locked_of_data (h : ∀ conn, (s'.data conn).readLocked = (s.data conn).readLocked ∧
    (s'.data conn).writeLocked = (s.data conn).writeLocked) : s'.locked = s.locked := by
  funext ⟨handler, conn⟩
  cases handler with
  | read => exact (h conn).1
  | write => exact (h conn).2

theorem locked_setData {conn : Conn} {data : ConnData} (hread : data.readLocked = (s.data conn).readLocked)
    (hwrite : data.writeLocked = (s.data conn).writeLocked) : (s.setData conn data).locked = s.locked := by
  refine locked_of_data fun c => ?_
  by_cases hc : c = conn
  · subst hc
    simp [State.setData, hread, hwrite]
  · simp [State.setData, hc]

theorem locked_setRead (s : State) (conn : Conn) (locked : Bool) :
    (s.setData conn { s.data conn with readLocked := locked }).locked =
      Function.update s.locked (.read, conn) locked := by
  funext ⟨handler, c⟩
  by_cases hc : c = conn
  · subst hc
    cases handler <;> simp [State.locked, State.setData]
  · cases handler <;> simp [State.locked, State.setData, hc]

theorem locked_setWrite (s : State) (conn : Conn) (locked : Bool) :
    (s.setData conn { s.data conn with writeLocked := locked }).locked =
      Function.update s.locked (.write, conn) locked := by
  funext ⟨handler, c⟩
  by_cases hc : c = conn
  · subst hc
    cases handler <;> simp [State.locked, State.setData]
  · cases handler <;> simp [State.locked, State.setData, hc]

@[simp] theorem removeEvent_data (s : State) (fd : Fd) (expected : Option Conn) (cause : Cause) :
    (s.removeEvent fd expected cause).data = s.data := by
  unfold State.removeEvent
  split
  · rfl
  · split_ifs <;> rfl

@[simp] theorem removeEvent_workers (s : State) (fd : Fd) (expected : Option Conn) (cause : Cause) :
    (s.removeEvent fd expected cause).workers = s.workers := by
  unfold State.removeEvent
  split
  · rfl
  · split_ifs <;> rfl

@[simp] theorem removeEvent_taskQueue (s : State) (fd : Fd) (expected : Option Conn) (cause : Cause) :
    (s.removeEvent fd expected cause).taskQueue = s.taskQueue := by
  unfold State.removeEvent
  split
  · rfl
  · split_ifs <;> rfl

/-- Where a worker is when its `updateEvent` is over. -/
def AfterUpdate.place (job : Job) : AfterUpdate → Worker
  | .parse => .parsing job
  | .endRead => .checking job
  | .endWrite => .idle

/-- What a step of a worker does to the list of workers and to the locks. -/
def Steps (s s' : State) (w : ℕ) (worker worker' : Worker) : Prop :=
  s'.workers = s.workers.set w worker' ∧ Shift Worker.handler s.locked s'.locked worker worker'

theorem steps_setWorker {t : State} (hworkers : t.workers = s.workers) (hdata : t.data = s.data)
    (h : worker'.handler = worker.handler) : Steps s (t.setWorker w worker') w worker worker' := by
  refine ⟨by rw [State.setWorker, hworkers], .stays h ?_⟩
  exact locked_of_data fun conn => by simp [State.setWorker, hdata]

theorem steps_endRead {t : State} (hworkers : t.workers = s.workers) (hdata : t.data = s.data) {job : Job}
    (h : worker.handler = some (.read, job.conn)) : Steps s (t.endRead w job) w worker (.checking job) := by
  refine ⟨by rw [State.endRead, State.setWorker, State.setData, hworkers], .leaves _ h rfl ?_⟩
  have hlocked : t.locked = s.locked := locked_of_data fun conn => by rw [hdata]; exact ⟨rfl, rfl⟩
  exact (locked_setRead t job.conn false).trans (by rw [hlocked])

theorem steps_endWrite {t : State} (hworkers : t.workers = s.workers) (hdata : t.data = s.data) {job : Job}
    (h : worker.handler = some (.write, job.conn)) : Steps s (t.endWrite w job) w worker .idle := by
  refine ⟨by rw [State.endWrite, State.setWorker, State.setData, hworkers], .leaves _ h rfl ?_⟩
  have hlocked : t.locked = s.locked := locked_of_data fun conn => by rw [hdata]; exact ⟨rfl, rfl⟩
  exact (locked_setWrite t job.conn false).trans (by rw [hlocked])

theorem steps_afterUpdate {t : State} (hworkers : t.workers = s.workers) (hdata : t.data = s.data) (job : Job)
    (next : AfterUpdate) (found : Bool) :
    Steps s (t.afterUpdate w job next) w (.updating job next found) (next.place job) := by
  cases next with
  | parse => exact steps_setWorker hworkers hdata rfl
  | endRead => exact steps_endRead hworkers hdata rfl
  | endWrite => exact steps_endWrite hworkers hdata rfl

/-- A step after which the worker is where it was. -/
theorem steps_same (hw : s.workers[w]? = some worker) (hworkers : s'.workers = s.workers) (hdata : s'.data = s.data) :
    Steps s s' w worker worker := by
  obtain ⟨hlt, rfl⟩ := List.getElem?_eq_some_iff.mp hw
  refine ⟨by rw [hworkers, List.set_getElem_self], .stays rfl ?_⟩
  exact locked_of_data fun conn => by rw [hdata]; exact ⟨rfl, rfl⟩

theorem Steps.held (h : Steps s s' w worker worker') (hw : s.workers[w]? = some worker)
    (hheld : Held Worker.handler s.locked s.workers) : Held Worker.handler s'.locked s'.workers := by
  rw [h.1]
  exact hheld.shift hw h.2

/-! ### Connections in hand -/

/-- The entries of the connection table that the loop thread has in hand. -/
def LoopState.entries : LoopState → List (Fd × Conn)
  | .pumping items _ | .overflowing items _ _ _ => items.filterMap fun item => item.2.map (item.1, ·)
  | .updating items _ fd conn _ => (fd, conn) :: items.filterMap fun item => item.2.map (item.1, ·)
  | .found event conn | .submitting event conn => conn.toList.map (event.fd, ·)
  | _ => []

/-- The entry of the connection of a task. -/
def Task.entries (task : Task) : List (Fd × Conn) := task.conn.toList.map fun conn => (conn.fd, conn)

/-- The entry of the connection that a worker is at. -/
def Worker.entries : Worker → List (Fd × Conn)
  | .idle => []
  | .started job | .wantRead job | .reading job | .parsing job | .readFailed job | .updating job _ _ | .checking job
  | .wantWrite job | .writing job | .writeFailed job => [(job.conn.fd, job.conn)]

/-- An entry in the table, or one that was removed from it. -/
def State.Knows (s : State) (entry : Fd × Conn) : Prop :=
  s.isRegistered entry.1 entry.2 ∨ 0 < s.closes entry.2 ∧ entry.2.fd = entry.1

/-- What holds of everything that the threads have in hand. -/
structure Met (s : State) (K : Fd × Conn → Prop) : Prop where
  loop : ∀ entry ∈ s.loop.entries, K entry
  tasks : ∀ task ∈ s.taskQueue, ∀ entry ∈ task.entries, K entry
  workers : ∀ worker ∈ s.workers, ∀ entry ∈ worker.entries, K entry

variable {K : Fd × Conn → Prop}

/-- A worker has in hand what it had before, or a task of the queue. -/
theorem Met.work (h : Met s K) (hw : s.workers[w]? = some worker) (hloop : s'.loop = s.loop)
    (htasks : ∀ task ∈ s'.taskQueue, task ∈ s.taskQueue) (hworkers : s'.workers = s.workers.set w worker')
    (hentries : ∀ entry ∈ worker'.entries, entry ∈ worker.entries ∨ ∃ task ∈ s.taskQueue, entry ∈ task.entries) :
    Met s' K := by
  refine ⟨hloop ▸ h.loop, fun task ht => h.tasks task (htasks task ht), fun x hx entry he => ?_⟩
  rw [hworkers] at hx
  rcases List.mem_or_eq_of_mem_set hx with hx | rfl
  · exact h.workers x hx entry he
  · rcases hentries entry he with he | ⟨task, ht, he⟩
    · exact h.workers worker (List.mem_of_getElem? hw) entry he
    · exact h.tasks task ht entry he

/-- **Each step of a worker**: it takes a lock that is free, or gives back its own. -/
theorem steps_of_work {a : WorkAct} (hw : s.workers[w]? = some worker) (ht : WorkTrans s w worker a s') :
    ∃ worker', Steps s s' w worker worker' ∧
      ∀ entry ∈ worker'.entries, entry ∈ worker.entries ∨ ∃ task ∈ s.taskQueue, entry ∈ task.entries := by
  have hkept : ∀ {x : Worker}, x.entries = worker.entries ∨ x.entries = [] → ∀ entry ∈ x.entries,
      entry ∈ worker.entries ∨ ∃ task ∈ s.taskQueue, entry ∈ task.entries := by
    rintro x (hx | hx) entry he
    · exact .inl (hx ▸ he)
    · rw [hx] at he
      cases he
  cases ht with
  | take task taskQueue hqueue =>
    refine ⟨task.start, steps_setWorker rfl rfl ?_, fun entry he => .inr ⟨task, hqueue ▸ List.mem_cons_self, ?_⟩⟩
    · unfold Task.start
      cases task.conn <;> rfl
    · unfold Task.start at he
      unfold Task.entries
      cases hconn : task.conn with
      | none =>
        rw [hconn] at he
        cases he
      | some conn =>
        rw [hconn] at he
        exact he
  | failed job => exact ⟨_, steps_setWorker (by simp) (by simp) rfl, hkept (.inr rfl)⟩
  | toRead | toCheck | bad | written => exact ⟨_, steps_setWorker rfl rfl rfl, hkept (.inl rfl)⟩
  | toWrite | done => exact ⟨_, steps_setWorker rfl rfl rfl, hkept (by first | exact .inl rfl | exact .inr rfl)⟩
  | lockRead job hlock => exact ⟨_, ⟨rfl, .enters _ rfl rfl hlock (locked_setRead s _ true)⟩, hkept (.inl rfl)⟩
  | lockWrite job hlock => exact ⟨_, ⟨rfl, .enters _ rfl rfl hlock (locked_setWrite s _ true)⟩, hkept (.inl rfl)⟩
  | read job | write job => exact ⟨_, steps_same hw rfl rfl, hkept (.inl rfl)⟩
  | drained job | closed job | writeFails job => exact ⟨_, steps_setWorker rfl rfl rfl, hkept (.inl rfl)⟩
  | parsedAll job => exact ⟨_, steps_endRead rfl rfl rfl, hkept (.inl rfl)⟩
  | dispatch job stream => exact ⟨_, ⟨rfl, .stays rfl (locked_setData rfl rfl)⟩, hkept (.inl rfl)⟩
  | lookup job next => exact ⟨_, steps_setWorker rfl rfl (by cases next <;> rfl), hkept (.inl rfl)⟩
  | lost job next | modify job next =>
    exact ⟨_, steps_afterUpdate rfl rfl job next _,
      hkept (by cases next <;> simp [AfterUpdate.place, Worker.entries])⟩
  | removeRead job => exact ⟨_, steps_endRead (by simp) (by simp) rfl, hkept (.inl rfl)⟩
  | removeWrite job => exact ⟨_, steps_endWrite (by simp) (by simp) rfl, hkept (.inr rfl)⟩
  | again job => exact ⟨_, steps_endWrite rfl rfl rfl, hkept (.inr rfl)⟩

theorem taskQueue_of_work {a : WorkAct} (ht : WorkTrans s w worker a s') :
    ∀ task ∈ s'.taskQueue, task ∈ s.taskQueue := by
  cases ht with
  | take task taskQueue hqueue =>
    intro t ht
    rw [hqueue]
    exact List.mem_cons_of_mem task ht
  | failed | removeRead | removeWrite => simp [State.setWorker, State.endRead, State.endWrite, State.setData]
  | lost job next | modify job next => cases next <;> exact fun _ => id
  | _ => exact fun _ => id

/-! ### The loop thread -/

/-- The loop thread leaves the workers and their locks alone. -/
theorem workers_of_loop {a : LoopAct} (ht : LoopTrans s a s') : s'.workers = s.workers ∧ s'.locked = s.locked := by
  have hsame : ∀ {t : State}, t.workers = s.workers → t.data = s.data → t.workers = s.workers ∧ t.locked = s.locked :=
    fun hworkers hdata => ⟨hworkers, locked_of_data fun conn => by rw [hdata]; exact ⟨rfl, rfl⟩⟩
  cases ht with
  | pumped | nothing => exact ⟨rfl, locked_setData rfl rfl⟩
  | timeOut | drop | failed => exact hsame (removeEvent_workers ..) (removeEvent_data ..)
  | addEvent conn =>
    unfold State.addEvent
    split_ifs <;> exact hsame rfl rfl
  | _ => exact hsame rfl rfl

/-- The entries of connections among these. -/
theorem mem_clients {items : List (Σ _ : Fd, Option Conn)} {entry : Fd × Conn}
    (h : entry ∈ items.filterMap fun item => item.2.map (item.1, ·)) : ⟨entry.1, some entry.2⟩ ∈ items := by
  obtain ⟨⟨fd, conn⟩, hitem, hconn⟩ := List.mem_filterMap.mp h
  obtain ⟨c, rfl, rfl⟩ := Option.map_eq_some_iff.mp hconn
  exact hitem

/-- What the loop thread has in hand was in its hand before, or it is in the table. -/
theorem entries_of_loop {a : LoopAct} (ht : LoopTrans s a s') {entry : Fd × Conn} (he : entry ∈ s'.loop.entries) :
    entry ∈ s.loop.entries ∨ s.isRegistered entry.1 entry.2 := by
  cases ht with
  | snapshot items h hitems => exact .inr (AList.mem_lookup_iff.mpr (hitems.mem_iff.mp (mem_clients he)))
  | skip appended overflow fd conn items overflowed h =>
    rw [h]
    exact .inl (((List.sublist_cons_self ..).filterMap _).mem he)
  | full _ _ _ _ _ _ h | nothing _ _ _ _ _ h =>
    rw [h]
    exact .inl (List.mem_cons_of_mem _ he)
  | pumped _ _ _ _ _ h =>
    rw [h]
    exact .inl he
  | lookup _ _ _ _ h =>
    rw [h]
    exact .inl he
  | lost _ _ _ _ h | modify _ _ _ _ h =>
    rw [h]
    exact .inl (List.mem_cons_of_mem _ he)
  | checkOverflow _ _ _ _ h | updateTimer _ _ _ h =>
    rw [h]
    exact .inl he
  | found event batch conn h hbatch hfd hsubmits hconn =>
    obtain ⟨c, hc, rfl⟩ := List.mem_map.mp he
    obtain rfl := Option.mem_toList.mp hc
    exact .inr hconn
  | failed => exact .inl (by rwa [removeEvent_loop] at he)
  | gone | pass => exact .inl he
  | _ => cases he

/-- The queue has what it had, and what the loop thread was about to submit. -/
theorem taskQueue_of_loop {a : LoopAct} (ht : LoopTrans s a s') {task : Task} (htask : task ∈ s'.taskQueue) :
    task ∈ s.taskQueue ∨ ∃ fd, ∀ conn ∈ task.conn, (fd, conn) ∈ s.loop.entries := by
  cases ht with
  | submit event conn h =>
    rcases List.mem_append.mp htask with htask | htask
    · exact .inl htask
    · obtain rfl := List.mem_singleton.mp htask
      rw [h]
      exact .inr ⟨event.fd, fun c hc => List.mem_map_of_mem (Option.mem_toList.mpr hc)⟩
  | timeOut | drop => exact .inl ((removeEvent_taskQueue s _ _ _) ▸ htask)
  | failed => exact .inl (by rwa [removeEvent_taskQueue] at htask)
  | addEvent conn =>
    unfold State.addEvent at htask
    split_ifs at htask <;> exact .inl htask
  | _ => exact .inl htask

/-- What the loop thread has in hand was in its hand, or is in the table. -/
theorem met_of_loop {a : LoopAct} (h : Met s K) (hreg : ∀ fd conn, s.isRegistered fd conn → K (fd, conn))
    (hsame : ∀ fd conn, K (fd, conn) → conn.fd = fd) (ht : LoopTrans s a s') : Met s' K := by
  refine ⟨fun entry he => ?_, fun task htask entry he => ?_, by rw [(workers_of_loop ht).1]; exact h.workers⟩
  · rcases entries_of_loop ht he with he | he
    · exact h.loop entry he
    · exact hreg _ _ he
  · rcases taskQueue_of_loop ht htask with htask | ⟨fd, htask⟩
    · exact h.tasks task htask entry he
    · obtain ⟨conn, hconn, rfl⟩ := List.mem_map.mp he
      have hmem := h.loop _ (htask conn (Option.mem_toList.mp hconn))
      rw [hsame fd conn hmem]
      exact hmem

/-! ### Every step -/

theorem Entered.knows_fd (h : Entered s) {fd : Fd} {conn : Conn} (hk : s.Knows (fd, conn)) : conn.fd = fd :=
  hk.elim (fun hreg => (h.isRegistered hreg).1) And.right

/-- An entry that was in the table is in it, or its connection was removed. -/
theorem Entered.knows_step (h : Entered s) {a : Act} (hs : EventLoop.step s a = some s') {entry : Fd × Conn}
    (hk : s.Knows entry) : s'.Knows entry := by
  obtain ⟨fd, conn⟩ := entry
  obtain rfl : conn.fd = fd := h.knows_fd hk
  have hcloses := closes_of_step h hs conn
  by_cases hreg : s'.isRegistered conn.fd conn
  · exact .inl hreg
  · refine .inr ⟨?_, rfl⟩
    rw [hcloses]
    rcases hk with hk | hk
    · rw [if_pos ⟨hk, hreg⟩]
      exact Nat.succ_pos _
    · exact Nat.lt_of_lt_of_le hk.1 (Nat.le_add_right _ _)

/-- The mutexes, the tables and what is in hand. -/
structure Handles (s : State) : Prop where
  entered : Entered s
  ledger : Ledger s
  held : Held Worker.handler s.locked s.workers
  met : Met s s.Knows

theorem handles_start (listenFd numThreads : ℕ) : Handles (.start listenFd numThreads) := by
  refine ⟨entered_start listenFd numThreads, ledger_start listenFd numThreads, held_of_forall ?_ ?_, ?_, ?_, ?_⟩
  · intro worker hworker
    rw [List.eq_of_mem_replicate hworker]
    rfl
  · rintro ⟨handler, conn⟩
    cases handler <;> rfl
  · exact fun entry he => absurd he List.not_mem_nil
  · exact fun task htask => absurd htask List.not_mem_nil
  · intro worker hworker entry he
    rw [List.eq_of_mem_replicate hworker] at he
    cases he

theorem Met.mono {L : Fd × Conn → Prop} (h : Met s K) (hKL : ∀ entry, K entry → L entry) : Met s L :=
  ⟨fun entry he => hKL entry (h.loop entry he), fun task ht entry he => hKL entry (h.tasks task ht entry he),
    fun worker hw entry he => hKL entry (h.workers worker hw entry he)⟩

/-- **Every step** keeps the mutexes with their handlers. -/
theorem Handles.step (s : State) (a : Act) (s' : State) (h : Handles s) (hs : EventLoop.step s a = some s') :
    Handles s' := by
  obtain ⟨hentered, hledger⟩ := Ledger.step s a s' ⟨h.entered, h.ledger⟩ hs
  have hmono : ∀ entry, s.Knows entry → s'.Knows entry := fun entry => h.entered.knows_step hs
  cases trans_of_step hs with
  | loop a s' ht =>
    obtain ⟨hworkers, hlocked⟩ := workers_of_loop ht
    refine ⟨hentered, hledger, ?_, ?_⟩
    · rw [hworkers, hlocked]
      exact h.held
    · exact (met_of_loop h.met (fun fd conn => .inl) (fun fd conn => h.entered.knows_fd) ht).mono hmono
  | work w worker a s' hw ht =>
    obtain ⟨worker', hsteps, hentries⟩ := steps_of_work hw ht
    exact ⟨hentered, hledger, hsteps.held hw h.held,
      (h.met.work hw (loop_of_work ht) (taskQueue_of_work ht) hsteps.1 hentries).mono hmono⟩

theorem handles_run {listenFd numThreads : ℕ} {as : List Act}
    (h : run EventLoop.step (.start listenFd numThreads) as = some s) : Handles s :=
  run_invariant Handles.step (handles_start listenFd numThreads) h

/-- A connection that was found in the table is in it as long as it was not removed. -/
theorem Handles.registered_iff (h : Handles s) {fd : Fd} {conn : Conn} (hk : s.Knows (fd, conn)) :
    s.isRegistered fd conn ↔ s.closes conn = 0 := by
  obtain rfl : conn.fd = fd := h.entered.knows_fd hk
  constructor
  · intro hreg
    have honce := h.ledger.once conn
    rw [State.opens, if_pos (h.entered.isRegistered hreg).2] at honce
    omega
  · intro hzero
    rcases hk with hk | hk
    · exact hk
    · exact absurd hk.1 (by rw [hzero]; exact Nat.lt_irrefl 0)

end CanMonitor.EventLoop
