import CanMonitor.EventLoop.Table

/-!
# Whose socket it is

A connection keeps the number of its socket, and so do the events that `epoll_wait` has
reported and the tasks of the pool. When the connection is closed the number is free, and
the next `accept` may return it. `removeEvent`, `updateEvent` and `isRegistered` compare
the connection with the one in the table; `handleRead` does not, nor does `handleEvents`
for an event of an earlier connection, and what was compared may be out of date when
`epoll_ctl` or `write` is reached.

## What is proved

* `identity_kept` — as long as `accept` returns no number that is still in use in this
  way (`State.uses`), whatever is done for an event is done to the socket it was about.
* `reuse_misdirects` — the next system call of a worker that uses a number which `accept`
  has given out again is made on the socket of another connection.
* `late_task_reads` — it happens: a task that was queued before its connection was closed
  reads what was sent to the next one.
-/

namespace CanMonitor.EventLoop

open CanMonitor.Library

/-- Whom a system call is made for. -/
def Cause.owner : Cause → Option Socket
  | .event origin => some origin
  | .stream conn => some (.client conn)
  | .timeout _ => none

/-- A system call acts on the socket it was made for, or fails. -/
def Effect.OnOwn (e : Effect) : Prop := ∀ owner ∈ e.cause.owner, ∀ socket ∈ e.target, socket = owner

instance (e : Effect) : Decidable e.OnOwn := inferInstanceAs (Decidable (∀ owner ∈ e.cause.owner, _))

/-! ### Numbers in use -/

/-- `handleEvents` goes by the number of an event, unless it passes it over. -/
def Event.uses (event : Event) : List (Fd × Socket) :=
  if event.revents.submits || event.revents.epollerr then [(event.fd, event.origin)] else []

/-- A task will read without looking in the table. -/
def Task.uses (task : Task) : List (Fd × Socket) :=
  match task.conn with
  | some conn => if !task.revents.epollerr && task.revents.reads then [(conn.fd, task.origin)] else []
  | none => []

/-- The number of a job and what it is used for. -/
def Job.use (job : Job) : Fd × Socket := (job.conn.fd, job.origin)

/-- A worker that will read, or that has looked in the table and not yet done what for. -/
def Worker.uses : Worker → List (Fd × Socket)
  | .started job => if !job.revents.epollerr && job.revents.reads then [job.use] else []
  | .wantRead job | .reading job | .wantWrite job | .writing job | .updating job _ true => [job.use]
  | _ => []

/-- The loop thread, likewise. -/
def LoopState.uses : LoopState → List (Fd × Socket)
  | .found event conn | .submitting event conn => (Task.mk conn event.revents event.origin).uses
  | .updating _ _ fd conn true => [(fd, .client conn)]
  | _ => []

/-- The numbers that will be used without another look in the table, and for what. -/
def State.uses (s : State) : List (Fd × Socket) :=
  s.batch.flatMap Event.uses ++ s.loop.uses ++ s.taskQueue.flatMap Task.uses ++ s.workers.flatMap Worker.uses

/-- `accept` returns no number in use. -/
def Unused (s : State) : Act → Prop
  | .loop (.accept fd) => ∀ u ∈ s.uses, u.1 ≠ fd
  | _ => True

instance : ∀ s a, Decidable (Unused s a) := fun s a =>
  match a with
  | .loop (.accept fd) => inferInstanceAs (Decidable (∀ u ∈ s.uses, u.1 ≠ fd))
  | .loop (.wait _) | .loop (.tick _) | .loop .lookupExpired | .loop .judge | .loop (.renew _) | .loop .timeOut
  | .loop (.snapshot _) | .loop (.pump _ _) | .loop .lookup | .loop .modify | .loop .checkOverflow | .loop .drop
  | .loop .handle | .loop (.updateTimer _) | .loop .submit | .loop .acceptFails | .loop .addEvent
  | .loop (.addTimer _) | .work _ _ => isTrue trivial

/-! ### What the tasks are for -/

/-- The connection of a task with what its event was about. -/
def Task.links (task : Task) : List (Conn × Socket) := task.conn.toList.map fun conn => (conn, task.origin)

/-- The connection of the task that a worker is at, with what its event was about. -/
def Worker.links : Worker → List (Conn × Socket)
  | .idle => []
  | .started job | .wantRead job | .reading job | .parsing job | .readFailed job | .updating job _ _ | .checking job
  | .wantWrite job | .writing job | .writeFailed job => [(job.conn, job.origin)]

/-- The connection of the task that the loop thread has in hand, with what its event was about. -/
def LoopState.links : LoopState → List (Conn × Socket)
  | .found event conn | .submitting event conn => (Task.mk conn event.revents event.origin).links
  | _ => []

/-- The connections of all tasks, with what their events were about. -/
def State.links (s : State) : List (Conn × Socket) :=
  s.loop.links ++ s.taskQueue.flatMap Task.links ++ s.workers.flatMap Worker.links

/-- What holds as long as no number in use is given out again. -/
structure Owned (s : State) : Prop where
  /-- The number of an entry denotes the socket of the entry. -/
  table : ∀ fd conn, s.connMap.lookup fd = some conn → s.fdTable fd = some (socketOf conn)
  /-- A connection keeps the number that denotes its socket. -/
  numbered : ∀ fd conn, s.fdTable fd = some (.client conn) → conn.fd = fd
  /-- What was accepted and not yet registered is open, and its number has no entry. -/
  accepted : ∀ conn, s.loop = .accepted conn →
    s.fdTable conn.fd = some (.client conn) ∧ s.connMap.lookup conn.fd = none
  /-- A number in use denotes what it is used for, or nothing. -/
  safe : Safe s.fdTable s.uses
  /-- An event is handled for the connection it was about. -/
  links : ∀ l ∈ s.links, l.2 = .client l.1
  /-- So were those before. -/
  effects : ∀ e ∈ s.effects, e.OnOwn

/-! ### Members -/

variable {s : State}

/-- A number in use, by where it is used. -/
theorem State.mem_uses {u : Fd × Socket} : u ∈ s.uses ↔
    (∃ event ∈ s.batch, u ∈ event.uses) ∨ u ∈ s.loop.uses ∨ (∃ task ∈ s.taskQueue, u ∈ task.uses) ∨
      ∃ worker ∈ s.workers, u ∈ worker.uses := by
  simp only [State.uses, List.mem_append, List.mem_flatMap, or_assoc]

/-- What is handled, by where. -/
theorem State.mem_links {l : Conn × Socket} : l ∈ s.links ↔
    l ∈ s.loop.links ∨ (∃ task ∈ s.taskQueue, l ∈ task.links) ∨ ∃ worker ∈ s.workers, l ∈ worker.links := by
  simp only [State.links, List.mem_append, List.mem_flatMap, or_assoc]

theorem mem_eventUses {event : Event} {u : Fd × Socket} (hu : u ∈ event.uses) : u = (event.fd, event.origin) := by
  unfold Event.uses at hu
  split_ifs at hu
  · exact List.mem_singleton.mp hu
  · cases hu

/-! ### What keeps it -/

theorem Owned.entered (h : Owned s) : Entered s := ⟨h.table, h.numbered, h.accepted⟩

theorem owned_start (listenFd numThreads : ℕ) : Owned (.start listenFd numThreads) := by
  obtain ⟨htable, hnumbered, haccepted⟩ := entered_start listenFd numThreads
  refine ⟨htable, hnumbered, haccepted, ?_, ?_, ?_⟩
  · intro u hu
    rcases State.mem_uses.mp hu with ⟨_, hevent, _⟩ | hu | ⟨_, htask, _⟩ | ⟨worker, hworker, hu⟩
    · cases hevent
    · cases hu
    · cases htask
    · rw [List.eq_of_mem_replicate hworker] at hu
      cases hu
  · intro l hl
    rcases State.mem_links.mp hl with hl | ⟨_, htask, _⟩ | ⟨worker, hworker, hl⟩
    · cases hl
    · cases htask
    · rw [List.eq_of_mem_replicate hworker] at hl
      cases hl
  · intro e he
    cases he

/-- A worker uses its number, and for its connection. -/
theorem Owned.worker (h : Owned s) {w : ℕ} {worker : Worker} (hw : s.workers[w]? = some worker) :
    Safe s.fdTable worker.uses ∧ ∀ l ∈ worker.links, l.2 = .client l.1 := by
  have hmem := List.mem_of_getElem? hw
  constructor
  · intro u hu
    exact h.safe u (State.mem_uses.mpr (.inr (.inr (.inr ⟨worker, hmem, hu⟩))))
  · intro l hl
    exact h.links l (State.mem_links.mpr (.inr (.inr ⟨worker, hmem, hl⟩)))

/-- The loop thread uses its number, and for its connection. -/
theorem Owned.thread (h : Owned s) : Safe s.fdTable s.loop.uses ∧ ∀ l ∈ s.loop.links, l.2 = .client l.1 := by
  constructor
  · intro u hu
    exact h.safe u (State.mem_uses.mpr (.inr (.inl hu)))
  · intro l hl
    exact h.links l (State.mem_links.mpr (.inl hl))

/-- What a worker does next. -/
theorem Owned.setWorker (h : Owned s) (w : ℕ) {worker : Worker} (huses : Safe s.fdTable worker.uses)
    (hlinks : ∀ l ∈ worker.links, l.2 = .client l.1) : Owned (s.setWorker w worker) := by
  refine ⟨h.table, h.numbered, h.accepted, ?_, ?_, h.effects⟩
  · intro u hmem
    rcases State.mem_uses.mp hmem with hu | hu | hu | ⟨worker', hworker, hu⟩
    · exact h.safe u (State.mem_uses.mpr (.inl hu))
    · exact h.safe u (State.mem_uses.mpr (.inr (.inl hu)))
    · exact h.safe u (State.mem_uses.mpr (.inr (.inr (.inl hu))))
    · rcases List.mem_or_eq_of_mem_set hworker with hold | rfl
      · exact h.safe u (State.mem_uses.mpr (.inr (.inr (.inr ⟨worker', hold, hu⟩))))
      · exact huses u hu
  · intro l hmem
    rcases State.mem_links.mp hmem with hl | hl | ⟨worker', hworker, hl⟩
    · exact h.links l (State.mem_links.mpr (.inl hl))
    · exact h.links l (State.mem_links.mpr (.inr (.inl hl)))
    · rcases List.mem_or_eq_of_mem_set hworker with hold | rfl
      · exact h.links l (State.mem_links.mpr (.inr (.inr ⟨worker', hold, hl⟩)))
      · exact hlinks l hl

/-- What the loop thread does next. -/
theorem Owned.setLoop (h : Owned s) (loop : LoopState) (huses : Safe s.fdTable loop.uses)
    (hlinks : ∀ l ∈ loop.links, l.2 = .client l.1)
    (haccepted : ∀ conn, loop = .accepted conn →
      s.fdTable conn.fd = some (.client conn) ∧ s.connMap.lookup conn.fd = none) : Owned { s with loop } := by
  refine ⟨h.table, h.numbered, haccepted, ?_, ?_, h.effects⟩
  · intro u hu
    rcases State.mem_uses.mp hu with hu | hu | hu
    · exact h.safe u (State.mem_uses.mpr (.inl hu))
    · exact huses u hu
    · exact h.safe u (State.mem_uses.mpr (.inr (.inr hu)))
  · intro l hl
    rcases State.mem_links.mp hl with hl | hl
    · exact hlinks l hl
    · exact h.links l (State.mem_links.mpr (.inr hl))

/-- Steps of the loop thread after which it uses no number. -/
theorem Owned.idle (h : Owned s) (loop : LoopState) (huses : loop.uses = []) (hlinks : loop.links = [])
    (haccepted : ∀ conn, loop ≠ .accepted conn) : Owned { s with loop } := by
  apply h.setLoop loop
  · intro u hu
    rw [huses] at hu
    cases hu
  · intro l hl
    rw [hlinks] at hl
    cases hl
  · intro conn hconn
    exact absurd hconn (haccepted conn)

/-- The timer and the connections' own data are of no account. -/
theorem Owned.setTimer (h : Owned s) (timer : Timer) : Owned { s with timer } :=
  ⟨h.table, h.numbered, h.accepted, h.safe, h.links, h.effects⟩

theorem Owned.setData (h : Owned s) (conn : Conn) (data : ConnData) : Owned (s.setData conn data) :=
  ⟨h.table, h.numbered, h.accepted, h.safe, h.links, h.effects⟩

/-- Other events. -/
theorem Owned.setBatch (h : Owned s) {batch : List Event}
    (huses : ∀ event ∈ batch, ∀ u ∈ event.uses, Own s.fdTable u) : Owned { s with batch } := by
  refine ⟨h.table, h.numbered, h.accepted, ?_, h.links, h.effects⟩
  intro u hu
  rcases State.mem_uses.mp hu with ⟨event, hevent, hu⟩ | hu
  · exact huses event hevent u hu
  · exact h.safe u (State.mem_uses.mpr (.inr hu))

/-- The next event is taken. -/
theorem Owned.rest (h : Owned s) {event : Event} {batch : List Event} (hbatch : s.batch = event :: batch) :
    Owned { s with batch } := by
  apply h.setBatch
  intro event' hevent u hu
  refine h.safe u (State.mem_uses.mpr (.inl ⟨event', ?_, hu⟩))
  rw [hbatch]
  exact List.mem_cons_of_mem event hevent

/-- The number of an event that is to be handled is in use. -/
theorem Owned.event (h : Owned s) {event : Event} {batch : List Event} (hbatch : s.batch = event :: batch)
    (hlive : (event.revents.submits || event.revents.epollerr) = true) : Own s.fdTable (event.fd, event.origin) :=
  h.safe _ (by simp [State.uses, hbatch, Event.uses, hlive])

/-- A system call on a number that denotes what it is made for, or nothing. -/
theorem Owned.record (h : Owned s) {cause : Cause} {fd : Fd} (op : Op)
    (hown : ∀ owner ∈ cause.owner, Own s.fdTable (fd, owner)) : Owned (s.record cause op fd) := by
  refine ⟨h.table, h.numbered, h.accepted, h.safe, h.links, ?_⟩
  intro e he
  rcases List.mem_append.mp he with he | he
  · exact h.effects e he
  · obtain rfl := List.mem_singleton.mp he
    intro owner howner socket hsocket
    exact (hown owner howner).eq_of_some hsocket

theorem Owned.epollMod (h : Owned s) {cause : Cause} {fd : Fd} (mask : Events)
    (hown : ∀ owner ∈ cause.owner, Own s.fdTable (fd, owner)) : Owned (s.epollMod cause fd mask) := by
  obtain ⟨htable, hnumbered, haccepted, hsafe, hlinks, heffects⟩ := h.record .epollMod hown
  exact ⟨htable, hnumbered, haccepted, hsafe, hlinks, heffects⟩

/-- A registered connection is removed, for whom its number denotes. -/
theorem Owned.erase (h : Owned s) {cause : Cause} {fd : Fd} {conn : Option Conn}
    (hconn : s.connMap.lookup fd = some conn) (hown : ∀ owner ∈ cause.owner, socketOf conn = owner) :
    Owned (s.erase fd cause) := by
  obtain ⟨htable, hnumbered, haccepted⟩ := h.entered.removes (removes_erase hconn cause)
  have htarget : ∀ owner ∈ cause.owner, ∀ socket ∈ s.fdTable fd, socket = owner := by
    intro owner howner socket hsocket
    exact (Option.some.inj (hsocket.symm.trans (h.table fd conn hconn))).trans (hown owner howner)
  refine ⟨htable, hnumbered, haccepted, h.safe.close fd, h.links, ?_⟩
  intro e he
  rcases List.mem_append.mp he with he | he
  · rcases List.mem_append.mp he with he | he
    · exact h.effects e he
    · obtain rfl := List.mem_singleton.mp he
      exact htarget
  · obtain rfl := List.mem_singleton.mp he
    exact htarget

theorem Owned.removeEvent (h : Owned s) {cause : Cause} {fd : Fd} {expected : Option Conn}
    (hown : ∀ conn, s.connMap.lookup fd = some conn → ¬ (expected.isSome ∧ conn ≠ expected) →
      ∀ owner ∈ cause.owner, socketOf conn = owner) : Owned (s.removeEvent fd expected cause) := by
  unfold State.removeEvent
  split
  · exact h
  · rename_i conn hconn
    split_ifs with hother
    · exact h
    · exact h.erase hconn (hown conn hconn hother)

/-- `removeEvent(fd, conn)` for that connection. -/
theorem Owned.removeOwn (h : Owned s) {cause : Cause} {fd : Fd} {conn : Conn}
    (hown : ∀ owner ∈ cause.owner, owner = .client conn) : Owned (s.removeEvent fd conn cause) := by
  apply h.removeEvent
  intro conn' _ hsame owner howner
  obtain rfl : conn' = some conn := by
    by_contra hne
    exact hsame ⟨rfl, hne⟩
  exact (hown owner howner).symm

/-- A system call of a worker that uses its number. -/
theorem Owned.recordJob (h : Owned s) {job : Job} (huse : Own s.fdTable job.use) (op : Op) :
    Owned (s.record job.cause op job.conn.fd) :=
  h.record op fun _ howner => Option.some.inj howner ▸ huse

/-- `removeEvent` by a worker. -/
theorem Owned.removeJob (h : Owned s) {job : Job} (hjob : job.origin = .client job.conn) :
    Owned (s.removeEvent job.conn.fd job.conn job.cause) :=
  h.removeOwn fun _ howner => (Option.some.inj howner).symm.trans hjob

/-- A registered connection has its own number. -/
theorem Owned.use_of_isRegistered (h : Owned s) {job : Job} (hjob : job.origin = .client job.conn)
    (hreg : s.isRegistered job.conn.fd job.conn) : Safe s.fdTable [job.use] := by
  rintro _ (_ | ⟨_, ⟨⟩⟩)
  exact .of_eq ((h.table job.conn.fd job.conn hreg).trans (congrArg some hjob.symm))

theorem Owned.endRead (h : Owned s) (w : ℕ) {job : Job} (hjob : job.origin = .client job.conn) :
    Owned (s.endRead w job) :=
  (h.setData _ _).setWorker w nofun fun l hl => by rwa [List.mem_singleton.mp hl]

theorem Owned.endWrite (h : Owned s) (w : ℕ) (job : Job) : Owned (s.endWrite w job) :=
  (h.setData _ _).setWorker w nofun nofun

theorem Owned.afterUpdate (h : Owned s) (w : ℕ) {job : Job} (hjob : job.origin = .client job.conn)
    (next : AfterUpdate) : Owned (s.afterUpdate w job next) := by
  cases next with
  | parse => exact h.setWorker w nofun fun l hl => by rwa [List.mem_singleton.mp hl]
  | endRead => exact h.endRead w hjob
  | endWrite => exact h.endWrite w job

/-- A worker takes the first task. -/
theorem Owned.take (h : Owned s) (w : ℕ) {task : Task} {taskQueue : List Task}
    (hqueue : s.taskQueue = task :: taskQueue) : Owned (({ s with taskQueue } : State).setWorker w task.start) := by
  have hmem : ∀ task' ∈ taskQueue, task' ∈ s.taskQueue := fun task' htask => hqueue ▸ List.mem_cons_of_mem task htask
  have hfirst : task ∈ s.taskQueue := hqueue ▸ List.mem_cons_self
  have hrest : Owned { s with taskQueue } := by
    refine ⟨h.table, h.numbered, h.accepted, ?_, ?_, h.effects⟩
    · intro u hu
      rcases State.mem_uses.mp hu with hu | hu | ⟨task', htask, hu⟩ | hu
      · exact h.safe u (State.mem_uses.mpr (.inl hu))
      · exact h.safe u (State.mem_uses.mpr (.inr (.inl hu)))
      · exact h.safe u (State.mem_uses.mpr (.inr (.inr (.inl ⟨task', hmem task' htask, hu⟩))))
      · exact h.safe u (State.mem_uses.mpr (.inr (.inr (.inr hu))))
    · intro l hl
      rcases State.mem_links.mp hl with hl | ⟨task', htask, hl⟩ | hl
      · exact h.links l (State.mem_links.mpr (.inl hl))
      · exact h.links l (State.mem_links.mpr (.inr (.inl ⟨task', hmem task' htask, hl⟩)))
      · exact h.links l (State.mem_links.mpr (.inr (.inr hl)))
  have huses : Safe s.fdTable task.uses := fun u hu =>
    h.safe u (State.mem_uses.mpr (.inr (.inr (.inl ⟨task, hfirst, hu⟩))))
  have hlinks : ∀ l ∈ task.links, l.2 = .client l.1 := fun l hl =>
    h.links l (State.mem_links.mpr (.inr (.inl ⟨task, hfirst, hl⟩)))
  obtain ⟨conn, revents, origin⟩ := task
  cases conn with
  | none => exact hrest.setWorker w nofun nofun
  | some conn => exact hrest.setWorker w huses hlinks

/-- **Every step of a worker** leaves the numbers with those who use them. -/
theorem Owned.work (h : Owned s) {s' : State} {w : ℕ} {worker : Worker} {a : WorkAct}
    (hw : s.workers[w]? = some worker) (ht : WorkTrans s w worker a s') : Owned s' := by
  obtain ⟨huses, hlinks⟩ := h.worker hw
  cases ht with
  | take task taskQueue hqueue => exact h.take w hqueue
  | failed job => exact (h.removeJob (hlinks _ List.mem_cons_self)).setWorker w nofun nofun
  | toRead job herr hreads => exact h.setWorker w (by simpa [Worker.uses, herr, hreads] using huses) hlinks
  | toCheck job => exact h.setWorker w nofun hlinks
  | lockRead job => exact (h.setData _ _).setWorker w huses hlinks
  | read job => exact h.recordJob (huses _ List.mem_cons_self) .read
  | drained job => exact (h.recordJob (huses _ List.mem_cons_self) .read).setWorker w nofun hlinks
  | closed job => exact (h.recordJob (huses _ List.mem_cons_self) .read).setWorker w nofun hlinks
  | parsedAll job => exact h.endRead w (hlinks _ List.mem_cons_self)
  | bad job => exact h.setWorker w nofun hlinks
  | dispatch job => exact (h.setData _ _).setWorker w nofun hlinks
  | lookup job next hreg => exact h.setWorker w (h.use_of_isRegistered (hlinks _ List.mem_cons_self) hreg) hlinks
  | lost job next => exact h.afterUpdate w (hlinks _ List.mem_cons_self) next
  | modify job next =>
    refine (h.epollMod next.mask fun _ howner => ?_).afterUpdate w (hlinks _ List.mem_cons_self) next
    exact Option.some.inj howner ▸ huses job.use List.mem_cons_self
  | removeRead job => exact (h.removeJob (hlinks _ List.mem_cons_self)).endRead w (hlinks _ List.mem_cons_self)
  | removeWrite job => exact (h.removeJob (hlinks _ List.mem_cons_self)).endWrite w job
  | toWrite job hout hreg => exact h.setWorker w (h.use_of_isRegistered (hlinks _ List.mem_cons_self) hreg) hlinks
  | done job => exact h.setWorker w nofun nofun
  | lockWrite job => exact (h.setData _ _).setWorker w huses hlinks
  | written job => exact h.setWorker w nofun hlinks
  | write job => exact h.recordJob (huses _ List.mem_cons_self) .write
  | again job => exact (h.recordJob (huses _ List.mem_cons_self) .write).endWrite w job
  | writeFails job => exact (h.recordJob (huses _ List.mem_cons_self) .write).setWorker w nofun hlinks

/-- The connection for an event is found. -/
theorem Owned.found (h : Owned s) {event : Event} {conn : Option Conn}
    (hopen : s.fdTable event.fd = some (socketOf conn)) (horigin : socketOf conn = event.origin) :
    Owned { s with loop := .found event conn } := by
  cases conn with
  | none => exact h.idle _ rfl rfl nofun
  | some conn =>
    refine h.setLoop (.found event (some conn)) ?_ ?_ nofun
    · intro u hu
      simp only [LoopState.uses, Task.uses] at hu
      split_ifs at hu
      · obtain rfl := List.mem_singleton.mp hu
        rw [← h.numbered _ _ hopen, horigin] at hopen
        exact .of_eq hopen
      · cases hu
    · intro l hl
      obtain rfl := List.mem_singleton.mp hl
      exact horigin.symm

/-- A task is submitted for an event. -/
theorem Owned.submit (h : Owned s) {event : Event} {conn : Option Conn} (hl : s.loop = .submitting event conn) :
    Owned { s with taskQueue := s.taskQueue ++ [⟨conn, event.revents, event.origin⟩], loop := .handling } := by
  obtain ⟨huses, hlinks⟩ := h.thread
  rw [hl] at huses hlinks
  refine ⟨h.table, h.numbered, nofun, ?_, ?_, h.effects⟩
  · intro u hu
    rcases State.mem_uses.mp hu with hu | hu | ⟨task, htask, hu⟩ | hu
    · exact h.safe u (State.mem_uses.mpr (.inl hu))
    · cases hu
    · rcases List.mem_append.mp htask with htask | htask
      · exact h.safe u (State.mem_uses.mpr (.inr (.inr (.inl ⟨task, htask, hu⟩))))
      · obtain rfl := List.mem_singleton.mp htask
        exact huses u hu
    · exact h.safe u (State.mem_uses.mpr (.inr (.inr (.inr hu))))
  · intro l hl
    rcases State.mem_links.mp hl with hl | ⟨task, htask, hl⟩ | hl
    · cases hl
    · rcases List.mem_append.mp htask with htask | htask
      · exact h.links l (State.mem_links.mpr (.inr (.inl ⟨task, htask, hl⟩)))
      · obtain rfl := List.mem_singleton.mp htask
        exact hlinks l hl
    · exact h.links l (State.mem_links.mpr (.inr (.inr hl)))

/-- A number that is not in use is given out again. -/
theorem Owned.accept (h : Owned s) {fd : Fd} (hl : s.loop = .accepting) (hfree : s.fdTable fd = none)
    (hunused : ∀ u ∈ s.uses, u.1 ≠ fd) : Owned { s with
      fdTable := Function.update s.fdTable fd (some (.client ⟨s.accepted, fd⟩))
      accepted := s.accepted + 1
      loop := .accepted ⟨s.accepted, fd⟩ } := by
  have hsafe := h.safe.bind (o := .client ⟨s.accepted, fd⟩) hunused
  have hlinks := h.links
  rw [State.uses, hl] at hsafe
  rw [State.links, hl] at hlinks
  obtain ⟨htable, hnumbered, haccepted⟩ := h.entered.accept hfree
  exact ⟨htable, hnumbered, haccepted, hsafe, hlinks, h.effects⟩

/-- The new connection is entered in the table. -/
theorem Owned.addEvent (h : Owned s) {conn : Conn} (hl : s.loop = .accepted conn) : Owned
    { s.addEvent conn.fd { epollin := true } conn (.event .listener) with loop := .added conn } := by
  have hidle : Owned { s with loop := .added conn } := h.idle _ rfl rfl nofun
  obtain ⟨htable, hnumbered, haccepted⟩ := h.entered.enter hl
  rw [h.entered.addEvent_eq hl] at htable hnumbered haccepted ⊢
  exact ⟨htable, hnumbered, haccepted, hidle.safe, hidle.links, h.effects⟩

/-- **Every step of the loop thread** keeps it, if `accept` returns no number in use. -/
theorem Owned.loop (h : Owned s) {s' : State} {a : LoopAct} (hunused : Unused s (.loop a))
    (ht : LoopTrans s a s') : Owned s' := by
  cases ht with
  | wait batch hl _ _ hreports =>
    have huses : ∀ event ∈ batch, ∀ u ∈ event.uses, Own s.fdTable u := by
      intro event hevent u hu
      obtain rfl := mem_eventUses hu
      exact .of_eq (hreports event hevent).1
    exact (h.setBatch huses).idle .ticking rfl rfl nofun
  | tick now hl => exact (h.setTimer (s.timer.tick now).2).idle (.expiring _) rfl rfl nofun
  | lookupExpired fd expired hl => exact h.idle _ rfl rfl nofun
  | keep expired fd conn hl hsse => exact h.idle _ rfl rfl nofun
  | giveUp expired fd conn hl hsse => exact h.idle _ rfl rfl nofun
  | renew now expired fd hl => exact (h.setTimer (s.timer.addTimer fd timeoutSec now)).idle (.expiring expired) rfl rfl nofun
  | timeOut expired fd hl =>
    have hremoved : Owned (s.removeEvent fd none (.timeout fd)) := h.removeEvent fun _ _ _ _ => nofun
    exact hremoved.idle (.expiring expired) rfl rfl nofun
  | snapshot items hl hitems => exact h.idle _ rfl rfl nofun
  | skip appended overflow fd conn items overflowed hl hsse => exact h.idle _ rfl rfl nofun
  | full appended overflow fd conn items overflowed hl hsse hover => exact h.idle _ rfl rfl nofun
  | pumped overflow fd conn items overflowed hl hsse hover => exact (h.setData _ _).idle _ rfl rfl nofun
  | nothing overflow fd conn items overflowed hl hsse hover => exact (h.setData _ _).idle _ rfl rfl nofun
  | lookup items overflowed fd conn hl hreg =>
    refine h.setLoop _ (fun u hu => ?_) nofun nofun
    obtain rfl := List.mem_singleton.mp hu
    exact .of_eq (h.table fd conn hreg)
  | lost items overflowed fd conn hl hreg => exact h.idle _ rfl rfl nofun
  | modify items overflowed fd conn hl =>
    have huse : Own s.fdTable (fd, .client conn) := h.thread.1 _ (by simp [hl, LoopState.uses])
    exact (h.epollMod _ fun _ howner => Option.some.inj howner ▸ huse).idle (.overflowing items overflowed fd conn)
      rfl rfl nofun
  | checkOverflow items overflowed fd conn hl => exact h.idle _ rfl rfl nofun
  | pumpedAll overflowed hl => exact h.idle _ rfl rfl nofun
  | drop fd conn overflowed hl =>
    have hown : ∀ owner ∈ (Cause.stream conn).owner, owner = .client conn := fun _ howner =>
      (Option.some.inj howner).symm
    exact (h.removeOwn hown).idle (.dropping overflowed) rfl rfl nofun
  | droppedAll hl => exact h.idle _ rfl rfl nofun
  | listen event batch hl hbatch hfd => exact (h.rest hbatch).idle .accepting rfl rfl nofun
  | found event batch conn hl hbatch hfd hsubmits hconn =>
    have hopen := h.table event.fd conn hconn
    have horigin : socketOf conn = event.origin := (h.event hbatch (by simp [hsubmits])).eq_of_some hopen
    exact (h.rest hbatch).found hopen horigin
  | failed event batch hl hbatch hfd hsubmits herr =>
    apply (h.rest hbatch).removeEvent
    intro conn hconn _ owner howner
    rw [← Option.some.inj howner]
    exact (h.event hbatch (by simp [herr])).eq_of_some (h.table event.fd conn hconn)
  | gone event batch hl hbatch => exact h.rest hbatch
  | pass event batch hl hbatch => exact h.rest hbatch
  | handledAll hl hbatch => exact h.idle _ rfl rfl nofun
  | updateTimer now event conn hl =>
    obtain ⟨huses, hlinks⟩ := h.thread
    rw [hl] at huses hlinks
    exact (h.setTimer (s.timer.updateTimer event.fd timeoutSec now)).setLoop (.submitting event conn) huses hlinks nofun
  | submit event conn hl => exact h.submit hl
  | accept fd hl hfree => exact h.accept hl hfree hunused
  | acceptFails hl => exact h.idle _ rfl rfl nofun
  | addEvent conn hl => exact h.addEvent hl
  | addTimer now conn hl => exact (h.setTimer (s.timer.addTimer conn.fd timeoutSec now)).idle .accepting rfl rfl nofun

/-- **Every step** leaves the numbers with those who use them, if `accept` returns no number in use. -/
theorem Owned.step (s : State) (a : Act) (s' : State) (h : Owned s) (hunused : Unused s a)
    (hs : EventLoop.step s a = some s') : Owned s' := by
  cases trans_of_step hs with
  | loop a s' ht => exact h.loop hunused ht
  | work w worker a s' hw ht => exact h.work hw ht

/-! ### Whole runs -/

/-- **A connection is what its number says**, in a run in which `accept` returns no number
in use: every system call made for an event acts on the socket that the event was about,
or on none, and every one made for a stream on the socket of that stream. -/
theorem identity_kept {listenFd numThreads : ℕ} {as : List Act} {s : State}
    (h : run step (.start listenFd numThreads) as = some s)
    (hunused : Meets Unused step (.start listenFd numThreads) as) : ∀ e ∈ s.effects, e.OnOwn :=
  (run_guarded Owned.step (owned_start listenFd numThreads) hunused h).effects

theorem identity_kept_in_turn : ∃ s, run step (.start 3 2) inTurn = some s ∧ s.effects.length = 8 ∧
    ∀ e ∈ s.effects, e.OnOwn := by
  have h : (run step (.start 3 2) inTurn).map (·.effects.length) = some 8 := by decide +kernel
  obtain ⟨s, hs, hlen⟩ := Option.map_eq_some_iff.mp h
  exact ⟨s, hs, hlen, identity_kept hs (by decide +kernel)⟩

/-! ### A number in use is given out again -/

/-- A number in use that is given out again does not denote any more what it is used for. -/
theorem not_safe_of_accept {s s' : State} {fd : Fd} {u : Fd × Socket} (hu : u ∈ s.uses) (hfd : u.1 = fd)
    (hne : u.2 ≠ .client ⟨s.accepted, fd⟩) (hs : step s (.loop (.accept fd)) = some s') :
    ¬ Safe s'.fdTable s'.uses := by
  cases trans_of_step hs with
  | loop _ _ ht =>
    cases ht with
    | accept _ hl hfree =>
      rw [State.uses, hl] at hu
      exact not_safe_bind hu hfd hne

/-- **The next system call is misdirected**, of a worker that is past all checks. -/
theorem reuse_misdirects {s : State} {w : ℕ} {worker : Worker} {job : Job} {socket : Socket}
    (hw : s.workers[w]? = some worker)
    (hworker : worker = .reading job ∨ worker = .writing job ∨ ∃ next, worker = .updating job next true)
    (hfd : s.fdTable job.conn.fd = some socket) (hne : socket ≠ job.origin) :
    ∃ a s', step s (.work w a) = some s' ∧ ∃ e ∈ s'.effects, ¬ e.OnOwn := by
  have hbad : ∀ op, ¬ Effect.OnOwn ⟨job.cause, op, some socket⟩ := fun op hown => hne (hown _ rfl _ rfl)
  have hopen : s.fdTable job.conn.fd ≠ none := by simp [hfd]
  have hlast : ∀ op, ⟨job.cause, op, some socket⟩ ∈ (s.record job.cause op job.conn.fd).effects := fun op => by
    simp [State.record, hfd]
  rcases hworker with rfl | rfl | ⟨next, rfl⟩
  · exact ⟨.read .data, s.record job.cause .read job.conn.fd, by simp [step, hw, workStep, hopen], _, hlast .read,
      hbad .read⟩
  · exact ⟨.write .taken, s.record job.cause .write job.conn.fd, by simp [step, hw, workStep, hopen], _, hlast .write,
      hbad .write⟩
  · refine ⟨.modify, (s.epollMod job.cause job.conn.fd next.mask).afterUpdate w job next, by simp [step, hw, workStep],
      _, ?_, hbad .epollMod⟩
    cases next <;> exact hlast .epollMod

/-- Two events of a connection are reported one after the other; the first task removes it, and
the next connection is given its number before the second task starts. -/
def lateTask : List Act :=
  acceptTurn 5 ++ readTurn ⟨0, 5⟩ ++ readTurn ⟨0, 5⟩ ++ readToEnd 0 ++ acceptTurn 5 ++
    ([.take, .begin, .lockRead, .read .data] : List WorkAct).map (.work 1)

/-- The second task reads what was sent to the next connection. -/
theorem late_task_reads : ∃ s, run step (.start 3 2) lateTask = some s ∧
    s.effects.getLast? = some ⟨.event (.client ⟨0, 5⟩), .read, some (.client ⟨1, 5⟩)⟩ ∧
      ¬ ∀ e ∈ s.effects, e.OnOwn := by
  have h : (run step (.start 3 2) lateTask).map (·.effects.getLast?) =
      some (some ⟨.event (.client ⟨0, 5⟩), .read, some (.client ⟨1, 5⟩)⟩) := by decide +kernel
  obtain ⟨s, hs, hlast⟩ := Option.map_eq_some_iff.mp h
  refine ⟨s, hs, hlast, fun hall => ?_⟩
  have hown := hall _ (List.mem_of_getLast? hlast)
  exact absurd hown (by decide)

end CanMonitor.EventLoop
