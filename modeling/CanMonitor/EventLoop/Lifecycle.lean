import CanMonitor.EventLoop.Table
import CanMonitor.EventLoop.Timeout

/-!
# The life of the server

`main` makes a `Server`, which opens the listening socket and an event loop, runs the loop
until a signal comes, and destroys both. `~Server` closes the listening socket, and
`~EventLoop` closes what is in `conn_map`, where the listening socket has an entry too; then
the pool is destroyed, which runs the tasks that are left.

## The model

A `Server` has the event loop of `EventLoop.System` from the end of `init` on. Its loop
thread moves while `loop` runs, the workers until they are joined. `closed` is what the
numbers denoted that `init` and the destructors closed; what `removeEvent` closes is in the
`effects` of the event loop. `~EventLoop` holds `conn_mutex_` while it closes and clears, so
that is one step, as `removeEvent` is. Files that a task opens are left out: a number that
denotes no socket may be that of one.

## What is proved

* `Listens` — while the loop runs, the listening socket is open and has its entry, and every
  other open number has the entry of its connection.
* `Counted.step` — of every connection that was accepted the socket is open or was closed once.
* `server_closes` — the same over the whole life of a server: in the end everything is closed,
  each socket once, and from the destructor on the tasks that are left reach no socket.
-/

namespace CanMonitor.EventLoop

open CanMonitor.Library

/-! ### The server -/

/-- How far the server is. -/
inductive Stage where
  /-- Before `init`. -/
  | new
  /-- `init` has failed. -/
  | failed
  /-- `init` has succeeded. -/
  | ready
  /-- In `loop`. -/
  | serving
  /-- `loop` has returned. -/
  | stopped
  /-- `~Server` has closed `listen_fd`. -/
  | closing
  /-- `~EventLoop` has closed what was in `conn_map`, and the pool is being destroyed. -/
  | draining
  /-- The server is destroyed. -/
  | gone
  deriving DecidableEq, Repr

/-- `Server`. -/
structure Server where
  stage : Stage := .new
  /-- `listen_fd`; `none` for `-1`. -/
  listenFd : Option Fd := none
  /-- `event_loop`. -/
  eventLoop : Option State := none
  /-- How many listening sockets were opened. -/
  opened : ℕ := 0
  /-- What the numbers denoted that were closed outside the event loop. -/
  closed : List (Option Socket) := []

/-- What happens to a server. -/
inductive Server.Act where
  /-- `init`, with the answers of `socket`, `bind` and `listen`. -/
  | init (socket : Option Fd) (bind listen : Bool)
  /-- `start`. -/
  | start
  /-- A step of the loop thread or of a worker. -/
  | act (a : EventLoop.Act)
  /-- `loop` returns: `stop_flag_` is set, or `epoll_wait` has failed. -/
  | leave
  /-- `~Server` closes `listen_fd`. -/
  | destroy
  /-- `~EventLoop` closes the numbers in `conn_map`, in this order. -/
  | closeAll (fds : List Fd)
  /-- The pool's workers are joined. -/
  | join
  deriving DecidableEq

/-- `close`, outside the event loop. -/
def State.shut (s : State) (fd : Fd) : State :=
  { s with fdTable := Function.update s.fdTable fd none, interest := Function.update s.interest fd none }

/-- One `close` after the other: what the numbers denoted, and the state after them. -/
def State.shutAll : State → List Fd → List (Option Socket) × State
  | s, [] => ([], s)
  | s, fd :: fds =>
    let (targets, s') := (s.shut fd).shutAll fds
    (s.fdTable fd :: targets, s')

namespace Server

/-- `init`. -/
def init (server : Server) (socket : Option Fd) (bind listen : Bool) : Server :=
  match socket with
  | none => { server with stage := .failed, listenFd := none }
  | some fd =>
    if bind && listen then { server with
      stage := .ready
      listenFd := some fd
      eventLoop := some (.start fd 0)
      opened := server.opened + 1 }
    else { server with
      stage := .failed
      listenFd := none
      opened := server.opened + 1
      closed := server.closed ++ [some .listener] }

/-- One step. -/
def step (server : Server) : Act → Option Server
  | .init socket bind listen => if server.stage = .new then some (server.init socket bind listen) else none
  | .start =>
    if server.stage = .ready then
      some { server with
        stage := .serving
        eventLoop := server.eventLoop.map fun s => { s with workers := List.replicate 4 .idle } }
    else none
  | .act (.loop a) =>
    if server.stage = .serving then
      (server.eventLoop.bind (EventLoop.step · (.loop a))).map fun s => { server with eventLoop := some s }
    else none
  | .act (.work w a) =>
    (server.eventLoop.bind (EventLoop.step · (.work w a))).map fun s => { server with eventLoop := some s }
  | .leave =>
    if server.stage = .serving ∧ ∃ s ∈ server.eventLoop, s.loop = .waiting then some { server with stage := .stopped }
    else none
  | .destroy =>
    if server.stage = .stopped ∨ server.stage = .failed then
      match server.listenFd, server.eventLoop with
      | some fd, some s => some { server with
          stage := .closing
          eventLoop := some (s.shut fd)
          closed := server.closed ++ [s.fdTable fd] }
      | _, _ => some { server with stage := .gone }
    else none
  | .closeAll fds =>
    server.eventLoop.bind fun s =>
      if server.stage = .closing ∧ fds.Perm s.connMap.keys then
        some { server with
          stage := .draining
          eventLoop := some { (s.shutAll fds).2 with connMap := ∅, interest := fun _ => none }
          closed := server.closed ++ (s.shutAll fds).1 }
      else none
  | .join =>
    if server.stage = .draining ∧ ∃ s ∈ server.eventLoop, s.taskQueue = [] ∧ ∀ worker ∈ s.workers, worker = .idle then
      some { server with stage := .gone }
    else none

end Server

/-! ### The listening socket -/

/-- The numbers that the loop thread has in hand. -/
def LoopState.numbers : LoopState → List Fd
  | .expiring expired => expired
  | .judging expired fd _ | .renewing expired fd | .timedOut expired fd => fd :: expired
  | .found event _ | .submitting event _ => [event.fd]
  | .accepted conn | .added conn => [conn.fd]
  | _ => []

/-- The number that was accepted and has no entry yet. -/
def LoopState.fresh : LoopState → List Fd
  | .accepted conn => [conn.fd]
  | _ => []

/-- The listening socket is open and has its entry, and so has every other open number. -/
structure Listens (listenFd : Fd) (fdTable : Fd → Option Socket) (connMap : AList fun _ : Fd => Option Conn)
    (timer : Timer) (loop : LoopState) : Prop where
  listening : fdTable listenFd = some .listener
  entry : connMap.lookup listenFd = some none
  only : ∀ fd, fdTable fd = some .listener → fd = listenFd
  valid : timer.Valid
  /-- It has no deadline, and the loop thread does not mistake it for a connection. -/
  unarmed : timer.fdExpireMap.lookup listenFd = none
  numbers : listenFd ∉ loop.numbers
  held : ∀ fd, fdTable fd ≠ none → fd ∈ connMap ∨ fd ∈ loop.fresh

/-- What `Listens` says, of a whole state. -/
def State.Listens (s : State) : Prop := EventLoop.Listens s.listenFd s.fdTable s.connMap s.timer s.loop

section

variable {listenFd : Fd} {fdTable : Fd → Option Socket} {connMap : AList fun _ : Fd => Option Conn} {timer : Timer}
  {loop l : LoopState}

/-- The loop thread goes on. -/
theorem Listens.setLoop (h : Listens listenFd fdTable connMap timer loop) (hfresh : loop.fresh = [])
    (hnumbers : listenFd ∉ l.numbers) : Listens listenFd fdTable connMap timer l := by
  refine ⟨h.listening, h.entry, h.only, h.valid, h.unarmed, hnumbers, fun fd hfd => .inl ?_⟩
  rcases h.held fd hfd with hmem | hmem
  · exact hmem
  · rw [hfresh] at hmem
    exact absurd hmem List.not_mem_nil

/-- A deadline is set for another number. -/
theorem Listens.addTimer (h : Listens listenFd fdTable connMap timer loop) {fd : Fd} (hfd : listenFd ≠ fd)
    (timeoutSec now : ℤ) : Listens listenFd fdTable connMap (timer.addTimer fd timeoutSec now) loop :=
  ⟨h.listening, h.entry, h.only, h.valid.addTimer fd timeoutSec now,
    (timer.lookup_addTimer_ne hfd timeoutSec now).trans h.unarmed, h.numbers, h.held⟩

/-- `tick` returns no number without a deadline. -/
theorem Listens.tick (h : Listens listenFd fdTable connMap timer loop) (hfresh : loop.fresh = []) (now : ℤ) :
    Listens listenFd fdTable connMap (timer.tick now).2 (.expiring (timer.tick now).1) := by
  have hnot : listenFd ∉ (timer.tick now).1 := by
    intro hmem
    obtain ⟨deadline, -, hlookup⟩ := (h.valid.mem_tick now listenFd).mp hmem
    rw [h.unarmed] at hlookup
    cases hlookup
  have hnext := h.setLoop (l := .expiring (timer.tick now).1) hfresh hnot
  refine ⟨h.listening, h.entry, h.only, h.valid.tick now, ?_, hnot, hnext.held⟩
  rw [h.valid.lookup_tick, if_neg hnot]
  exact h.unarmed

/-- The entry of another number is erased and the number closed. -/
theorem Listens.erase (h : Listens listenFd fdTable connMap timer loop) {fd : Fd} (hfd : listenFd ≠ fd) :
    Listens listenFd (Function.update fdTable fd none) (connMap.erase fd) (timer.removeTimer fd) loop := by
  refine ⟨?_, ?_, ?_, h.valid.removeTimer fd, (timer.lookup_removeTimer_ne hfd).trans h.unarmed, h.numbers, ?_⟩
  · rw [Function.update_of_ne hfd]
    exact h.listening
  · rw [AList.lookup_erase_ne hfd]
    exact h.entry
  · intro fd' hlistener
    by_cases hne : fd' = fd
    · rw [hne, Function.update_self] at hlistener
      cases hlistener
    · rw [Function.update_of_ne hne] at hlistener
      exact h.only fd' hlistener
  · intro fd' hopen
    have hne : fd' ≠ fd := by
      rintro rfl
      exact hopen (Function.update_self ..)
    rw [Function.update_of_ne hne] at hopen
    exact (h.held fd' hopen).imp_left fun hmem => AList.mem_erase.mpr ⟨hne, hmem⟩

end

variable {s s' : State}

/-- `removeEvent` for a connection, or for another number. -/
theorem State.Listens.removeEvent (h : s.Listens) {fd : Fd} {expected : Option Conn}
    (hother : expected.isSome ∨ s.listenFd ≠ fd) (cause : Cause) : (s.removeEvent fd expected cause).Listens := by
  unfold State.removeEvent
  split
  · exact h
  · rename_i conn hconn
    split_ifs with hexpected
    · exact h
    · refine Listens.erase h ?_
      rcases hother with hsome | hne
      · rintro rfl
        obtain rfl : none = conn := Option.some.inj (h.entry.symm.trans hconn)
        refine hexpected ⟨hsome, fun heq => ?_⟩
        rw [← heq] at hsome
        cases hsome
      · exact hne

theorem removeEvent_listenFd (s : State) (fd : Fd) (expected : Option Conn) (cause : Cause) :
    (s.removeEvent fd expected cause).listenFd = s.listenFd := by
  unfold State.removeEvent
  split
  · rfl
  · split_ifs <;> rfl

/-- The loop thread goes on after `removeEvent`. -/
theorem State.Listens.removed (h : s.Listens) {fd : Fd} {expected : Option Conn}
    (hother : expected.isSome ∨ s.listenFd ≠ fd) (cause : Cause) {loop : LoopState} (hfresh : s.loop.fresh = [])
    (hnumbers : s.listenFd ∉ loop.numbers) : State.Listens { s.removeEvent fd expected cause with loop } := by
  refine (h.removeEvent hother cause).setLoop ?_ ?_
  · rw [removeEvent_loop]
    exact hfresh
  · dsimp only
    rw [removeEvent_listenFd]
    exact hnumbers

theorem State.Listens.work {w : ℕ} {worker : Worker} {a : WorkAct} (h : s.Listens) (ht : WorkTrans s w worker a s') :
    s'.Listens := by
  cases ht with
  | failed job => exact h.removeEvent (.inl rfl) job.cause
  | removeRead job => exact h.removeEvent (.inl rfl) job.cause
  | removeWrite job => exact h.removeEvent (.inl rfl) job.cause
  | lost job next => cases next <;> exact h
  | modify job next => cases next <;> exact h
  | _ => exact h

theorem State.Listens.loop {a : LoopAct} (h : s.Listens) (hentered : Entered s) (ht : LoopTrans s a s') : s'.Listens := by
  have hs : EventLoop.Listens s.listenFd s.fdTable s.connMap s.timer s.loop := h
  cases ht with
  | tick now hl =>
    rw [hl] at hs
    exact hs.tick rfl now
  | lookupExpired fd expired hl | keep expired fd conn hl | giveUp expired fd conn hl =>
    rw [hl] at hs
    exact hs.setLoop rfl hs.numbers
  | renew now expired fd hl =>
    rw [hl] at hs
    obtain ⟨hfd, hexpired⟩ := not_or.mp (List.mem_cons.not.mp hs.numbers)
    exact (hs.setLoop (l := .expiring expired) rfl hexpired).addTimer hfd timeoutSec now
  | timeOut expired fd hl =>
    rw [hl] at hs
    obtain ⟨hfd, hexpired⟩ := not_or.mp (List.mem_cons.not.mp hs.numbers)
    exact h.removed (.inr hfd) (.timeout fd) (hl ▸ rfl) hexpired
  | drop fd conn overflowed hl =>
    exact h.removed (.inl rfl) (.stream conn) (hl ▸ rfl) List.not_mem_nil
  | failed event batch hl hbatch hfd =>
    have hrest : State.Listens { s with batch } := h
    exact hrest.removeEvent (.inr (Ne.symm hfd)) (.event event.origin)
  | found event batch conn hl hbatch hfd =>
    rw [hl] at hs
    exact hs.setLoop rfl (List.mem_singleton.not.mpr (Ne.symm hfd))
  | updateTimer now event conn hl =>
    rw [hl] at hs
    exact (hs.setLoop (l := .submitting event conn) rfl hs.numbers).addTimer
      (List.mem_singleton.not.mp hs.numbers) timeoutSec now
  | addTimer now conn hl =>
    rw [hl] at hs
    exact (hs.setLoop (l := .accepting) rfl List.not_mem_nil).addTimer (List.mem_singleton.not.mp hs.numbers) timeoutSec now
  | accept fd hl hfree =>
    have hfd : s.listenFd ≠ fd := by
      rintro rfl
      rw [h.listening] at hfree
      cases hfree
    rw [hl] at hs
    refine ⟨(Function.update_of_ne hfd _ _).trans hs.listening, hs.entry, fun fd' hlistener => ?_, hs.valid, hs.unarmed,
      List.mem_singleton.not.mpr hfd, fun fd' hopen => ?_⟩
    · by_cases hne : fd' = fd
      · rw [hne] at hlistener
        cases (Function.update_self fd _ s.fdTable).symm.trans hlistener
      · exact hs.only fd' ((Function.update_of_ne hne _ _).symm.trans hlistener)
    by_cases hne : fd' = fd
    · exact .inr (List.mem_singleton.mpr hne)
    · replace hopen : Function.update s.fdTable fd _ fd' ≠ none := hopen
      rw [Function.update_of_ne hne] at hopen
      exact .inl ((hs.held fd' hopen).resolve_right List.not_mem_nil)
  | addEvent conn hl =>
    rw [hentered.addEvent_eq hl]
    rw [hl] at hs
    have hfd : s.listenFd ≠ conn.fd := List.mem_singleton.not.mp hs.numbers
    refine ⟨hs.listening, (AList.lookup_insert_ne hfd).trans hs.entry, hs.only, hs.valid, hs.unarmed, hs.numbers,
      fun fd' hopen => ?_⟩
    exact .inl ((AList.mem_insert s.connMap).mpr ((hs.held fd' hopen).symm.imp_left List.mem_singleton.mp))
  | gone | pass => exact h
  | wait | snapshot | skip | full | pumped | nothing | lookup | lost | modify | checkOverflow | pumpedAll | droppedAll
  | listen | handledAll | submit | acceptFails =>
    refine hs.setLoop ?_ List.not_mem_nil
    simp [LoopState.fresh, *]

theorem State.Listens.step (h : s.Listens) (hentered : Entered s) {a : Act} (hs : EventLoop.step s a = some s') :
    s'.Listens := by
  cases trans_of_step hs with
  | loop a s' ht => exact h.loop hentered ht
  | work w worker a s' hw ht => exact h.work ht

theorem listens_start (listenFd numThreads : ℕ) : (State.start listenFd numThreads).Listens := by
  change EventLoop.Listens listenFd (Function.update (fun _ => none) listenFd (some .listener))
    (AList.singleton listenFd none) .empty .waiting
  have hother : ∀ fd : Fd, fd ≠ listenFd →
      Function.update (fun _ => none) listenFd (some Socket.listener) fd = none := fun fd hne =>
    Function.update_of_ne hne _ _
  have hmem : ∀ fd : Fd, fd = listenFd → fd ∈ (AList.singleton listenFd none : AList fun _ : Fd => Option Conn) := by
    rintro fd rfl
    exact List.mem_singleton_self _
  refine ⟨Function.update_self .., ?_, fun fd hfd => ?_, Timer.valid_empty, rfl, List.not_mem_nil, fun fd hopen => ?_⟩
  · exact AList.mem_lookup_iff.mpr (List.mem_singleton_self _)
  · by_contra hne
    rw [hother fd hne] at hfd
    cases hfd
  · by_contra hnot
    exact hopen (hother fd fun heq => hnot (.inl (hmem fd heq)))

/-! ### Every connection that was accepted -/

/-- `f` counts each of the first `n` connections once, and nothing else. -/
structure Counted (n : ℕ) (f : Conn → ℕ) : Prop where
  le_one : ∀ conn, f conn ≤ 1
  unborn : ∀ conn, n ≤ conn.serial → f conn = 0
  unique : ∀ k < n, ∃! conn, conn.serial = k ∧ f conn = 1

/-- One more connection is accepted. -/
theorem Counted.accept {n : ℕ} {f : Conn → ℕ} (h : Counted n f) (fd : Fd) :
    Counted (n + 1) (Function.update f ⟨n, fd⟩ 1) := by
  have hother : ∀ conn : Conn, conn.serial ≠ n → Function.update f ⟨n, fd⟩ 1 conn = f conn := fun conn hne =>
    Function.update_of_ne (fun heq => hne (congrArg Conn.serial heq)) _ _
  refine ⟨fun conn => ?_, fun conn hle => ?_, fun k hk => ?_⟩
  · by_cases hnew : conn = ⟨n, fd⟩
    · rw [hnew, Function.update_self]
    · rw [Function.update_of_ne hnew]
      exact h.le_one conn
  · rw [hother conn (by omega)]
    exact h.unborn conn (by omega)
  · by_cases hlast : k = n
    · subst hlast
      refine ⟨⟨k, fd⟩, ⟨rfl, Function.update_self ..⟩, fun conn ⟨hserial, hone⟩ => ?_⟩
      by_contra hnew
      rw [Function.update_of_ne hnew, h.unborn conn hserial.ge] at hone
      cases hone
    · obtain ⟨conn, ⟨hserial, hone⟩, hunique⟩ := h.unique k (by omega)
      refine ⟨conn, ⟨hserial, ?_⟩, fun conn' ⟨hserial', hone'⟩ => hunique conn' ⟨hserial', ?_⟩⟩
      · rw [hother conn (by omega), hone]
      · rw [← hother conn' (by omega), hone']

/-- How often a socket was closed, or is to be. -/
def State.settled (s : State) (conn : Conn) : ℕ := s.closes conn + s.opens conn

theorem Same.settled (h : Same s s') : s'.settled = s.settled := by
  funext conn
  rw [State.settled, h.closes, State.opens, h.fdTable]
  rfl

/-- **Every step** settles what it opens, once. -/
theorem Counted.step (h : Counted s.accepted s.settled) (hentered : Entered s) {a : Act}
    (hs : EventLoop.step s a = some s') : Counted s'.accepted s'.settled := by
  cases change_of_step hs with
  | same hsame =>
    rw [hsame.accepted, hsame.settled]
    exact h
  | removes fd conn hremoves =>
    have hsettled : s'.settled = s.settled := funext (hremoves.closes_add_opens hentered)
    rw [hremoves.accepted, hsettled]
    exact h
  | accept fd hfree hs =>
    subst hs
    have hunborn := h.unborn ⟨s.accepted, fd⟩ le_rfl
    convert h.accept fd using 1
    funext conn
    by_cases hnew : conn = ⟨s.accepted, fd⟩
    · subst hnew
      rw [Function.update_self]
      have hopens : State.opens { s with
          fdTable := Function.update s.fdTable fd (some (.client ⟨s.accepted, fd⟩))
          accepted := s.accepted + 1
          loop := .accepted ⟨s.accepted, fd⟩ } ⟨s.accepted, fd⟩ = 1 := if_pos (Function.update_self ..)
      have hcloses : s.closes ⟨s.accepted, fd⟩ = 0 := Nat.eq_zero_of_add_eq_zero_right hunborn
      rw [State.settled, hopens]
      exact congrArg (· + 1) hcloses
    · rw [Function.update_of_ne hnew, State.settled, opens_accept hfree hnew]
      rfl
  | enter conn hl hs =>
    rw [hs, hentered.addEvent_eq hl]
    exact h

/-! ### What the workers do while the server is destroyed -/

/-- A worker changes nothing in the tables, or removes a connection. -/
theorem change_of_worker {w : ℕ} {worker : Worker} {a : WorkAct} (ht : WorkTrans s w worker a s') :
    Same s s' ∨ ∃ fd conn, Removes s s' fd (some conn) := by
  have hremove : ∀ (job : Job), Same (s.removeEvent job.conn.fd job.conn job.cause) s' →
      Same s s' ∨ ∃ fd conn, Removes s s' fd (some conn) := by
    intro job hafter
    rcases removeEvent_cases s job.conn.fd job.conn job.cause with hsame | ⟨conn, hremoves, hexpected⟩
    · rw [hsame] at hafter
      exact .inl hafter
    · obtain rfl : conn = some job.conn := hexpected rfl
      exact .inr ⟨_, _, hremoves.trans hafter⟩
  cases ht with
  | failed job => exact hremove job (same_setWorker _ w _)
  | removeRead job => exact hremove job (same_endRead _ w job)
  | removeWrite job => exact hremove job (same_endWrite _ w job)
  | take task taskQueue hqueue => exact .inl ⟨rfl, rfl, rfl, fun _ => rfl, fun _ => id⟩
  | toRead | toCheck | bad | lookup | toWrite | done | written => exact .inl (same_setWorker s w _)
  | lockRead | dispatch | lockWrite => exact .inl ((same_setData s _ _).trans (same_setWorker _ w _))
  | read job => exact .inl (same_record s job.cause .read job.conn.fd nofun)
  | drained job | closed job => exact .inl ((same_record s job.cause .read job.conn.fd nofun).trans (same_setWorker _ w _))
  | parsedAll job => exact .inl (same_endRead s w job)
  | lost job next => exact .inl (same_afterUpdate s w job next)
  | modify job next => exact .inl ((same_epollMod s _ _ _).trans (same_afterUpdate _ w job next))
  | write job => exact .inl (same_record s job.cause .write job.conn.fd nofun)
  | again job => exact .inl ((same_record s job.cause .write job.conn.fd nofun).trans (same_endWrite _ w job))
  | writeFails job => exact .inl ((same_record s job.cause .write job.conn.fd nofun).trans (same_setWorker _ w _))

theorem listenFd_of_work {w : ℕ} {worker : Worker} {a : WorkAct} (ht : WorkTrans s w worker a s') :
    s'.listenFd = s.listenFd := by
  cases ht with
  | failed | removeRead | removeWrite => exact removeEvent_listenFd ..
  | lost job next | modify job next => cases next <;> rfl
  | _ => rfl

theorem listenFd_of_loop {a : LoopAct} (ht : LoopTrans s a s') : s'.listenFd = s.listenFd := by
  cases ht with
  | timeOut | drop | failed => exact removeEvent_listenFd ..
  | addEvent conn =>
    dsimp only
    unfold State.addEvent
    split_ifs <;> rfl
  | _ => rfl

/-- The listening socket is closed, and the connections have their entries. -/
structure Closing (s : State) : Prop where
  closed : s.fdTable s.listenFd = none
  entry : s.connMap.lookup s.listenFd = some none
  only : ∀ fd, s.connMap.lookup fd = some none → fd = s.listenFd
  clients : ∀ fd conn, s.connMap.lookup fd = some (some conn) → s.fdTable fd = some (.client conn)
  numbered : ∀ fd conn, s.fdTable fd = some (.client conn) → conn.fd = fd
  held : ∀ fd, s.fdTable fd ≠ none → ∃ conn, s.connMap.lookup fd = some (some conn)

theorem Closing.work {w : ℕ} {worker : Worker} {a : WorkAct} (h : Closing s) (ht : WorkTrans s w worker a s') :
    Closing s' ∧ s'.accepted = s.accepted ∧ s'.settled = s.settled := by
  have hlistenFd := listenFd_of_work ht
  rcases change_of_worker ht with hsame | ⟨fd, conn, hremoves⟩
  · refine ⟨⟨?_, ?_, ?_, ?_, ?_, ?_⟩, hsame.accepted, hsame.settled⟩
    · rw [hsame.fdTable, hlistenFd]
      exact h.closed
    · rw [hsame.connMap, hlistenFd]
      exact h.entry
    · rw [hsame.connMap, hlistenFd]
      exact h.only
    · rw [hsame.connMap, hsame.fdTable]
      exact h.clients
    · rw [hsame.fdTable]
      exact h.numbered
    · rw [hsame.connMap, hsame.fdTable]
      exact h.held
  · have hne : s.listenFd ≠ fd := by
      rintro rfl
      cases h.entry.symm.trans hremoves.entry
    have hlookup : ∀ fd', s'.connMap.lookup fd' = if fd' = fd then none else s.connMap.lookup fd' := by
      intro fd'
      rw [hremoves.connMap]
      split_ifs with hfd'
      · rw [hfd', AList.lookup_erase]
      · exact AList.lookup_erase_ne hfd'
    have hopen : ∀ fd', s'.fdTable fd' = if fd' = fd then none else s.fdTable fd' := by
      intro fd'
      rw [hremoves.fdTable, Function.update_apply]
    have hsettled : ∀ c, s'.settled c = s.settled c := by
      intro c
      rw [State.settled, State.settled, hremoves.closes, State.opens, State.opens, hopen]
      by_cases hfd : c.fd = fd
      · subst hfd
        simp
      · have hother : s.fdTable fd ≠ some (.client c) := fun heq => hfd (h.numbered fd c heq)
        simp [hfd, hother]
    refine ⟨⟨?_, ?_, ?_, ?_, ?_, ?_⟩, hremoves.accepted, funext hsettled⟩
    · rw [hlistenFd, hopen, if_neg hne]
      exact h.closed
    · rw [hlistenFd, hlookup, if_neg hne]
      exact h.entry
    · intro fd' hentry
      rw [hlookup] at hentry
      split_ifs at hentry
      rw [hlistenFd]
      exact h.only fd' hentry
    · intro fd' conn' hentry
      rw [hlookup] at hentry
      split_ifs at hentry with hfd'
      rw [hopen, if_neg hfd']
      exact h.clients fd' conn' hentry
    · intro fd' conn' hfd'
      rw [hopen] at hfd'
      split_ifs at hfd'
      exact h.numbered fd' conn' hfd'
    · intro fd' hfd'
      rw [hopen] at hfd'
      split_ifs at hfd' with hsame
      · exact absurd rfl hfd'
      · rw [hlookup, if_neg hsame]
        exact h.held fd' hfd'

/-- Everything is closed, and the table is empty. -/
structure Drained (s : State) : Prop where
  fdTable : ∀ fd, s.fdTable fd = none
  connMap : s.connMap = ∅

theorem Drained.work {w : ℕ} {worker : Worker} {a : WorkAct} (h : Drained s) (ht : WorkTrans s w worker a s') :
    Drained s' ∧ s'.accepted = s.accepted ∧ ∀ conn, s'.closes conn = s.closes conn := by
  rcases change_of_worker ht with hsame | ⟨fd, conn, hremoves⟩
  · exact ⟨⟨fun fd => hsame.fdTable ▸ h.fdTable fd, hsame.connMap.trans h.connMap⟩, hsame.accepted, hsame.closes⟩
  · have hentry := hremoves.entry
    rw [h.connMap] at hentry
    cases hentry

/-! ### Closing -/

/-- What the numbers denoted, and what is left. -/
theorem shutAll_eq (s : State) {fds : List Fd} (hnodup : fds.Nodup) :
    (s.shutAll fds).1 = fds.map s.fdTable ∧ ∃ interest, (s.shutAll fds).2 =
      { s with fdTable := fun fd => if fd ∈ fds then none else s.fdTable fd, interest } := by
  induction fds generalizing s with
  | nil => exact ⟨rfl, s.interest, by simp [State.shutAll]⟩
  | cons fd fds ih =>
    obtain ⟨hnot, hrest⟩ := List.nodup_cons.mp hnodup
    obtain ⟨htargets, interest, hstate⟩ := ih (s.shut fd) hrest
    refine ⟨?_, interest, ?_⟩
    · change s.fdTable fd :: ((s.shut fd).shutAll fds).1 = _
      rw [htargets, List.map_cons]
      refine congrArg (_ :: ·) (List.map_congr_left fun fd' hmem => ?_)
      exact Function.update_of_ne (ne_of_mem_of_not_mem hmem hnot) _ _
    · change ((s.shut fd).shutAll fds).2 = _
      rw [hstate]
      unfold State.shut
      congr 1
      funext fd'
      by_cases hfd' : fd' = fd
      · simp [hfd']
      · simp [hfd']

/-- A value that one element of a list has is counted once. -/
theorem count_map_eq_one {α β : Type*} [BEq α] [LawfulBEq α] [BEq β] [LawfulBEq β] {l : List α} (hnodup : l.Nodup) {f : α → β}
    {a : α} {b : β} (ha : a ∈ l) (h : ∀ x ∈ l, f x = b ↔ x = a) : (l.map f).count b = 1 := by
  rw [List.count, List.countP_map, List.countP_congr (q := (· == a)) fun x hx => by simp [h x hx]]
  exact List.count_eq_one_of_mem hnodup ha

/-- **What `~EventLoop` closes**: each connection that is open, and the number of the listening socket, which denotes
nothing any more. -/
theorem Closing.counts (h : Closing s) {fds : List Fd} (hfds : fds.Perm s.connMap.keys) :
    (∀ conn, (fds.map s.fdTable).count (some (.client conn)) = s.opens conn) ∧
      (fds.map s.fdTable).count none = 1 ∧ (fds.map s.fdTable).count (some .listener) = 0 := by
  have hnodup : fds.Nodup := hfds.nodup_iff.mpr s.connMap.keys_nodup
  have hmem : ∀ fd, fd ∈ fds ↔ ∃ conn, s.connMap.lookup fd = some conn := by
    intro fd
    rw [hfds.mem_iff, ← AList.mem_keys, ← AList.lookup_isSome, Option.isSome_iff_exists]
  have hopen : ∀ fd ∈ fds, s.fdTable fd = none ∧ fd = s.listenFd ∨ ∃ conn, s.fdTable fd = some (.client conn) := by
    intro fd hfd
    obtain ⟨conn, hentry⟩ := (hmem fd).mp hfd
    cases conn with
    | none =>
      obtain rfl := h.only fd hentry
      exact .inl ⟨h.closed, rfl⟩
    | some conn => exact .inr ⟨conn, h.clients fd conn hentry⟩
  refine ⟨fun conn => ?_, ?_, ?_⟩
  · by_cases hconn : s.fdTable conn.fd = some (.client conn)
    · obtain ⟨conn', hentry⟩ := h.held conn.fd (by rw [hconn]; exact Option.some_ne_none _)
      rw [State.opens, if_pos hconn]
      refine count_map_eq_one hnodup ((hmem conn.fd).mpr ⟨_, hentry⟩) fun fd _ => ⟨fun hfd => ?_, fun hfd => hfd ▸ hconn⟩
      exact (h.numbered fd conn hfd).symm
    · rw [State.opens, if_neg hconn, List.count_eq_zero]
      intro hin
      obtain ⟨fd, -, hfd⟩ := List.mem_map.mp hin
      rw [← h.numbered fd conn hfd] at hfd
      exact hconn hfd
  · refine count_map_eq_one hnodup ((hmem s.listenFd).mpr ⟨_, h.entry⟩) fun fd hfd => ⟨fun hnone => ?_, fun heq => heq ▸ h.closed⟩
    rcases hopen fd hfd with ⟨-, heq⟩ | ⟨conn, hconn⟩
    · exact heq
    · rw [hconn] at hnone
      cases hnone
  · rw [List.count_eq_zero]
    intro hin
    obtain ⟨fd, hfd, hlistener⟩ := List.mem_map.mp hin
    rcases hopen fd hfd with ⟨hnone, -⟩ | ⟨conn, hconn⟩
    · rw [hnone] at hlistener
      cases hlistener
    · rw [hconn] at hlistener
      cases hlistener

/-! ### Whole lives -/

/-- The loop runs, or has returned. -/
structure Serves (s : State) : Prop where
  entered : Entered s
  listens : s.Listens
  counted : Counted s.accepted s.settled

theorem Serves.step (h : Serves s) {a : Act} (hs : EventLoop.step s a = some s') : Serves s' :=
  ⟨h.entered.step s a s' hs, h.listens.step h.entered hs, h.counted.step h.entered hs⟩

theorem serves_start (listenFd numThreads : ℕ) : Serves (.start listenFd numThreads) := by
  have hnone : ∀ conn, (State.start listenFd numThreads).settled conn = 0 := fun conn =>
    (ledger_start listenFd numThreads).unborn conn (Nat.zero_le _)
  refine ⟨entered_start listenFd numThreads, listens_start listenFd numThreads, ?_, fun conn _ => hnone conn, nofun⟩
  exact fun conn => (hnone conn).le.trans zero_le_one

/-- The loop has returned, and the listening socket is closed. -/
theorem Serves.shut (h : Serves s) (hloop : s.loop = .waiting) :
    Closing (s.shut s.listenFd) ∧ (s.shut s.listenFd).settled = s.settled := by
  have hl := h.listens
  have hheld : ∀ fd, s.fdTable fd ≠ none → fd ∈ s.connMap := by
    intro fd hfd
    have hin := hl.held fd hfd
    rw [hloop] at hin
    exact hin.resolve_right List.not_mem_nil
  have hopen : ∀ fd, (s.shut s.listenFd).fdTable fd = if fd = s.listenFd then none else s.fdTable fd := fun fd =>
    Function.update_apply ..
  have hclient : ∀ fd conn, s.fdTable fd = some (.client conn) → fd ≠ s.listenFd := by
    rintro fd conn hfd rfl
    cases hl.listening.symm.trans hfd
  refine ⟨⟨?_, hl.entry, fun fd hentry => ?_, fun fd conn hentry => ?_, fun fd conn hfd => ?_, fun fd hfd => ?_⟩, ?_⟩
  · exact (hopen _).trans (if_pos rfl)
  · exact hl.only fd (h.entered.table fd none hentry)
  · have hconn := h.entered.table fd (some conn) hentry
    rw [hopen, if_neg (hclient fd conn hconn)]
    exact hconn
  · rw [hopen] at hfd
    split_ifs at hfd
    exact h.entered.numbered fd conn hfd
  · rw [hopen] at hfd
    split_ifs at hfd with hlisten
    · exact absurd rfl hfd
    · obtain ⟨conn, hentry⟩ := Option.isSome_iff_exists.mp (AList.lookup_isSome.mpr (hheld fd hfd))
      cases conn with
      | none => exact absurd (hl.only fd (h.entered.table fd none hentry)) hlisten
      | some conn => exact ⟨conn, hentry⟩
  · funext conn
    change s.closes conn + _ = s.closes conn + _
    rw [State.opens, State.opens, hopen]
    by_cases hfd : conn.fd = s.listenFd
    · rw [if_pos hfd, hfd, hl.listening]
      rfl
    · rw [if_neg hfd]

/-- How often the socket of a connection was closed. -/
def Server.closes (server : Server) (conn : Conn) : ℕ :=
  server.eventLoop.elim 0 (·.closes conn) + server.closed.count (some (.client conn))

/-- What a server is at each stage. -/
inductive Server.Lives : Server → Prop where
  | new : Lives {}
  | failed (closed : List (Option Socket)) (hclosed : ∀ socket ∈ closed, socket = some .listener) :
      Lives ⟨.failed, none, none, closed.length, closed⟩
  | lost (closed : List (Option Socket)) (hclosed : ∀ socket ∈ closed, socket = some .listener) :
      Lives ⟨.gone, none, none, closed.length, closed⟩
  | ready (fd : Fd) : Lives ⟨.ready, some fd, some (.start fd 0), 1, []⟩
  | serving (s : State) (hs : Serves s) : Lives ⟨.serving, some s.listenFd, some s, 1, []⟩
  | stopped (s : State) (hs : Serves s) (hloop : s.loop = .waiting) : Lives ⟨.stopped, some s.listenFd, some s, 1, []⟩
  | closing (listenFd : Fd) (s : State) (hs : Closing s) (hcounted : Counted s.accepted s.settled) :
      Lives ⟨.closing, some listenFd, some s, 1, [some .listener]⟩
  | draining (listenFd : Fd) (s : State) (closed : List (Option Socket)) (hs : Drained s)
      (hcounted : Counted s.accepted fun conn => s.closes conn + closed.count (some (.client conn)))
      (hlistener : closed.count (some .listener) = 1) (hnone : closed.count none = 1) :
      Lives ⟨.draining, some listenFd, some s, 1, closed⟩
  | gone (listenFd : Fd) (s : State) (closed : List (Option Socket)) (hs : Drained s)
      (hcounted : Counted s.accepted fun conn => s.closes conn + closed.count (some (.client conn)))
      (hlistener : closed.count (some .listener) = 1) (hnone : closed.count none = 1) (hqueue : s.taskQueue = [])
      (hworkers : ∀ worker ∈ s.workers, worker = .idle) : Lives ⟨.gone, some listenFd, some s, 1, closed⟩

/-- A worker takes a step, at whatever stage. -/
theorem Server.Lives.work {server : Server} (h : server.Lives) {w : ℕ} {a : WorkAct}
    (hs : server.eventLoop = some s) (hstep : EventLoop.step s (.work w a) = some s') :
    Server.Lives { server with eventLoop := some s' } := by
  have hserves : Serves s → Serves s' := fun hs => hs.step hstep
  obtain ⟨worker, hw, hstep⟩ := Option.bind_eq_some_iff.mp hstep
  have ht := workTrans_of_step hstep
  cases h with
  | new | failed | lost => cases hs
  | ready fd =>
    cases hs
    cases hw
  | serving s hlives =>
    cases hs
    rw [← listenFd_of_work ht]
    exact .serving s' (hserves hlives)
  | stopped s hlives hloop =>
    cases hs
    rw [← listenFd_of_work ht]
    exact .stopped s' (hserves hlives) ((loop_of_work ht).trans hloop)
  | closing listenFd s hclosing hcounted =>
    cases hs
    obtain ⟨hclosing', haccepted, hsettled⟩ := hclosing.work ht
    refine .closing listenFd s' hclosing' ?_
    rw [haccepted, hsettled]
    exact hcounted
  | draining listenFd s closed hdrained hcounted hlistener hnone =>
    cases hs
    obtain ⟨hdrained', haccepted, hcloses⟩ := hdrained.work ht
    refine .draining listenFd s' closed hdrained' ?_ hlistener hnone
    simp only [haccepted, hcloses]
    exact hcounted
  | gone listenFd s closed hdrained hcounted hlistener hnone hqueue hworkers =>
    -- a worker that is idle could only take a task
    cases hs
    obtain rfl : worker = .idle := hworkers worker (List.mem_of_getElem? hw)
    cases ht with
    | take task taskQueue htask =>
      rw [hqueue] at htask
      cases htask

/-- `~EventLoop` leaves nothing open. -/
theorem Closing.shutAll (h : Closing s) {fds : List Fd} (hfds : fds.Perm s.connMap.keys) :
    Drained { (s.shutAll fds).2 with connMap := ∅, interest := fun _ => none } ∧
      (s.shutAll fds).2.accepted = s.accepted ∧ (∀ conn, (s.shutAll fds).2.closes conn = s.closes conn) ∧
      (s.shutAll fds).1 = fds.map s.fdTable := by
  obtain ⟨htargets, interest, hstate⟩ := shutAll_eq s (hfds.nodup_iff.mpr s.connMap.keys_nodup)
  rw [hstate]
  refine ⟨⟨fun fd => ?_, rfl⟩, rfl, fun _ => rfl, htargets⟩
  dsimp only
  split_ifs with hfd
  · rfl
  · by_contra hopen
    obtain ⟨conn, hentry⟩ := h.held fd hopen
    refine hfd (hfds.mem_iff.mpr (AList.mem_keys.mp (AList.lookup_isSome.mp ?_)))
    rw [hentry]
    rfl

/-- **Every step** of a server's life. -/
theorem Server.Lives.step {server server' : Server} {a : Server.Act} (h : server.Lives)
    (hs : server.step a = some server') : server'.Lives := by
  cases a with
  | init socket bind listen =>
    obtain ⟨hstage, heq⟩ := Option.ite_none_right_eq_some.mp hs
    cases heq
    cases h <;> cases hstage
    unfold Server.init
    split
    · exact .failed [] nofun
    · split_ifs
      · exact .ready _
      · exact .failed [some .listener] fun socket hsocket => List.mem_singleton.mp hsocket
  | start =>
    obtain ⟨hstage, heq⟩ := Option.ite_none_right_eq_some.mp hs
    cases heq
    cases h <;> cases hstage
    exact .serving _ (serves_start _ 4)
  | act a =>
    cases a with
    | loop a =>
      obtain ⟨hstage, heq⟩ := Option.ite_none_right_eq_some.mp hs
      obtain ⟨s', hstep, rfl⟩ := Option.map_eq_some_iff.mp heq
      cases h with
      | serving s hserves =>
        have hloop : EventLoop.step s (.loop a) = some s' := hstep
        rw [← listenFd_of_loop (loopTrans_of_step hloop)]
        exact .serving s' (hserves.step hloop)
      | _ => cases hstage
    | work w a =>
      obtain ⟨s', hstep, rfl⟩ := Option.map_eq_some_iff.mp hs
      obtain ⟨s, heq, hstep⟩ := Option.bind_eq_some_iff.mp hstep
      exact h.work heq hstep
  | leave =>
    obtain ⟨⟨hstage, s, heq, hloop⟩, ⟨⟩⟩ := Option.ite_none_right_eq_some.mp hs
    cases h with
    | serving s hserves =>
      cases heq
      exact .stopped s hserves hloop
    | _ => cases hstage
  | destroy =>
    obtain ⟨hstage, heq⟩ := Option.ite_none_right_eq_some.mp hs
    cases h with
    | stopped s hserves hloop =>
      cases heq
      obtain ⟨hclosing, hsettled⟩ := hserves.shut hloop
      rw [hserves.listens.listening]
      refine .closing s.listenFd _ hclosing ?_
      rw [hsettled]
      exact hserves.counted
    | failed closed hclosed =>
      cases heq
      exact .lost closed hclosed
    | _ => rcases hstage with hstage | hstage <;> cases hstage
  | closeAll fds =>
    obtain ⟨s, heq, hs⟩ := Option.bind_eq_some_iff.mp hs
    obtain ⟨⟨hstage, hfds⟩, ⟨⟩⟩ := Option.ite_none_right_eq_some.mp hs
    cases h with
    | closing listenFd s hclosing hcounted =>
      cases heq
      obtain ⟨hclients, hnone, hlistener⟩ := hclosing.counts hfds
      obtain ⟨hdrained, haccepted, hcloses, htargets⟩ := hclosing.shutAll hfds
      refine .draining listenFd _ _ hdrained ?_ ?_ ?_
      · convert hcounted using 1
        funext conn
        rw [List.singleton_append, List.count_cons, htargets, hclients]
        exact congrArg (· + _) (hcloses conn)
      · rw [List.singleton_append, List.count_cons_self, htargets, hlistener]
      · rw [List.singleton_append, List.count_cons_of_ne (Option.some_ne_none _), htargets, hnone]
    | _ => cases hstage
  | join =>
    obtain ⟨⟨hstage, s, heq, hqueue, hworkers⟩, ⟨⟩⟩ := Option.ite_none_right_eq_some.mp hs
    cases h with
    | draining listenFd s closed hdrained hcounted hlistener hnone =>
      cases heq
      exact .gone listenFd s closed hdrained hcounted hlistener hnone hqueue hworkers
    | _ => cases hstage

namespace Server.Lives

variable {server : Server}

/-- While the loop runs, the server listens. -/
theorem listens (h : server.Lives) (hstage : server.stage = .serving) :
    ∃ s, server.eventLoop = some s ∧ s.fdTable s.listenFd = some .listener ∧
      s.connMap.lookup s.listenFd = some none ∧ ∀ fd, s.fdTable fd ≠ none → fd ∈ s.connMap ∨ fd ∈ s.loop.fresh := by
  cases h with
  | serving s hs => exact ⟨s, rfl, hs.listens.listening, hs.listens.entry, hs.listens.held⟩
  | _ => cases hstage

/-- Where nothing was opened but listening sockets, no connection was closed. -/
theorem count_client {closed : List (Option Socket)} (hclosed : ∀ socket ∈ closed, socket = some .listener) (conn : Conn) :
    closed.count (some (.client conn)) = 0 :=
  List.count_eq_zero.mpr fun hconn => nomatch hclosed _ hconn

/-- No socket is closed twice. -/
theorem closes_le_one (h : server.Lives) (conn : Conn) : server.closes conn ≤ 1 := by
  have hcounted : ∀ {s : State}, Counted s.accepted s.settled → s.closes conn ≤ 1 := fun hs =>
    (Nat.le_add_right _ _).trans (hs.le_one conn)
  cases h with
  | new => exact zero_le_one
  | failed closed hclosed | lost closed hclosed => exact (Nat.zero_add _).trans_le ((count_client hclosed conn).trans_le zero_le_one)
  | ready fd => exact hcounted (serves_start fd 0).counted
  | serving s hs | stopped s hs hloop => exact hcounted hs.counted
  | closing listenFd s hs hs' => exact hcounted hs'
  | draining listenFd s closed hs hs' | gone listenFd s closed hs hs' => exact hs'.le_one conn

/-- After `~EventLoop` everything is closed. -/
theorem closed_all (h : server.Lives) (hstage : server.stage = .draining ∨ server.stage = .gone) {s : State}
    (hs : server.eventLoop = some s) :
    (∀ n < s.accepted, ∃! conn, conn.serial = n ∧ server.closes conn = 1) ∧
      server.closed.count (some .listener) = 1 ∧ server.closed.count none = 1 ∧ ∀ fd, s.fdTable fd = none := by
  cases h with
  | draining listenFd s closed hdrained hcounted hlistener hnone | gone listenFd s closed hdrained hcounted hlistener hnone =>
    cases hs
    exact ⟨hcounted.unique, hlistener, hnone, hdrained.fdTable⟩
  | failed | lost => cases hs
  | _ => rcases hstage with hstage | hstage <;> cases hstage

/-- In the end no listening socket is open and no task is left. -/
theorem ended (h : server.Lives) (hstage : server.stage = .gone) :
    server.closed.count (some .listener) = server.opened ∧ ∀ s, server.eventLoop = some s →
      s.taskQueue = [] ∧ ∀ worker ∈ s.workers, worker = .idle := by
  cases h with
  | lost closed hclosed =>
    exact ⟨List.count_eq_length.mpr fun socket hsocket => (hclosed socket hsocket).symm, nofun⟩
  | gone listenFd s closed hdrained hcounted hlistener hnone hqueue hworkers =>
    refine ⟨hlistener, fun s' hs => ?_⟩
    cases hs
    exact ⟨hqueue, hworkers⟩
  | _ => cases hstage

end Server.Lives

/-- **A server closes what it opened.** In every life of a server, whatever its calls answer, whenever the loop is left
and however the workers go on:

* while the loop runs, the listening socket is open under its number, with its entry in `conn_map`, and every other
  open number has an entry or was just accepted;
* the socket of a connection is closed at most once, by `removeEvent` or by `~EventLoop`;
* once `~EventLoop` has closed what was left, of every connection that was accepted the socket was closed exactly once.
  The listening socket was closed by `~Server`, and its number again by `~EventLoop`, when it denoted no socket; and
  none of the numbers that the tasks which are left go by denotes one;
* in the end every listening socket that was opened is closed, and no task is left. -/
theorem server_closes {as : List Server.Act} {server : Server} (h : run Server.step {} as = some server) :
    (server.stage = .serving → ∃ s, server.eventLoop = some s ∧ s.fdTable s.listenFd = some .listener ∧
      s.connMap.lookup s.listenFd = some none ∧ ∀ fd, s.fdTable fd ≠ none → fd ∈ s.connMap ∨ fd ∈ s.loop.fresh) ∧
    (∀ conn, server.closes conn ≤ 1) ∧
    (server.stage = .draining ∨ server.stage = .gone → ∀ s, server.eventLoop = some s →
      (∀ n < s.accepted, ∃! conn, conn.serial = n ∧ server.closes conn = 1) ∧
        server.closed.count (some .listener) = 1 ∧ server.closed.count none = 1 ∧ ∀ fd, s.fdTable fd = none) ∧
    (server.stage = .gone → server.closed.count (some .listener) = server.opened ∧ ∀ s, server.eventLoop = some s →
      s.taskQueue = [] ∧ ∀ worker ∈ s.workers, worker = .idle) := by
  have hlives : server.Lives := run_invariant (fun _ _ _ hs hstep => hs.step hstep) .new h
  exact ⟨hlives.listens, hlives.closes_le_one, fun hstage _ hs => hlives.closed_all hstage hs, hlives.ended⟩

/-- A connection that is closed before the server is, and one with its number and a task that is left. -/
def wholeLife : List Server.Act :=
  [.init (some 3) true true, .start] ++
    (acceptTurn 5 ++ readTurn ⟨0, 5⟩ ++ readToEnd 0 ++ acceptTurn 5 ++ readTurn ⟨1, 5⟩).map .act ++
    [.leave, .destroy, .closeAll [5, 3]] ++
    (([.take, .begin, .lockRead, .read .closed, .remove, .check] : List WorkAct).map (.work 1)).map .act ++ [.join]

theorem server_closes_wholeLife : ∃ server s, run Server.step {} wholeLife = some server ∧ server.stage = .gone ∧
    server.eventLoop = some s ∧ s.accepted = 2 ∧
    (∀ n < 2, ∃! conn, conn.serial = n ∧ server.closes conn = 1) ∧ server.closed.count (some .listener) = 1 := by
  have h : (run Server.step {} wholeLife).bind (fun server =>
      server.eventLoop.map fun s => (server.stage, s.accepted)) = some (.gone, 2) := by
    decide +kernel
  obtain ⟨server, hserver, h⟩ := Option.bind_eq_some_iff.mp h
  obtain ⟨s, hs, h⟩ := Option.map_eq_some_iff.mp h
  obtain ⟨hstage, haccepted⟩ := Prod.mk.inj h
  obtain ⟨-, -, hclosed, -⟩ := server_closes hserver
  obtain ⟨hunique, hlistener, -⟩ := hclosed (.inr hstage) s hs
  exact ⟨server, s, hserver, hstage, hs, haccepted, haccepted ▸ hunique, hlistener⟩

end CanMonitor.EventLoop
