import CanMonitor.EventLoop.Overflow
import CanMonitor.Service.Calls

/-!
# The process

`EventLoop.System` has the threads and the descriptors of the server, and leaves to the
environment what a handler finds; `Service.System` has the bytes, the store and the runtime, and
leaves to the environment which handler is called when. The process is both at once.

## The model

* A call of a handler that both know is one step of both (`told`, `EventLoop.State.call`), and
  the results that the event loop takes for given are those of the bytes.
* What happens inside a call is a step of the service alone. `pumpSse` begins when the loop
  thread has come to the connection, and `write` can fail when there is something to write.
* What does not touch a connection is a step of the event loop alone.

Interest masks are the event loop's: an `epoll_ctl` that comes late may be for another connection
by then, which the mask of `Connection.System` does not show.

## What is proved

* `Agrees.step` — every step keeps it that the handlers of each connection are where the threads
  are.
* `process_agrees` — so they are in every run.
* `overflow_closes` — a connection with more to send than it may have is closed by the event loop.
-/

namespace CanMonitor.Service

open CanMonitor.Library CanMonitor.Can CanMonitor.Http
open CanMonitor.EventLoop (Conn Handlers)

/-! ### The process -/

/-- The event loop with its pool, and the service. -/
abbrev Process := EventLoop.State × State Conn

namespace Process

/-- A step of the one, of the other, or of both. -/
abbrev Act := Joint EventLoop.Act (Service.Act Conn)

/-- The connection that the loop thread has come to in `dispatchSseEvents`. -/
def visited : EventLoop.LoopState → Option Conn
  | .pumping (⟨_, conn⟩ :: _) _ => conn
  | _ => none

/-- Has `handleWrite` copied the buffer? -/
def hasCopy (c : Connection.State) : Bool :=
  match c.out.writer with
  | .copied _ => true
  | _ => false

/-- `pumpSse` begins when the loop thread is there, and a `write` that fails had something to write. -/
def permits (p : Process) : Act → Bool
  | .left (.work w (.write .failed)) =>
    p.1.workers[w]?.all fun worker => worker.entries.all fun entry => hasCopy (p.2.connection entry.2)
  | .right (.connection conn .query) => visited p.1.loop = some conn
  | _ => true

/-- One step. -/
def step (p : Process) (a : Act) : Option Process :=
  joint permits EventLoop.step Service.step EventLoop.State.call State.call p a

/-- The process at its start, with a new runtime. -/
def start (listenFd numThreads : ℕ) (new : CanRuntime) : Process := (.start listenFd numThreads, .start Conn new)

end Process

variable {c c' : Connection.State} {a : Connection.Act}

/-! ### Inside a call -/

theorem told_writer (ha : a.IsWriter) (x y : Bool) : told c a ≠ some (.pump x y) := by
  cases a with
  | copy =>
    unfold told
    split_ifs <;> simp
  | lookup caller =>
    cases caller with
    | writer => simp [told]
    | reader | pump => exact ha.elim
  | lockWrite | write | erase | again => simp [told]
  | _ => exact ha.elim

/-- A connection that is in `pumpSse` was in it before, unless it begins. -/
theorem pump_of_step {rest : List CanFrame} {seen : FrameStore} {appended : Bool} (h : Connection.step c a = some c')
    (hp : c'.pump = .sending rest seen appended) : a = .query ∧ c'.sseActive = true ∧ c'.out.overflow = false ∨
      (∀ x y, told c a ≠ some (.pump x y)) ∧ (∃ rest' seen' appended', c.pump = .sending rest' seen' appended') ∧
        (c.sseActive = true → c'.sseActive = true) ∧ c'.out.overflow = c.out.overflow := by
  cases Connection.trans_of_step h with
  | query hidle hactive hover => exact .inl ⟨rfl, hactive, hover⟩
  | sent frame rest' seen' appended' hp' hfits =>
    exact .inr ⟨by simp [told, hp', hfits], ⟨_, _, _, hp'⟩, id, rfl⟩
  | unsent => exact absurd hp (Connection.ending_ne_sending _)
  | quiet => exact absurd hp (Connection.ending_ne_sending _)
  | noHeartbeat => exact absurd hp (Connection.ending_ne_sending _)
  | heartbeat | lookupPump | lostPump | modifyPump => cases hp
  | writing b out hb hout hwriter =>
    exact .inr ⟨told_writer ‹_›, ⟨_, _, _, hp⟩, id, (Connection.Output.step_writer ‹_› ‹_›).2.1⟩
  | fail out hout =>
    exact .inr ⟨by simp [told], ⟨_, _, _, hp⟩, id, (Connection.Output.step_writer (a := .leave) trivial hout).2.1⟩
  | wait around hr hstep => exact .inr ⟨by simp [told, hstep], ⟨_, _, _, hp⟩, id, rfl⟩
  | bad around text req hr hstep =>
    exact .inr ⟨by simp [told, hstep], ⟨_, _, _, hp⟩, id, appendSendBuf_overflow _ _⟩
  | dispatch around req requestLen response hr hstep => exact .inr ⟨by simp [told, hstep], ⟨_, _, _, hp⟩, id, rfl⟩
  | dispatchStream around req requestLen afterSequence hr hstep =>
    exact .inr ⟨by simp [told, hstep], ⟨_, _, _, hp⟩, id, rfl⟩
  | respond => exact .inr ⟨by simp [told], ⟨_, _, _, hp⟩, id, appendSendBuf_overflow _ _⟩
  | startSse => exact .inr ⟨by simp [told], ⟨_, _, _, hp⟩, fun _ => rfl, appendSendBuf_overflow _ _⟩
  | lostReader next =>
    rw [Connection.afterUpdate_pump] at hp
    exact .inr ⟨by simp [told], ⟨_, _, _, hp⟩, by simp, by simp⟩
  | modifyReader next =>
    rw [Connection.afterUpdate_pump] at hp
    exact .inr ⟨by simp [told], ⟨_, _, _, hp⟩, by simp, by simp⟩
  | _ => exact .inr ⟨by simp [told], ⟨_, _, _, hp⟩, id, rfl⟩

theorem Process.hasCopy_iff : Process.hasCopy c = true ↔ ∃ pending, c.out.writer = .copied pending := by
  unfold Process.hasCopy
  cases c.out.writer <;> simp

/-- `handleWrite` has its copy until it writes or returns. -/
theorem hasCopy_of_step (h : Connection.step c a = some c') (hc : Process.hasCopy c = true)
    (hcall : ∀ result, told c a ≠ some (.write result)) (hw : writePlace c'.out.writer = some .writing) :
    Process.hasCopy c' = true := by
  obtain ⟨pending, hpending⟩ := Process.hasCopy_iff.mp hc
  refine Process.hasCopy_iff.mpr ⟨pending, ?_⟩
  by_cases ha : a.IsWriter
  · cases a with
    | write | again => exact absurd rfl (hcall _)
    | lockWrite | copy | erase =>
      obtain ⟨out, hout, rfl⟩ := Option.map_eq_some_iff.mp h
      simp [Connection.Output.step, hpending] at hout
    | lookup caller =>
      cases caller with
      | writer => simp [Connection.step, Connection.lookup, hpending] at h
      | reader | pump => exact ha.elim
    | _ => exact ha.elim
  · cases Connection.trans_of_step h with
    | writing => exact absurd ‹_› ha
    | bad | respond | startSse => exact (appendSendBuf_writer _ _).trans hpending
    | fail out hout =>
      simp only [Connection.Output.step, hpending] at hout
      cases hout
      cases hw
    | lostReader next => exact (congrArg _ (Connection.afterUpdate_out c next)).trans hpending
    | modifyReader next => exact (congrArg _ (Connection.afterUpdate_out _ next)).trans hpending
    | modifyWriter => cases hw
    | _ => exact hpending

namespace Process

/-- The loop thread stays with a stream until `pumpSse` is over. -/
theorem visited_of_step {s s' : EventLoop.State} {a : EventLoop.Act} {conn : Conn}
    (hs : EventLoop.step s a = some s') (hl : visited s.loop = some conn) (hactive : (s.data conn).sseActive = true)
    (hover : (s.data conn).sseOverflow = false) :
    visited s'.loop = some conn ∨ ∃ x y, s.call a = some (conn, .pump x y) := by
  cases EventLoop.trans_of_step hs with
  | work w worker a s' hw ht =>
    rw [EventLoop.loop_of_work ht]
    exact .inl hl
  | loop a s' ht =>
    obtain ⟨fd, items, overflowed, hloop⟩ :
        ∃ fd items overflowed, s.loop = .pumping (⟨fd, some conn⟩ :: items) overflowed := by
      unfold visited at hl
      split at hl
      · subst hl
        exact ⟨_, _, _, ‹_›⟩
      · cases hl
    cases ht with
    | pumped overflow fd c items overflowed hl hsse hover =>
      cases hloop.symm.trans hl
      exact .inr ⟨true, overflow, by simp [EventLoop.State.call, EventLoop.State.loopCall, hl, hsse, hover]⟩
    | nothing overflow fd c items overflowed hl hsse hover =>
      cases hloop.symm.trans hl
      exact .inr ⟨false, overflow, by simp [EventLoop.State.call, EventLoop.State.loopCall, hl, hsse, hover]⟩
    | skip appended overflow fd c items overflowed hl hsse =>
      cases hloop.symm.trans hl
      cases hactive.symm.trans (hsse conn rfl)
    | full appended overflow fd c items overflowed hl hsse hfull =>
      cases hloop.symm.trans hl
      cases hover.symm.trans hfull
    | _ => cases hloop.symm.trans ‹s.loop = _›

/-- A worker that is told what `write` has found is in `handleWrite`. -/
theorem worker_of_write {worker : EventLoop.Worker} {a : EventLoop.WorkAct} {conn : Conn} {result : EventLoop.WriteResult}
    (h : worker.call a = some (conn, .write result)) : ∃ job, worker = .writing job ∧ job.conn = conn := by
  unfold EventLoop.Worker.call at h
  split at h
  all_goals try split_ifs at h
  all_goals cases h
  exact ⟨_, rfl, rfl⟩

theorem loopCall_ne_write (s : EventLoop.State) (a : EventLoop.LoopAct) (conn : Conn) (result : EventLoop.WriteResult) :
    s.loopCall a ≠ some (conn, .write result) := by
  intro h
  have hremoval : ∀ fd, s.removal fd ≠ some (conn, .write result) := by
    intro fd hfd
    obtain ⟨c, -, hc⟩ := Option.map_eq_some_iff.mp hfd
    cases hc
  cases a with
  | timeOut =>
    simp only [EventLoop.State.loopCall] at h
    split at h
    · exact hremoval _ h
    · cases h
  | drop =>
    simp only [EventLoop.State.loopCall] at h
    split at h
    · split_ifs at h
      cases h
    · cases h
  | handle =>
    simp only [EventLoop.State.loopCall] at h
    split at h
    · exact hremoval _ (Option.ite_none_right_eq_some.mp h).2
    · cases h
  | pump =>
    simp only [EventLoop.State.loopCall] at h
    split at h
    · cases (Option.ite_none_right_eq_some.mp h).2
    · cases h
  | lookup | modify =>
    simp only [EventLoop.State.loopCall] at h
    split at h <;> cases h
  | _ => cases h

/-- A worker whose `write` has failed. -/
theorem writeFailed_of_step {s s' : EventLoop.State} (h : EventLoop.Handles s) {a : EventLoop.Act}
    (hs : EventLoop.step s a = some s') {w : ℕ} {job : EventLoop.Job} (hw : s'.workers[w]? = some (.writeFailed job)) :
    a = .work w (.write .failed) ∧ s.workers[w]? = some (.writing job) ∨
      s.workers[w]? = some (.writeFailed job) ∧ ∀ result, s.call a ≠ some (job.conn, .write result) := by
  cases EventLoop.trans_of_step hs with
  | loop a s' ht =>
    rw [(EventLoop.workers_of_loop ht).1] at hw
    exact .inr ⟨hw, loopCall_ne_write s a job.conn⟩
  | work v worker a s' hv ht =>
    by_cases hvw : w = v
    · subst hvw
      have hlt := (List.getElem?_eq_some_iff.mp hv).1
      cases ht with
      | writeFails job' =>
        obtain rfl : job' = job := by simpa [EventLoop.State.setWorker, EventLoop.State.record, hlt] using hw
        exact .inl ⟨rfl, hv⟩
      | lost job' next | modify job' next =>
        cases next <;> simp [EventLoop.State.afterUpdate, EventLoop.State.endRead, EventLoop.State.endWrite,
          EventLoop.State.setWorker, EventLoop.State.setData, EventLoop.State.epollMod, EventLoop.State.record,
          hlt] at hw
      | take task =>
        have hstart : task.start = .writeFailed job := by simpa [EventLoop.State.setWorker, hlt] using hw
        unfold EventLoop.Task.start at hstart
        split at hstart <;> cases hstart
      | read | write => cases hv.symm.trans hw
      | _ =>
        simp [EventLoop.State.endRead, EventLoop.State.endWrite, EventLoop.State.setWorker, EventLoop.State.setData,
          EventLoop.State.record, hlt] at hw
    · obtain ⟨worker', hsteps, -⟩ := EventLoop.steps_of_work hv ht
      rw [hsteps.1, List.getElem?_set_ne (Ne.symm hvw)] at hw
      refine .inr ⟨hw, fun result hcall => ?_⟩
      rw [EventLoop.State.call, hv, Option.bind_some] at hcall
      obtain ⟨job', rfl, hconn⟩ := worker_of_write hcall
      exact hvw (h.held.eq_of_place hw hv rfl (by rw [← hconn]; rfl))

/-- What a step of the service is for one connection. -/
theorem turn_of_step {s s' : State Conn} {b : Service.Act Conn} (hs : Service.step s b = some s') (conn : Conn) :
    ((s'.connection conn).pump = (s.connection conn).pump ∧ (s'.connection conn).out = (s.connection conn).out ∧
        (s'.connection conn).sseActive = (s.connection conn).sseActive ∧ ∀ call, s.call b ≠ some (conn, call)) ∨
      ∃ a, Connection.step (s.connection conn) a = some (s'.connection conn) ∧
        s.call b = (told (s.connection conn) a).map (conn, ·) ∧ (a = .query → b = .connection conn .query) := by
  have hseen := connection_of_step conn s b s' hs
  -- the step of another connection
  have hother : ∀ {j : Conn} {a : Connection.Act}, j ≠ conn → s.call b = (told (s.connection j) a).map (j, ·) →
      some (s.connection conn) = some (s'.connection conn) →
      (s'.connection conn).pump = (s.connection conn).pump ∧ (s'.connection conn).out = (s.connection conn).out ∧
        (s'.connection conn).sseActive = (s.connection conn).sseActive ∧ ∀ call, s.call b ≠ some (conn, call) := by
    intro j a hj hcall hsame
    rw [← Option.some.inj hsame]
    refine ⟨rfl, rfl, rfl, fun call heq => hj ?_⟩
    obtain ⟨_, -, hpair⟩ := Option.map_eq_some_iff.mp (hcall.symm.trans heq)
    exact congrArg Prod.fst hpair
  cases b with
  | runtime action =>
    refine .inl ?_
    cases action with
    | receive receive =>
      rw [seenBy, Connection.run_appends] at hseen
      rw [← Option.some.inj hseen]
      exact ⟨rfl, rfl, rfl, by simp [State.call]⟩
    | _ =>
      have hsame : s.connection conn = s'.connection conn := Option.some.inj hseen
      rw [← hsame]
      exact ⟨rfl, rfl, rfl, by simp [State.call]⟩
  | parse j answers =>
    rw [seenBy] at hseen
    by_cases hj : j = conn
    · subst hj
      rw [if_pos rfl] at hseen
      obtain ⟨c, hc, hnil⟩ := run_cons_some hseen
      cases hnil
      exact .inr ⟨_, hc, rfl, by simp⟩
    · rw [if_neg hj] at hseen
      exact .inl (hother hj rfl hseen)
  | connection j a =>
    rw [seenBy] at hseen
    by_cases hj : j = conn
    · subst hj
      rw [if_pos rfl] at hseen
      obtain ⟨c, hc, hnil⟩ := run_cons_some hseen
      cases hnil
      exact .inr ⟨_, hc, rfl, fun ha => ha ▸ rfl⟩
    · rw [if_neg hj] at hseen
      exact .inl (hother hj rfl hseen)

/-! ### Agreement -/

/-- The event loop and the service agree. -/
structure Agrees (p : Process) : Prop where
  handles : EventLoop.Handles p.1
  /-- The handlers of every connection are where the threads are. -/
  view : p.1.handlers = fun conn => handlersOf (p.2.connection conn)
  /-- Only the loop thread is in `pumpSse`. -/
  pumping : ∀ conn rest seen appended, (p.2.connection conn).pump = .sending rest seen appended →
    visited p.1.loop = some conn ∧ (p.2.connection conn).sseActive = true ∧ (p.2.connection conn).out.overflow = false
  /-- What could not be written was copied. -/
  failed : ∀ (w : ℕ) (job : EventLoop.Job), p.1.workers[w]? = some (.writeFailed job) →
    hasCopy (p.2.connection job.conn) = true

theorem Agrees.flags {p : Process} (h : Agrees p) (conn : Conn) :
    (p.1.data conn).sseActive = (p.2.connection conn).sseActive ∧
      (p.1.data conn).sseOverflow = (p.2.connection conn).out.overflow :=
  ⟨congrArg Handlers.sseActive (congrFun h.view conn), congrArg Handlers.sseOverflow (congrFun h.view conn)⟩

/-- The loop thread stays with a connection that is in `pumpSse`. -/
theorem Agrees.stays {p : Process} (h : Agrees p) {s' : EventLoop.State} {a : EventLoop.Act}
    (hs : EventLoop.step p.1 a = some s') {conn : Conn} {rest : List CanFrame} {seen : FrameStore} {appended : Bool}
    (hp : (p.2.connection conn).pump = .sending rest seen appended) (hcall : ∀ x y, p.1.call a ≠ some (conn, .pump x y)) :
    visited s'.loop = some conn := by
  obtain ⟨hvisited, hactive, hover⟩ := h.pumping conn rest seen appended hp
  obtain ⟨hactive', hover'⟩ := h.flags conn
  rcases visited_of_step hs hvisited (hactive'.trans hactive) (hover'.trans hover) with hl | ⟨x, y, hpump⟩
  · exact hl
  · exact absurd hpump (hcall x y)

/-- The loop thread leaves a stream when its `pumpSse` is over, and no earlier. -/
theorem Agrees.pumping_step {p p' : Process} {a : Act} (h : Agrees p) (hs : p.step a = some p') {conn : Conn}
    {rest : List CanFrame} {seen : FrameStore} {appended : Bool}
    (hp : (p'.2.connection conn).pump = .sending rest seen appended) : visited p'.1.loop = some conn ∧
      (p'.2.connection conn).sseActive = true ∧ (p'.2.connection conn).out.overflow = false := by
  have hpermits := permits_of_joint hs
  rcases joint_cases hs with ⟨b, rfl, hcall, hb, heq⟩ | ⟨b, rfl, hcall, hb, heq⟩ | ⟨b, d, rfl, hsome, hcall, hb, hd⟩
  · rw [heq] at hp ⊢
    refine ⟨h.stays hb hp fun x y => ?_, (h.pumping conn rest seen appended hp).2⟩
    rw [hcall]
    simp
  · rw [heq]
    rcases turn_of_step hb conn with ⟨hpump, hout, hactive, -⟩ | ⟨act, hact, -, hquery⟩
    · rw [hactive, hout]
      exact h.pumping conn rest seen appended (hpump ▸ hp)
    · rcases pump_of_step hact hp with ⟨hq, hactive, hover⟩ | ⟨-, ⟨rest', seen', appended', hold⟩, hactive, hover⟩
      · rw [hquery hq] at hpermits
        exact ⟨by simpa [permits] using hpermits, hactive, hover⟩
      · obtain ⟨hl, hactive', hover'⟩ := h.pumping conn rest' seen' appended' hold
        exact ⟨hl, hactive hactive', hover.trans hover'⟩
  · rcases turn_of_step hd conn with ⟨hpump, hout, hactive, hno⟩ | ⟨act, hact, htold, -⟩
    · rw [hactive, hout]
      exact ⟨h.stays hb (hpump ▸ hp) fun x y => hcall ▸ hno _, (h.pumping conn rest seen appended (hpump ▸ hp)).2⟩
    · rcases pump_of_step hact hp with ⟨rfl, -, -⟩ | ⟨hno, ⟨rest', seen', appended', hold⟩, hactive, hover⟩
      · exact absurd (hcall.trans htold) hsome
      · obtain ⟨-, hactive', hover'⟩ := h.pumping conn rest' seen' appended' hold
        refine ⟨h.stays hb hold fun x y heq => ?_, hactive hactive', hover.trans hover'⟩
        rw [hcall, htold] at heq
        obtain ⟨call, hcall', hpair⟩ := Option.map_eq_some_iff.mp heq
        cases hpair
        exact hno x y hcall'

/-- What could not be written stays copied. -/
theorem Agrees.failed_step {p p' : Process} {a : Act} (h : Agrees p) (h' : EventLoop.Handles p'.1)
    (hview : p'.1.handlers = fun conn => handlersOf (p'.2.connection conn)) (hs : p.step a = some p') {w : ℕ}
    {job : EventLoop.Job} (hw : p'.1.workers[w]? = some (.writeFailed job)) :
    hasCopy (p'.2.connection job.conn) = true := by
  have hpermits := permits_of_joint hs
  have hwriting : writePlace (p'.2.connection job.conn).out.writer = some .writing :=
    (congrArg Handlers.writer (congrFun hview job.conn)).symm.trans (h'.writer_of hw rfl)
  -- a step of the service that is told nothing of a `write`
  have hkeep : ∀ {b : Service.Act Conn}, Service.step p.2 b = some p'.2 → p.1.workers[w]? = some (.writeFailed job) →
      (∀ result, p.2.call b ≠ some (job.conn, .write result)) → hasCopy (p'.2.connection job.conn) = true := by
    intro b hb hold hno
    have hcopy := h.failed w job hold
    rcases turn_of_step hb job.conn with ⟨-, hout, -, -⟩ | ⟨act, hact, htold, -⟩
    · unfold hasCopy at hcopy ⊢
      rwa [hout]
    · refine hasCopy_of_step hact hcopy (fun result hresult => hno result ?_) hwriting
      rw [htold, hresult]
      rfl
  rcases joint_cases hs with ⟨b, rfl, hcall, hb, heq⟩ | ⟨b, rfl, hcall, hb, heq⟩ | ⟨b, d, rfl, hsome, hcall, hb, hd⟩
  · rw [heq]
    rcases writeFailed_of_step h.handles hb hw with ⟨rfl, hold⟩ | ⟨hold, -⟩
    · simpa [permits, hold, EventLoop.Worker.entries] using hpermits
    · exact h.failed w job hold
  · rw [heq] at hw
    exact hkeep hb hw (by simp [hcall])
  · rcases writeFailed_of_step h.handles hb hw with ⟨rfl, hold⟩ | ⟨hold, hno⟩
    · exact absurd (by rw [EventLoop.State.call, hold]; rfl) hsome
    · exact hkeep hd hold fun result => hcall ▸ hno result

/-- **Every step** of the process keeps them in agreement. -/
theorem Agrees.step (p : Process) (a : Act) (p' : Process) (h : Agrees p) (hs : p.step a = some p') : Agrees p' := by
  obtain ⟨hhandles, -, hview⟩ := agree_step EventLoop.refines Service.refines hs h.handles trivial h.view
  exact ⟨hhandles, hview, fun conn rest seen appended => h.pumping_step hs,
    fun w job => h.failed_step hhandles hview hs⟩

theorem agrees_start (listenFd numThreads : ℕ) (new : CanRuntime) : Agrees (start listenFd numThreads new) := by
  refine ⟨EventLoop.handles_start listenFd numThreads,
    funext fun conn => EventLoop.handlers_start listenFd numThreads conn,
    fun conn rest seen appended hp => (by cases hp), fun w job hw => ?_⟩
  cases List.eq_of_mem_replicate (List.mem_of_getElem? hw)

theorem agrees_run {listenFd numThreads : ℕ} {new : CanRuntime} {as : List Act} {p : Process}
    (h : run step (start listenFd numThreads new) as = some p) : Agrees p :=
  run_invariant Agrees.step (agrees_start listenFd numThreads new) h

theorem readPlace_ne_none (reader : Connection.ReaderState) : readPlace reader ≠ none ↔ reader ≠ .idle := by
  cases reader with
  | updating next found => cases next <;> simp [readPlace]
  | _ => simp [readPlace]

theorem writePlace_ne_none (writer : Connection.Writer) : writePlace writer ≠ none ↔ writer ≠ .idle := by
  cases writer <;> simp [writePlace]

/-- **The threads and the bytes agree**, in every run of the process: it is a run of the event loop
and of the service; the handlers of each connection, and its mutexes, are where the threads are;
and whatever the event loop can do next to a connection is what its handlers can do next. -/
theorem process_agrees {listenFd numThreads : ℕ} {new : CanRuntime} {as : List Act} {p : Process}
    (h : run step (start listenFd numThreads new) as = some p) :
    run EventLoop.step (.start listenFd numThreads) (as.filterMap Joint.left?) = some p.1 ∧
    run Service.step (.start Conn new) (as.filterMap Joint.right?) = some p.2 ∧
    ∀ conn, handlersOf (p.2.connection conn) = p.1.handlers conn ∧
      ((p.1.data conn).readLocked = true ↔ (p.2.connection conn).reader ≠ .idle) ∧
      ((p.1.data conn).writeLocked = true ↔ (p.2.connection conn).out.writer ≠ .idle) ∧
      (∀ rest seen appended, (p.2.connection conn).pump = .sending rest seen appended → visited p.1.loop = some conn) ∧
      ∀ a s' call, EventLoop.step p.1 a = some s' → p.1.call a = some (conn, call) →
        (handlersOf (p.2.connection conn)).step call = some (s'.handlers conn) := by
  have hagrees := agrees_run h
  refine ⟨joint_left h, joint_right h, fun conn => ?_⟩
  have hview := (congrFun hagrees.view conn).symm
  refine ⟨hview, ?_, ?_, fun rest seen appended hp => (hagrees.pumping conn rest seen appended hp).1, ?_⟩
  · rw [hagrees.handles.readLocked_iff, ← hview]
    exact readPlace_ne_none _
  · rw [hagrees.handles.writeLocked_iff, ← hview]
    exact writePlace_ne_none _
  · intro a s' call hs hcall
    have hseen := EventLoop.refines.seen p.1 a s' hagrees.handles hs conn
    rw [hcall, addressed_self] at hseen
    obtain ⟨v, hv, hnil⟩ := run_cons_some hseen
    cases hnil
    rw [hview]
    exact hv

/-- A client connects, and a worker reads its request, answers it and waits for more. -/
def oneRequest : List Act :=
  (EventLoop.acceptTurn 5 ++ EventLoop.readTurn ⟨0, 5⟩ ++
    ([.take, .begin] : List EventLoop.WorkAct).map (EventLoop.Act.work 0)).map .left ++
  [.both (.work 0 .lockRead) (.connection ⟨0, 5⟩ .lockRead),
    .both (.work 0 (.read .data)) (.connection ⟨0, 5⟩ (.recv Connection.pageRequest)),
    .both (.work 0 (.read .drained)) (.connection ⟨0, 5⟩ .drained),
    .right (.parse ⟨0, 5⟩ plainAnswers),
    .both (.work 0 (.parse (.dispatch false))) (.connection ⟨0, 5⟩ .respond),
    .both (.work 0 .lookup) (.connection ⟨0, 5⟩ (.lookup .reader)),
    .both (.work 0 .modify) (.connection ⟨0, 5⟩ (.modify .reader)),
    .both (.work 0 (.parse .wait)) (.parse ⟨0, 5⟩ plainAnswers)]

theorem process_agrees_oneRequest : ∃ new p, CanRuntime.make "vcan0" 500000 8 = .ok new ∧
    run step (start 3 2 new) oneRequest = some p ∧ (p.1.data ⟨0, 5⟩).readLocked = false ∧
      ((p.1.data ⟨0, 5⟩).readLocked = true ↔ (p.2.connection ⟨0, 5⟩).reader ≠ .idle) := by
  have hnew : CanRuntime.make "vcan0" 500000 8 =
    .ok ⟨"vcan0", .empty 8 (by decide), .new 500000 1000000000 (by decide) (by decide), {}, none, false⟩ := rfl
  have hrun : (run step (start 3 2 ⟨"vcan0", .empty 8 (by decide), .new 500000 1000000000 (by decide) (by decide), {},
      none, false⟩) oneRequest).map (fun p => (p.1.data ⟨0, 5⟩).readLocked) = some false := by decide +kernel
  obtain ⟨p, hp, hlocked⟩ := Option.map_eq_some_iff.mp hrun
  exact ⟨_, p, hnew, hp, hlocked, ((process_agrees hp).2.2 ⟨0, 5⟩).2.1⟩

/-- **Too many bytes**: a connection whose stream did not fit was closed, once, or the loop thread is
about to close it. -/
theorem overflow_closes {listenFd numThreads : ℕ} {new : CanRuntime} {as : List Act} {p : Process}
    (h : run step (start listenFd numThreads new) as = some p) {conn : Conn}
    (hover : (p.2.connection conn).out.overflow = true) :
    p.1.closes conn = 1 ∨ (conn.fd, conn) ∈ p.1.loop.suspects := by
  obtain ⟨hs, hdrops⟩ := EventLoop.drops_run (joint_left h)
  exact hdrops.removed hs (((agrees_run h).flags conn).2.trans hover)

end Process

end CanMonitor.Service
