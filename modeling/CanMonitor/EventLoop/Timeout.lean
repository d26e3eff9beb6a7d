import CanMonitor.EventLoop.Table

/-!
# Idle connections

The loop thread gives a connection a deadline when it is accepted and whenever an event for
it is dispatched, and `tick` returns the numbers whose deadline has passed. The timer phase
then closes what is registered under these numbers, unless it is a stream, which gets a new
deadline. The timer goes by numbers, a worker may remove a connection at any time (also
between a lookup of the loop thread and the deadline that it sets), and the number may be
given out again.

## The model

`Timed` is the state of the event loop with what its clock has said: the clock is not part
of `step`, which may be told any time, and here it does not go back (`Timed.step`).

## What is proved

* `Timely.step` — the invariant: who is registered has a deadline in the timer, which is its
  own, except for those that the timer phase has yet to deal with.
* `idle_timeouts` — so no connection is forgotten or closed early.
* `timed_run` — every run of the event loop with a clock that does not go back is one of these.
-/

namespace CanMonitor.EventLoop

open CanMonitor.Library

/-- What a step reads from the clock. -/
def Act.clock : Act → Option ℤ
  | .loop (.tick now) | .loop (.renew now) | .loop (.updateTimer now) | .loop (.addTimer now) => some now
  | _ => none

/-- The event loop, and what its clock has said. -/
structure Timed where
  state : State
  /-- The last time read. -/
  clock : ℤ
  /-- The time that `tick` read last. -/
  ticked : ℤ
  /-- When a connection was accepted, or an event for it dispatched. -/
  touched : Conn → Option ℤ
  /-- The streams that the timer phase has seen since. -/
  kept : List Conn

/-- The server at the start of its loop. -/
def Timed.start (listenFd numThreads : ℕ) (clock : ℤ) : Timed where
  state := .start listenFd numThreads
  clock := clock
  ticked := clock
  touched := fun _ => none
  kept := []

/-- When the connections were accepted or had an event dispatched, after this step. -/
def Timed.touch (t : Timed) : Act → Conn → Option ℤ
  | .loop (.updateTimer now) =>
    match t.state.loop with
    | .found _ (some conn) => Function.update t.touched conn (some now)
    | _ => t.touched
  | .loop (.addTimer now) =>
    match t.state.loop with
    | .added conn => Function.update t.touched conn (some now)
    | _ => t.touched
  | _ => t.touched

/-- The streams that the timer phase has seen, after this step. -/
def Timed.keep (t : Timed) : Act → List Conn
  | .loop (.tick _) => []
  | .loop .judge =>
    match t.state.loop with
    | .judging _ _ (some conn) => if (t.state.data conn).sseActive then t.kept ++ [conn] else t.kept
    | _ => t.kept
  | _ => t.kept

/-- After a step to the state `s`. -/
def Timed.after (t : Timed) (a : Act) (s : State) : Timed where
  state := s
  clock := a.clock.getD t.clock
  ticked := match a with
    | .loop (.tick now) => now
    | _ => t.ticked
  touched := t.touch a
  kept := t.keep a

/-- One step, at a time that is not before the last. -/
def Timed.step (t : Timed) (a : Act) : Option Timed :=
  if ∀ now ∈ a.clock, t.clock ≤ now then (EventLoop.step t.state a).map (t.after a) else none

/-! ### The timer phase -/

/-- Is this in the timer phase, or right after it? -/
def LoopState.timerPhase : LoopState → Bool
  | .expiring _ | .judging _ _ _ | .renewing _ _ | .timedOut _ _ => true
  | _ => false

/-- The numbers that the timer phase has yet to deal with. -/
def LoopState.pending : LoopState → List Fd
  | .expiring expired => expired
  | .judging expired fd _ | .renewing expired fd | .timedOut expired fd => fd :: expired
  | _ => []

/-- The expired numbers that the loop thread has not found to be streams. -/
def LoopState.unkept : LoopState → List Fd
  | .expiring expired | .renewing expired _ => expired
  | .judging expired fd _ | .timedOut expired fd => fd :: expired
  | _ => []

/-- The deadline of a connection had passed when `tick` was called. -/
def Timed.Overdue (t : Timed) (conn : Conn) : Prop := ∃ time, t.touched conn = some time ∧ time + timeoutSec ≤ t.ticked

/-- What the loop thread knows where it is. -/
def Timed.Knows (t : Timed) : LoopState → Prop
  | .judging _ fd conn => (∀ c, t.state.isRegistered fd c → conn = some c) ∧ ∀ c ∈ conn, c.fd = fd
  | .renewing _ fd => ∀ c, t.state.isRegistered fd c → (t.state.data c).sseActive = true
  | .timedOut _ fd => ∀ c, t.state.isRegistered fd c → t.Overdue c
  | .found event conn => (∀ c, t.state.isRegistered event.fd c → conn = some c) ∧ ∀ c ∈ conn, c.fd = event.fd
  | .added conn => ∀ c, t.state.isRegistered conn.fd c → c = conn
  | _ => True

/-- The timer is up to date. -/
structure Timely (t : Timed) : Prop where
  entered : Entered t.state
  valid : t.state.timer.Valid
  /-- The clock does not go back. -/
  clock : t.ticked ≤ t.clock ∧ ∀ conn, ∀ time ∈ t.touched conn, time ≤ t.clock
  /-- A registered connection has a deadline, and it is its own unless it is a stream. -/
  armed : ∀ conn, t.state.isRegistered conn.fd conn → t.state.loop ≠ .added conn → conn.fd ∉ t.state.loop.pending →
    ∃ deadline, t.state.timer.fdExpireMap.lookup conn.fd = some deadline ∧
      ((t.state.data conn).sseActive = false → t.touched conn = some (deadline - timeoutSec))
  /-- What is left for the timer phase is overdue, or a stream. -/
  overdue : ∀ conn, t.state.isRegistered conn.fd conn → conn.fd ∈ t.state.loop.unkept →
    (t.state.data conn).sseActive = false → t.Overdue conn
  knows : t.Knows t.state.loop
  /-- In the timer phase no deadline in the timer has passed, and nothing has happened since. -/
  phase : t.state.loop.timerPhase = true →
    (∀ fd, ∀ deadline ∈ t.state.timer.fdExpireMap.lookup fd, t.ticked < deadline) ∧
      ∀ conn, ∀ time ∈ t.touched conn, time ≤ t.ticked
  nodup : t.state.loop.unkept.Nodup
  kept : ∀ conn ∈ t.kept, conn.fd ∉ t.state.loop.unkept

/-! ### Steps that set no deadline -/

/-- A step that may remove a connection or make one a stream. -/
structure Fades (s s' : State) : Prop where
  sseActive : ∀ conn, (s.data conn).sseActive = true → (s'.data conn).sseActive = true
  table : (s'.connMap = s.connMap ∧ s'.timer = s.timer) ∨
    ∃ fd, s'.connMap = s.connMap.erase fd ∧ s'.timer = s.timer.removeTimer fd

variable {s s' s'' : State} {t : Timed}

theorem fades_of_eq (hdata : s'.data = s.data) (hmap : s'.connMap = s.connMap) (htimer : s'.timer = s.timer) :
    Fades s s' :=
  ⟨fun conn h => by rwa [hdata], .inl ⟨hmap, htimer⟩⟩

theorem Fades.refl (s : State) : Fades s s := fades_of_eq rfl rfl rfl

@[simp] theorem removeEvent_loop (s : State) (fd : Fd) (expected : Option Conn) (cause : Cause) :
    (s.removeEvent fd expected cause).loop = s.loop := by
  unfold State.removeEvent
  split
  · rfl
  · split_ifs <;> rfl

theorem fades_removeEvent (s : State) (fd : Fd) (expected : Option Conn) (cause : Cause) :
    Fades s (s.removeEvent fd expected cause) := by
  unfold State.removeEvent
  split
  · exact .refl s
  · split_ifs
    · exact .refl s
    · exact ⟨fun _ => id, .inr ⟨fd, rfl, rfl⟩⟩

theorem Fades.record (h : Fades s s') (cause : Cause) (op : Op) (fd : Fd) : Fades s (s'.record cause op fd) :=
  ⟨h.sseActive, h.table⟩

theorem Fades.epollMod (h : Fades s s') (cause : Cause) (fd : Fd) (mask : Events) :
    Fades s (s'.epollMod cause fd mask) := ⟨h.sseActive, h.table⟩

theorem Fades.setLoop (h : Fades s s') (loop : LoopState) : Fades s { s' with loop } := ⟨h.sseActive, h.table⟩

theorem Fades.setWorker (h : Fades s s') (w : ℕ) (worker : Worker) : Fades s (s'.setWorker w worker) :=
  ⟨h.sseActive, h.table⟩

/-- A connection is changed, which stays a stream if it is one. -/
theorem Fades.setData (h : Fades s s') {conn : Conn} {data : ConnData}
    (hsse : (s'.data conn).sseActive = true → data.sseActive = true) : Fades s (s'.setData conn data) := by
  refine ⟨fun c hc => ?_, h.table⟩
  by_cases hconn : c = conn
  · subst hconn
    simpa [State.setData] using hsse (h.sseActive c hc)
  · simpa [State.setData, Function.update_of_ne hconn] using h.sseActive c hc

theorem Fades.endRead (h : Fades s s') (w : ℕ) (job : Job) : Fades s (s'.endRead w job) :=
  (h.setData (by exact id)).setWorker w _

theorem Fades.endWrite (h : Fades s s') (w : ℕ) (job : Job) : Fades s (s'.endWrite w job) :=
  (h.setData (by exact id)).setWorker w _

theorem Fades.afterUpdate (h : Fades s s') (w : ℕ) (job : Job) (next : AfterUpdate) :
    Fades s (s'.afterUpdate w job next) := by
  cases next with
  | parse => exact h.setWorker w _
  | endRead => exact h.endRead w job
  | endWrite => exact h.endWrite w job

/-- Who is registered was registered, and keeps its deadline. -/
theorem Fades.isRegistered (h : Fades s s') {fd : Fd} {conn : Conn} (hreg : s'.isRegistered fd conn) :
    s.isRegistered fd conn ∧ s'.timer.fdExpireMap.lookup fd = s.timer.fdExpireMap.lookup fd := by
  rcases h.table with ⟨hmap, htimer⟩ | ⟨fd', hmap, htimer⟩
  · rw [State.isRegistered, hmap] at hreg
    exact ⟨hreg, by rw [htimer]⟩
  · rw [State.isRegistered, hmap] at hreg
    have hne : fd ≠ fd' := by
      rintro rfl
      cases (AList.lookup_erase fd s.connMap).symm.trans hreg
    rw [AList.lookup_erase_ne hne] at hreg
    exact ⟨hreg, by rw [htimer, Timer.lookup_removeTimer_ne _ hne]⟩

theorem Fades.sseActive_eq_false (h : Fades s s') {conn : Conn} (hsse : (s'.data conn).sseActive = false) :
    (s.data conn).sseActive = false := by
  cases hactive : (s.data conn).sseActive with
  | false => rfl
  | true => cases hsse.symm.trans (h.sseActive conn hactive)

theorem Fades.valid (h : Fades s s') (hvalid : s.timer.Valid) : s'.timer.Valid := by
  rcases h.table with ⟨_, htimer⟩ | ⟨fd, _, htimer⟩
  · rwa [htimer]
  · rw [htimer]
    exact hvalid.removeTimer fd

theorem Fades.deadline (h : Fades s s') {fd : Fd} {deadline : ℤ} (hd : s'.timer.fdExpireMap.lookup fd = some deadline) :
    s.timer.fdExpireMap.lookup fd = some deadline := by
  rcases h.table with ⟨_, htimer⟩ | ⟨fd', _, htimer⟩
  · rwa [htimer] at hd
  · rw [htimer] at hd
    by_cases hfd : fd = fd'
    · subst hfd
      cases (AList.lookup_erase fd s.timer.fdExpireMap).symm.trans hd
    · rwa [Timer.lookup_removeTimer_ne _ hfd] at hd

/-- What the loop thread knows stays so. -/
theorem Timed.Knows.fades {loop : LoopState} (h : t.Knows loop) (hf : Fades t.state s') :
    ({ t with state := s' } : Timed).Knows loop := by
  cases loop with
  | judging expired fd conn => exact ⟨fun c hreg => h.1 c (hf.isRegistered hreg).1, h.2⟩
  | renewing expired fd => exact fun c hreg => hf.sseActive c (h c (hf.isRegistered hreg).1)
  | timedOut expired fd => exact fun c hreg => h c (hf.isRegistered hreg).1
  | found event conn => exact ⟨fun c hreg => h.1 c (hf.isRegistered hreg).1, h.2⟩
  | added conn => exact fun c hreg => h c (hf.isRegistered hreg).1
  | _ => trivial

/-- **Steps that set no deadline** keep the timer up to date, if the timer phase goes on from
one number to the next only when nothing is registered under the one. -/
theorem Timely.fades (h : Timely t) (hentered : Entered s') (hf : Fades t.state s')
    (hadded : ∀ conn, t.state.loop = .added conn → s'.loop = .added conn)
    (hpending : ∀ conn, s'.isRegistered conn.fd conn → conn.fd ∈ t.state.loop.pending → conn.fd ∈ s'.loop.pending)
    (hunkept : s'.loop.unkept.Sublist t.state.loop.unkept)
    (hphase : s'.loop.timerPhase = true → t.state.loop.timerPhase = true)
    (hknows : ({ t with state := s' } : Timed).Knows s'.loop) : Timely { t with state := s' } := by
  refine ⟨hentered, hf.valid h.valid, h.clock, ?_, ?_, hknows, ?_, hunkept.nodup h.nodup, ?_⟩
  · intro conn hreg hloop hfd
    obtain ⟨hreg', hlookup⟩ := hf.isRegistered hreg
    obtain ⟨deadline, hdeadline, htouched⟩ :=
      h.armed conn hreg' (fun hl => hloop (hadded conn hl)) (fun hmem => hfd (hpending conn hreg hmem))
    exact ⟨deadline, hlookup.trans hdeadline, fun hsse => htouched (hf.sseActive_eq_false hsse)⟩
  · intro conn hreg hfd hsse
    exact h.overdue conn (hf.isRegistered hreg).1 (hunkept.subset hfd) (hf.sseActive_eq_false hsse)
  · intro hp
    obtain ⟨hlate, hpast⟩ := h.phase (hphase hp)
    exact ⟨fun fd deadline hd => hlate fd deadline (hf.deadline hd), hpast⟩
  · exact fun conn hmem hfd => h.kept conn hmem (hunkept.subset hfd)

/-- Steps outside the timer phase and between `addEvent` and `addTimer`. -/
theorem Timely.plain (h : Timely t) (hentered : Entered s') (hf : Fades t.state s')
    (hadded : ∀ conn, t.state.loop ≠ .added conn) (hpending : t.state.loop.pending = [])
    (hunkept : s'.loop.unkept = []) (hphase : s'.loop.timerPhase = false)
    (hknows : ({ t with state := s' } : Timed).Knows s'.loop) : Timely { t with state := s' } := by
  apply h.fades hentered hf
  · exact fun conn hl => absurd hl (hadded conn)
  · intro conn _ hmem
    rw [hpending] at hmem
    cases hmem
  · rw [hunkept]
    exact List.nil_sublist _
  · intro hp
    rw [hphase] at hp
    cases hp
  · exact hknows

/-! ### The workers -/

theorem fades_of_work {w : ℕ} {worker : Worker} {a : WorkAct} (ht : WorkTrans s w worker a s') : Fades s s' := by
  have h := Fades.refl s
  cases ht with
  | take task taskQueue hqueue => exact fades_of_eq rfl rfl rfl
  | failed job => exact (fades_removeEvent s _ _ _).setWorker w _
  | toRead | toCheck | bad | lookup | toWrite | done | written => exact h.setWorker w _
  | lockRead | lockWrite => exact (h.setData (by exact id)).setWorker w _
  | read job => exact h.record _ _ _
  | drained job | closed job => exact (h.record _ _ _).setWorker w _
  | parsedAll job => exact h.endRead w job
  | dispatch job stream => exact (h.setData fun hsse => by simp [hsse]).setWorker w _
  | lost job next => exact h.afterUpdate w job next
  | modify job next => exact (h.epollMod _ _ _).afterUpdate w job next
  | removeRead job => exact (fades_removeEvent s _ _ _).endRead w job
  | removeWrite job => exact (fades_removeEvent s _ _ _).endWrite w job
  | write job => exact h.record _ _ _
  | again job => exact (h.record _ _ _).endWrite w job
  | writeFails job => exact (h.record _ _ _).setWorker w _

theorem loop_of_work {w : ℕ} {worker : Worker} {a : WorkAct} (ht : WorkTrans s w worker a s') : s'.loop = s.loop := by
  cases ht with
  | failed | removeRead | removeWrite => exact removeEvent_loop ..
  | lost job next | modify job next => cases next <;> rfl
  | _ => rfl

/-- **Every step of a worker** keeps the timer up to date. -/
theorem Timely.work (h : Timely t) {w : ℕ} {worker : Worker} {a : WorkAct} (hentered : Entered s')
    (ht : WorkTrans t.state w worker a s') : Timely { t with state := s' } := by
  have hloop := loop_of_work ht
  have hf := fades_of_work ht
  apply h.fades hentered hf
  · exact fun conn hl => hloop.trans hl
  · intro conn _ hmem
    rwa [hloop]
  · rw [hloop]
  · intro hp
    rwa [hloop] at hp
  · rw [hloop]
    exact h.knows.fades hf

/-! ### The timer phase -/

/-- `tick` takes out those whose deadline has passed. -/
theorem Timely.tick (h : Timely t) {now : ℤ} (hl : t.state.loop = .ticking) (hnow : t.clock ≤ now) :
    Timely (t.after (.loop (.tick now)) { t.state with
      timer := (t.state.timer.tick now).2, loop := .expiring (t.state.timer.tick now).1 }) := by
  have htouched : ∀ conn, ∀ time ∈ t.touched conn, time ≤ now := fun conn time ht => (h.clock.2 conn time ht).trans hnow
  have harmed : ∀ conn, t.state.isRegistered conn.fd conn → ∃ deadline,
      t.state.timer.fdExpireMap.lookup conn.fd = some deadline ∧
        ((t.state.data conn).sseActive = false → t.touched conn = some (deadline - timeoutSec)) := by
    intro conn hreg
    exact h.armed conn hreg (by simp [hl]) (by simp [hl, LoopState.pending])
  refine ⟨⟨h.entered.table, h.entered.numbered, nofun⟩, h.valid.tick now, ⟨le_rfl, htouched⟩, ?_, ?_, trivial, ?_,
    h.valid.nodup_tick now, nofun⟩
  · intro conn hreg _ hfd
    obtain ⟨deadline, hlookup, hown⟩ := harmed conn hreg
    refine ⟨deadline, ?_, hown⟩
    exact (h.valid.lookup_tick now conn.fd).trans ((if_neg hfd).trans hlookup)
  · intro conn hreg hfd hsse
    obtain ⟨deadline, hlookup, hown⟩ := harmed conn hreg
    obtain ⟨deadline', hle, hlookup'⟩ := (h.valid.mem_tick now conn.fd).mp hfd
    obtain rfl : deadline = deadline' := Option.some.inj (hlookup.symm.trans hlookup')
    refine ⟨deadline - timeoutSec, hown hsse, ?_⟩
    show deadline - timeoutSec + timeoutSec ≤ now
    omega
  · refine fun _ => ⟨fun fd deadline hd => ?_, htouched⟩
    replace hd := (h.valid.lookup_tick now fd).symm.trans hd
    split_ifs at hd with hfd
    by_contra hle
    exact hfd ((h.valid.mem_tick now fd).mpr ⟨deadline, not_lt.mp hle, hd⟩)

/-- The loop thread goes on. -/
theorem Timely.setLoop (h : Timely t) {loop : LoopState} (haccepted : ∀ conn, loop ≠ .accepted conn)
    (hadded : ∀ conn, t.state.loop ≠ .added conn) (hpending : t.state.loop.pending ⊆ loop.pending)
    (hunkept : loop.unkept.Sublist t.state.loop.unkept)
    (hphase : loop.timerPhase = true → t.state.loop.timerPhase = true) (hknows : t.Knows loop) :
    Timely { t with state := { t.state with loop } } := by
  have hf : Fades t.state { t.state with loop } := fades_of_eq rfl rfl rfl
  exact h.fades ⟨h.entered.table, h.entered.numbered, fun conn hl => absurd hl (haccepted conn)⟩ hf
    (fun conn hl => absurd hl (hadded conn)) (fun conn _ hmem => hpending hmem) hunkept hphase (hknows.fades hf)

/-- A number that has expired is looked up. -/
theorem Timely.lookupExpired (h : Timely t) {fd : Fd} {expired : List Fd} (hl : t.state.loop = .expiring (fd :: expired)) :
    Timely { t with state := { t.state with loop := .judging expired fd (t.state.connMap.lookup fd).join } } := by
  apply h.setLoop
  · exact nofun
  · simp [hl]
  · rw [hl]
    exact List.Subset.refl _
  · rw [hl]
    exact .refl _
  · simp [hl, LoopState.timerPhase]
  · constructor
    · intro c hreg
      rw [show t.state.connMap.lookup fd = some (some c) from hreg]
      rfl
    · intro c hc
      exact (h.entered.isRegistered (Option.join_eq_some_iff.mp hc)).1

/-- The expired number is a stream's, which is kept. -/
theorem Timely.keepStream (h : Timely t) {expired : List Fd} {fd : Fd} {conn : Conn}
    (hl : t.state.loop = .judging expired fd conn) (hsse : (t.state.data conn).sseActive = true) :
    Timely (t.after (.loop .judge) { t.state with loop := .renewing expired fd }) := by
  have hknows := h.knows
  have hnodup := h.nodup
  rw [hl] at hknows hnodup
  have hstep : Timely { t with state := { t.state with loop := .renewing expired fd } } := by
    apply h.setLoop
    · exact nofun
    · simp [hl]
    · rw [hl]
      exact List.Subset.refl _
    · rw [hl]
      exact List.sublist_cons_self fd expired
    · simp [hl, LoopState.timerPhase]
    · intro c hreg
      obtain rfl : conn = c := Option.some.inj (hknows.1 c hreg)
      exact hsse
  have hkeep : t.keep (.loop .judge) = t.kept ++ [conn] := by simp [Timed.keep, hl, hsse]
  refine ⟨hstep.entered, hstep.valid, hstep.clock, hstep.armed, hstep.overdue, hstep.knows, hstep.phase, hstep.nodup, ?_⟩
  intro c hc
  replace hc : c ∈ t.keep (.loop .judge) := hc
  rw [hkeep] at hc
  rcases List.mem_append.mp hc with hc | hc
  · exact hstep.kept c hc
  · rw [List.mem_singleton.mp hc, hknows.2 conn rfl]
    exact (List.nodup_cons.mp hnodup).1

/-- The expired number is not a stream's, so what is registered under it is overdue. -/
theorem Timely.giveUp (h : Timely t) {expired : List Fd} {fd : Fd} {conn : Option Conn}
    (hl : t.state.loop = .judging expired fd conn) (hsse : ∀ c ∈ conn, (t.state.data c).sseActive = false) :
    Timely (t.after (.loop .judge) { t.state with loop := .timedOut expired fd }) := by
  have hknows := h.knows
  rw [hl] at hknows
  have hstep : Timely { t with state := { t.state with loop := .timedOut expired fd } } := by
    apply h.setLoop
    · exact nofun
    · simp [hl]
    · rw [hl]
      exact List.Subset.refl _
    · rw [hl]
      exact .refl _
    · simp [hl, LoopState.timerPhase]
    · intro c hreg
      have hfd : c.fd = fd := (h.entered.isRegistered hreg).1
      have hmem : c.fd ∈ t.state.loop.unkept := by simp [hl, LoopState.unkept, hfd]
      exact h.overdue c (hfd ▸ hreg) hmem (hsse c (hknows.1 c hreg))
  have hkeep : t.keep (.loop .judge) = t.kept := by
    cases conn with
    | none => simp [Timed.keep, hl]
    | some c => simp [Timed.keep, hl, hsse c rfl]
  unfold Timed.after
  rw [hkeep]
  exact hstep

/-- What is registered under the number is removed. -/
theorem Timely.timeOut (h : Timely t) {expired : List Fd} {fd : Fd} (hl : t.state.loop = .timedOut expired fd)
    (hentered : Entered { t.state.removeEvent fd none (.timeout fd) with loop := .expiring expired }) :
    Timely { t with state := { t.state.removeEvent fd none (.timeout fd) with loop := .expiring expired } } := by
  have hf : Fades t.state { t.state.removeEvent fd none (.timeout fd) with loop := .expiring expired } :=
    (fades_removeEvent t.state fd none (.timeout fd)).setLoop _
  apply h.fades hentered hf
  · simp [hl]
  · intro conn hreg hmem
    rw [hl] at hmem
    rcases List.mem_cons.mp hmem with hfd | hmem
    · -- nothing is registered under it any more
      exfalso
      replace hreg : (t.state.removeEvent fd none (.timeout fd)).connMap.lookup conn.fd = some (some conn) := hreg
      unfold State.removeEvent at hreg
      subst hfd
      split at hreg
      · rename_i hnone
        cases hnone.symm.trans hreg
      · cases (AList.lookup_erase conn.fd t.state.connMap).symm.trans hreg
    · exact hmem
  · rw [hl]
    exact List.sublist_cons_self fd expired
  · simp [hl, LoopState.timerPhase]
  · trivial

/-! ### Steps that set a deadline -/

/-- **A deadline is set** for `fd`, for what is registered under it. -/
theorem Timely.arm (h : Timely t) {fd : Fd} {now : ℤ} {touched : Conn → Option ℤ} {loop : LoopState}
    (hnow : t.clock ≤ now) (haccepted : ∀ conn, loop ≠ .accepted conn)
    (hadded : ∀ conn, t.state.loop = .added conn → conn.fd = fd)
    (hpending : ∀ fd' ∈ t.state.loop.pending, fd' ≠ fd → fd' ∈ loop.pending)
    (hunkept : loop.unkept.Sublist t.state.loop.unkept)
    (hphase : loop.timerPhase = true → t.state.loop.timerPhase = true) (hknows : ∀ t : Timed, t.Knows loop)
    (hquiet : touched = t.touched ∨ loop.timerPhase = false ∧ loop.unkept = [])
    (hother : ∀ conn, conn.fd ≠ fd → touched conn = t.touched conn)
    (hsame : ∀ conn, touched conn = t.touched conn ∨ touched conn = some now)
    (hown : ∀ conn, t.state.isRegistered fd conn → (t.state.data conn).sseActive = false → touched conn = some now) :
    Timely { t with
      state := { t.state with timer := t.state.timer.addTimer fd timeoutSec now, loop }
      clock := now
      touched } := by
  obtain ⟨hticked, htouched⟩ := h.clock
  refine ⟨⟨h.entered.table, h.entered.numbered, fun conn hl => absurd hl (haccepted conn)⟩,
    h.valid.addTimer fd timeoutSec now, ⟨hticked.trans hnow, ?_⟩, ?_, ?_, hknows _, ?_, hunkept.nodup h.nodup,
    fun conn hmem hfd => h.kept conn hmem (hunkept.subset hfd)⟩
  · intro conn time ht
    rcases hsame conn with heq | heq
    · exact (htouched conn time (heq ▸ ht)).trans hnow
    · exact (Option.some.inj (heq.symm.trans ht)).ge
  · intro conn hreg _ hfd
    by_cases heq : conn.fd = fd
    · subst heq
      refine ⟨now + timeoutSec, t.state.timer.lookup_addTimer .., fun hsse => ?_⟩
      rw [Int.add_sub_cancel]
      exact hown conn hreg hsse
    · obtain ⟨deadline, hlookup, htouch⟩ := h.armed conn hreg (fun hl => heq (hadded conn hl))
        (fun hmem => hfd (hpending conn.fd hmem heq))
      refine ⟨deadline, ?_, fun hsse => (hother conn heq).trans (htouch hsse)⟩
      exact (t.state.timer.lookup_addTimer_ne heq timeoutSec now).trans hlookup
  · intro conn hreg hfd hsse
    rcases hquiet with rfl | ⟨_, hnil⟩
    · exact h.overdue conn hreg (hunkept.subset hfd) hsse
    · cases hnil ▸ hfd
  · intro hp
    rcases hquiet with rfl | ⟨hfalse, _⟩
    · obtain ⟨hlate, hpast⟩ := h.phase (hphase hp)
      refine ⟨fun fd' deadline hd => ?_, hpast⟩
      by_cases heq : fd' = fd
      · subst heq
        obtain rfl : now + timeoutSec = deadline :=
          Option.some.inj ((t.state.timer.lookup_addTimer fd' timeoutSec now).symm.trans hd)
        show t.ticked < now + 15
        omega
      · exact hlate fd' deadline ((t.state.timer.lookup_addTimer_ne heq timeoutSec now).symm.trans hd)
    · cases hfalse.symm.trans hp

/-- An event is dispatched to the connection that was found for it. -/
theorem Timely.updateTimer (h : Timely t) {event : Event} {conn : Option Conn} {now : ℤ}
    (hl : t.state.loop = .found event conn) (hnow : t.clock ≤ now) : Timely (t.after (.loop (.updateTimer now))
      { t.state with timer := t.state.timer.updateTimer event.fd timeoutSec now, loop := .submitting event conn }) := by
  obtain ⟨hfound, hfd⟩ : t.Knows (.found event conn) := hl ▸ h.knows
  have hself : ∀ c, conn = some c → t.touch (.loop (.updateTimer now)) c = some now := by
    rintro c rfl
    simp [Timed.touch, hl]
  have hother : ∀ c, conn ≠ some c → t.touch (.loop (.updateTimer now)) c = t.touched c := by
    intro c hc
    cases conn with
    | none => simp [Timed.touch, hl]
    | some conn =>
      have hne : c ≠ conn := fun heq => hc (congrArg some heq.symm)
      simp [Timed.touch, hl, Function.update_of_ne hne]
  apply h.arm hnow
  · exact nofun
  · simp [hl]
  · simp [hl, LoopState.pending]
  · exact List.nil_sublist _
  · exact nofun
  · exact fun _ => trivial
  · exact .inr ⟨rfl, rfl⟩
  · exact fun c hc => hother c fun heq => hc (hfd c heq)
  · intro c
    by_cases hc : conn = some c
    · exact .inr (hself c hc)
    · exact .inl (hother c hc)
  · exact fun c hreg _ => hself c (hfound c hreg)

/-- The deadline of a connection that was accepted. -/
theorem Timely.addTimer (h : Timely t) {conn : Conn} {now : ℤ} (hl : t.state.loop = .added conn) (hnow : t.clock ≤ now) :
    Timely (t.after (.loop (.addTimer now))
      { t.state with timer := t.state.timer.addTimer conn.fd timeoutSec now, loop := .accepting }) := by
  have hadded : t.Knows (.added conn) := hl ▸ h.knows
  have htouch : t.touch (.loop (.addTimer now)) = Function.update t.touched conn (some now) := by
    simp [Timed.touch, hl]
  show Timely { t with
    state := { t.state with timer := t.state.timer.addTimer conn.fd timeoutSec now, loop := .accepting }
    clock := now
    touched := t.touch (.loop (.addTimer now)) }
  rw [htouch]
  apply h.arm hnow
  · exact nofun
  · intro c hc
    rw [hl] at hc
    cases hc
    rfl
  · simp [hl, LoopState.pending]
  · exact List.nil_sublist _
  · exact nofun
  · exact fun _ => trivial
  · exact .inr ⟨rfl, rfl⟩
  · exact fun c hc => Function.update_of_ne (fun heq => hc (congrArg Conn.fd heq)) _ _
  · intro c
    by_cases heq : c = conn
    · subst heq
      exact .inr (Function.update_self ..)
    · exact .inl (Function.update_of_ne heq _ _)
  · intro c hreg _
    rw [hadded c hreg]
    exact Function.update_self ..

/-- A stream gets a new deadline. -/
theorem Timely.renew (h : Timely t) {expired : List Fd} {fd : Fd} {now : ℤ} (hl : t.state.loop = .renewing expired fd)
    (hnow : t.clock ≤ now) : Timely (t.after (.loop (.renew now))
      { t.state with timer := t.state.timer.addTimer fd timeoutSec now, loop := .expiring expired }) := by
  have hstream : t.Knows (.renewing expired fd) := hl ▸ h.knows
  apply h.arm hnow
  · exact nofun
  · simp [hl]
  · intro fd' hmem hne
    rw [hl] at hmem
    exact (List.mem_cons.mp hmem).resolve_left hne
  · rw [hl]
    exact .refl _
  · simp [hl, LoopState.timerPhase]
  · exact fun _ => trivial
  · exact .inl rfl
  · exact fun _ _ => rfl
  · exact fun _ => .inl rfl
  · intro c hreg hsse
    cases hsse.symm.trans (hstream c hreg)

/-- A connection is entered in the table; its deadline is set next. -/
theorem Timely.addEvent (h : Timely t) {conn : Conn} (hl : t.state.loop = .accepted conn) :
    Timely { t with state :=
      { t.state.addEvent conn.fd { epollin := true } conn (.event .listener) with loop := .added conn } } := by
  have hentered := h.entered.enter hl
  rw [h.entered.addEvent_eq hl] at hentered ⊢
  have hlookup : ∀ fd, fd ≠ conn.fd →
      (t.state.connMap.insert conn.fd (some conn)).lookup fd = t.state.connMap.lookup fd :=
    fun fd hne => AList.lookup_insert_ne hne
  have hself : (t.state.connMap.insert conn.fd (some conn)).lookup conn.fd = some (some conn) := AList.lookup_insert _
  refine ⟨hentered, h.valid, h.clock, ?_, ?_, ?_, nofun, .nil, fun _ _ => List.not_mem_nil⟩
  · intro c hreg hloop _
    have hne : c.fd ≠ conn.fd := by
      intro heq
      replace hreg : (t.state.connMap.insert conn.fd (some conn)).lookup c.fd = some (some c) := hreg
      rw [heq, hself, Option.some.injEq, Option.some.injEq] at hreg
      exact hloop (hreg ▸ rfl)
    exact h.armed c ((hlookup c.fd hne).symm.trans hreg) (by simp [hl]) (by simp [hl, LoopState.pending])
  · intro c _ hmem
    cases hmem
  · intro c hreg
    exact (Option.some.inj (Option.some.inj (hself.symm.trans hreg))).symm

/-! ### Every step -/

/-- **Every step of the loop thread** keeps the timer up to date. -/
theorem Timely.loop (h : Timely t) {a : LoopAct} (hentered : Entered s')
    (hnow : ∀ now ∈ (Act.loop a).clock, t.clock ≤ now) (ht : LoopTrans t.state a s') : Timely (t.after (.loop a) s') := by
  cases ht with
  | tick now hl => exact h.tick hl (hnow now rfl)
  | lookupExpired fd expired hl => exact h.lookupExpired hl
  | keep expired fd conn hl hsse => exact h.keepStream hl hsse
  | giveUp expired fd conn hl hsse => exact h.giveUp hl hsse
  | renew now expired fd hl => exact h.renew hl (hnow now rfl)
  | timeOut expired fd hl => exact h.timeOut hl hentered
  | updateTimer now event conn hl => exact h.updateTimer hl (hnow now rfl)
  | addEvent conn hl => exact h.addEvent hl
  | addTimer now conn hl => exact h.addTimer hl (hnow now rfl)
  | found event batch conn hl hbatch hfd hsubmits hconn =>
    refine h.plain hentered (fades_of_eq rfl rfl rfl) (by simp [hl]) (by simp [hl, LoopState.pending]) rfl rfl ⟨?_, ?_⟩
    · intro c hreg
      exact Option.some.inj (hconn.symm.trans hreg)
    · rintro c rfl
      exact (h.entered.isRegistered hconn).1
  | drop fd conn overflowed hl =>
    exact h.plain hentered ((fades_removeEvent _ _ _ _).setLoop _) (by simp [hl]) (by simp [hl, LoopState.pending]) rfl rfl
      trivial
  | failed event batch hl hbatch =>
    have hloop := (removeEvent_loop { t.state with batch } event.fd none (.event event.origin)).trans hl
    obtain ⟨hsse, htable⟩ := fades_removeEvent { t.state with batch } event.fd none (.event event.origin)
    exact h.plain hentered ⟨hsse, htable⟩ (by simp [hl]) (by simp [hl, LoopState.pending]) (by rw [hloop]; rfl)
      (by rw [hloop]; rfl) (by rw [hloop]; trivial)
  | pumped overflow fd conn items overflowed hl | nothing overflow fd conn items overflowed hl =>
    exact h.plain hentered (((Fades.refl _).setData (by exact id)).setLoop _) (by simp [hl])
      (by simp [hl, LoopState.pending]) rfl rfl trivial
  | modify items overflowed fd conn hl =>
    exact h.plain hentered (((Fades.refl _).epollMod _ _ _).setLoop _) (by simp [hl]) (by simp [hl, LoopState.pending])
      rfl rfl trivial
  | gone event batch hl | pass event batch hl =>
    exact h.plain hentered (fades_of_eq rfl rfl rfl) (by simp [hl]) (by simp [hl, LoopState.pending])
      (by simp [hl, LoopState.unkept]) (by simp [hl, LoopState.timerPhase]) (by simp [hl, Timed.Knows])
  | wait batch hl | snapshot items hl | skip _ _ fd conn items overflowed hl | full _ _ fd conn items overflowed hl
  | lookup items overflowed fd conn hl | lost items overflowed fd conn hl | checkOverflow items overflowed fd conn hl
  | pumpedAll overflowed hl | droppedAll hl | listen event batch hl | handledAll hl | submit event conn hl
  | accept fd hl | acceptFails hl =>
    exact h.plain hentered (fades_of_eq rfl rfl rfl) (by simp [hl]) (by simp [hl, LoopState.pending]) rfl rfl trivial

theorem timely_start (listenFd numThreads : ℕ) (clock : ℤ) : Timely (.start listenFd numThreads clock) := by
  refine ⟨entered_start listenFd numThreads, Timer.valid_empty, ⟨le_rfl, nofun⟩, ?_, nofun, trivial, nofun, .nil, nofun⟩
  intro conn hreg
  have hopen := ((entered_start listenFd numThreads).isRegistered hreg).2
  by_cases hfd : conn.fd = listenFd
  · simp [State.start, hfd] at hopen
  · simp [State.start, Function.update_of_ne hfd] at hopen

theorem step_cases {a : Act} {t' : Timed} (hs : Timed.step t a = some t') :
    (∀ now ∈ a.clock, t.clock ≤ now) ∧ ∃ s', EventLoop.step t.state a = some s' ∧ t' = t.after a s' := by
  obtain ⟨hnow, hs⟩ := Option.ite_none_right_eq_some.mp hs
  obtain ⟨s', hs', rfl⟩ := Option.map_eq_some_iff.mp hs
  exact ⟨hnow, s', hs', rfl⟩

/-- **Every step** keeps the timer up to date. -/
theorem Timely.step (t : Timed) (a : Act) (t' : Timed) (h : Timely t) (hs : t.step a = some t') : Timely t' := by
  obtain ⟨hnow, s', hs', rfl⟩ := step_cases hs
  have hentered := h.entered.step t.state a s' hs'
  cases trans_of_step hs' with
  | loop a s' ht => exact h.loop hentered hnow ht
  | work w worker a s' hw ht => exact h.work hentered ht

/-! ### Whole runs -/

/-- A run of the event loop whose clock does not go back is a run with that clock. -/
theorem timed_run {as : List Act} {s : State} {t : Timed} (h : run EventLoop.step t.state as = some s)
    (hclock : (as.filterMap Act.clock).Pairwise (· ≤ ·)) (hfirst : ∀ now ∈ as.filterMap Act.clock, t.clock ≤ now) :
    ∃ t', run Timed.step t as = some t' ∧ t'.state = s := by
  induction as generalizing t with
  | nil =>
    cases h
    exact ⟨t, rfl, rfl⟩
  | cons a as ih =>
    obtain ⟨s', hs', hrest⟩ := run_cons_some h
    have hnow : ∀ now ∈ a.clock, t.clock ≤ now := fun now hn =>
      hfirst now (List.mem_filterMap.mpr ⟨a, List.mem_cons_self, hn⟩)
    have hstep : t.step a = some (t.after a s') := by
      rw [Timed.step, if_pos hnow, hs']
      rfl
    have hlater : (as.filterMap Act.clock).Pairwise (· ≤ ·) ∧
        ∀ now ∈ as.filterMap Act.clock, (t.after a s').clock ≤ now := by
      cases hc : a.clock with
      | none =>
        rw [List.filterMap_cons_none hc] at hclock hfirst
        exact ⟨hclock, by simpa [Timed.after, hc] using hfirst⟩
      | some now =>
        rw [List.filterMap_cons_some hc] at hclock
        obtain ⟨hle, hclock⟩ := List.pairwise_cons.mp hclock
        exact ⟨hclock, by simpa [Timed.after, hc] using hle⟩
    obtain ⟨t', ht', hstate⟩ := ih (t := t.after a s') hrest hlater.1 hlater.2
    exact ⟨t', by rw [run_cons, hstep, Option.bind_some, ht'], hstate⟩

/-- **Idle connections are closed, and no others.** In every run with a clock that does not go
back: a registered connection has a deadline in the timer, unless the timer phase has yet to
deal with its number or its own `addTimer` is next; right after the timer phase a registered
connection that is no stream was accepted or had an event dispatched less than 15 seconds
before the time that `tick` read; and what the timer phase closes it has not seen to be a
stream, and 15 seconds had passed since the connection itself was accepted or had an event. -/
theorem idle_timeouts {listenFd numThreads : ℕ} {clock : ℤ} {as : List Act} {t : Timed}
    (h : run Timed.step (.start listenFd numThreads clock) as = some t) :
    (∀ fd conn, t.state.isRegistered fd conn → t.state.loop ≠ .added conn → fd ∉ t.state.loop.pending →
        fd ∈ t.state.timer.fdExpireMap) ∧
      (t.state.loop = .expiring [] → ∀ fd conn, t.state.isRegistered fd conn →
        (t.state.data conn).sseActive = false →
          ∃ time, t.touched conn = some time ∧ time ≤ t.ticked ∧ t.ticked - time < 15) ∧
      ∀ t', t.step (.loop .timeOut) = some t' → ∀ fd conn, t.state.isRegistered fd conn →
        ¬ t'.state.isRegistered fd conn →
          conn ∉ t.kept ∧ ∃ time, t.touched conn = some time ∧ 15 ≤ t.ticked - time := by
  have hI : Timely t := run_invariant Timely.step (timely_start listenFd numThreads clock) h
  refine ⟨?_, ?_, ?_⟩
  · intro fd conn hreg hloop hfd
    obtain rfl := (hI.entered.isRegistered hreg).1
    obtain ⟨deadline, hlookup, _⟩ := hI.armed conn hreg hloop hfd
    exact AList.lookup_isSome.mp (by rw [hlookup]; rfl)
  · intro hl fd conn hreg hsse
    obtain rfl := (hI.entered.isRegistered hreg).1
    obtain ⟨deadline, hlookup, hown⟩ := hI.armed conn hreg (by simp [hl]) (by simp [hl, LoopState.pending])
    obtain ⟨hlate, hpast⟩ := hI.phase (by simp [hl, LoopState.timerPhase])
    have hdeadline := hlate conn.fd deadline hlookup
    have htouched := hown hsse
    unfold timeoutSec at htouched
    exact ⟨deadline - 15, htouched, hpast conn _ htouched, by omega⟩
  · intro t' hs fd conn hreg hgone
    obtain ⟨_, s', hs', rfl⟩ := step_cases hs
    cases trans_of_step hs' with
    | loop _ _ ht =>
      cases ht with
      | timeOut expired fd' hl =>
        have hfd : fd = fd' := by
          by_contra hne
          refine hgone ?_
          have hlookup : (t.state.removeEvent fd' none (.timeout fd')).connMap.lookup fd = t.state.connMap.lookup fd := by
            unfold State.removeEvent
            split
            · rfl
            · exact AList.lookup_erase_ne hne
          exact hlookup.trans hreg
        subst hfd
        have hknows : t.Knows (.timedOut expired fd) := hl ▸ hI.knows
        obtain ⟨time, htouched, hle⟩ := hknows conn hreg
        refine ⟨fun hmem => hI.kept conn hmem ?_, time, htouched, ?_⟩
        · simp [hl, LoopState.unkept, (hI.entered.isRegistered hreg).1]
        · unfold timeoutSec at hle
          omega

/-- A connection that was accepted at `0` is there at `14`. -/
theorem idle_timeouts_early : ∃ t,
    run Timed.step (.start 3 2 0) (acceptTurn 5 ++ [.loop (.wait []), .loop (.tick 14)]) = some t ∧
      ∃ time, t.touched ⟨0, 5⟩ = some time ∧ time ≤ t.ticked ∧ t.ticked - time < 15 := by
  have h : (run Timed.step (.start 3 2 0) (acceptTurn 5 ++ [.loop (.wait []), .loop (.tick 14)])).map (fun t =>
      decide (t.state.loop = .expiring [] ∧ t.state.isRegistered 5 ⟨0, 5⟩ ∧ (t.state.data ⟨0, 5⟩).sseActive = false)) =
        some true := by decide +kernel
  obtain ⟨t, ht, hstate⟩ := Option.map_eq_some_iff.mp h
  obtain ⟨hl, hreg, hsse⟩ := of_decide_eq_true hstate
  exact ⟨t, ht, (idle_timeouts ht).2.1 hl 5 ⟨0, 5⟩ hreg hsse⟩

end CanMonitor.EventLoop
