import CanMonitor.Can.Runtime

/-!
# Monitoring

The runtime at work: its owner starts and stops it, the receive thread records and appends
what it reads, and other threads ask for frames and for statistics.

## The model

The store and the statistics are locked one after the other, so a frame that has been
recorded need not have been appended yet. A run is any interleaving of the steps of the
receive thread, each with any outcome of its system call, with the calls of others. The
owner calls `start` and `stop` one at a time; `stop` tells the thread, waits until it has
left its loop (`stopping`), and goes on. `appended` and `recorded` are what was ever
appended and recorded.

## What is proved

* `Agrees.step` — the invariant: both logs are what the thread accepted, up to the frame that
  it has in hand.
* `store_and_statistics_agree` — the same for the counters and the frames in the store.
* `running_receives` — a runtime that says it is running has a thread in the loop, and the
  next frame is stored, in every run in which the thread finds no error to leave for;
  `exits_stop_receiving` is the other case.
-/

namespace CanMonitor.Can

open CanMonitor.Library

namespace Monitoring

/-- The runtime with its surroundings. -/
structure State where
  runtime : CanRuntime
  sockets : Sockets := {}
  /-- `stop` waits for the receive thread. -/
  stopping : Bool := false
  appended : List CanFrame := []
  recorded : List CanFrame := []

/-- What can happen. -/
inductive Action where
  /-- The owner calls `start`. -/
  | start (answers : StartAnswers)
  /-- The owner calls `stop`, which tells the receive thread. -/
  | stop
  /-- The receive thread has left its loop, and `stop` goes on. -/
  | joined
  /-- A step of the receive thread. -/
  | receive (action : ReceiveAction)
  /-- Somebody calls `queryFrames`. -/
  | queryFrames (after : UInt64) (idFilter : Option UInt32) (limit : ℕ)
  /-- Somebody calls `busStats`. -/
  | busStats (now : UInt64)

/-- Where the receive thread is, if there is one. -/
def State.place (s : State) : Option Place := s.runtime.receiver.bind (·.thread)

/-- The frame that the receive thread is about to record. -/
def State.unrecorded (s : State) : List CanFrame := s.place.elim [] Place.unrecorded

/-- The frame that it is about to append, or to record and append. -/
def State.unappended (s : State) : List CanFrame := s.place.elim [] Place.unappended

/-- The frame that it is about to append. -/
def State.between (s : State) : List CanFrame :=
  match s.place with
  | some (.append frame) => [frame]
  | _ => []

/-- A step of the receive thread. -/
def receive (s : State) (action : ReceiveAction) : Option State :=
  s.runtime.receiver.bind fun receiver =>
    (receiveStep ⟨receiver, s.runtime.store, s.runtime.statistics⟩ action).map fun r => { s with
      runtime := { s.runtime with receiver := some r.receiver, store := r.store, statistics := r.statistics }
      appended := s.appended ++ s.between
      recorded := s.recorded ++ s.unrecorded }

/-- A step. -/
def step (s : State) : Action → Option State
  | .start answers =>
    if s.stopping then none
    else
      let (_, runtime, sockets) := s.runtime.start answers s.sockets
      some { s with runtime, sockets }
  | .stop => if s.stopping then none else some { s with runtime := s.runtime.requestStop, stopping := true }
  | .joined =>
    if s.stopping ∧ (s.place = none ∨ s.place = some .left) then
      let (runtime, sockets) := s.runtime.finishStop s.sockets
      some { s with runtime, sockets, stopping := false }
    else none
  | .receive action => receive s action
  | .queryFrames _ _ _ => some s
  | .busStats now => some { s with runtime := { s.runtime with statistics := (s.runtime.statistics.snapshot now).2 } }

/-- The frame that a step accepts. -/
def Action.accepted : Action → Option CanFrame
  | .receive action => action.accepted
  | _ => none

/-! ### The owner's calls -/

/-- The runtime is as its owner left it. -/
structure Owned (s : State) : Prop where
  /-- Between calls it is stopped or has a receiver that was not told to stop. -/
  idle : s.stopping = false → s.runtime.Stopped ∨
    s.runtime.running = true ∧ ∃ receiver, s.runtime.receiver = some receiver ∧ receiver.running = true
  receiver : ∀ receiver, s.runtime.receiver = some receiver →
    receiver.hasStatistics = true ∧ receiver.socketFd.isSome ∧ receiver.thread.isSome

theorem owned_new {runtime : CanRuntime} (h : runtime.Stopped) : Owned { runtime } := by
  refine ⟨fun _ => .inl h, fun receiver heq => ?_⟩
  rw [h.receiver] at heq
  cases heq

/-- **The ways of `start`**: nothing changes but the accounts, or a stopped runtime has a new receiver,
whose thread begins. -/
theorem start_cases {s s' : State} (h : Owned s) {answers : StartAnswers} (hstep : step s (.start answers) = some s') :
    s'.stopping = s.stopping ∧ s'.appended = s.appended ∧ s'.recorded = s.recorded ∧
    (s'.runtime = s.runtime ∨
      s.runtime.Stopped ∧ ∃ sender receiver,
        s'.runtime = { s.runtime with sender, receiver := some receiver, running := true } ∧
        receiver.hasStatistics = true ∧ receiver.running = true ∧ receiver.socketFd.isSome ∧
        receiver.thread = some .test) := by
  change (if s.stopping then none else some { s with
    runtime := (s.runtime.start answers s.sockets).2.1
    sockets := (s.runtime.start answers s.sockets).2.2 }) = some s' at hstep
  split_ifs at hstep with hstopping
  obtain rfl := Option.some.inj hstep
  refine ⟨rfl, rfl, rfl, ?_⟩
  dsimp only
  rcases h.idle (by simpa using hstopping) with hstopped | ⟨hrunning, -⟩
  · rcases hstopped.start_cases answers s.sockets with ⟨message, sockets', heq, -⟩ | ⟨sockets', heq, -⟩
    · rw [heq]
      exact .inl rfl
    · rw [heq]
      exact .inr ⟨hstopped, _, _, rfl, rfl, rfl, rfl, rfl⟩
  · unfold CanRuntime.start
    rw [if_pos hrunning]
    exact .inl rfl

theorem stop_cases {s s' : State} (hstep : step s .stop = some s') :
    s' = { s with runtime := s.runtime.requestStop, stopping := true } := by
  change (if s.stopping then none else _) = some s' at hstep
  split_ifs at hstep
  exact (Option.some.inj hstep).symm

theorem joined_cases {s s' : State} (hstep : step s .joined = some s') :
    (s.place = none ∨ s.place = some .left) ∧ s' = { s with
      runtime := (s.runtime.finishStop s.sockets).1
      sockets := (s.runtime.finishStop s.sockets).2
      stopping := false } := by
  change (if s.stopping ∧ (s.place = none ∨ s.place = some .left) then _ else none) = some s' at hstep
  split_ifs at hstep with hjoined
  exact ⟨hjoined.2, (Option.some.inj hstep).symm⟩

/-- The frame in hand is to be appended only, or to be recorded first. -/
theorem unappended_eq (s : State) : s.unappended = s.between ++ s.unrecorded := by
  unfold State.unappended State.between State.unrecorded
  cases s.place with
  | none => rfl
  | some place => cases place <;> rfl

theorem place_requestStop (s : State) (sockets : Sockets) (stopping : Bool) :
    State.place { s with runtime := s.runtime.requestStop, sockets, stopping } = s.place := by
  unfold State.place CanRuntime.requestStop
  cases s.runtime.receiver <;> rfl

/-- **What a step of the receive thread does**: it records what it has in hand, or appends it, or it has
nothing in hand and may accept a frame. -/
theorem receive_cases {s s' : State} {action : ReceiveAction} (h : receive s action = some s') :
    (∃ receiver place, s.runtime.receiver = some receiver ∧ s'.runtime =
        { s.runtime with
          receiver := some { receiver with thread := some place }
          store := s'.runtime.store
          statistics := s'.runtime.statistics } ∧
      receiver.thread.bind (receiver.next · action) = some place) ∧
    s'.stopping = s.stopping ∧
    ((∃ frame, s.recorded ++ s.unrecorded = s'.recorded ∧ s.unrecorded = [frame] ∧ s'.unrecorded = [] ∧
        s'.appended = s.appended ∧ s'.unappended = s.unappended ∧ action.accepted = none ∧
        s'.runtime.store = s.runtime.store ∧
        ∀ receiver, s.runtime.receiver = some receiver → receiver.hasStatistics = true →
          s'.runtime.statistics = s.runtime.statistics.recordReceived frame) ∨
      (∃ frame, s.appended ++ s.unappended = s'.appended ∧ s.unappended = [frame] ∧ s'.unappended = [] ∧
        s.unrecorded = [] ∧ s'.unrecorded = [] ∧ s'.recorded = s.recorded ∧ action.accepted = none ∧
        s'.runtime.store = (s.runtime.store.append frame).2 ∧ s'.runtime.statistics = s.runtime.statistics) ∨
      s.unrecorded = [] ∧ s.unappended = [] ∧ s'.unrecorded = action.accepted.toList ∧
        s'.unappended = action.accepted.toList ∧ s'.recorded = s.recorded ∧ s'.appended = s.appended ∧
        s'.runtime.store = s.runtime.store ∧ s'.runtime.statistics = s.runtime.statistics) := by
  obtain ⟨receiver, hreceiver, h⟩ := Option.bind_eq_some_iff.mp h
  obtain ⟨r, hstep, rfl⟩ := Option.map_eq_some_iff.mp h
  obtain ⟨⟨place, hplace⟩, hcases⟩ := receiveStep_cases hstep
  have hnext : receiver.thread.bind (receiver.next · action) = some place := by
    obtain ⟨place₀, hplace₀, hmap⟩ := Option.bind_eq_some_iff.mp hstep
    obtain ⟨place₁, hnext, rfl⟩ := Option.map_eq_some_iff.mp hmap
    rw [hplace₀, Option.bind_some, hnext]
    have hthread := congrArg CanReceiver.thread hplace
    exact hthread
  refine ⟨⟨receiver, place, hreceiver, ?_, hnext⟩, rfl, ?_⟩
  · rw [← hplace]
  have hunappended := unappended_eq s
  have hplace₀ : s.place = receiver.thread := by
    unfold State.place
    rw [hreceiver, Option.bind_some]
  have hr : Reception.unrecorded ⟨receiver, s.runtime.store, s.runtime.statistics⟩ = s.unrecorded := by
    unfold State.unrecorded Reception.unrecorded
    rw [hplace₀]
  have ha : Reception.unappended ⟨receiver, s.runtime.store, s.runtime.statistics⟩ = s.unappended := by
    unfold State.unappended Reception.unappended
    rw [hplace₀]
  rw [hr, ha] at hcases
  rcases hcases with ⟨frame, hur, hua, hur', hua', hacc, hstore, hstat⟩ |
    ⟨frame, hur, hua, hur', hua', hacc, hstore, hstat⟩ | ⟨hur, hua, hur', hua', hstore, hstat⟩
  · left
    rw [hua, hur] at hunappended
    have hbetween : s.between = [] := List.append_left_eq_self.mp hunappended.symm
    refine ⟨frame, rfl, hur, hur', ?_, ?_, hacc, hstore, ?_⟩
    · rw [hbetween, List.append_nil]
    · exact hua'.trans hua.symm
    · intro receiver' hreceiver' hhas
      obtain rfl := Option.some.inj (hreceiver.symm.trans hreceiver')
      exact hstat.trans (if_pos hhas)
  · right; left
    rw [hur, List.append_nil] at hunappended
    refine ⟨frame, ?_, hua, hua', hur, hur', ?_, hacc, hstore, hstat⟩
    · rw [hunappended]
    · rw [hur, List.append_nil]
  · right; right
    rw [hua, hur, List.append_nil] at hunappended
    refine ⟨hur, hua, hur', hua', ?_, ?_, hstore, hstat⟩
    · rw [hur, List.append_nil]
    · rw [← hunappended, List.append_nil]

/-- The owner's view is kept. -/
theorem Owned.step {s s' : State} {a : Action} (h : Owned s) (hstep : step s a = some s') : Owned s' := by
  cases a with
  | start answers =>
    obtain ⟨hstopping, -, -, heq | ⟨-, sender, receiver, heq, hhas, hrun, hfd, hplace⟩⟩ := start_cases h hstep
    · exact ⟨fun hidle => heq ▸ h.idle (hstopping ▸ hidle), fun receiver hreceiver => h.receiver receiver (heq ▸ hreceiver)⟩
    · refine ⟨fun _ => .inr ?_, fun receiver' hreceiver => ?_⟩
      · rw [heq]
        exact ⟨rfl, receiver, rfl, hrun⟩
      · rw [heq] at hreceiver
        obtain rfl := Option.some.inj hreceiver
        exact ⟨hhas, hfd, hplace ▸ rfl⟩
  | stop =>
    obtain rfl := stop_cases hstep
    refine ⟨nofun, fun receiver hreceiver => ?_⟩
    obtain ⟨receiver₀, hreceiver₀, rfl⟩ := Option.map_eq_some_iff.mp hreceiver
    exact h.receiver receiver₀ hreceiver₀
  | joined =>
    obtain ⟨-, rfl⟩ := joined_cases hstep
    exact ⟨fun _ => .inl ⟨rfl, rfl, rfl⟩, nofun⟩
  | receive action =>
    obtain ⟨⟨receiver, place, hreceiver, hruntime, -⟩, hstopping, -⟩ := receive_cases hstep
    obtain ⟨hhas, hfd, -⟩ := h.receiver receiver hreceiver
    refine ⟨fun hidle => ?_, fun receiver' hreceiver' => ?_⟩
    · rw [hstopping] at hidle
      rcases h.idle hidle with hstopped | ⟨hrunning, receiver', hreceiver', hrun⟩
      · have := hstopped.receiver
        rw [hreceiver] at this
        cases this
      · obtain rfl := Option.some.inj (hreceiver.symm.trans hreceiver')
        rw [hruntime]
        exact .inr ⟨hrunning, _, rfl, hrun⟩
    · rw [hruntime] at hreceiver'
      obtain rfl := Option.some.inj hreceiver'
      exact ⟨hhas, hfd, rfl⟩
  | queryFrames after idFilter limit =>
    cases hstep
    exact h
  | busStats now =>
    cases hstep
    exact ⟨fun hidle => (h.idle hidle).imp (fun hs => ⟨hs.running, hs.sender, hs.receiver⟩) id, h.receiver⟩

/-! ### The receive thread alone -/

/-- The receive thread can take the steps that its place allows. -/
theorem run_receive_steps {s : State} {receiver : CanReceiver} (hreceiver : s.runtime.receiver = some receiver)
    {place place' : Place} (hplace : receiver.thread = some place) {actions : List ReceiveAction}
    (hnext : actions.foldlM receiver.next place = some place') :
    ∃ t, run step s (actions.map .receive) = some t ∧
      t.runtime.receiver = some { receiver with thread := some place' } ∧ t.stopping = s.stopping ∧
      t.appended ++ t.unappended = s.appended ++ s.unappended ++ actions.filterMap ReceiveAction.accepted := by
  induction actions generalizing s receiver place with
  | nil =>
    obtain rfl := Option.some.inj hnext
    refine ⟨s, rfl, ?_, rfl, (List.append_nil _).symm⟩
    rw [hreceiver, ← hplace]
  | cons action actions ih =>
    rw [List.foldlM_cons] at hnext
    obtain ⟨place₁, hfirst, hrest⟩ := Option.bind_eq_some_iff.mp hnext
    have hstep : ∃ s', receive s action = some s' ∧
        s'.runtime.receiver = some { receiver with thread := some place₁ } := by
      unfold receive receiveStep
      rw [hreceiver, Option.bind_some]
      dsimp only
      rw [hplace, Option.bind_some, hfirst]
      exact ⟨_, rfl, rfl⟩
    obtain ⟨s', hstep, hreceiver'⟩ := hstep
    obtain ⟨t, hrun, ht, hstopping, hlog⟩ := ih hreceiver' rfl hrest
    refine ⟨t, ?_, ht, ?_, ?_⟩
    · rw [List.map_cons, run_cons, show step s (.receive action) = some s' from hstep]
      exact hrun
    · exact hstopping.trans (receive_cases hstep).2.1
    · have hcons : (action :: actions).filterMap ReceiveAction.accepted =
          action.accepted.toList ++ actions.filterMap ReceiveAction.accepted := by
        rw [List.filterMap_cons]
        cases action.accepted <;> rfl
      rw [hlog, hcons, ← List.append_assoc]
      congr 1
      rcases (receive_cases hstep).2.2 with ⟨frame, -, -, -, happ, hua', haccepted, -⟩ |
        ⟨frame, hlog, hua, hua', -, -, -, haccepted, -⟩ | ⟨-, hua, -, hua', -, happ, -⟩
      · rw [happ, hua', haccepted, Option.toList_none, List.append_nil]
      · rw [hua', haccepted, ← hlog]
        rfl
      · rw [happ, hua, hua', List.append_nil]

/-- The steps by which the thread gets from a place to its next `read`. -/
def toRead : Place → List ReceiveAction
  | .test => [.test, .load, .poll (.ready pollIn)]
  | .load => [.load, .poll (.ready pollIn)]
  | .poll _ => [.poll (.ready pollIn)]
  | .record _ => [.record, .append, .test, .load, .poll (.ready pollIn)]
  | .append _ => [.append, .test, .load, .poll (.ready pollIn)]
  | _ => []

/-- The steps by which it gets to that `read`, reads a frame and stores it. -/
def storeNext (place : Place) (kernelFrame : KernelFrame) (timestampNs : UInt64) : List ReceiveAction :=
  toRead place ++ [.read (.got canMtu kernelFrame timestampNs), .record, .append]

theorem next_toRead {receiver : CanReceiver} (hrunning : receiver.running = true) (hfd : receiver.socketFd.isSome)
    {place : Place} (hplace : place ≠ .left) : ∃ fd, (toRead place).foldlM receiver.next place = some (.read fd) := by
  obtain ⟨fd, hfd⟩ := Option.isSome_iff_exists.mp hfd
  cases place with
  | left => exact absurd rfl hplace
  | poll fd' => exact ⟨fd', rfl⟩
  | read fd' => exact ⟨fd', rfl⟩
  | _ =>
    refine ⟨fd, ?_⟩
    simp only [toRead, List.foldlM_cons, Option.bind_eq_bind, Option.bind_some, next_test hrunning, next_load hfd,
      next_poll, next_record, next_append]
    rfl

theorem read_storeNext (place : Place) (kernelFrame : KernelFrame) (timestampNs : UInt64) :
    (storeNext place kernelFrame timestampNs).filterMap ReceiveAction.read? = [(kernelFrame, timestampNs)] := by
  cases place <;> rfl

/-- **From every place in the loop** a thread that was not told to stop can go on to store the next frame. -/
theorem next_storeNext {receiver : CanReceiver} (hrunning : receiver.running = true) (hfd : receiver.socketFd.isSome)
    {place : Place} (hplace : place ≠ .left) {kernelFrame : KernelFrame} {timestampNs : UInt64} {frame : CanFrame}
    (hdecode : decode kernelFrame timestampNs = some frame) :
    (storeNext place kernelFrame timestampNs).foldlM receiver.next place = some .test := by
  obtain ⟨fd, hread⟩ := next_toRead hrunning hfd hplace
  unfold storeNext
  rw [List.foldlM_append, hread]
  simp only [Option.bind_eq_bind, Option.bind_some, List.foldlM_cons, List.foldlM_nil, next_read hdecode, next_record,
    next_append]
  rfl

/-! ### The logs -/

/-- Both logs are the frames accepted, up to the frame in hand; the store and the statistics, which began as `new`,
are those of the logs. -/
structure Agrees (new : CanBusStatistics) (s : State) (accepted : List CanFrame) : Prop where
  appended : s.appended ++ s.unappended = accepted
  recorded : s.recorded ++ s.unrecorded = accepted
  store : s.runtime.store.Holds s.appended
  statistics : ∃ h, s.runtime.statistics = new.after h ∧ CanBusStatistics.recorded h = s.recorded

theorem agrees_new {interfaceName : String} {nominalBitrate : UInt32} {frameCapacity : ℕ} {new : CanRuntime}
    (h : CanRuntime.make interfaceName nominalBitrate frameCapacity = .ok new) :
    Agrees new.statistics { runtime := new } [] := by
  obtain ⟨hc, hb, hw, rfl⟩ := CanRuntime.eq_of_make h
  exact ⟨rfl, rfl, FrameStore.holds_empty frameCapacity hc, [], rfl, rfl⟩

/-- The logs stay when the thread has nothing in hand before a step and after it. -/
theorem Agrees.of_idle {new : CanBusStatistics} {s s' : State} {accepted : List CanFrame} (h : Agrees new s accepted)
    (hs : s.unappended = [] ∧ s.unrecorded = []) (hs' : s'.unappended = [] ∧ s'.unrecorded = [])
    (happended : s'.appended = s.appended) (hrecorded : s'.recorded = s.recorded)
    (hstore : s'.runtime.store = s.runtime.store) (hstatistics : s'.runtime.statistics = s.runtime.statistics) :
    Agrees new s' accepted := by
  refine ⟨?_, ?_, ?_, ?_⟩
  · rw [happended, hs'.1, ← hs.1, h.appended]
  · rw [hrecorded, hs'.2, ← hs.2, h.recorded]
  · rw [hstore, happended]
    exact h.store
  · rw [hstatistics, hrecorded]
    exact h.statistics

theorem idle_of_place {s : State} (h : s.place = none ∨ s.place = some .left ∨ s.place = some .test) :
    s.unappended = [] ∧ s.unrecorded = [] := by
  unfold State.unappended State.unrecorded
  rcases h with h | h | h <;> rw [h] <;> exact ⟨rfl, rfl⟩

theorem place_eq_none {s : State} (h : s.runtime.receiver = none) : s.place = none := by
  unfold State.place
  rw [h]
  rfl

/-- `start` leaves what was recorded and appended. -/
theorem Agrees.start {new : CanBusStatistics} {s s' : State} {accepted : List CanFrame} (h : Agrees new s accepted)
    (howned : Owned s) {answers : StartAnswers} (hstep : step s (.start answers) = some s') : Agrees new s' accepted := by
  obtain ⟨-, happended, hrecorded, heq | ⟨hstopped, sender, receiver, heq, -, -, -, hplace⟩⟩ := start_cases howned hstep
  · have hplace : s'.place = s.place := by
      unfold State.place
      rw [heq]
    refine ⟨?_, ?_, ?_, ?_⟩
    · rw [happended, State.unappended, hplace]
      exact h.appended
    · rw [hrecorded, State.unrecorded, hplace]
      exact h.recorded
    · rw [heq, happended]
      exact h.store
    · rw [heq, hrecorded]
      exact h.statistics
  · refine h.of_idle (idle_of_place (.inl (place_eq_none hstopped.receiver))) (idle_of_place (.inr (.inr ?_)))
      happended hrecorded (heq ▸ rfl) (heq ▸ rfl)
    unfold State.place
    rw [heq]
    exact hplace

/-- A step of the receive loop takes a frame one place further, or none. -/
theorem Agrees.receive {new : CanBusStatistics} {s s' : State} {accepted : List CanFrame} (h : Agrees new s accepted)
    (howned : Owned s) {action : ReceiveAction} (hstep : step s (.receive action) = some s') :
    Agrees new s' (accepted ++ action.accepted.toList) := by
  obtain ⟨⟨receiver, place, hreceiver, -⟩, -, hcases⟩ := receive_cases hstep
  rcases hcases with ⟨frame, hlog, hur, hur', happ, hua', haccepted, hstore, hstat⟩ |
    ⟨frame, hlog, hua, hua', hur, hur', hrec, haccepted, hstore, hstat⟩ |
    ⟨hur, hua, hur', hua', hrec, happ, hstore, hstat⟩
  · -- a frame is recorded
    rw [haccepted, Option.toList_none, List.append_nil]
    refine ⟨?_, ?_, ?_, ?_⟩
    · rw [happ, hua', h.appended]
    · rw [hur', List.append_nil, ← hlog, h.recorded]
    · rw [hstore, happ]
      exact h.store
    · obtain ⟨history, hnow, hhistory⟩ := h.statistics
      refine ⟨history ++ [.record frame], ?_, ?_⟩
      · rw [hstat receiver hreceiver (howned.receiver receiver hreceiver).1, hnow, CanBusStatistics.after_concat]
        rfl
      · rw [CanBusStatistics.recorded_concat, hhistory, ← hlog, hur]
        rfl
  · -- a frame is appended
    rw [haccepted, Option.toList_none, List.append_nil]
    refine ⟨?_, ?_, ?_, ?_⟩
    · rw [hua', List.append_nil, ← hlog, h.appended]
    · rw [hrec, hur', ← hur, h.recorded]
    · rw [hstore, ← hlog, hua]
      exact h.store.append frame
    · rw [hstat, hrec]
      exact h.statistics
  · -- a frame is accepted, or none
    refine ⟨?_, ?_, ?_, ?_⟩
    · rw [happ, hua', ← h.appended, hua, List.append_nil]
    · rw [hrec, hur', ← h.recorded, hur, List.append_nil]
    · rw [hstore, happ]
      exact h.store
    · rw [hstat, hrec]
      exact h.statistics

/-- **Every step** keeps the logs what the thread accepted. -/
theorem Agrees.step {new : CanBusStatistics} {s s' : State} {accepted : List CanFrame} (h : Agrees new s accepted)
    (howned : Owned s) {a : Action} (hstep : step s a = some s') : Agrees new s' (accepted ++ a.accepted.toList) := by
  cases a with
  | start answers =>
    change Agrees new _ (accepted ++ [])
    rw [List.append_nil]
    exact h.start howned hstep
  | stop =>
    change Agrees new _ (accepted ++ [])
    rw [List.append_nil]
    obtain rfl := stop_cases hstep
    have hplace := place_requestStop s s.sockets true
    refine ⟨?_, ?_, h.store, h.statistics⟩
    · rw [State.unappended, hplace]
      exact h.appended
    · rw [State.unrecorded, hplace]
      exact h.recorded
  | joined =>
    change Agrees new _ (accepted ++ [])
    rw [List.append_nil]
    obtain ⟨hleft, rfl⟩ := joined_cases hstep
    have hidle : s.place = none ∨ s.place = some .left ∨ s.place = some .test := hleft.imp_right .inl
    exact h.of_idle (idle_of_place hidle) (idle_of_place (.inl (place_eq_none rfl))) rfl rfl rfl rfl
  | receive action =>
    exact h.receive howned hstep
  | queryFrames after idFilter limit =>
    cases hstep
    change Agrees new _ (accepted ++ [])
    rw [List.append_nil]
    exact h
  | busStats now =>
    cases hstep
    change Agrees new _ (accepted ++ [])
    rw [List.append_nil]
    obtain ⟨history, hnow, hhistory⟩ := h.statistics
    refine ⟨h.appended, h.recorded, h.store, history ++ [.snapshot now], ?_, ?_⟩
    · rw [CanBusStatistics.after_concat, ← hnow]
      rfl
    · rw [CanBusStatistics.recorded_concat, hhistory]
      exact List.append_nil _

/-- **Every run** does. -/
theorem Agrees.run {new : CanBusStatistics} {s t : State} {accepted : List CanFrame} (h : Agrees new s accepted)
    (howned : Owned s) {actions : List Action} (hrun : run Monitoring.step s actions = some t) :
    Agrees new t (accepted ++ actions.filterMap Action.accepted) ∧ Owned t := by
  induction actions generalizing s accepted with
  | nil =>
    cases hrun
    exact ⟨(List.append_nil accepted).symm ▸ h, howned⟩
  | cons a actions ih =>
    obtain ⟨s', hstep, hrun⟩ := run_cons_some hrun
    have hcons : accepted ++ (a :: actions).filterMap Action.accepted =
        accepted ++ a.accepted.toList ++ actions.filterMap Action.accepted := by
      rw [List.append_assoc, List.filterMap_cons]
      cases a.accepted <;> rfl
    rw [hcons]
    exact ih (h.step howned hstep) (howned.step hstep) hrun

theorem length_between_le (s : State) : s.between.length ≤ 1 := by
  unfold State.between
  split <;> simp

/-- The recorded log is ahead by the frame that is yet to be appended. -/
theorem Agrees.recorded_eq {new : CanBusStatistics} {s : State} {accepted : List CanFrame} (h : Agrees new s accepted) :
    s.recorded = s.appended ++ s.between := by
  have hboth := h.recorded.trans h.appended.symm
  rw [unappended_eq, ← List.append_assoc] at hboth
  exact List.append_cancel_right hboth

/-- The counters differ by that frame. -/
theorem Agrees.totals {new : CanBusStatistics} {s : State} {accepted : List CanFrame} (h : Agrees new s accepted)
    (hnew : new.totalReceivedFrames = 0) :
    s.runtime.statistics.totalReceivedFrames = s.runtime.store.totalAppended + UInt64.ofNat s.between.length := by
  obtain ⟨history, hstatistics, hhistory⟩ := h.statistics
  rw [hstatistics, CanBusStatistics.totalReceivedFrames_after, hnew, hhistory, h.recorded_eq, h.store.total,
    UInt64.zero_add, List.length_append, UInt64.ofNat_add]

theorem accepted_wellFormed {a : Action} {frame : CanFrame} (h : a.accepted = some frame) : frame.WellFormed := by
  cases a with
  | receive action =>
    obtain ⟨read, -, hdecode⟩ := Option.bind_eq_some_iff.mp h
    exact (decode_wellFormed hdecode).1
  | _ => cases h

/-- The frames in the store are frames of its log, numbered. -/
theorem wellFormed_of_log {store : FrameStore} {log : List CanFrame} (h : store.Holds log)
    (hlog : ∀ frame ∈ log, frame.WellFormed) : ∀ frame ∈ store.frames, frame.WellFormed := by
  intro frame hframe
  obtain ⟨i, hi, rfl⟩ := List.mem_mapIdx.mp (h.mem_stamp hframe)
  have hold := hlog _ (List.getElem_mem hi)
  exact ⟨hold.dlc, hold.id, hold.data⟩

/-! ### Many frames -/

/-- Frames without data are stored one after the other, and one more is recorded. -/
def manyFrames (n : ℕ) : List ReceiveAction :=
  (List.replicate n (storeNext .test {} 0)).flatten ++ (readTurn {} 0 ++ [.record])

theorem next_manyFrames {receiver : CanReceiver} (hrunning : receiver.running = true) (hfd : receiver.socketFd.isSome)
    (n : ℕ) : (manyFrames n).foldlM receiver.next .test = some (.append {}) := by
  induction n with
  | zero =>
    obtain ⟨fd, hfd⟩ := Option.isSome_iff_exists.mp hfd
    have hdecode : decode {} 0 = some {} := by decide
    simp only [manyFrames, List.replicate_zero, List.flatten_nil, readTurn, List.nil_append, List.cons_append,
      List.foldlM_cons, Option.bind_eq_bind, Option.bind_some, next_test hrunning, next_load hfd, next_poll,
      next_read hdecode, next_record]
    rfl
  | succ n ih =>
    have hturn : (storeNext .test {} 0).foldlM receiver.next .test = some .test :=
      @next_storeNext receiver hrunning hfd .test (by decide) {} 0 {} (by decide)
    unfold manyFrames at ih ⊢
    rw [List.replicate_succ, List.flatten_cons, List.append_assoc, List.foldlM_append, hturn]
    exact ih

theorem length_accepted_manyFrames (n : ℕ) :
    ((manyFrames n).filterMap ReceiveAction.accepted).length = n + 1 := by
  induction n with
  | zero => decide
  | succ n ih =>
    have hturn : (storeNext .test {} 0).filterMap ReceiveAction.accepted = [{}] := by decide
    unfold manyFrames at ih ⊢
    rw [List.replicate_succ, List.flatten_cons, List.append_assoc, List.filterMap_append, List.length_append, ih, hturn]
    exact Nat.add_comm 1 (n + 1)

/-- The runtime is started and receives so many frames. -/
theorem run_manyFrames (n : ℕ) :
    ∃ new t, CanRuntime.make "vcan0" 500000 16 = .ok new ∧
      run step { runtime := new } (.start {} :: (manyFrames n).map .receive) = some t ∧
      t.between = [{}] ∧ t.appended.length = n := by
  have hmake : CanRuntime.make "vcan0" 500000 16 = .ok _ := rfl
  obtain ⟨new, hnew⟩ : ∃ new, CanRuntime.make "vcan0" 500000 16 = .ok new := ⟨_, hmake⟩
  obtain ⟨s, hstart, receiver, hreceiver, hplace, hrunning, hfd, hlog⟩ :
      ∃ s, step { runtime := new } (.start {}) = some s ∧
        ∃ receiver, s.runtime.receiver = some receiver ∧ receiver.thread = some .test ∧ receiver.running = true ∧
          receiver.socketFd.isSome ∧ s.appended ++ s.unappended = [] := by
    cases hmake.symm.trans hnew
    exact ⟨_, rfl, _, rfl, rfl, rfl, rfl, rfl⟩
  obtain ⟨t, hrun, ht, -, hlog'⟩ := run_receive_steps hreceiver hplace (next_manyFrames hrunning hfd n)
  have hplace' : t.place = some (.append {}) := by
    unfold State.place
    rw [ht]
    rfl
  refine ⟨new, t, hnew, ?_, ?_, ?_⟩
  · rw [run_cons, hstart]
    exact hrun
  · unfold State.between
    rw [hplace']
  · have hunappended : t.unappended = [{}] := by
      unfold State.unappended
      rw [hplace']
      rfl
    rw [hlog, List.nil_append, hunappended] at hlog'
    have hlength := congrArg List.length hlog'
    rw [length_accepted_manyFrames, List.length_append, List.length_singleton] at hlength
    omega

/-! ### Agreement -/

/-- With few frames neither counter has wrapped. -/
theorem Agrees.counts {new : CanBusStatistics} {s : State} {accepted : List CanFrame} (h : Agrees new s accepted)
    (hzero : new.totalReceivedFrames = 0) (hfew : accepted.length < 2 ^ 64) :
    s.runtime.store.totalAppended.toNat = s.appended.length ∧
      s.runtime.statistics.totalReceivedFrames.toNat = s.appended.length + s.between.length := by
  have hlength := congrArg List.length h.recorded
  rw [h.recorded_eq, List.length_append, List.length_append] at hlength
  have hlt : s.appended.length + s.between.length < 2 ^ 64 := by omega
  refine ⟨h.store.toNat_total (by omega), ?_⟩
  rw [h.totals hzero, h.store.total, ← UInt64.ofNat_add]
  exact UInt64.toNat_ofNat_of_lt' hlt

/-- When `stop` has returned nothing is in hand. -/
theorem Agrees.stopped {new : CanBusStatistics} {s : State} {accepted : List CanFrame} (h : Agrees new s accepted)
    (howned : Owned s) (hidle : s.stopping = false) (hstop : s.runtime.running = false) :
    s.appended = accepted ∧ s.recorded = s.appended ∧ s.between = [] := by
  rcases howned.idle hidle with hstopped | ⟨hrunning, -⟩
  · have hnone := place_eq_none hstopped.receiver
    have hbetween : s.between = [] := by
      unfold State.between
      rw [hnone]
    have happended := h.appended
    have hrecorded := h.recorded_eq
    rw [(idle_of_place (.inl hnone)).1, List.append_nil] at happended
    rw [hbetween, List.append_nil] at hrecorded
    exact ⟨happended, hrecorded, hbetween⟩
  · rw [hstop] at hrunning
    cases hrunning

/-- **Store and statistics see the same frames.** In every run, whatever `poll` and `read` answer and whoever asks
in between, over any number of starts and stops: what was appended and what was recorded are the frames accepted, in
order, except that the last may be on its way; the recorded log is ahead by at most the frame between the two calls;
the counters count the logs modulo `2 ^ 64`, so with fewer frames than that the received ones are the appended ones or
one more; when `stop` has returned they are equal; and every frame in the store is well formed. -/
theorem store_and_statistics_agree {interfaceName : String} {nominalBitrate : UInt32} {frameCapacity : ℕ}
    {new : CanRuntime} (hnew : CanRuntime.make interfaceName nominalBitrate frameCapacity = .ok new)
    {actions : List Action} {t : State} (h : run step { runtime := new } actions = some t) :
    t.appended ++ t.unappended = actions.filterMap Action.accepted ∧
    t.recorded ++ t.unrecorded = actions.filterMap Action.accepted ∧
    t.recorded = t.appended ++ t.between ∧ t.between.length ≤ 1 ∧
    (t.runtime.store.Holds t.appended ∧
      ∃ history, t.runtime.statistics = new.statistics.after history ∧
        CanBusStatistics.recorded history = t.recorded) ∧
    t.runtime.statistics.totalReceivedFrames = t.runtime.store.totalAppended + UInt64.ofNat t.between.length ∧
    ((actions.filterMap Action.accepted).length < 2 ^ 64 →
      t.runtime.store.totalAppended.toNat ≤ t.runtime.statistics.totalReceivedFrames.toNat ∧
      t.runtime.statistics.totalReceivedFrames.toNat ≤ t.runtime.store.totalAppended.toNat + 1) ∧
    (t.stopping = false → t.runtime.running = false →
      t.appended = actions.filterMap Action.accepted ∧ t.recorded = t.appended ∧
      t.runtime.statistics.totalReceivedFrames = t.runtime.store.totalAppended) ∧
    ∀ frame ∈ t.runtime.store.frames, frame.WellFormed := by
  obtain ⟨hagrees, howned⟩ := (agrees_new hnew).run (owned_new (CanRuntime.stopped_of_make hnew)) h
  rw [List.nil_append] at hagrees
  have hzero : new.statistics.totalReceivedFrames = 0 := by
    obtain ⟨_, _, _, rfl⟩ := CanRuntime.eq_of_make hnew
    rfl
  have htotals := hagrees.totals hzero
  refine ⟨hagrees.appended, hagrees.recorded, hagrees.recorded_eq, length_between_le t,
    ⟨hagrees.store, hagrees.statistics⟩, htotals, fun hfew => ?_, fun hidle hstop => ?_, ?_⟩
  · obtain ⟨happended, hreceived⟩ := hagrees.counts hzero hfew
    have hle := length_between_le t
    omega
  · obtain ⟨happended, hrecorded, hbetween⟩ := hagrees.stopped howned hidle hstop
    refine ⟨happended, hrecorded, ?_⟩
    rw [htotals, hbetween]
    exact UInt64.add_zero _
  · refine wellFormed_of_log hagrees.store fun frame hframe => ?_
    have hmem : frame ∈ actions.filterMap Action.accepted := by
      rw [← hagrees.appended]
      exact List.mem_append_left _ hframe
    obtain ⟨a, -, haccepted⟩ := List.mem_filterMap.mp hmem
    exact accepted_wellFormed haccepted

/-- A frame has been appended, and the next has been recorded and is yet to be appended. -/
theorem store_and_statistics_agree_between :
    ∃ new t, CanRuntime.make "vcan0" 500000 16 = .ok new ∧
      run step { runtime := new } (.start {} :: (manyFrames 1).map .receive) = some t ∧
      t.between = [{}] ∧ t.recorded = t.appended ++ t.between ∧
      t.runtime.statistics.totalReceivedFrames = t.runtime.store.totalAppended + 1 := by
  obtain ⟨new, t, hnew, hrun, hbetween, -⟩ := run_manyFrames 1
  obtain ⟨-, -, hrecorded, -, -, htotals, -⟩ := store_and_statistics_agree hnew hrun
  rw [hbetween] at htotals
  exact ⟨new, t, hnew, hrun, hbetween, hrecorded, htotals⟩

/-- The counters wrap one after the other: when `2 ^ 64` frames have been recorded and one fewer appended, the
counter of the received frames is below that of the appended ones. -/
theorem received_below_appended :
    ∃ new t, CanRuntime.make "vcan0" 500000 16 = .ok new ∧
      run step { runtime := new } (.start {} :: (manyFrames (2 ^ 64 - 1)).map .receive) = some t ∧
      ¬ t.runtime.store.totalAppended ≤ t.runtime.statistics.totalReceivedFrames := by
  obtain ⟨new, t, hnew, hrun, hbetween, happended⟩ := run_manyFrames (2 ^ 64 - 1)
  refine ⟨new, t, hnew, hrun, ?_⟩
  obtain ⟨hagrees, -⟩ := (agrees_new hnew).run (owned_new (CanRuntime.stopped_of_make hnew)) hrun
  have hzero : new.statistics.totalReceivedFrames = 0 := by
    obtain ⟨_, _, _, rfl⟩ := CanRuntime.eq_of_make hnew
    rfl
  rw [hagrees.totals hzero, hagrees.store.total, hbetween, happended]
  decide

/-! ### Whether the thread is in its loop -/

/-- The receive thread has not left its loop, and it can store whatever valid frame comes next. -/
structure Receiving (s : State) : Prop where
  inLoop : ∃ place, s.place = some place ∧ place ≠ .left
  stores : ∀ kernelFrame timestampNs frame, decode kernelFrame timestampNs = some frame →
    ∃ (actions : List ReceiveAction) (t : State), run step s (actions.map .receive) = some t ∧
      actions.filterMap ReceiveAction.read? = [(kernelFrame, timestampNs)] ∧
      t.appended = s.appended ++ s.unappended ++ [frame]

/-- `CanReceiver::start` would refuse, since `running_` is set. -/
def Refuses (s : State) : Prop := ∃ receiver, s.runtime.receiver = some receiver ∧ receiver.running = true

/-- The answers of the kernel that make the loop break. -/
def Breaks : ReceiveAction → Prop
  | .poll (.failed errno) => errno ≠ eintr
  | .poll (.ready revents) => revents &&& (pollErr ||| pollHup ||| pollNval) ≠ 0
  | .read (.failed errno) => errno ≠ eintr ∧ errno ≠ eagain
  | _ => False

/-- The receive thread, which was not told to stop, gets such an answer. -/
def GivesUp (s : State) : Action → Prop
  | .receive action => Refuses s ∧ Breaks action
  | _ => False

/-- **The loop's exits**: the thread was told to stop, or there is no socket, or the kernel's answer makes it break. -/
theorem next_eq_left {receiver : CanReceiver} {place : Place} {action : ReceiveAction}
    (h : receiver.next place action = some .left) :
    receiver.running = false ∨ receiver.socketFd = none ∨ Breaks action := by
  cases receiveTrans_of_next h with
  | told hrunning => exact .inl hrunning
  | noSocket hfd => exact .inr (.inl hfd)
  | pollFailed fd errno hne => exact .inr (.inr hne)
  | broken fd revents hbroken => exact .inr (.inr hbroken)
  | readFailed fd errno hne => exact .inr (.inr (not_or.mp hne))

/-- At an answer that breaks the loop the thread leaves it, whatever `running_` says. -/
theorem next_of_breaks {receiver : CanReceiver} {place place' : Place} {action : ReceiveAction}
    (h : receiver.next place action = some place') (hbreaks : Breaks action) : place' = .left := by
  cases receiveTrans_of_next h with
  | told | noSocket | pollFailed | broken | readFailed => rfl
  | pollAgain fd => exact absurd rfl hbreaks
  | noInput fd revents hwhole | input fd revents hwhole => exact absurd hwhole hbreaks
  | readAgain fd errno hagain => exact absurd hagain (not_or.mpr hbreaks)
  | _ => exact hbreaks.elim

/-- A thread in the loop of a running receiver receives. -/
theorem receiving_of_place {s : State} (howned : Owned s) {receiver : CanReceiver} (hreceiver : s.runtime.receiver = some receiver)
    (hrunning : receiver.running = true) (hleft : receiver.thread ≠ some .left) : Receiving s := by
  obtain ⟨-, hfd, hthread⟩ := howned.receiver receiver hreceiver
  obtain ⟨place, hplace⟩ := Option.isSome_iff_exists.mp hthread
  have hne : place ≠ .left := by
    rintro rfl
    exact hleft hplace
  constructor
  · refine ⟨place, ?_, hne⟩
    unfold State.place
    rw [hreceiver]
    exact hplace
  · intro kernelFrame timestampNs frame hdecode
    obtain ⟨t, hrun, ht, -, hlog⟩ := run_receive_steps hreceiver hplace (next_storeNext hrunning hfd hne hdecode)
    refine ⟨_, t, hrun, read_storeNext _ _ _, ?_⟩
    have hidle : t.unappended = [] := by
      unfold State.unappended State.place
      rw [ht]
      rfl
    rw [hidle, List.append_nil, filterMap_accepted, read_storeNext] at hlog
    rw [hlog]
    simp [dataFrames, hdecode]

/-- No receiver that was not told to stop has a thread that has left. -/
def Alive (s : State) : Prop :=
  ∀ receiver, s.runtime.receiver = some receiver → receiver.running = true → receiver.thread ≠ some .left

/-- **Every step** but an answer that breaks the loop keeps the thread in it. -/
theorem Alive.step {s s' : State} {a : Action} (h : Alive s) (howned : Owned s) (hkeep : ¬ GivesUp s a)
    (hstep : step s a = some s') : Alive s' := by
  cases a with
  | start answers =>
    obtain ⟨-, -, -, heq | ⟨-, sender, receiver, heq, -, -, -, hplace⟩⟩ := start_cases howned hstep
    · intro receiver hreceiver
      exact h receiver (heq ▸ hreceiver)
    · intro receiver' hreceiver _
      rw [heq] at hreceiver
      obtain rfl := Option.some.inj hreceiver
      rw [hplace]
      exact nofun
  | stop =>
    obtain rfl := stop_cases hstep
    intro receiver hreceiver hrunning
    obtain ⟨receiver₀, -, rfl⟩ := Option.map_eq_some_iff.mp hreceiver
    cases hrunning
  | joined =>
    obtain ⟨-, rfl⟩ := joined_cases hstep
    exact nofun
  | receive action =>
    obtain ⟨⟨receiver, place, hreceiver, hruntime, hnext⟩, -⟩ := receive_cases hstep
    intro receiver' hreceiver' hrunning hleft
    rw [hruntime] at hreceiver'
    obtain rfl := Option.some.inj hreceiver'
    obtain rfl : place = .left := Option.some.inj hleft
    obtain ⟨place₀, -, hnext⟩ := Option.bind_eq_some_iff.mp hnext
    rcases next_eq_left hnext with hfalse | hnone | hbreaks
    · exact absurd (hrunning.symm.trans hfalse) (by decide)
    · have hfd := (howned.receiver receiver hreceiver).2.1
      rw [hnone] at hfd
      cases hfd
    · exact hkeep ⟨⟨receiver, hreceiver, hrunning⟩, hbreaks⟩
  | queryFrames after idFilter limit =>
    cases hstep
    exact h
  | busStats now =>
    cases hstep
    exact h

/-- Between calls of the owner, the runtime says that it is running exactly if the receiver would refuse to start. -/
theorem running_iff_refuses {s : State} (h : Owned s) (hidle : s.stopping = false) :
    s.runtime.running = true ↔ Refuses s := by
  rcases h.idle hidle with hstopped | ⟨hrunning, hrefuses⟩
  · unfold Refuses
    simp [hstopped.running, hstopped.receiver]
  · exact ⟨fun _ => hrefuses, fun _ => hrunning⟩

/-- **An answer that makes the loop break** is where the law fails: the thread has left, and still the receiver refuses
to start. -/
theorem exits_stop_receiving {s s' : State} {a : Action} (hstep : step s a = some s') (hgives : GivesUp s a) :
    Refuses s' ∧ s'.stopping = s.stopping ∧ ¬ Receiving s' := by
  cases a with
  | receive action =>
    obtain ⟨⟨receiver₀, hreceiver₀, hrunning⟩, hbreaks⟩ := hgives
    obtain ⟨⟨receiver, place, hreceiver, hruntime, hnext⟩, hstopping, -⟩ := receive_cases hstep
    obtain rfl := Option.some.inj (hreceiver.symm.trans hreceiver₀)
    obtain ⟨place₀, -, hnext⟩ := Option.bind_eq_some_iff.mp hnext
    obtain rfl := next_of_breaks hnext hbreaks
    have hplace : s'.place = some .left := by
      unfold State.place
      rw [hruntime]
      rfl
    refine ⟨⟨{ receiver with thread := some .left }, by rw [hruntime], hrunning⟩, hstopping, fun hreceiving => ?_⟩
    obtain ⟨place, hplace', hne⟩ := hreceiving.inLoop
    exact hne (Option.some.inj (hplace'.symm.trans hplace))
  | _ => exact hgives.elim

/-- **A runtime that says it is running is receiving**, in every run in which no answer of `poll` or `read` makes the
thread break out of its loop while it was not told to stop: whenever the runtime says so between calls of its owner, or
the receiver would refuse to start, the receive thread is in its loop and stores whatever valid frame comes next. -/
theorem running_receives {interfaceName : String} {nominalBitrate : UInt32} {frameCapacity : ℕ} {new : CanRuntime}
    (hnew : CanRuntime.make interfaceName nominalBitrate frameCapacity = .ok new) {actions : List Action} {t : State}
    (h : run step { runtime := new } actions = some t)
    (hkeep : Meets (fun s a => ¬ GivesUp s a) step { runtime := new } actions) :
    (t.stopping = false → (t.runtime.running = true ↔ Refuses t)) ∧
      (t.stopping = false ∧ t.runtime.running = true ∨ Refuses t → Receiving t) := by
  have hinv : Owned t ∧ Alive t := by
    refine run_guarded (I := fun s => Owned s ∧ Alive s) (fun s a s' hs hkeep hstep => ?_) ?_ hkeep h
    · exact ⟨hs.1.step hstep, hs.2.step hs.1 hkeep hstep⟩
    · refine ⟨owned_new (CanRuntime.stopped_of_make hnew), fun receiver hreceiver => ?_⟩
      rw [(CanRuntime.stopped_of_make hnew).receiver] at hreceiver
      cases hreceiver
  obtain ⟨howned, halive⟩ := hinv
  refine ⟨running_iff_refuses howned, fun hrunning => ?_⟩
  have hrefuses : Refuses t := hrunning.elim (fun hr => (running_iff_refuses howned hr.1).mp hr.2) id
  obtain ⟨receiver, hreceiver, hrunning⟩ := hrefuses
  exact receiving_of_place howned hreceiver hrunning (halive receiver hreceiver hrunning)

/-- A run in which the interface goes down: `poll` reports an error. -/
def interfaceDown : List Action :=
  [.start {}, .receive .test, .receive .load, .receive (.poll (.ready pollErr))]

/-- After `interfaceDown` the runtime says that it is running, though the receive thread has left its loop. -/
theorem running_not_receiving :
    ∃ new t, CanRuntime.make "vcan0" 500000 16 = .ok new ∧ run step { runtime := new } interfaceDown = some t ∧
      t.stopping = false ∧ t.runtime.running = true ∧ ¬ Receiving t := by
  have hnew : CanRuntime.make "vcan0" 500000 16 = .ok _ := rfl
  refine ⟨_, _, hnew, rfl, rfl, rfl, fun h => ?_⟩
  obtain ⟨place, hplace, hne⟩ := h.inLoop
  exact hne (Option.some.inj hplace).symm

/-- With a time-out instead, the thread goes on. -/
theorem running_receives_timeout :
    ∃ new t, CanRuntime.make "vcan0" 500000 16 = .ok new ∧
      run step { runtime := new } [.start {}, .receive .test, .receive .load, .receive (.poll .timeout)] = some t ∧
      t.runtime.running = true ∧ Receiving t := by
  have hnew : CanRuntime.make "vcan0" 500000 16 = .ok _ := rfl
  refine ⟨_, _, hnew, rfl, rfl, ?_⟩
  refine (@running_receives _ _ _ _ hnew [.start {}, .receive .test, .receive .load, .receive (.poll .timeout)] _ rfl
    ?_).2 (.inl ⟨rfl, rfl⟩)
  refine .of_forall (fun a ha s => ?_) _
  simp only [List.mem_cons, List.not_mem_nil, or_false] at ha
  rcases ha with rfl | rfl | rfl | rfl
  · exact id
  all_goals exact fun h => h.2

end Monitoring

end CanMonitor.Can
