import CanMonitor.Can.Monitoring
import CanMonitor.Connection.Delivery
import CanMonitor.Connection.Wire

/-!
# The service

`main` makes one CAN runtime and hands it to every connection. The receive thread appends to
its store while the event loop and the workers read from it, ask it for statistics and send
frames through it, for any number of connections at a time.

## The model

A `State` is a runtime (`Monitoring.State`), the frames that the sender put on the bus, and a
`Connection.State` for each connection. The store that a connection sees is that of the
runtime: `State.connection` puts it there, and a connection's own steps leave it as it is. A
connection that is not yet accepted is one that has not taken a step.

What a request handler finds in the world (`Connection.Surroundings`) is computed from the
runtime, and what it does to the runtime is done: a request for statistics drops expired
samples, a request to send a frame may put one on the bus.

## What is proved

* `connection_of_run` — what one connection sees of a run of the service is a run of that
  connection, in which the receiver's appends are its `append` steps.
* `shared_run` — every store that any connection sees is that of the frames which the receive
  thread accepted, in order.
-/

namespace CanMonitor.Service

open CanMonitor.Library CanMonitor.Can CanMonitor.Http

/-! ### The state -/

/-- The statistics as a connection writes them; `print` is how `<<` prints a `double`. -/
def written (print : ℚ → Bytes) (snapshot : Can.CanBusStatisticsSnapshot) : Connection.CanBusStatisticsSnapshot where
  totalReceivedFrames := snapshot.totalReceivedFrames
  totalReceivedPayloadBytes := snapshot.totalReceivedPayloadBytes
  receiveRateFps := print snapshot.receiveRateFps
  estimatedBusLoadPercent := print snapshot.estimatedBusLoadPercent
  perId := snapshot.perId.map fun item => ⟨item.id, item.isExtended, item.frameCount, item.payloadBytes⟩

/-- What the system answers while a request is handled. -/
structure Answers where
  /-- `monotonicNowNs`. -/
  now : UInt64
  /-- `write` on the sender's socket. -/
  write : KernelFrame → Except String ℕ
  openFile : Bytes → Option Connection.File
  allocates : ℕ → Bool
  iteration : Iteration
  /-- How `<<` prints a `double`. -/
  print : ℚ → Bytes

/-- A system that answers nothing much. -/
def plainAnswers : Answers where
  now := 0
  write := fun _ => .ok canMtu
  openFile := Connection.plainSurroundings.openFile
  allocates := Connection.plainSurroundings.allocates
  iteration := Connection.plainSurroundings.iteration
  print := fun _ => bytes "0"

/-- The runtime, the bus and the connections. -/
structure State (ι : Type) where
  monitoring : Monitoring.State
  /-- The frames that the sender wrote. -/
  bus : List KernelFrame
  connections : ι → Connection.State

/-- What can happen. -/
inductive Act (ι : Type) where
  /-- A step of the runtime: of its owner, of the receive thread, or of somebody who asks it. -/
  | runtime (action : Monitoring.Action)
  /-- A turn of the parse loop of a connection. -/
  | parse (i : ι) (answers : Answers)
  /-- Any other step of a connection. -/
  | connection (i : ι) (a : Connection.Act)

section

variable {ι : Type}

/-- A connection, with the store of the runtime. -/
def State.connection (s : State ι) (i : ι) : Connection.State :=
  { s.connections i with store := s.monitoring.runtime.store, appended := s.monitoring.appended }

/-- What a request handler finds. -/
def State.surroundings (s : State ι) (answers : Answers) : Connection.Surroundings where
  busStats := written answers.print (s.monitoring.runtime.statistics.snapshot answers.now).1
  senderIsOpen := s.monitoring.runtime.sender.isOpen
  sendRaw id isExtended data :=
    (s.monitoring.runtime.sender.sendRaw id isExtended (if data.isEmpty then none else some data)
      (UInt8.ofNat data.length) answers.write).2.isOk
  openFile := answers.openFile
  allocates := answers.allocates
  iteration := answers.iteration

/-- Is it a request for statistics? -/
def IsStats (req : HttpRequest) : Prop :=
  req.method = .get ∧ Connection.pathWithoutQuery req.path = bytes "/api/can/stats"

/-- Is it a request to send a frame? -/
def IsSend (req : HttpRequest) : Prop :=
  req.method = .post ∧ Connection.pathWithoutQuery req.path = bytes "/api/can/send"

instance (req : HttpRequest) : Decidable (IsStats req) := inferInstanceAs (Decidable (_ ∧ _))

instance (req : HttpRequest) : Decidable (IsSend req) := inferInstanceAs (Decidable (_ ∧ _))

/-- The frame that `sendFrame` puts on the bus, if it succeeds. -/
def transmitted (sender : CanSender) (id : UInt32) (isExtended : Bool) (data : List UInt8)
    (write : KernelFrame → Except String ℕ) : Option KernelFrame :=
  match sendFrame sender id isExtended data write with
  | (kernelFrame, .ok ()) => kernelFrame
  | (_, .error _) => none

/-- The frame that a request puts on the bus. -/
def sentFor (sender : CanSender) (req : HttpRequest) (write : KernelFrame → Except String ℕ) : Option KernelFrame :=
  if IsSend req then
    (Connection.parseSendBody req.body).bind fun (id, isExtended, data) => transmitted sender id isExtended data write
  else none

/-- What a request handler does to the runtime. -/
def afterRequest (monitoring : Monitoring.State) (req : HttpRequest) (answers : Answers) : Monitoring.State :=
  if IsStats req then
    { monitoring with
      runtime :=
        { monitoring.runtime with statistics := (monitoring.runtime.statistics.snapshot answers.now).2 } }
  else monitoring

/-- The request that a turn of the parse loop accepts. -/
def acceptedRequest (c : Connection.State) : Option HttpRequest :=
  match parseStep c.req c.recvBuf with
  | .dispatch req _ => some req
  | _ => none

/-- A step of a connection by itself: the receiver's appends and the handlers are not among them. -/
def IsOwn : Connection.Act → Prop
  | .append _ => False
  | .parse _ => False
  | _ => True

instance : DecidablePred IsOwn := fun a => by cases a <;> unfold IsOwn <;> infer_instance

variable [DecidableEq ι]

/-- A step. -/
def step (s : State ι) : Act ι → Option (State ι)
  | .runtime action => (Monitoring.step s.monitoring action).map fun monitoring => { s with monitoring }
  | .parse i answers =>
    (Connection.step (s.connection i) (.parse (s.surroundings answers))).map fun c => {
      monitoring := (acceptedRequest (s.connections i)).elim s.monitoring fun req => afterRequest s.monitoring req answers
      bus := s.bus ++ ((acceptedRequest (s.connections i)).bind fun req =>
        sentFor s.monitoring.runtime.sender req answers.write).toList
      connections := Function.update s.connections i c }
  | .connection i a =>
    if IsOwn a then
      (Connection.step (s.connection i) a).map fun c => { s with connections := Function.update s.connections i c }
    else none

end

/-- A new runtime, and connections that have not begun. -/
def State.start (ι : Type) (new : CanRuntime) : State ι where
  monitoring := { runtime := new }
  bus := []
  connections := fun _ => .start new.store.capacity new.store.capacity_pos true

/-- At the beginning a connection is new. -/
theorem connection_start {ι : Type} (i : ι) {interfaceName : String} {nominalBitrate : UInt32} {frameCapacity : ℕ} {new : CanRuntime}
    (h : CanRuntime.make interfaceName nominalBitrate frameCapacity = .ok new) :
    ∃ hc, (State.start ι new).connection i = .start frameCapacity hc true := by
  obtain ⟨hc, hb, hw, rfl⟩ := CanRuntime.eq_of_make h
  exact ⟨hc, rfl⟩

/-! ### What one connection sees -/

section

variable {ι : Type} [DecidableEq ι]

/-- The steps of a connection that a step of the service is. -/
def seenBy (i : ι) (s : State ι) : Act ι → List Connection.Act
  | .runtime (.receive _) => s.monitoring.between.map .append
  | .runtime _ => []
  | .parse j answers => if j = i then [.parse (s.surroundings answers)] else []
  | .connection j a => if j = i then [a] else []

/-- The steps of a connection in a run of the service. -/
def seen (i : ι) (s : State ι) (as : List (Act ι)) : List Connection.Act := emitted (seenBy i) step s as

/-- The steps of a connection other than `append` leave the store as it is. -/
theorem store_of_step {c c' : Connection.State} {a : Connection.Act} (ha : ∀ frame, a ≠ .append frame)
    (h : Connection.step c a = some c') : c'.store = c.store ∧ c'.appended = c.appended := by
  cases Connection.trans_of_step h with
  | append frame => exact absurd rfl (ha frame)
  | lostReader next => cases next <;> exact ⟨rfl, rfl⟩
  | modifyReader next => cases next <;> exact ⟨rfl, rfl⟩
  | _ => exact ⟨rfl, rfl⟩

/-- `start` leaves the store as it is. -/
theorem store_start (runtime : CanRuntime) (answers : StartAnswers) (sockets : Sockets) :
    (runtime.start answers sockets).2.1.store = runtime.store := by
  unfold CanRuntime.start
  split_ifs
  · rfl
  · split
    · rfl
    · dsimp only
      split <;> rfl

/-- A step of the receive thread appends what is between the two calls. -/
theorem receive_seen {m m' : Monitoring.State} {action : ReceiveAction} (h : Monitoring.receive m action = some m') :
    m'.runtime.store = m.runtime.store.appendAll m.between ∧ m'.appended = m.appended ++ m.between := by
  obtain ⟨receiver, hreceiver, h⟩ := Option.bind_eq_some_iff.mp h
  obtain ⟨r, hstep, rfl⟩ := Option.map_eq_some_iff.mp h
  obtain ⟨place, hplace, hmap⟩ := Option.bind_eq_some_iff.mp hstep
  obtain ⟨place', -, rfl⟩ := Option.map_eq_some_iff.mp hmap
  have hbetween : m.place = some place := by
    rw [Monitoring.State.place, hreceiver]
    exact hplace
  refine ⟨?_, rfl⟩
  rw [Monitoring.State.between, hbetween]
  cases place <;> rfl

/-- The steps of the runtime that are not of the receive thread append nothing. -/
theorem monitoring_seen {m m' : Monitoring.State} {action : Monitoring.Action}
    (ha : ∀ receive, action ≠ .receive receive) (h : Monitoring.step m action = some m') :
    m'.runtime.store = m.runtime.store ∧ m'.appended = m.appended := by
  cases action with
  | start answers =>
    obtain ⟨-, h⟩ := Option.ite_none_left_eq_some.mp h
    obtain rfl := Option.some.inj h
    exact ⟨store_start m.runtime answers m.sockets, rfl⟩
  | stop =>
    obtain rfl := Monitoring.stop_cases h
    exact ⟨rfl, rfl⟩
  | joined =>
    obtain ⟨-, rfl⟩ := Monitoring.joined_cases h
    exact ⟨rfl, rfl⟩
  | receive action => exact absurd rfl (ha action)
  | queryFrames => cases h; exact ⟨rfl, rfl⟩
  | busStats => cases h; exact ⟨rfl, rfl⟩

/-- What a request handler does to the runtime leaves the store as it is. -/
theorem afterRequest_seen (m : Monitoring.State) (req : HttpRequest) (answers : Answers) :
    (afterRequest m req answers).runtime.store = m.runtime.store ∧ (afterRequest m req answers).appended = m.appended := by
  unfold afterRequest
  split_ifs <;> exact ⟨rfl, rfl⟩

/-- A connection's step, seen by itself and by the others. -/
theorem connection_update {s s' : State ι} {i j : ι} {a : Connection.Act} {c : Connection.State}
    (ha : ∀ frame, a ≠ .append frame) (hc : Connection.step (s.connection j) a = some c)
    (hstore : s'.monitoring.runtime.store = s.monitoring.runtime.store)
    (happended : s'.monitoring.appended = s.monitoring.appended)
    (hs' : s'.connections = Function.update s.connections j c) :
    run Connection.step (s.connection i) (if j = i then [a] else []) = some (s'.connection i) := by
  have hview : s'.connection i = { Function.update s.connections j c i with
      store := s.monitoring.runtime.store
      appended := s.monitoring.appended } := by
    rw [State.connection, hstore, happended, hs']
  rw [hview]
  by_cases hij : j = i
  · subst hij
    have hcs : c.store = s.monitoring.runtime.store := (store_of_step ha hc).1
    have hca : c.appended = s.monitoring.appended := (store_of_step ha hc).2
    rw [if_pos rfl, run_cons, hc, Function.update_self, ← hcs, ← hca]
    rfl
  · rw [if_neg hij, Function.update_of_ne (Ne.symm hij)]
    rfl

/-- **Each step of the service** is seen by a connection as steps of its own. -/
theorem connection_of_step (i : ι) (s : State ι) (a : Act ι) (s' : State ι) (h : step s a = some s') :
    run Connection.step (s.connection i) (seenBy i s a) = some (s'.connection i) := by
  cases a with
  | runtime action =>
    obtain ⟨m, hm, rfl⟩ := Option.map_eq_some_iff.mp h
    by_cases ha : ∃ receive, action = .receive receive
    · obtain ⟨receive, rfl⟩ := ha
      obtain ⟨hstore, happended⟩ := receive_seen (show Monitoring.receive s.monitoring receive = some m from hm)
      rw [seenBy, Connection.run_appends]
      unfold State.connection
      rw [hstore, happended]
    · obtain ⟨hstore, happended⟩ := monitoring_seen (fun receive heq => ha ⟨receive, heq⟩) hm
      have hnone : seenBy i s (.runtime action) = [] := by
        cases action with
        | receive receive => exact absurd ⟨receive, rfl⟩ ha
        | _ => rfl
      rw [hnone]
      unfold State.connection
      rw [hstore, happended]
      rfl
  | parse j answers =>
    obtain ⟨c, hc, rfl⟩ := Option.map_eq_some_iff.mp h
    have hrequest : ∀ req : Option HttpRequest,
        (req.elim s.monitoring fun req => afterRequest s.monitoring req answers).runtime.store = s.monitoring.runtime.store ∧
        (req.elim s.monitoring fun req => afterRequest s.monitoring req answers).appended = s.monitoring.appended := by
      rintro (_ | req)
      · exact ⟨rfl, rfl⟩
      · exact afterRequest_seen s.monitoring req answers
    exact connection_update nofun hc (hrequest _).1 (hrequest _).2 rfl
  | connection j a =>
    obtain ⟨hown, h⟩ := Option.ite_none_right_eq_some.mp h
    obtain ⟨c, hc, rfl⟩ := Option.map_eq_some_iff.mp h
    exact connection_update (fun frame heq => by rw [heq] at hown; exact hown) hc rfl rfl rfl

/-- **A connection of the service is a connection**: what it sees of a run of the service, with
any number of other connections, is a run of its own in which the receive thread appends. -/
theorem connection_of_run (i : ι) {s t : State ι} {as : List (Act ι)} (h : run step s as = some t) :
    run Connection.step (s.connection i) (seen i s as) = some (t.connection i) :=
  run_projects (connection_of_step i) h

/-! ### What was accepted -/

/-- The frame that a step accepts. -/
def Act.accepted : Act ι → Option CanFrame
  | .runtime action => action.accepted
  | _ => none

/-- The frames that the receive thread accepted in a run. -/
def received (as : List (Act ι)) : List CanFrame := as.filterMap Act.accepted

/-- The store and the statistics are those of the frames accepted, whoever asks for them. -/
structure Shared (new : CanRuntime) (s : State ι) (accepted : List CanFrame) : Prop where
  agrees : Monitoring.Agrees new.statistics s.monitoring accepted
  owned : Monitoring.Owned s.monitoring

theorem Shared.step {new : CanRuntime} {s s' : State ι} {accepted : List CanFrame} {a : Act ι}
    (h : Shared new s accepted) (hs : step s a = some s') : Shared new s' (accepted ++ a.accepted.toList) := by
  cases a with
  | runtime action =>
    obtain ⟨m, hm, rfl⟩ := Option.map_eq_some_iff.mp hs
    exact ⟨h.agrees.step h.owned hm, h.owned.step hm⟩
  | parse j answers =>
    obtain ⟨c, -, rfl⟩ := Option.map_eq_some_iff.mp hs
    -- what a handler does to the statistics is what `busStats` does
    have hask := h.agrees.step h.owned (a := .busStats answers.now) rfl
    have hown := h.owned.step (a := .busStats answers.now) rfl
    cases acceptedRequest (s.connections j) with
    | none => exact ⟨(List.append_nil accepted).symm ▸ h.agrees, h.owned⟩
    | some req =>
      by_cases hstats : IsStats req
      · have heq : afterRequest s.monitoring req answers = { s.monitoring with
            runtime := { s.monitoring.runtime with
              statistics := (s.monitoring.runtime.statistics.snapshot answers.now).2 } } := if_pos hstats
        constructor
        · rw [Option.elim_some, heq]
          exact hask
        · rw [Option.elim_some, heq]
          exact hown
      · have heq : afterRequest s.monitoring req answers = s.monitoring := if_neg hstats
        constructor
        · rw [Option.elim_some, heq]
          exact (List.append_nil accepted).symm ▸ h.agrees
        · rw [Option.elim_some, heq]
          exact h.owned
  | connection j a =>
    obtain ⟨-, hs⟩ := Option.ite_none_right_eq_some.mp hs
    obtain ⟨c, -, rfl⟩ := Option.map_eq_some_iff.mp hs
    exact ⟨(List.append_nil accepted).symm ▸ h.agrees, h.owned⟩

/-- **Every run** shares the frames accepted. -/
theorem shared_run {interfaceName : String} {nominalBitrate : UInt32} {frameCapacity : ℕ} {new : CanRuntime}
    (hnew : CanRuntime.make interfaceName nominalBitrate frameCapacity = .ok new) {as : List (Act ι)} {t : State ι}
    (h : run step (.start ι new) as = some t) : Shared new t (received as) := by
  refine run_history (I := fun as t => Shared new t (received as)) ?_ (fun as t a t' _ hI hs => ?_) h
  · exact ⟨Monitoring.agrees_new hnew, Monitoring.owned_new (CanRuntime.stopped_of_make hnew)⟩
  · have hconcat : received (as ++ [a]) = received as ++ a.accepted.toList := by
      rw [received, List.filterMap_append, List.filterMap_cons]
      cases a.accepted <;> rfl
    rw [hconcat]
    exact hI.step hs

/-- What is in the store was accepted. -/
theorem appended_received {interfaceName : String} {nominalBitrate : UInt32} {frameCapacity : ℕ} {new : CanRuntime}
    (hnew : CanRuntime.make interfaceName nominalBitrate frameCapacity = .ok new) {as : List (Act ι)} {t : State ι}
    (h : run step (.start ι new) as = some t) :
    t.monitoring.appended <+: received as ∧ ∀ frame ∈ received as, frame.WellFormed := by
  refine ⟨⟨_, (shared_run hnew h).agrees.appended⟩, fun frame hframe => ?_⟩
  obtain ⟨a, -, ha⟩ := List.mem_filterMap.mp hframe
  cases a with
  | runtime action => exact Monitoring.accepted_wellFormed ha
  | _ => cases ha

end

end CanMonitor.Service
