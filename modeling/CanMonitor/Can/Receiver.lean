import CanMonitor.Can.Codec
import CanMonitor.Can.Statistics
import CanMonitor.Library.Ledger
import CanMonitor.Library.Runs
import Mathlib.Data.Nat.Bitwise

/-!
# The receiver

`CanReceiver` opens a raw CAN socket, installs a filter for each identifier that it is
configured with, and has a thread that reads frames from the socket until it is told to
stop: each is checked, taken apart, recorded in the statistics and appended to the store.

## The model

A descriptor is known by the call of `socket` that returned it: the code compares it with
`-1` (`none`) and passes it on. `Sockets` is what the kernel keeps: which descriptors it has
given out and got back, and the filters of each socket. What the calls of an operation
answer is an argument of it, an error as `strerror` says it.

The receive thread is at a `Place` of `receiveLoop`; `receiveStep` takes it to the next
shared access or system call, whose outcome the action tells. The time of a frame is what
`clock_gettime` said, in nanoseconds.

## What is proved

* `passes_iff` — which frames the kernel lets through the installed filters.
* `run_receive` — what the thread has read, it records and appends, in the order in which
  it was read.
* `filters_select` — with filters, the store is given the data frames with a configured
  identifier, and no others.
-/

namespace CanMonitor.Can

open CanMonitor.Library

/-! ### Filters -/

/-- `CanIdFilter`. -/
structure CanIdFilter where
  id : UInt32 := 0
  isExtended : Bool := false
  deriving DecidableEq, Repr

/-- `struct can_filter`. -/
structure KernelFilter where
  canId : UInt32 := 0
  canMask : UInt32 := 0
  deriving DecidableEq, Repr

/-- `CAN_INV_FILTER`: the filter lets through what does not match. -/
def canInvFilter : UInt32 := 0x20000000

/-- The rule of `CAN_RAW_FILTER`, for one filter. -/
def KernelFilter.lets (filter : KernelFilter) (canId : UInt32) : Bool :=
  (canId &&& filter.canMask = filter.canId &&& filter.canMask) != (filter.canId &&& canInvFilter ≠ 0)

/-- The rule of `CAN_RAW_FILTER`: one filter suffices. -/
def passes (filters : List KernelFilter) (kernelFrame : KernelFrame) : Bool :=
  filters.any fun filter => filter.lets kernelFrame.canId

/-- The filter that is installed for an identifier, if the identifier is in range. -/
def kernelFilter (filter : CanIdFilter) : Option KernelFilter :=
  if filter.id &&& ~~~ idMask filter.isExtended ≠ 0 then none
  else if filter.isExtended then some ⟨canEffFlag ||| filter.id, canEffFlag ||| canEffMask⟩
  else some ⟨filter.id, canEffFlag ||| canSffMask⟩

/-! ### Sockets -/

/-- What the kernel knows of the sockets. -/
structure Sockets where
  ledger : Ledger := {}
  /-- The filters of a socket. -/
  filters : ℕ → List KernelFilter := fun _ => []

namespace Sockets

/-- `socket`: a new descriptor. The filter that a socket begins with lets everything through. -/
def socket (sockets : Sockets) : ℕ × Sockets :=
  (sockets.ledger.issue.1, {
    ledger := sockets.ledger.issue.2
    filters := Function.update sockets.filters sockets.ledger.issue.1 [{}] })

/-- `close`. -/
def close (sockets : Sockets) (fd : ℕ) : Sockets := { sockets with ledger := sockets.ledger.giveBack fd }

/-- `close`, of a descriptor that may be `-1`. -/
def closeIfOpen (sockets : Sockets) : Option ℕ → Sockets
  | none => sockets
  | some fd => sockets.close fd

/-- `setsockopt` with `CAN_RAW_FILTER`. -/
def setFilter (sockets : Sockets) (fd : ℕ) (filters : List KernelFilter) : Sockets :=
  { sockets with filters := Function.update sockets.filters fd filters }

end Sockets

/-- What the calls answer that open a socket. -/
structure SocketAnswers where
  socket : Except String Unit := .ok ()
  ioctl : Except String Unit := .ok ()
  bind : Except String Unit := .ok ()
  setsockopt : Except String Unit := .ok ()

/-- What `openSocket` of the sender and of the receiver begin with: a socket that is bound to
the interface. -/
def bindSocket (interfaceName : String) (answers : SocketAnswers) (sockets : Sockets) : Except String ℕ × Sockets :=
  match answers.socket with
  | .error message => (.error ("cannot create CAN socket: " ++ message), sockets)
  | .ok () =>
    let (fd, sockets) := sockets.socket
    match answers.ioctl with
    | .error message =>
      (.error ("cannot find CAN interface '" ++ interfaceName ++ "': " ++ message), sockets.close fd)
    | .ok () =>
      match answers.bind with
      | .error message =>
        (.error ("cannot bind CAN interface '" ++ interfaceName ++ "': " ++ message), sockets.close fd)
      | .ok () => (.ok fd, sockets)

/-! ### The receiver -/

/-- Where the receive thread is in `receiveLoop`. -/
inductive Place where
  /-- It will test `running_`. -/
  | test
  /-- It will read `socket_fd_`. -/
  | load
  /-- It will call `poll`. -/
  | poll (fd : ℕ)
  /-- It will call `read`. -/
  | read (fd : ℕ)
  /-- It will call `recordReceived`, if there are statistics. -/
  | record (frame : CanFrame)
  /-- It will call `append`. -/
  | append (frame : CanFrame)
  /-- It has left the loop. -/
  | left
  deriving DecidableEq

/-- `CanReceiver`, without the store and the statistics that it refers to. -/
structure CanReceiver where
  interfaceName : String
  filters : List CanIdFilter := []
  /-- `statistics_` is not null. -/
  hasStatistics : Bool := false
  running : Bool := false
  socketFd : Option ℕ := none
  /-- `receive_thread_`; `none` when it is not joinable. -/
  thread : Option Place := none
  deriving DecidableEq

namespace CanReceiver

/-- `openSocket`. -/
def openSocket (receiver : CanReceiver) (answers : SocketAnswers) (sockets : Sockets) :
    Except String Unit × CanReceiver × Sockets :=
  match bindSocket receiver.interfaceName answers sockets with
  | (.error message, sockets) => (.error message, receiver, sockets)
  | (.ok fd, sockets) =>
    if receiver.filters = [] then (.ok (), { receiver with socketFd := some fd }, sockets)
    else
      match receiver.filters.mapM kernelFilter with
      | none => (.error "CAN filter ID is out of range", receiver, sockets.close fd)
      | some kernelFilters =>
        match answers.setsockopt with
        | .error message => (.error ("cannot install CAN filters" ++ message), receiver, sockets.close fd)
        | .ok () => (.ok (), { receiver with socketFd := some fd }, sockets.setFilter fd kernelFilters)

/-- `start`, with the answer of `std::thread`. -/
def start (receiver : CanReceiver) (answers : SocketAnswers) (thread : Except String Unit) (sockets : Sockets) :
    Except String Unit × CanReceiver × Sockets :=
  if receiver.running then (.error "CanReceiver 已经启动", receiver, sockets)
  else
    match receiver.openSocket answers sockets with
    | (.error message, receiver, sockets) => (.error message, receiver, sockets)
    | (.ok (), receiver, sockets) =>
      match thread with
      | .error what =>
        (.error ("cannot start can receive thread" ++ what), { receiver with running := false, socketFd := none },
          sockets.closeIfOpen receiver.socketFd)
      | .ok () => (.ok (), { receiver with running := true, thread := some .test }, sockets)

/-- The first half of `stop`: the thread is told. -/
def requestStop (receiver : CanReceiver) : CanReceiver := { receiver with running := false }

/-- The second half of `stop`, when the thread has left its loop. -/
def finishStop (receiver : CanReceiver) (sockets : Sockets) : CanReceiver × Sockets :=
  ({ receiver with thread := none, socketFd := none }, sockets.closeIfOpen receiver.socketFd)

/-- `stop`, which is what the destructor does too. -/
def stop (receiver : CanReceiver) (sockets : Sockets) : CanReceiver × Sockets :=
  receiver.requestStop.finishStop sockets

end CanReceiver

/-! ### The receive thread -/

/-- `EINTR`. -/
def eintr : ℕ := 4

/-- `EAGAIN`. -/
def eagain : ℕ := 11

/-- `POLLIN`. -/
def pollIn : UInt16 := 0x001

/-- `POLLERR`. -/
def pollErr : UInt16 := 0x008

/-- `POLLHUP`. -/
def pollHup : UInt16 := 0x010

/-- `POLLNVAL`. -/
def pollNval : UInt16 := 0x020

/-- What `poll` answers. -/
inductive PollOutcome where
  /-- An error. -/
  | failed (errno : ℕ)
  /-- Nothing within 100 ms. -/
  | timeout
  /-- Events. -/
  | ready (revents : UInt16)
  deriving DecidableEq

/-- What `read` answers. -/
inductive ReadOutcome where
  /-- An error. -/
  | failed (errno : ℕ)
  /-- So many bytes, of this frame, at this time. -/
  | got (bytes : ℕ) (kernelFrame : KernelFrame) (timestampNs : UInt64)
  deriving DecidableEq

/-- A step of the receive thread. -/
inductive ReceiveAction where
  | test
  | load
  | poll (outcome : PollOutcome)
  | read (outcome : ReadOutcome)
  | record
  | append
  deriving DecidableEq

/-- Where a step takes the receive thread. -/
def CanReceiver.next (receiver : CanReceiver) : Place → ReceiveAction → Option Place
  | .test, .test => some (if receiver.running then .load else .left)
  | .load, .load =>
    match receiver.socketFd with
    | none => some .left
    | some fd => some (.poll fd)
  | .poll _, .poll (.failed errno) => some (if errno = eintr then .test else .left)
  | .poll _, .poll .timeout => some .test
  | .poll fd, .poll (.ready revents) =>
    some (if revents &&& (pollErr ||| pollHup ||| pollNval) ≠ 0 then .left
      else if revents &&& pollIn = 0 then .test
      else .read fd)
  | .read _, .read (.failed errno) => some (if errno = eintr ∨ errno = eagain then .test else .left)
  | .read _, .read (.got bytes kernelFrame timestampNs) =>
    some (if bytes ≠ canMtu then .test else (decode kernelFrame timestampNs).elim .test .record)
  | .record frame, .record => some (.append frame)
  | .append _, .append => some .test
  | _, _ => none

section

variable {receiver : CanReceiver} {fd : ℕ}

theorem next_test (h : receiver.running = true) : receiver.next .test .test = some .load := congrArg some (if_pos h)

theorem next_load (h : receiver.socketFd = some fd) : receiver.next .load .load = some (.poll fd) := by
  unfold CanReceiver.next
  rw [h]

theorem next_poll : receiver.next (.poll fd) (.poll (.ready pollIn)) = some (.read fd) := rfl

theorem next_read {kernelFrame : KernelFrame} {timestampNs : UInt64} {frame : CanFrame}
    (h : decode kernelFrame timestampNs = some frame) :
    receiver.next (.read fd) (.read (.got canMtu kernelFrame timestampNs)) = some (.record frame) := by
  change some (if canMtu ≠ canMtu then Place.test else (decode kernelFrame timestampNs).elim .test .record) = _
  rw [if_neg (not_not.mpr rfl), h]
  rfl

theorem next_record (frame : CanFrame) : receiver.next (.record frame) .record = some (.append frame) := rfl

theorem next_append (frame : CanFrame) : receiver.next (.append frame) .append = some .test := rfl

end

/-- A receiver with what it refers to. -/
structure Reception where
  receiver : CanReceiver
  store : FrameStore
  statistics : CanBusStatistics

/-- A step of `receiveLoop`. -/
def receiveStep (s : Reception) (action : ReceiveAction) : Option Reception :=
  s.receiver.thread.bind fun place =>
    (s.receiver.next place action).map fun place' => {
      receiver := { s.receiver with thread := some place' }
      store :=
        match place with
        | .append frame => (s.store.append frame).2
        | _ => s.store
      statistics :=
        match place with
        | .record frame => if s.receiver.hasStatistics then s.statistics.recordReceived frame else s.statistics
        | _ => s.statistics }

/-! ### What the filters let through -/

/-- The test of `openSocket` is that of the range. -/
theorem and_not_idMask_eq_zero_iff (id : UInt32) (isExtended : Bool) :
    id &&& ~~~ idMask isExtended = 0 ↔ id ≤ idMask isExtended := by
  rw [← and_idMask_eq_self_iff]
  have hsplit : id &&& idMask isExtended ||| id &&& ~~~ idMask isExtended = id := by
    apply UInt32.toBitVec_inj.mp
    simp only [UInt32.toBitVec_or, UInt32.toBitVec_and, UInt32.toBitVec_not]
    rw [← BitVec.and_or_distrib_left, BitVec.or_not_self, BitVec.and_allOnes]
  constructor
  · intro hzero
    rw [hzero, UInt32.or_zero] at hsplit
    exact hsplit
  · intro hself
    rw [← hself, UInt32.and_assoc, UInt32.and_not_self, UInt32.and_zero]

/-- An identifier in range is filtered by the word that it is sent with. -/
theorem kernelFilter_eq (filter : CanIdFilter) :
    kernelFilter filter = if filter.id ≤ idMask filter.isExtended then
      some ⟨packId filter.id filter.isExtended, canEffFlag ||| idMask filter.isExtended⟩ else none := by
  unfold kernelFilter
  by_cases hid : filter.id ≤ idMask filter.isExtended
  · rw [if_neg (not_not.mpr ((and_not_idMask_eq_zero_iff _ _).mpr hid)), if_pos hid]
    have hmask := (and_idMask_eq_self_iff _ _).mpr hid
    obtain ⟨id, isExtended⟩ := filter
    cases isExtended with
    | true => exact congrArg (fun id => some (KernelFilter.mk (canEffFlag ||| id) _)) hmask.symm
    | false => exact congrArg (fun id => some (KernelFilter.mk id _)) hmask.symm
  · rw [if_pos (fun h => hid ((and_not_idMask_eq_zero_iff _ _).mp h)), if_neg hid]

/-- The bit of a flag. -/
theorem and_canEffFlag (canId : UInt32) : canId &&& canEffFlag = 0 ∨ canId &&& canEffFlag = canEffFlag := by
  have hbit : (canId &&& canEffFlag).toNat = (canId.toNat.testBit 31).toNat * 2 ^ 31 :=
    (UInt32.toNat_and _ _).trans (Nat.and_two_pow canId.toNat 31)
  cases htest : canId.toNat.testBit 31 with
  | true =>
    rw [htest] at hbit
    exact .inr (UInt32.toNat_inj.mp hbit)
  | false =>
    rw [htest, Bool.toNat_false, Nat.zero_mul] at hbit
    exact .inl (UInt32.toNat_inj.mp hbit)

/-- A masked comparison compares the flag and the identifier. -/
theorem and_filterMask_eq_iff (x y : UInt32) (isExtended : Bool) :
    x &&& (canEffFlag ||| idMask isExtended) = y &&& (canEffFlag ||| idMask isExtended) ↔
      x &&& canEffFlag = y &&& canEffFlag ∧ x &&& idMask isExtended = y &&& idMask isExtended := by
  have hflag : (canEffFlag ||| idMask isExtended) &&& canEffFlag = canEffFlag := by cases isExtended <;> rfl
  have hmask : (canEffFlag ||| idMask isExtended) &&& idMask isExtended = idMask isExtended := by
    cases isExtended <;> rfl
  constructor
  · intro h
    constructor
    · rw [← hflag, ← UInt32.and_assoc, h, UInt32.and_assoc]
    · rw [← hmask, ← UInt32.and_assoc, h, UInt32.and_assoc]
  · rintro ⟨h₁, h₂⟩
    rw [UInt32.and_comm, and_or_right, UInt32.and_comm canEffFlag, UInt32.and_comm (idMask isExtended), h₁, h₂,
      UInt32.and_comm y (canEffFlag ||| _), and_or_right, UInt32.and_comm canEffFlag y,
      UInt32.and_comm (idMask isExtended) y]

/-- **One filter** lets through the frames with its identifier. -/
theorem lets_iff {filter : CanIdFilter} {installed : KernelFilter} (h : kernelFilter filter = some installed)
    {kernelFrame : KernelFrame} {timestampNs : UInt64} {frame : CanFrame}
    (hdecode : decode kernelFrame timestampNs = some frame) :
    installed.lets kernelFrame.canId ↔ filter = ⟨frame.id, frame.isExtended⟩ := by
  rw [kernelFilter_eq] at h
  obtain ⟨hid, h⟩ := Option.ite_none_right_eq_some.mp h
  obtain rfl := Option.some.inj h
  obtain ⟨-, -, rfl⟩ := (decode_eq_some_iff _ _ _).mp hdecode
  have hinv : packId filter.id filter.isExtended &&& canInvFilter = 0 := by
    have hflags := packId_and_flags filter.id filter.isExtended
    have hsub : canInvFilter = (canErrFlag ||| canRtrFlag) &&& canInvFilter := rfl
    rw [hsub, ← UInt32.and_assoc, hflags, UInt32.zero_and]
  unfold KernelFilter.lets
  simp only [hinv, ne_eq, not_true, decide_false, Bool.bne_false, decide_eq_true_eq]
  rw [and_filterMask_eq_iff, packId_and_effFlag, packId_and_idMask, (and_idMask_eq_self_iff _ _).mpr hid]
  obtain ⟨id, isExtended⟩ := filter
  have hflag : kernelFrame.canId &&& canEffFlag = (if isExtended then canEffFlag else 0) ↔
      isExtended = decide (kernelFrame.canId &&& canEffFlag ≠ 0) := by
    rcases and_canEffFlag kernelFrame.canId with hflag | hflag <;> rw [hflag] <;> cases isExtended <;> decide
  rw [hflag, CanIdFilter.mk.injEq, and_comm]
  refine and_congr_left fun hext => ?_
  rw [← hext]
  exact eq_comm

/-- **The installed filters** let through the frames with a configured identifier. -/
theorem passes_iff {filters : List CanIdFilter} {installed : List KernelFilter}
    (h : filters.mapM kernelFilter = some installed) {kernelFrame : KernelFrame} {timestampNs : UInt64}
    {frame : CanFrame} (hdecode : decode kernelFrame timestampNs = some frame) :
    passes installed kernelFrame ↔ ⟨frame.id, frame.isExtended⟩ ∈ filters := by
  induction filters generalizing installed with
  | nil =>
    obtain rfl : [] = installed := Option.some.inj h
    simp [passes]
  | cons filter filters ih =>
    rw [List.mapM_cons] at h
    obtain ⟨first, hfirst, h⟩ := Option.bind_eq_some_iff.mp h
    obtain ⟨rest, hrest, h⟩ := Option.bind_eq_some_iff.mp h
    obtain rfl : first :: rest = installed := Option.some.inj h
    have hlets := lets_iff hfirst hdecode
    rw [passes, List.any_cons, Bool.or_eq_true, hlets, List.mem_cons, eq_comm]
    exact or_congr_right (ih hrest)

/-- All identifiers are in range exactly if each has a filter. -/
theorem mapM_kernelFilter_isSome_iff (filters : List CanIdFilter) :
    (filters.mapM kernelFilter).isSome ↔ ∀ filter ∈ filters, filter.id ≤ idMask filter.isExtended := by
  induction filters with
  | nil => simp
  | cons filter filters ih =>
    rw [List.forall_mem_cons, ← ih, List.mapM_cons, kernelFilter_eq]
    split_ifs with hid
    · simp only [hid, true_and]
      cases filters.mapM kernelFilter <;> simp
    · simp [hid]

/-! ### Opening a socket -/

@[simp] theorem Sockets.filters_setFilter (sockets : Sockets) (fd : ℕ) (filters : List KernelFilter) :
    (sockets.setFilter fd filters).filters fd = filters := by
  simp [Sockets.setFilter]

/-- Whatever `socket` returned was closed again. -/
def Released (sockets sockets' : Sockets) : Prop :=
  sockets'.ledger = sockets.ledger ∨ sockets'.ledger = (sockets.socket.2.close sockets.socket.1).ledger

theorem Released.balanced {sockets sockets' : Sockets} (h : Released sockets sockets') {held : List ℕ}
    (hbalanced : sockets.ledger.Balanced held) : sockets'.ledger.Balanced held := by
  rcases h with heq | heq <;> rw [heq]
  · exact hbalanced
  · exact hbalanced.issue.giveBack

/-- The ways of `bindSocket`. -/
theorem bindSocket_cases (interfaceName : String) (answers : SocketAnswers) (sockets : Sockets) :
    (∃ message sockets', bindSocket interfaceName answers sockets = (.error message, sockets') ∧
      Released sockets sockets') ∨
    bindSocket interfaceName answers sockets = (.ok sockets.socket.1, sockets.socket.2) := by
  unfold bindSocket
  cases answers.socket with
  | error message => exact .inl ⟨_, _, rfl, .inl rfl⟩
  | ok _ =>
    cases answers.ioctl with
    | error message => exact .inl ⟨_, _, rfl, .inr rfl⟩
    | ok _ =>
      cases answers.bind with
      | error message => exact .inl ⟨_, _, rfl, .inr rfl⟩
      | ok _ => exact .inr rfl

/-- **The ways of `openSocket`**: it fails, changes nothing and keeps no descriptor, or it
has a new one, with the filters installed. -/
theorem openSocket_cases (receiver : CanReceiver) (answers : SocketAnswers) (sockets : Sockets) :
    (∃ message sockets', receiver.openSocket answers sockets = (.error message, receiver, sockets') ∧
      Released sockets sockets') ∨
    ∃ sockets', receiver.openSocket answers sockets =
        (.ok (), { receiver with socketFd := some sockets.socket.1 }, sockets') ∧
      sockets'.ledger = sockets.socket.2.ledger ∧
      (receiver.filters ≠ [] →
        receiver.filters.mapM kernelFilter = some (sockets'.filters sockets.socket.1)) := by
  unfold CanReceiver.openSocket
  rcases bindSocket_cases receiver.interfaceName answers sockets with ⟨message, sockets', heq, hreleased⟩ | heq
  · rw [heq]
    exact .inl ⟨message, sockets', rfl, hreleased⟩
  · rw [heq]
    dsimp only
    split_ifs with hempty
    · exact .inr ⟨_, rfl, rfl, fun hne => absurd hempty hne⟩
    · cases hfilters : receiver.filters.mapM kernelFilter with
      | none => exact .inl ⟨_, _, rfl, .inr rfl⟩
      | some installed =>
        cases answers.setsockopt with
        | error message => exact .inl ⟨_, _, rfl, .inr rfl⟩
        | ok _ =>
          refine .inr ⟨_, rfl, rfl, fun _ => ?_⟩
          rw [Sockets.filters_setFilter]

/-- If every call succeeds and every identifier is in range, there is a socket. -/
theorem openSocket_ok {receiver : CanReceiver}
    (h : ∀ filter ∈ receiver.filters, filter.id ≤ idMask filter.isExtended) (sockets : Sockets) :
    (receiver.openSocket {} sockets).1 = .ok () := by
  obtain ⟨installed, hinstalled⟩ := Option.isSome_iff_exists.mp ((mapM_kernelFilter_isSome_iff _).mpr h)
  unfold CanReceiver.openSocket
  simp only [bindSocket, hinstalled]
  split_ifs <;> rfl

/-! ### What the thread reads -/

/-- The frame that is waiting to be recorded. -/
def Place.unrecorded : Place → List CanFrame
  | .record frame => [frame]
  | _ => []

/-- The frame that is waiting to be appended. -/
def Place.unappended : Place → List CanFrame
  | .record frame => [frame]
  | .append frame => [frame]
  | _ => []

/-- The frame that a step reads in full, with its time. -/
def ReceiveAction.read? : ReceiveAction → Option (KernelFrame × UInt64)
  | .read (.got bytes kernelFrame timestampNs) => if bytes = canMtu then some (kernelFrame, timestampNs) else none
  | _ => none

/-- The frame that a step accepts. -/
def ReceiveAction.accepted (action : ReceiveAction) : Option CanFrame :=
  action.read?.bind fun (kernelFrame, timestampNs) => decode kernelFrame timestampNs

theorem accepted_got (bytes : ℕ) (kernelFrame : KernelFrame) (timestampNs : UInt64) :
    (ReceiveAction.read (.got bytes kernelFrame timestampNs)).accepted =
      if bytes = canMtu then decode kernelFrame timestampNs else none := by
  unfold ReceiveAction.accepted ReceiveAction.read?
  by_cases h : bytes = canMtu <;> simp [h]

/-- The steps of the receive thread, by what they need and where they lead. -/
inductive ReceiveTrans (receiver : CanReceiver) : Place → ReceiveAction → Place → Prop where
  | goOn (h : receiver.running = true) : ReceiveTrans receiver .test .test .load
  | told (h : receiver.running = false) : ReceiveTrans receiver .test .test .left
  | socket (fd : ℕ) (h : receiver.socketFd = some fd) : ReceiveTrans receiver .load .load (.poll fd)
  | noSocket (h : receiver.socketFd = none) : ReceiveTrans receiver .load .load .left
  | pollAgain (fd : ℕ) : ReceiveTrans receiver (.poll fd) (.poll (.failed eintr)) .test
  | pollFailed (fd errno : ℕ) (h : errno ≠ eintr) : ReceiveTrans receiver (.poll fd) (.poll (.failed errno)) .left
  | timeout (fd : ℕ) : ReceiveTrans receiver (.poll fd) (.poll .timeout) .test
  | broken (fd : ℕ) (revents : UInt16) (h : revents &&& (pollErr ||| pollHup ||| pollNval) ≠ 0) :
      ReceiveTrans receiver (.poll fd) (.poll (.ready revents)) .left
  | noInput (fd : ℕ) (revents : UInt16) (h : revents &&& (pollErr ||| pollHup ||| pollNval) = 0)
      (hinput : revents &&& pollIn = 0) :
      ReceiveTrans receiver (.poll fd) (.poll (.ready revents)) .test
  | input (fd : ℕ) (revents : UInt16) (h : revents &&& (pollErr ||| pollHup ||| pollNval) = 0)
      (hinput : revents &&& pollIn ≠ 0) :
      ReceiveTrans receiver (.poll fd) (.poll (.ready revents)) (.read fd)
  | readAgain (fd errno : ℕ) (h : errno = eintr ∨ errno = eagain) :
      ReceiveTrans receiver (.read fd) (.read (.failed errno)) .test
  | readFailed (fd errno : ℕ) (h : ¬ (errno = eintr ∨ errno = eagain)) :
      ReceiveTrans receiver (.read fd) (.read (.failed errno)) .left
  | refused (fd bytes : ℕ) (kernelFrame : KernelFrame) (timestampNs : UInt64)
      (h : (ReceiveAction.read (.got bytes kernelFrame timestampNs)).accepted = none) :
      ReceiveTrans receiver (.read fd) (.read (.got bytes kernelFrame timestampNs)) .test
  | accepted (fd bytes : ℕ) (kernelFrame : KernelFrame) (timestampNs : UInt64) (frame : CanFrame)
      (h : (ReceiveAction.read (.got bytes kernelFrame timestampNs)).accepted = some frame) :
      ReceiveTrans receiver (.read fd) (.read (.got bytes kernelFrame timestampNs)) (.record frame)
  | record (frame : CanFrame) : ReceiveTrans receiver (.record frame) .record (.append frame)
  | append (frame : CanFrame) : ReceiveTrans receiver (.append frame) .append .test

/-- **What each step can do**, one case for each place. -/
theorem receiveTrans_of_next {receiver : CanReceiver} {place place' : Place} {action : ReceiveAction}
    (h : receiver.next place action = some place') : ReceiveTrans receiver place action place' := by
  cases place with
  | test =>
    cases action with
    | test =>
      obtain rfl := Option.some.inj h
      split_ifs with hrunning
      · exact .goOn hrunning
      · exact .told (Bool.eq_false_iff.mpr hrunning)
    | _ => cases h
  | load =>
    cases action with
    | load =>
      unfold CanReceiver.next at h
      cases hfd : receiver.socketFd with
      | none =>
        rw [hfd] at h
        cases h
        exact .noSocket hfd
      | some fd =>
        rw [hfd] at h
        cases h
        exact .socket fd hfd
    | _ => cases h
  | poll fd =>
    cases action with
    | poll outcome =>
      cases outcome with
      | failed errno =>
        obtain rfl := Option.some.inj h
        split_ifs with hagain
        · subst hagain
          exact .pollAgain fd
        · exact .pollFailed fd errno hagain
      | timeout =>
        obtain rfl := Option.some.inj h
        exact .timeout fd
      | ready revents =>
        obtain rfl := Option.some.inj h
        split_ifs with hbroken hinput
        · exact .broken fd revents hbroken
        · exact .noInput fd revents (not_not.mp hbroken) hinput
        · exact .input fd revents (not_not.mp hbroken) hinput
    | _ => cases h
  | read fd =>
    cases action with
    | read outcome =>
      cases outcome with
      | failed errno =>
        obtain rfl := Option.some.inj h
        split_ifs with hagain
        · exact .readAgain fd errno hagain
        · exact .readFailed fd errno hagain
      | got bytes kernelFrame timestampNs =>
        have haccepted := accepted_got bytes kernelFrame timestampNs
        obtain rfl := Option.some.inj h
        by_cases hbytes : bytes = canMtu
        · rw [if_pos hbytes] at haccepted
          rw [if_neg (not_not.mpr hbytes), ← haccepted]
          cases hframe : (ReceiveAction.read (.got bytes kernelFrame timestampNs)).accepted with
          | none => exact .refused fd bytes kernelFrame timestampNs hframe
          | some frame => exact .accepted fd bytes kernelFrame timestampNs frame hframe
        · rw [if_neg hbytes] at haccepted
          rw [if_pos hbytes]
          exact .refused fd bytes kernelFrame timestampNs haccepted
    | _ => cases h
  | record frame =>
    cases action with
    | record =>
      obtain rfl := Option.some.inj h
      exact .record frame
    | _ => cases h
  | append frame =>
    cases action with
    | append =>
      obtain rfl := Option.some.inj h
      exact .append frame
    | _ => cases h
  | left => cases action <;> cases h

/-- **A step** of the loop records what is waiting for that, or appends it, or nothing is waiting and it may
accept a frame. -/
theorem next_cases {receiver : CanReceiver} {place place' : Place} {action : ReceiveAction}
    (h : receiver.next place action = some place') :
    (∃ frame, place = .record frame ∧ place' = .append frame ∧ action.accepted = none) ∨
    (∃ frame, place = .append frame ∧ place' = .test ∧ action.accepted = none) ∨
    (∀ frame, place ≠ .record frame) ∧ (∀ frame, place ≠ .append frame) ∧
      place.unappended = [] ∧ place'.unrecorded = action.accepted.toList ∧
      place'.unappended = action.accepted.toList := by
  cases receiveTrans_of_next h with
  | record frame => exact .inl ⟨frame, rfl, rfl, rfl⟩
  | append frame => exact .inr (.inl ⟨frame, rfl, rfl, rfl⟩)
  | refused fd bytes kernelFrame timestampNs hframe | accepted fd bytes kernelFrame timestampNs frame hframe =>
    refine .inr (.inr ⟨nofun, nofun, rfl, ?_⟩)
    rw [hframe]
    exact ⟨rfl, rfl⟩
  | _ => exact .inr (.inr ⟨nofun, nofun, rfl, rfl, rfl⟩)

namespace Reception

/-- The frame that the thread is about to record. -/
def unrecorded (s : Reception) : List CanFrame := s.receiver.thread.elim [] Place.unrecorded

/-- The frame that the thread is about to append, or to record and append. -/
def unappended (s : Reception) : List CanFrame := s.receiver.thread.elim [] Place.unappended

end Reception

/-- What a step of the loop does: only the thread's place changes, and the store or the
statistics, by a frame that was waiting. -/
theorem receiveStep_cases {s s' : Reception} {action : ReceiveAction} (h : receiveStep s action = some s') :
    (∃ place, s'.receiver = { s.receiver with thread := some place }) ∧
    ((∃ frame, s.unrecorded = [frame] ∧ s.unappended = [frame] ∧ s'.unrecorded = [] ∧ s'.unappended = [frame] ∧
        action.accepted = none ∧ s'.store = s.store ∧
        s'.statistics = if s.receiver.hasStatistics then s.statistics.recordReceived frame else s.statistics) ∨
      (∃ frame, s.unrecorded = [] ∧ s.unappended = [frame] ∧ s'.unrecorded = [] ∧ s'.unappended = [] ∧
        action.accepted = none ∧ s'.store = (s.store.append frame).2 ∧ s'.statistics = s.statistics) ∨
      s.unrecorded = [] ∧ s.unappended = [] ∧ s'.unrecorded = action.accepted.toList ∧
        s'.unappended = action.accepted.toList ∧ s'.store = s.store ∧ s'.statistics = s.statistics) := by
  obtain ⟨place, hplace, h⟩ := Option.bind_eq_some_iff.mp h
  obtain ⟨place', hnext, rfl⟩ := Option.map_eq_some_iff.mp h
  refine ⟨⟨place', rfl⟩, ?_⟩
  unfold Reception.unrecorded Reception.unappended
  rw [hplace]
  rcases next_cases hnext with ⟨frame, rfl, rfl, haccepted⟩ | ⟨frame, rfl, rfl, haccepted⟩ |
    ⟨hrecord, happend, hunappended, hunrecorded', hunappended'⟩
  · exact .inl ⟨frame, rfl, rfl, rfl, rfl, haccepted, rfl, rfl⟩
  · exact .inr (.inl ⟨frame, rfl, rfl, rfl, rfl, haccepted, rfl, rfl⟩)
  · have hunrecorded : place.unrecorded = [] := by
      cases place with
      | record frame => exact absurd rfl (hrecord frame)
      | _ => rfl
    refine .inr (.inr ⟨hunrecorded, hunappended, hunrecorded', hunappended', ?_, ?_⟩)
    · cases place with
      | append frame => exact absurd rfl (happend frame)
      | _ => rfl
    · cases place with
      | record frame => exact absurd rfl (hrecord frame)
      | _ => rfl

/-- **A run** of the loop appends what it accepts, in order. -/
theorem run_receive {s t : Reception} {actions : List ReceiveAction} (h : run receiveStep s actions = some t) :
    ∃ log, t.store = s.store.appendAll log ∧
      s.unappended ++ actions.filterMap ReceiveAction.accepted = log ++ t.unappended := by
  induction actions generalizing s with
  | nil =>
    cases h
    exact ⟨[], rfl, List.append_nil _⟩
  | cons action actions ih =>
    obtain ⟨s', hstep, h⟩ := run_cons_some h
    obtain ⟨log, hstore, hlog⟩ := ih h
    have hcons : (action :: actions).filterMap ReceiveAction.accepted =
        action.accepted.toList ++ actions.filterMap ReceiveAction.accepted := by
      rw [List.filterMap_cons]
      cases action.accepted <;> rfl
    rw [hcons]
    rcases (receiveStep_cases hstep).2 with ⟨frame, -, h₁, -, h₁', haccepted, hs, -⟩ |
      ⟨frame, -, h₁, -, h₁', haccepted, hs, -⟩ | ⟨-, h₁, -, h₁', hs, -⟩
    · refine ⟨log, hs ▸ hstore, ?_⟩
      rw [h₁, haccepted, Option.toList_none, List.nil_append, ← hlog, h₁']
    · refine ⟨frame :: log, ?_, ?_⟩
      · rw [hstore, hs]
        rfl
      · rw [h₁, haccepted, List.cons_append, List.cons_append, ← hlog, h₁']
        rfl
    · refine ⟨log, hs ▸ hstore, ?_⟩
      rw [h₁, List.nil_append, ← h₁', hlog]

/-- What the loop makes of frames that it reads, with their times. -/
def dataFrames (arrivals : List (KernelFrame × UInt64)) : List CanFrame :=
  arrivals.filterMap fun arrival => decode arrival.1 arrival.2

/-- The frames read are the frames accepted, as far as they are accepted. -/
theorem filterMap_accepted (actions : List ReceiveAction) :
    actions.filterMap ReceiveAction.accepted =
      dataFrames (actions.filterMap ReceiveAction.read?) := by
  unfold dataFrames
  rw [List.filterMap_filterMap]
  rfl

/-- Of the frames that arrive, those that pass and are accepted are those that are accepted and
have a configured identifier. -/
theorem accepted_of_passes {filters : List CanIdFilter} {installed : List KernelFilter}
    (h : filters.mapM kernelFilter = some installed) (arrivals : List (KernelFrame × UInt64)) :
    dataFrames (arrivals.filter fun arrival => passes installed arrival.1) =
      (dataFrames arrivals).filter fun frame => ⟨frame.id, frame.isExtended⟩ ∈ filters := by
  unfold dataFrames
  induction arrivals with
  | nil => rfl
  | cons arrival arrivals ih =>
    obtain ⟨kernelFrame, timestampNs⟩ := arrival
    rw [List.filter_cons, List.filterMap_cons]
    cases hdecode : decode kernelFrame timestampNs with
    | none =>
      dsimp only
      rw [← ih]
      split_ifs
      · rw [List.filterMap_cons, hdecode]
      · rfl
    | some frame =>
      dsimp only
      rw [List.filter_cons, ← ih]
      have hpasses := passes_iff h hdecode
      by_cases hmem : (⟨frame.id, frame.isExtended⟩ : CanIdFilter) ∈ filters
      · rw [if_pos (hpasses.mpr hmem), if_pos (by simpa using hmem), List.filterMap_cons, hdecode]
      · rw [if_neg (fun hp => hmem (hpasses.mp hp)), if_neg (by simpa using hmem)]

/-- **Filters select what is configured.** With a filter out of range `openSocket` fails, closes
what it opened and leaves the receiver as it was. With all in range it succeeds if its calls do;
then, whatever frames arrive at the socket, if the thread reads those that the kernel lets through
it appends the data frames with a configured identifier, in the order of arrival, and nothing else
(the last of them may still be on its way). -/
theorem filters_select {receiver : CanReceiver} (hfilters : receiver.filters ≠ []) (sockets : Sockets) :
    ((∃ filter ∈ receiver.filters, ¬ filter.id ≤ idMask filter.isExtended) → ∀ answers,
      ∃ message sockets', receiver.openSocket answers sockets = (.error message, receiver, sockets') ∧
        Released sockets sockets') ∧
    ((∀ filter ∈ receiver.filters, filter.id ≤ idMask filter.isExtended) →
      (receiver.openSocket {} sockets).1 = .ok () ∧
      ∀ answers receiver' sockets', receiver.openSocket answers sockets = (.ok (), receiver', sockets') →
        ∃ fd, receiver'.socketFd = some fd ∧
          ∀ arrivals store statistics actions t,
            run receiveStep ⟨{ receiver' with running := true, thread := some .test }, store, statistics⟩ actions =
              some t →
            actions.filterMap ReceiveAction.read? =
              arrivals.filter (fun arrival => passes (sockets'.filters fd) arrival.1) →
            ∃ log, t.store = store.appendAll log ∧
              log ++ t.unappended =
                (dataFrames arrivals).filter fun frame => ⟨frame.id, frame.isExtended⟩ ∈ receiver.filters) := by
  constructor
  · rintro ⟨filter, hmem, hrange⟩ answers
    rcases openSocket_cases receiver answers sockets with herror | ⟨sockets', -, -, hinstalled⟩
    · exact herror
    · have hsome := congrArg Option.isSome (hinstalled hfilters)
      exact absurd ((mapM_kernelFilter_isSome_iff _).mp hsome filter hmem) hrange
  · intro hrange
    refine ⟨openSocket_ok hrange sockets, fun answers receiver' sockets' hopen => ?_⟩
    rcases openSocket_cases receiver answers sockets with ⟨message, sockets₀, herror, -⟩ | ⟨sockets₀, heq, -, hinstalled⟩
    · rw [herror] at hopen
      cases hopen
    · rw [heq] at hopen
      obtain ⟨rfl, rfl⟩ := Prod.mk.inj (Prod.mk.inj hopen).2
      refine ⟨sockets.socket.1, rfl, fun arrivals store statistics actions t hrun hreads => ?_⟩
      obtain ⟨log, hstore, hlog⟩ := run_receive hrun
      refine ⟨log, hstore, ?_⟩
      rw [← hlog, filterMap_accepted, hreads, accepted_of_passes (hinstalled hfilters)]
      rfl

/-- A turn of the loop that reads a frame. -/
def readTurn (kernelFrame : KernelFrame) (timestampNs : UInt64) : List ReceiveAction :=
  [.test, .load, .poll (.ready pollIn), .read (.got canMtu kernelFrame timestampNs)]

/-- A receiver of one 11-bit identifier. -/
def oneFilter : CanReceiver := { interfaceName := "vcan0", filters := [⟨0x123, false⟩] }

/-- Of the frames `0x123`, `0x456` and the 29-bit `0x123`, the first is let through, read and appended. -/
theorem filters_select_one :
    ∃ t log, run receiveStep
        ⟨{ oneFilter with running := true, socketFd := some 0, thread := some .test }, .empty 4 (by decide),
          .new 500000 1000000000 (by decide) (by decide)⟩
        (readTurn { canId := 0x123 } 7 ++ [.record, .append]) = some t ∧
      t.store = (FrameStore.empty 4 (by decide)).appendAll log ∧
      log ++ t.unappended = [{ id := 0x123, timestampNs := 7 }] := by
  have hrun : (run receiveStep
        ⟨{ oneFilter with running := true, socketFd := some 0, thread := some .test }, .empty 4 (by decide),
          .new 500000 1000000000 (by decide) (by decide)⟩
        (readTurn { canId := 0x123 } 7 ++ [.record, .append])).isSome := by decide +kernel
  obtain ⟨t, ht⟩ := Option.isSome_iff_exists.mp hrun
  obtain ⟨-, hselect⟩ := (@filters_select oneFilter (by decide) {}).2 (by decide)
  obtain ⟨fd, hfd, hselect⟩ := hselect {} _ _ rfl
  obtain rfl : 0 = fd := Option.some.inj hfd
  obtain ⟨log, hstore, hlog⟩ := hselect [({ canId := 0x123 }, 7), ({ canId := 0x456 }, 8), ({ canId := 0x80000123 }, 9)]
    _ _ _ t ht (by decide +kernel)
  exact ⟨t, log, ht, hstore, hlog.trans (by decide +kernel)⟩

end CanMonitor.Can
