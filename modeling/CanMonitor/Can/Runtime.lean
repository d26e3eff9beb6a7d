import CanMonitor.Can.Receiver

/-!
# The runtime

`CanRuntime` owns the store, the statistics, a sender and, while it runs, a receiver.
Starting it opens a socket for the sender and one for the receiver and creates the receive
thread; each of these steps may fail, and what was done before is then undone by hand.

## The model

The calls inside an operation answer as an argument of it says. A receiver that is reset is
destroyed, and its destructor stops it once more. `stop` has two halves, before and after
the receive thread has left its loop.

## What is proved

* `Accounted.start`, `Accounted.stop` — each call leaves the runtime stopped or running, and
  every descriptor with its owner or closed.
* `start_stop_accounts` — the same over all sequences of calls, with what a failed start, a
  start when running and a second stop do.
-/

namespace CanMonitor.Can

open CanMonitor.Library

namespace CanSender

/-- `openSocket`. -/
def openSocket (sender : CanSender) (interfaceName : String) (answers : SocketAnswers) (sockets : Sockets) :
    Except String Unit × CanSender × Sockets :=
  match bindSocket interfaceName answers sockets with
  | (.error message, sockets) => (.error message, sender, sockets)
  | (.ok fd, sockets) => (.ok (), { sender with socketFd := some fd }, sockets)

/-- `open`. -/
def «open» (sender : CanSender) (interfaceName : String) (answers : SocketAnswers) (sockets : Sockets) :
    Except String Unit × CanSender × Sockets :=
  if sender.socketFd.isSome then (.error "CAN sender is already open", sender, sockets)
  else sender.openSocket interfaceName answers sockets

/-- `close`. -/
def close (sender : CanSender) (sockets : Sockets) : CanSender × Sockets :=
  ({ sender with socketFd := none }, sockets.closeIfOpen sender.socketFd)

end CanSender

/-- `CanRuntime`. -/
structure CanRuntime where
  interfaceName : String
  store : FrameStore
  statistics : CanBusStatistics
  sender : CanSender := {}
  receiver : Option CanReceiver := none
  running : Bool := false

/-- What the calls answer that start a runtime. -/
structure StartAnswers where
  sender : SocketAnswers := {}
  receiver : SocketAnswers := {}
  thread : Except String Unit := .ok ()

namespace CanRuntime

/-- The constructor, which throws what those of the store and of the statistics throw. -/
def make (interfaceName : String) (nominalBitrate : UInt32) (frameCapacity : ℕ) : Except String CanRuntime :=
  match FrameStore.make frameCapacity, CanBusStatistics.make nominalBitrate 1000000000 with
  | .error message, _ => .error message
  | _, .error message => .error message
  | .ok store, .ok statistics => .ok { interfaceName, store, statistics }

/-- `start`. -/
def start (runtime : CanRuntime) (answers : StartAnswers) (sockets : Sockets) :
    Except String Unit × CanRuntime × Sockets :=
  if runtime.running then (.error "CAN runtime is already running", runtime, sockets)
  else
    match runtime.sender.open runtime.interfaceName answers.sender sockets with
    | (.error message, sender, sockets) => (.error message, { runtime with sender }, sockets)
    | (.ok (), sender, sockets) =>
      let receiver : CanReceiver := { interfaceName := runtime.interfaceName, hasStatistics := true }
      match receiver.start answers.receiver answers.thread sockets with
      | (.error message, receiver, sockets) =>
        let (_, sockets) := receiver.stop sockets
        let (sender, sockets) := sender.close sockets
        (.error message, { runtime with sender, receiver := none }, sockets)
      | (.ok (), receiver, sockets) =>
        (.ok (), { runtime with sender, receiver := some receiver, running := true }, sockets)

/-- The first half of `stop`: the receiver's thread is told. -/
def requestStop (runtime : CanRuntime) : CanRuntime :=
  { runtime with receiver := runtime.receiver.map CanReceiver.requestStop }

/-- `receiver_->stop()` after the thread has left, and `receiver_.reset()`. -/
def dropReceiver (receiver : Option CanReceiver) (sockets : Sockets) : Sockets :=
  match receiver with
  | none => sockets
  | some receiver =>
    let (receiver, sockets) := receiver.finishStop sockets
    (receiver.stop sockets).2

/-- The second half of `stop`, when the receive thread has left its loop. -/
def finishStop (runtime : CanRuntime) (sockets : Sockets) : CanRuntime × Sockets :=
  let sockets := dropReceiver runtime.receiver sockets
  let (sender, sockets) := runtime.sender.close sockets
  ({ runtime with sender, receiver := none, running := false }, sockets)

/-- `stop`. -/
def stop (runtime : CanRuntime) (sockets : Sockets) : CanRuntime × Sockets := runtime.requestStop.finishStop sockets

/-- The descriptors that the runtime holds. -/
def held (runtime : CanRuntime) : List ℕ :=
  runtime.sender.socketFd.toList ++ (runtime.receiver.bind (·.socketFd)).toList

end CanRuntime

/-! ### Starting and stopping -/

/-- **The ways of the receiver's `start`**, from a receiver without a socket. -/
theorem receiver_start_cases {receiver : CanReceiver} (hrunning : receiver.running = false)
    (hfd : receiver.socketFd = none) (answers : SocketAnswers) (thread : Except String Unit) (sockets : Sockets) :
    (∃ message sockets', receiver.start answers thread sockets = (.error message, receiver, sockets') ∧
      Released sockets sockets') ∨
    ∃ sockets', receiver.start answers thread sockets =
        (.ok (), { receiver with running := true, socketFd := some sockets.socket.1, thread := some .test },
          sockets') ∧
      sockets'.ledger = sockets.socket.2.ledger := by
  obtain ⟨interfaceName, filters, hasStatistics, running, socketFd, place⟩ := receiver
  obtain rfl : running = false := hrunning
  obtain rfl : socketFd = none := hfd
  unfold CanReceiver.start
  rw [if_neg Bool.false_ne_true]
  rcases openSocket_cases _ answers sockets with ⟨message, sockets', heq, hreleased⟩ | ⟨sockets', heq, hledger, -⟩
  · rw [heq]
    exact .inl ⟨message, sockets', rfl, hreleased⟩
  · rw [heq]
    cases thread with
    | error what =>
      refine .inl ⟨_, _, rfl, .inr ?_⟩
      exact congrArg (Ledger.giveBack · sockets.socket.1) hledger
    | ok _ => exact .inr ⟨_, rfl, hledger⟩

namespace CanRuntime

/-- The runtime is stopped: it has nothing open. -/
structure Stopped (runtime : CanRuntime) : Prop where
  running : runtime.running = false
  sender : runtime.sender.socketFd = none
  receiver : runtime.receiver = none

/-- The runtime is running: both sockets are open and there is a receive thread. -/
structure Started (runtime : CanRuntime) : Prop where
  running : runtime.running = true
  sender : runtime.sender.isOpen
  receiver : ∃ receiver, runtime.receiver = some receiver ∧ receiver.socketFd.isSome

/-- A runtime is stopped or started, and every descriptor has an owner or is closed. -/
structure Accounted (runtime : CanRuntime) (sockets : Sockets) : Prop where
  state : runtime.Stopped ∨ runtime.Started
  balanced : sockets.ledger.Balanced runtime.held

theorem Stopped.held {runtime : CanRuntime} (h : runtime.Stopped) : runtime.held = [] := by
  unfold CanRuntime.held
  rw [h.sender, h.receiver]
  rfl

/-- The constructor makes a runtime with an empty store and new statistics. -/
theorem eq_of_make {interfaceName : String} {nominalBitrate : UInt32} {frameCapacity : ℕ} {runtime : CanRuntime}
    (h : make interfaceName nominalBitrate frameCapacity = .ok runtime) :
    ∃ hc hb hw, runtime = {
      interfaceName
      store := .empty frameCapacity hc
      statistics := .new nominalBitrate 1000000000 hb hw } := by
  unfold make FrameStore.make CanBusStatistics.make at h
  split_ifs at h with hc hb hw
  exact ⟨hc, hb, hw, (Except.ok.inj h).symm⟩

/-- A runtime that has just been constructed is stopped. -/
theorem stopped_of_make {interfaceName : String} {nominalBitrate : UInt32} {frameCapacity : ℕ} {runtime : CanRuntime}
    (h : make interfaceName nominalBitrate frameCapacity = .ok runtime) : runtime.Stopped := by
  obtain ⟨_, _, _, rfl⟩ := eq_of_make h
  exact ⟨rfl, rfl, rfl⟩

/-- What a stopped runtime is. -/
theorem Stopped.eq {runtime : CanRuntime} (h : runtime.Stopped) :
    ∃ interfaceName store statistics, runtime = ⟨interfaceName, store, statistics, ⟨none⟩, none, false⟩ := by
  obtain ⟨interfaceName, store, statistics, sender, receiver, running⟩ := runtime
  obtain ⟨hrunning, hsender, hreceiver⟩ := h
  obtain rfl : running = false := hrunning
  obtain rfl : sender = ⟨none⟩ := congrArg CanSender.mk hsender
  obtain rfl : receiver = none := hreceiver
  exact ⟨interfaceName, store, statistics, rfl⟩

/-- **The ways of `start`** when the runtime is stopped: it fails at some step, changes nothing and
keeps no descriptor; or the runtime holds two new ones. -/
theorem Stopped.start_cases {runtime : CanRuntime} (h : runtime.Stopped) (answers : StartAnswers) (sockets : Sockets) :
    (∃ message sockets', runtime.start answers sockets = (.error message, runtime, sockets') ∧
      ∀ held, sockets.ledger.Balanced held → sockets'.ledger.Balanced held) ∨
    ∃ sockets', runtime.start answers sockets = (.ok (), {
        runtime with
        sender := ⟨some sockets.socket.1⟩
        receiver := some {
          interfaceName := runtime.interfaceName
          hasStatistics := true
          running := true
          socketFd := some sockets.socket.2.socket.1
          thread := some .test }
        running := true }, sockets') ∧
      sockets'.ledger = sockets.socket.2.socket.2.ledger := by
  obtain ⟨interfaceName, store, statistics, rfl⟩ := h.eq
  unfold start CanSender.open CanSender.openSocket
  simp only [Bool.false_eq_true, if_false, Option.isSome_none]
  rcases bindSocket_cases interfaceName answers.sender sockets with ⟨message, sockets₁, heq, hreleased⟩ | heq
  · -- the sender has no socket
    rw [heq]
    exact .inl ⟨message, sockets₁, rfl, fun held => hreleased.balanced⟩
  · rw [heq]
    rcases @receiver_start_cases { interfaceName, hasStatistics := true } rfl rfl answers.receiver
      answers.thread sockets.socket.2 with ⟨message, sockets₂, heq, hreleased⟩ | ⟨sockets₂, heq, hledger⟩
    · -- the receiver does not start, and the sender's socket is closed
      dsimp only
      rw [heq]
      refine .inl ⟨message, sockets₂.close sockets.socket.1, rfl, fun held hheld => ?_⟩
      exact (hreleased.balanced hheld.issue).giveBack
    · dsimp only
      rw [heq]
      exact .inr ⟨sockets₂, rfl, hledger⟩

/-- **`start`** keeps the accounts. -/
theorem Accounted.start {runtime : CanRuntime} {sockets : Sockets} (h : Accounted runtime sockets)
    (answers : StartAnswers) : Accounted (runtime.start answers sockets).2.1 (runtime.start answers sockets).2.2 := by
  rcases h.state with hstopped | hstarted
  · have hbalanced : sockets.ledger.Balanced [] := hstopped.held ▸ h.balanced
    rcases hstopped.start_cases answers sockets with ⟨message, sockets', heq, hkeep⟩ | ⟨sockets', heq, hledger⟩
    · rw [heq]
      exact ⟨.inl hstopped, hkeep _ h.balanced⟩
    · rw [heq]
      refine ⟨.inr ⟨rfl, rfl, _, rfl, rfl⟩, ?_⟩
      exact hledger ▸ hbalanced.issue.issue.perm (.swap _ _ _)
  · have heq : runtime.start answers sockets = (.error "CAN runtime is already running", runtime, sockets) := by
      unfold CanRuntime.start
      rw [if_pos hstarted.running]
    rw [heq]
    exact h

theorem balanced_closeIfOpen {sockets : Sockets} {fd : Option ℕ} {held : List ℕ}
    (h : sockets.ledger.Balanced (fd.toList ++ held)) : (sockets.closeIfOpen fd).ledger.Balanced held := by
  cases fd with
  | none => exact h
  | some fd => exact h.giveBack

/-- A receiver that is dropped closes its socket, once. -/
theorem dropReceiver_eq (receiver : Option CanReceiver) (sockets : Sockets) :
    dropReceiver receiver sockets = sockets.closeIfOpen (receiver.bind (·.socketFd)) := by
  cases receiver <;> rfl

/-- **The second half of `stop`** closes what the runtime holds. -/
theorem finishStop_spec (runtime : CanRuntime) {sockets : Sockets} (h : sockets.ledger.Balanced runtime.held) :
    (runtime.finishStop sockets).1.Stopped ∧ (runtime.finishStop sockets).2.ledger.Balanced [] := by
  refine ⟨⟨rfl, rfl, rfl⟩, ?_⟩
  unfold finishStop CanSender.close
  rw [dropReceiver_eq]
  refine balanced_closeIfOpen (balanced_closeIfOpen ?_)
  rw [List.append_nil]
  exact h.perm List.perm_append_comm

theorem held_requestStop (runtime : CanRuntime) : runtime.requestStop.held = runtime.held := by
  unfold held requestStop
  cases runtime.receiver <;> rfl

/-- **`stop`** keeps the accounts. -/
theorem Accounted.stop {runtime : CanRuntime} {sockets : Sockets} (h : Accounted runtime sockets) :
    Accounted (runtime.stop sockets).1 (runtime.stop sockets).2 := by
  obtain ⟨hstopped, hbalanced⟩ := finishStop_spec runtime.requestStop (held_requestStop runtime ▸ h.balanced)
  exact ⟨.inl hstopped, hstopped.held.symm ▸ hbalanced⟩

/-- A stopped runtime is left as it is. -/
theorem Stopped.stop {runtime : CanRuntime} (h : runtime.Stopped) (sockets : Sockets) :
    runtime.stop sockets = (runtime, sockets) := by
  obtain ⟨interfaceName, store, statistics, rfl⟩ := h.eq
  rfl

/-- If every call succeeds, a stopped runtime starts. -/
theorem Stopped.start_ok {runtime : CanRuntime} (h : runtime.Stopped) (sockets : Sockets) :
    (runtime.start {} sockets).1 = .ok () := by
  obtain ⟨interfaceName, store, statistics, rfl⟩ := h.eq
  rfl

/-! ### Sequences of calls -/

/-- A call, with what the calls inside it answer. -/
inductive Call where
  | start (answers : StartAnswers)
  | stop

/-- What a call does. -/
def call (s : CanRuntime × Sockets) : Call → CanRuntime × Sockets
  | .start answers => (s.1.start answers s.2).2
  | .stop => s.1.stop s.2

/-- **Every call** keeps the accounts. -/
theorem Accounted.call {s : CanRuntime × Sockets} (h : Accounted s.1 s.2) (c : Call) :
    Accounted (CanRuntime.call s c).1 (CanRuntime.call s c).2 := by
  cases c with
  | start answers => exact h.start answers
  | stop => exact h.stop

theorem Accounted.calls {s : CanRuntime × Sockets} (h : Accounted s.1 s.2) (cs : List Call) :
    Accounted (cs.foldl CanRuntime.call s).1 (cs.foldl CanRuntime.call s).2 := by
  induction cs generalizing s with
  | nil => exact h
  | cons c cs ih => exact ih (h.call c)

/-- Every descriptor that `socket` returned was closed exactly once, and nothing else was closed. -/
def AllClosed (sockets : Sockets) : Prop :=
  ∀ fd, sockets.ledger.returned.count fd = if fd < sockets.ledger.issued then 1 else 0

theorem allClosed_of_balanced {sockets : Sockets} (h : sockets.ledger.Balanced []) : AllClosed sockets := by
  intro fd
  split_ifs with hfd
  · exact h.count_eq_one hfd
  · exact List.count_eq_zero_of_not_mem fun hmem => hfd (h.mem_returned.mp hmem)

/-- **Starts and stops account for every descriptor.** After any sequence of calls, whatever fails in
them: the runtime says that it is running exactly if both sockets are open; if it is not running,
every descriptor has been closed exactly once and there is no receiver; a start that fails then
changes nothing, keeps nothing open, and may be tried again; a start of a running runtime fails and
changes nothing; and stopping twice is stopping once. -/
theorem start_stop_accounts {interfaceName : String} {nominalBitrate : UInt32} {frameCapacity : ℕ} {new : CanRuntime}
    (hnew : make interfaceName nominalBitrate frameCapacity = .ok new) (cs : List Call) {runtime : CanRuntime}
    {sockets : Sockets} (h : cs.foldl call (new, {}) = (runtime, sockets)) :
    (runtime.running ↔
      runtime.sender.isOpen ∧ ∃ receiver, runtime.receiver = some receiver ∧ receiver.socketFd.isSome) ∧
    (runtime.running = false → AllClosed sockets ∧ runtime.receiver = none) ∧
    (runtime.running = false → ∀ answers message runtime' sockets',
      runtime.start answers sockets = (.error message, runtime', sockets') →
        runtime' = runtime ∧ AllClosed sockets' ∧ (runtime'.start {} sockets').1 = .ok ()) ∧
    (runtime.running → ∀ answers,
      runtime.start answers sockets = (.error "CAN runtime is already running", runtime, sockets)) ∧
    (runtime.stop sockets).1.stop (runtime.stop sockets).2 = runtime.stop sockets := by
  have hstopped := stopped_of_make hnew
  have haccounted : Accounted runtime sockets := by
    have hcalls := Accounted.calls (s := (new, {})) ⟨.inl hstopped, hstopped.held.symm ▸ Ledger.balanced_new⟩ cs
    rw [h] at hcalls
    exact hcalls
  have hstop : ∀ answers, runtime.running → runtime.start answers sockets =
      (.error "CAN runtime is already running", runtime, sockets) := by
    intro answers hrunning
    unfold start
    rw [if_pos hrunning]
  have hagain : (runtime.stop sockets).1.stop (runtime.stop sockets).2 = runtime.stop sockets := by
    have hdone := (finishStop_spec runtime.requestStop (held_requestStop runtime ▸ haccounted.balanced)).1
    exact hdone.stop _
  rcases haccounted.state with hstopped | hstarted
  · have hbalanced : sockets.ledger.Balanced [] := hstopped.held ▸ haccounted.balanced
    refine ⟨?_, fun _ => ⟨allClosed_of_balanced hbalanced, hstopped.receiver⟩, ?_, fun hr a => hstop a hr, hagain⟩
    · simp [hstopped.running, hstopped.receiver]
    · intro _ answers message runtime' sockets' hstart
      rcases hstopped.start_cases answers sockets with ⟨message', sockets₁, heq, hkeep⟩ | ⟨sockets₁, heq, -⟩
      · rw [heq] at hstart
        obtain ⟨rfl, rfl⟩ := Prod.mk.inj (Prod.mk.inj hstart).2
        exact ⟨rfl, allClosed_of_balanced (hkeep _ hbalanced), hstopped.start_ok _⟩
      · rw [heq] at hstart
        cases (Prod.mk.inj hstart).1
  · have hrunning := hstarted.running
    refine ⟨⟨fun _ => ⟨hstarted.sender, hstarted.receiver⟩, fun _ => hrunning⟩, ?_, ?_, fun hr a => hstop a hr, hagain⟩
    · intro hfalse
      rw [hrunning] at hfalse
      cases hfalse
    · intro hfalse
      rw [hrunning] at hfalse
      cases hfalse

/-- A start that fails when the receiver binds its socket, and a second start that succeeds: two of the four
descriptors have been closed. -/
theorem start_stop_accounts_retry :
    ∃ new runtime sockets, make "vcan0" 500000 16 = .ok new ∧
      [.start { receiver := { bind := .error "No such device" } }, .start {}].foldl call (new, {}) =
        (runtime, sockets) ∧
      sockets.ledger = { issued := 4, returned := [1, 0] } ∧ runtime.running = true ∧
      runtime.sender.isOpen ∧ ∃ receiver, runtime.receiver = some receiver ∧ receiver.socketFd.isSome := by
  have hnew : make "vcan0" 500000 16 = .ok _ := rfl
  refine ⟨_, _, _, hnew, rfl, rfl, rfl, ?_⟩
  exact (start_stop_accounts hnew [.start { receiver := { bind := .error "No such device" } }, .start {}] rfl).1.mp rfl

end CanRuntime
end CanMonitor.Can
