import CanMonitor.Service.System
import Mathlib.Data.List.Forall2

/-!
# Sending

A client sends a frame by posting its description. The answer `"sent":true` says that the frame
is on the bus: `bus_confirmed` shows that in any run, with any number of clients, the frames on
the bus are those described by the requests that were answered so, one for each, in the order in
which they were handled, and that nothing else is put on the bus.
-/

namespace CanMonitor.Service

open CanMonitor.Library CanMonitor.Can CanMonitor.Http

/-- The body that confirms that a frame was sent. -/
def sentBody : Bytes := 123 :: bytes "\"sent\":true" ++ [125]

/-- The frame on the bus is the one that the body of a request was taken for. -/
def Carries (req : HttpRequest) (kernelFrame : KernelFrame) : Prop :=
  ∃ id isExtended data, Connection.parseSendBody req.body = some (id, isExtended, data) ∧
    ∀ timestampNs, ∃ frame, decode kernelFrame timestampNs = some frame ∧ frame.id = id ∧
      frame.isExtended = isExtended ∧ frame.dlc.toNat = data.length ∧
      frame.data.toList = data ++ List.replicate (kMaxDataLength - data.length) 0

/-! ### One frame -/

/-- Whether `sendRaw` succeeds with these arguments. -/
def succeeds (sender : CanSender) (write : KernelFrame → Except String ℕ) (id : UInt32) (isExtended : Bool)
    (data : List UInt8) : Bool :=
  (sender.sendRaw id isExtended (if data.isEmpty then none else some data) (UInt8.ofNat data.length) write).2.isOk

/-- What `sendFrame` checks. -/
def Allowed (sender : CanSender) (id : UInt32) (isExtended : Bool) (data : List UInt8) : Prop :=
  id ≤ idMask isExtended ∧ data.length ≤ kMaxDataLength ∧ sender.isOpen = true

theorem sendFrame_refused {sender : CanSender} {id : UInt32} {isExtended : Bool} {data : List UInt8}
    (h : ¬ Allowed sender id isExtended data) (write : KernelFrame → Except String ℕ) :
    ∃ message, sendFrame sender id isExtended data write = (none, .error message) := by
  have hmaximum : (if isExtended then 0x1FFFFFFF else 0x7FF : UInt32) = idMask isExtended := rfl
  unfold sendFrame
  dsimp only
  rw [hmaximum]
  by_cases hid : idMask isExtended < id
  · exact ⟨_, if_pos hid⟩
  rw [if_neg hid]
  by_cases hdata : kMaxDataLength < data.length
  · exact ⟨_, if_pos hdata⟩
  rw [if_neg hdata]
  by_cases hopen : sender.isOpen = true
  · exact absurd ⟨UInt32.not_lt.mp hid, Nat.not_lt.mp hdata, hopen⟩ h
  · exact ⟨_, if_pos (by simpa using hopen)⟩

theorem sendFrame_allowed {sender : CanSender} {id : UInt32} {isExtended : Bool} {data : List UInt8}
    (h : Allowed sender id isExtended data) (write : KernelFrame → Except String ℕ) :
    sendFrame sender id isExtended data write =
      sender.sendRaw id isExtended (if data.isEmpty then none else some data) (UInt8.ofNat data.length) write := by
  have hmaximum : (if isExtended then 0x1FFFFFFF else 0x7FF : UInt32) = idMask isExtended := rfl
  obtain ⟨hid, hdata, hopen⟩ := h
  unfold sendFrame
  dsimp only
  rw [hmaximum, if_neg (UInt32.not_lt.mpr hid), if_neg (Nat.not_lt.mpr hdata), if_neg (by simp [hopen])]

/-- What a connection is told by `sendFrame` is what it answers. -/
theorem sendFrame_eq (sender : CanSender) (write : KernelFrame → Except String ℕ) (store : FrameStore)
    (busStats : Connection.CanBusStatisticsSnapshot) (id : UInt32) (isExtended : Bool) (data : List UInt8) :
    Connection.CanRuntime.sendFrame ⟨store, busStats, sender.isOpen, succeeds sender write⟩ id isExtended data =
      (sendFrame sender id isExtended data write).2.isOk := by
  have hrange : (if isExtended then Connection.kMaxId else 0x7FF) < id.toNat ↔ ¬ id ≤ idMask isExtended := by
    rw [UInt32.not_le, UInt32.lt_iff_toNat_lt]
    cases isExtended <;> rfl
  unfold Connection.CanRuntime.sendFrame
  by_cases h : Allowed sender id isExtended data
  · rw [if_neg (fun hid => hrange.mp hid h.1), if_neg (Nat.not_lt.mpr h.2.1), if_neg (by simp [h.2.2]),
      sendFrame_allowed h]
    rfl
  · obtain ⟨message, heq⟩ := sendFrame_refused h write
    rw [heq]
    have hfalse : (Except.error message : Except String Unit).isOk = false := rfl
    rw [hfalse]
    by_cases hid : id ≤ idMask isExtended
    · rw [if_neg fun hid' => hrange.mp hid' hid]
      by_cases hdata : data.length ≤ kMaxDataLength
      · rw [if_neg (Nat.not_lt.mpr hdata)]
        have hopen : sender.isOpen = false := by
          by_contra hopen
          exact h ⟨hid, hdata, by simpa using hopen⟩
        rw [hopen]
        rfl
      · rw [if_pos (Nat.lt_of_not_le hdata)]
    · rw [if_pos (hrange.mpr hid)]

/-- **A frame that is reported as sent** is on the bus, and is the one that was asked for; a
frame that is not is not on the bus. -/
theorem transmitted_cases (sender : CanSender) (write : KernelFrame → Except String ℕ) (id : UInt32) (isExtended : Bool)
    (data : List UInt8) :
    ((sendFrame sender id isExtended data write).2.isOk = true ∧ Allowed sender id isExtended data ∧
        transmitted sender id isExtended data write = some (requested id isExtended data).encode) ∨
      (sendFrame sender id isExtended data write).2.isOk = false ∧
        transmitted sender id isExtended data write = none := by
  by_cases h : Allowed sender id isExtended data
  · have hfst := sendFrame_fst h.2.2 id isExtended data write
    rw [if_pos ⟨h.1, h.2.1⟩] at hfst
    unfold transmitted
    rcases hsend : sendFrame sender id isExtended data write with ⟨kernelFrame, message | ⟨⟩⟩
    · exact .inr ⟨rfl, rfl⟩
    · rw [hsend] at hfst
      exact .inl ⟨rfl, h, hfst⟩
  · obtain ⟨message, heq⟩ := sendFrame_refused h write
    rw [transmitted, heq]
    exact .inr ⟨rfl, rfl⟩

/-- The frame asked for is received as it was described. -/
theorem requested_received {sender : CanSender} {id : UInt32} {isExtended : Bool} {data : List UInt8}
    (h : Allowed sender id isExtended data) (timestampNs : UInt64) :
    ∃ frame, decode (requested id isExtended data).encode timestampNs = some frame ∧ frame.id = id ∧
      frame.isExtended = isExtended ∧ frame.dlc.toNat = data.length ∧
      frame.data.toList = data ++ List.replicate (kMaxDataLength - data.length) 0 := by
  refine ⟨_, decode_encode (requested_wellFormed h.1 h.2.1) timestampNs, rfl, rfl, ?_, toList_copyN h.2.1⟩
  exact UInt8.toNat_ofNat_of_lt' (Nat.lt_of_le_of_lt h.2.1 (by decide))

/-! ### One request -/

/-- A request to send a frame is answered with `"sent":true` exactly if the frame is on the bus. -/
theorem sendResponse_cases (sender : CanSender) (write : KernelFrame → Except String ℕ) (store : FrameStore)
    (busStats : Connection.CanBusStatisticsSnapshot) {req : HttpRequest} (hsend : IsSend req) :
    ((Connection.sendResponse req.body (some ⟨store, busStats, sender.isOpen, succeeds sender write⟩)).body = sentBody ∧
        ∃ kernelFrame, sentFor sender req write = some kernelFrame ∧ Carries req kernelFrame) ∨
      (Connection.sendResponse req.body (some ⟨store, busStats, sender.isOpen, succeeds sender write⟩)).body ≠ sentBody ∧
        sentFor sender req write = none := by
  have hrefused : (Connection.jsonResponse 400 (Connection.errorBody (bytes "body must contain id and data[]"))).body ≠
      sentBody := by decide +kernel
  have hfailed : (Connection.jsonResponse 500 (Connection.errorBody (bytes "CAN send failed"))).body ≠ sentBody := by
    decide +kernel
  unfold Connection.sendResponse sentFor
  dsimp only
  rw [if_pos hsend]
  cases hbody : Connection.parseSendBody req.body with
  | none => exact .inr ⟨hrefused, rfl⟩
  | some described =>
    obtain ⟨id, isExtended, data⟩ := described
    dsimp only
    rw [Option.bind_some, sendFrame_eq]
    rcases transmitted_cases sender write id isExtended data with ⟨hok, hallowed, hframe⟩ | ⟨hok, hnone⟩
    · left
      rw [hok, hframe]
      exact ⟨rfl, _, rfl, id, isExtended, data, hbody, requested_received hallowed⟩
    · right
      rw [hok, hnone]
      exact ⟨hfailed, rfl⟩

/-! ### Runs -/

section

variable {ι : Type} [DecidableEq ι]

/-- The request that a step answers with `"sent":true`. -/
def confirmed (s : State ι) : Act ι → List HttpRequest
  | .parse i answers =>
    match acceptedRequest (s.connections i) with
    | none => []
    | some req =>
      if IsSend req ∧ (Connection.filledIn req ((s.connection i).environment (s.surroundings answers))).map (·.body) =
        some sentBody then [req] else []
  | _ => []

/-- The bus carries what was confirmed, and every connection has the runtime. -/
structure Confirmed (s : State ι) (reqs : List HttpRequest) : Prop where
  bus : List.Forall₂ Carries reqs s.bus
  hasRuntime : ∀ i, (s.connections i).hasRuntime = true

omit [DecidableEq ι] in
theorem Confirmed.of_eq {s s' : State ι} {reqs : List HttpRequest} (h : Confirmed s reqs) (hbus : s'.bus = s.bus)
    (hruntime : ∀ i, (s'.connections i).hasRuntime = true) : Confirmed s' (reqs ++ []) := by
  rw [List.append_nil]
  exact ⟨hbus.symm ▸ h.bus, hruntime⟩

/-- A connection's step leaves every connection with the runtime. -/
theorem hasRuntime_update {s : State ι} (h : ∀ i, (s.connections i).hasRuntime = true) {j : ι} {a : Connection.Act}
    {c : Connection.State} (hc : Connection.step (s.connection j) a = some c) (i : ι) :
    (Function.update s.connections j c i).hasRuntime = true := by
  by_cases hij : i = j
  · rw [hij, Function.update_self, Connection.hasRuntime_of_step hc]
    exact h j
  · rw [Function.update_of_ne hij]
    exact h i

/-- **Every step** puts on the bus what it confirms, and nothing else. -/
theorem Confirmed.step {s s' : State ι} {reqs : List HttpRequest} {a : Act ι} (h : Confirmed s reqs)
    (hs : Service.step s a = some s') : Confirmed s' (reqs ++ confirmed s a) := by
  cases a with
  | runtime action =>
    obtain ⟨m, -, rfl⟩ := Option.map_eq_some_iff.mp hs
    exact h.of_eq rfl h.hasRuntime
  | connection j a =>
    obtain ⟨-, hs⟩ := Option.ite_none_right_eq_some.mp hs
    obtain ⟨c, hc, rfl⟩ := Option.map_eq_some_iff.mp hs
    exact h.of_eq rfl (hasRuntime_update h.hasRuntime hc)
  | parse j answers =>
    obtain ⟨c, hc, rfl⟩ := Option.map_eq_some_iff.mp hs
    have hruntime := hasRuntime_update h.hasRuntime hc
    cases hreq : acceptedRequest (s.connections j) with
    | none =>
      have hnone : confirmed s (.parse j answers) = [] := by simp only [confirmed, hreq]
      rw [hnone]
      exact h.of_eq (List.append_nil s.bus) hruntime
    | some req =>
      simp only [confirmed, hreq]
      by_cases hsend : IsSend req
      · have hfilled : Connection.filledIn req ((s.connection j).environment (s.surroundings answers)) =
            some (Connection.sendResponse req.body (some ⟨s.monitoring.runtime.store,
              (s.surroundings answers).busStats, s.monitoring.runtime.sender.isOpen,
              succeeds s.monitoring.runtime.sender answers.write⟩)) := by
          have henv : ((s.connection j).environment (s.surroundings answers)).canRuntime = some
              ⟨s.monitoring.runtime.store, (s.surroundings answers).busStats, s.monitoring.runtime.sender.isOpen,
                succeeds s.monitoring.runtime.sender answers.write⟩ := if_pos (h.hasRuntime j)
          simp only [Connection.filledIn, hsend.1, hsend.2, henv, true_and, reduceCtorEq, false_and, if_false, if_true]
        rw [hfilled, Option.map_some]
        rcases sendResponse_cases s.monitoring.runtime.sender answers.write s.monitoring.runtime.store
          (s.surroundings answers).busStats hsend with ⟨hbody, kernelFrame, hframe, hcarries⟩ | ⟨hbody, hnone⟩
        · rw [if_pos ⟨hsend, congrArg some hbody⟩]
          refine ⟨?_, hruntime⟩
          dsimp only
          rw [Option.bind_some, hframe]
          exact List.rel_append h.bus (.cons hcarries .nil)
        · rw [if_neg fun hboth => hbody (Option.some.inj hboth.2)]
          refine h.of_eq ?_ hruntime
          dsimp only
          rw [Option.bind_some, hnone]
          exact List.append_nil s.bus
      · rw [if_neg fun hboth => hsend hboth.1]
        refine h.of_eq ?_ hruntime
        dsimp only
        rw [Option.bind_some, sentFor, if_neg hsend]
        exact List.append_nil s.bus

/-- **The bus carries what was confirmed.** In any run, with any number of clients and whatever
`write` answers, the frames on the bus correspond, one by one and in order, to the requests
that were answered with `"sent":true`: each is received as a frame with the identifier, the
kind and the data that the body of the request was taken for. -/
theorem bus_confirmed (new : CanRuntime) {as : List (Act ι)} {t : State ι} (h : run step (.start ι new) as = some t) :
    List.Forall₂ Carries (emitted confirmed step (.start ι new) as) t.bus := by
  have hconfirmed : Confirmed t (emitted confirmed step (.start ι new) as) := by
    refine run_history (I := fun as t => Confirmed t (emitted confirmed step (.start ι new) as)) ⟨.nil, fun _ => rfl⟩
      (fun as t a t' ht hI hs => ?_) h
    rw [emitted_concat ht]
    exact hI.step hs
  exact hconfirmed.bus

end

/-- A request to send a frame. -/
def postedFrame : Bytes :=
  bytes "POST /api/can/send HTTP/1.1\r\nContent-Length: 29\r\n\r\n" ++ 123 :: bytes "\"id\":\"0x123\",\"data\":[17,34]" ++ [125]

/-- A client makes the request of `postedFrame` twice; the sender is opened in between. -/
def postedTwice : List (Act Unit) :=
  let post : List (Act Unit) := [.connection () .lockRead, .connection () (.recv postedFrame), .connection () .drained,
    .parse () plainAnswers, .connection () .respond, .connection () (.lookup .reader), .connection () (.modify .reader),
    .parse () plainAnswers]
  post ++ [.runtime (.start {})] ++ post

theorem bus_confirmed_once : ∃ new t, run step (.start Unit new) postedTwice = some t ∧ t.bus.length = 1 ∧
    List.Forall₂ Carries (emitted confirmed step (.start Unit new) postedTwice) t.bus := by
  have hrun : (run step (.start Unit ⟨"vcan0", .empty 8 (by decide), .new 500000 1000000000 (by decide) (by decide), {},
      none, false⟩) postedTwice).map (·.bus.length) = some 1 := by decide +kernel
  obtain ⟨t, ht, hlength⟩ := Option.map_eq_some_iff.mp hrun
  exact ⟨_, t, ht, hlength, bus_confirmed _ ht⟩

end CanMonitor.Service
