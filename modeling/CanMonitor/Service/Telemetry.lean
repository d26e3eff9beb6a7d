import CanMonitor.Connection.Encoding
import CanMonitor.Connection.Parameters
import CanMonitor.Service.System
import CanMonitor.Connection.Listening

/-!
# Telemetry

Frames come to the clients in two ways: events on a stream and answers to polls, on any number
of connections, from pumps and handlers that each saw the store at a time of their own.

`Sees` is what a client can learn of a frame on its connection. `clients_agree` says that
whatever is seen is a frame that the receive thread accepted, under the number of its place
among them, so that no two clients, on whatever connections and in whichever way, are told
different things of one number.
-/

namespace CanMonitor.Service

open CanMonitor.Library CanMonitor.Can CanMonitor.Can.FrameStore CanMonitor.Http CanMonitor.Connection

/-! ### What a connection has of the log -/

/-- What a connection has queued and is about to queue are frames of the log, numbered. -/
structure Genuine (c : Connection.State) : Prop where
  holds : c.store.Holds c.appended
  queued : ∀ d ∈ frames (c.queued.map Prod.fst), d.1 ∈ stamp c.appended
  pumping : ∀ rest seen appended, c.pump = .sending rest seen appended → ∀ f ∈ rest, f ∈ stamp c.appended

theorem genuine_start (capacity : ℕ) (hc : 0 < capacity) (hasRuntime : Bool) :
    Genuine (.start capacity hc hasRuntime) :=
  ⟨holds_empty capacity hc, fun _ hd => absurd hd List.not_mem_nil, nofun⟩

/-- **Every step** leaves what is queued frames of the log. -/
theorem Genuine.step (c : Connection.State) (a : Connection.Act) (c' : Connection.State) (h : Genuine c)
    (hs : Connection.step c a = some c') : Genuine c' := by
  have hmono : ∀ f ∈ stamp c.appended, f ∈ stamp c'.appended := fun f hf =>
    (stamp_mono (appended_of_step hs)).subset hf
  obtain ⟨hqueued, hpump⟩ := takes_of_step hs
  refine ⟨holds_of_step c a c' h.holds hs, fun d hd => ?_, fun rest seen appended hp f hf => ?_⟩
  · rcases hqueued with hsame | ⟨item, n, hmore, hnext⟩
    · rw [hsame] at hd
      exact hmono _ (h.queued d hd)
    · rw [hmore, frames_concat] at hd
      rcases List.mem_append.mp hd with hd | hd
      · exact hmono _ (h.queued d hd)
      · obtain ⟨rest, appended, hp⟩ := hnext d hd
        exact hmono _ (h.pumping _ _ _ hp d.1 List.mem_cons_self)
  · rcases hpump rest seen appended hp with ⟨before, appended', hp'⟩ | ⟨rfl, -⟩
    · exact hmono _ (h.pumping _ _ _ hp' f (List.mem_append_right before hf))
    · rw [queryAfter_eq_fetch] at hf
      exact hmono _ (h.holds.mem_stamp (mem_of_mem_fetch hf).1)

/-! ### What handlers found -/

theorem turns_eq (c : Connection.State) (as : List Connection.Act) :
    turns c as = emitted (fun c a => (turn c a).toList) Connection.step c as := by
  induction as generalizing c with
  | nil => rfl
  | cons a as ih =>
    rw [turns, emitted]
    cases Connection.step c a with
    | none => rfl
    | some c' => exact congrArg _ (ih c')

/-- Every handler found the store of a beginning of the log. -/
theorem store_of_turn {capacity : ℕ} {hc : 0 < capacity} {hasRuntime : Bool} {as : List Connection.Act}
    {c : Connection.State} (h : run Connection.step (.start capacity hc hasRuntime) as = some c) {req : HttpRequest}
    {env : Environment} (hturn : .accepted req env ∈ turns (.start capacity hc hasRuntime) as)
    {runtime : Connection.CanRuntime} (hruntime : env.canRuntime = some runtime) :
    ∃ log, log <+: c.appended ∧ runtime.store.Holds log := by
  rw [turns_eq] at hturn
  refine run_history (I := fun as c => .accepted req env ∈ emitted (fun c a => (turn c a).toList) Connection.step
    (.start capacity hc hasRuntime) as → ∃ log, log <+: c.appended ∧ runtime.store.Holds log) nofun
    (fun as c a c' hc hI hs hturn => ?_) h hturn
  rw [emitted_concat hc] at hturn
  rcases List.mem_append.mp hturn with hturn | hturn
  · obtain ⟨log, hlog, hstore⟩ := hI hturn
    exact ⟨log, hlog.trans (appended_of_step hs), hstore⟩
  · have hholds : c.store.Holds c.appended :=
      run_invariant (I := fun c => c.store.Holds c.appended) holds_of_step (holds_empty capacity _) hc
    refine ⟨c.appended, appended_of_step hs, ?_⟩
    cases a with
    | parse around =>
      rw [Option.mem_toList] at hturn
      simp only [turn] at hturn
      split at hturn <;> cases hturn
      simp only [State.environment] at hruntime
      split_ifs at hruntime
      cases hruntime
      exact hholds
    | _ => cases hturn

/-! ### What clients see -/

/-- What a client can learn of a frame on a connection. -/
inductive Sees (c : Connection.State) (ts : List Turn) : FrameFields → Prop where
  /-- There is an event for it. -/
  | streamed {frame : CanFrame} {store : FrameStore} (h : (frame, store) ∈ frames (c.queued.map Prod.fst)) :
      Sees c ts (fields frame)
  /-- It is in the document that a poll is answered with. -/
  | polled {req : HttpRequest} {env : Environment} {resp : HttpResponse} {d : Json.Document} {listed : List FrameFields}
      {f : FrameFields} (hturn : .accepted req env ∈ ts) (hget : req.method = .get)
      (hroute : pathWithoutQuery req.path = bytes "/api/can/frames") (hfilled : filledIn req env = some resp)
      (hstatus : resp.statusCode = 200) (hbody : d.text = resp.body) (hlisted : decodeFrames d.value = some listed)
      (h : f ∈ listed) : Sees c ts f

/-- The frames that a poll lists are in the store. -/
theorem listed_of_framesResponse {path : Bytes} {canRuntime : Option Connection.CanRuntime}
    (hstatus : (framesResponse path canRuntime).statusCode = 200)
    (hdlc : ∀ runtime, canRuntime = some runtime → ∀ frame ∈ runtime.store.frames, frame.dlc.toNat ≤ kMaxDataLength)
    {d : Json.Document} (hbody : d.text = (framesResponse path canRuntime).body) {listed : List FrameFields}
    (hlisted : decodeFrames d.value = some listed) :
    ∃ runtime, canRuntime = some runtime ∧ ∀ f ∈ listed, ∃ frame ∈ runtime.store.frames, f = fields frame := by
  cases canRuntime with
  | none => cases hstatus
  | some runtime =>
    refine ⟨runtime, rfl, fun f hf => ?_⟩
    rcases framesResponse_cases path runtime with ⟨-, after, limit, id, -, -, -, heq⟩ | ⟨-, error, heq⟩
    · rw [heq] at hbody
      have hmem : ∀ frame ∈ runtime.store.queryAfter (UInt64.ofNat after) (id.map UInt32.ofNat) limit,
          frame ∈ runtime.store.frames := fun frame hframe => by
        rw [queryAfter_eq_fetch] at hframe
        exact (mem_of_mem_fetch hframe).1
      obtain rfl := Json.Document.text_injective (hbody.trans (framesDocument_text _).symm)
      rw [decodeFrames_framesDocument fun frame hframe => hdlc runtime rfl frame (hmem frame hframe)] at hlisted
      obtain rfl := Option.some.inj hlisted
      obtain ⟨frame, hframe, rfl⟩ := List.mem_map.mp hf
      exact ⟨frame, hmem frame hframe, rfl⟩
    · rw [heq] at hstatus
      cases hstatus

/-- What is seen on a connection is in its log. -/
theorem Sees.mem_stamp {capacity : ℕ} {hc : 0 < capacity} {hasRuntime : Bool} {as : List Connection.Act}
    {c : Connection.State} (h : run Connection.step (.start capacity hc hasRuntime) as = some c)
    (hdlc : ∀ frame ∈ c.appended, frame.dlc.toNat ≤ kMaxDataLength) {f : FrameFields}
    (hsees : Sees c (turns (.start capacity hc hasRuntime) as) f) : ∃ frame ∈ stamp c.appended, f = fields frame := by
  have hgenuine : Genuine c := run_invariant Genuine.step (genuine_start capacity hc hasRuntime) h
  cases hsees with
  | streamed hframe => exact ⟨_, hgenuine.queued _ hframe, rfl⟩
  | @polled req env resp d listed _ hturn hget hroute hfilled hstatus hbody hlisted hf =>
    have hresp : resp = framesResponse req.path env.canRuntime := by
      simp only [filledIn, hget, hroute, true_and, if_true] at hfilled
      exact (Option.some.inj hfilled).symm
    have hstored : ∀ runtime, env.canRuntime = some runtime → ∀ frame ∈ runtime.store.frames,
        frame ∈ stamp c.appended := fun runtime hruntime frame hframe => by
      obtain ⟨log, hlog, hstore⟩ := store_of_turn h hturn hruntime
      exact (stamp_mono hlog).subset (hstore.mem_stamp hframe)
    rw [hresp] at hstatus hbody
    obtain ⟨runtime, hruntime, hall⟩ := listed_of_framesResponse hstatus (fun runtime hruntime frame hframe => by
      obtain ⟨i, hi, rfl⟩ := List.mem_mapIdx.mp (hstored runtime hruntime frame hframe)
      exact hdlc c.appended[i] (List.getElem_mem hi)) hbody hlisted
    obtain ⟨frame, hframe, rfl⟩ := hall f hf
    exact ⟨frame, hstored runtime hruntime frame hframe, rfl⟩

/-! ### Agreement -/

section

variable {ι : Type} [DecidableEq ι] {interfaceName : String} {nominalBitrate : UInt32} {frameCapacity : ℕ}
  {new : Can.CanRuntime}

/-- The turns of a connection in a run of the service. -/
def turnsOf (i : ι) (s : State ι) (as : List (Act ι)) : List Turn := turns (s.connection i) (seen i s as)

/-- What is seen on any connection is a frame accepted, under the number of its place. -/
theorem sees_received (hnew : Can.CanRuntime.make interfaceName nominalBitrate frameCapacity = .ok new)
    {as : List (Act ι)} {t : State ι} (h : run step (.start ι new) as = some t) {i : ι} {f : FrameFields}
    (hsees : Sees (t.connection i) (turnsOf i (.start ι new) as) f) :
    ∃ frame ∈ stamp (received as), f = fields frame := by
  obtain ⟨happended, hwellFormed⟩ := appended_received hnew h
  obtain ⟨hc, hstart⟩ := connection_start i hnew
  have hrun := connection_of_run i h
  rw [hstart] at hrun
  rw [turnsOf, hstart] at hsees
  obtain ⟨frame, hframe, rfl⟩ := hsees.mem_stamp hrun fun frame hframe =>
    (hwellFormed frame (happended.subset hframe)).dlc
  exact ⟨frame, (stamp_mono happended).subset hframe, rfl⟩

/-- **Clients agree.** Whatever a client sees, in an event or in the answer to a poll, on
whichever of the connections, is a frame that the receive thread accepted, numbered by its
place among those; so as long as fewer than `2^64` have been accepted, two clients that see
one number see one frame. -/
theorem clients_agree (hnew : Can.CanRuntime.make interfaceName nominalBitrate frameCapacity = .ok new)
    {as : List (Act ι)} {t : State ι} (h : run step (.start ι new) as = some t) :
    (∀ i f, Sees (t.connection i) (turnsOf i (.start ι new) as) f → ∃ (n : ℕ) (frame : CanFrame),
      (received as)[n]? = some frame ∧ f = fields { frame with sequence := UInt64.ofNat (n + 1) }) ∧
    ((received as).length < 2 ^ 64 → ∀ i j f g, Sees (t.connection i) (turnsOf i (.start ι new) as) f →
      Sees (t.connection j) (turnsOf j (.start ι new) as) g → f.sequence = g.sequence → f = g) := by
  constructor
  · intro i f hsees
    obtain ⟨frame, hframe, rfl⟩ := sees_received hnew h hsees
    obtain ⟨n, hn, rfl⟩ := List.mem_mapIdx.mp hframe
    exact ⟨n, _, List.getElem?_eq_getElem hn, rfl⟩
  · intro hfew i j f g hf hg hseq
    obtain ⟨frame, hframe, rfl⟩ := sees_received hnew h hf
    obtain ⟨frame', hframe', rfl⟩ := sees_received hnew h hg
    rw [eq_of_sequence_eq hfew hframe hframe' (UInt64.toNat_inj.mp (Int.ofNat_inj.mp hseq))]

end

/-- A request for the frames in the store. -/
def framesRequest : Bytes := bytes "GET /api/can/frames HTTP/1.1\r\n\r\n"

/-- One client has a stream, and is sent the frame that the receive thread stores; the other asks for it. -/
def twoClients : List (Act Bool) :=
  [.runtime (.start {}), .connection true .lockRead, .connection true (.recv streamRequest), .connection true .drained,
    .parse true plainAnswers, .connection true (.startSse 0)] ++
  (readTurn { canId := 0x123, canDlc := 2 } 7 ++ [ReceiveAction.record, .append]).map (.runtime <| .receive ·) ++
  [.connection true .query, .connection false .lockRead, .connection false (.recv framesRequest),
    .connection false .drained, .connection true .sendFrame, .parse false plainAnswers]

theorem clients_agree_two : ∃ new t, Can.CanRuntime.make "vcan0" 500000 8 = .ok new ∧
    run step (.start Bool new) twoClients = some t ∧
      ∀ i j f g, Sees (t.connection i) (turnsOf i (.start Bool new) twoClients) f →
        Sees (t.connection j) (turnsOf j (.start Bool new) twoClients) g → f.sequence = g.sequence → f = g := by
  have hnew : Can.CanRuntime.make "vcan0" 500000 8 =
      .ok ⟨"vcan0", .empty 8 (by decide), .new 500000 1000000000 (by decide) (by decide), {}, none, false⟩ := rfl
  have hrun : (run step (.start Bool ⟨"vcan0", .empty 8 (by decide), .new 500000 1000000000 (by decide) (by decide), {},
      none, false⟩) twoClients).map (fun t => (t.connection true).queued.length) = some 2 := by decide +kernel
  obtain ⟨t, ht, -⟩ := Option.map_eq_some_iff.mp hrun
  exact ⟨_, t, hnew, ht, (clients_agree hnew ht).2 (by decide)⟩

end CanMonitor.Service
