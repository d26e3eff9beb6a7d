import CanMonitor.Connection.Delivery
import CanMonitor.Connection.Wire

/-!
# A client that listens

`sse_delivers` is about runs in which the parse loop finds no request on a connection that has
a stream. A client brings that about: it writes one well-formed request for a stream, and then
nothing. `phase_run` follows such a connection from its beginning: nothing is queued before the
request is found, then the stream is started, and from then on it delivers (`Delivering`).

That no second request is found is a fact about the whole run, not about a step:
`Served.events_le` bounds what `handleRead` has made of what it was sent, however it was cut.
-/

namespace CanMonitor.Connection

open CanMonitor.Library CanMonitor.Can CanMonitor.Can.FrameStore CanMonitor.Http

/-! ### What a step takes from the store -/

/-- What a step queues, and what it takes from the store. -/
structure Takes (c c' : State) : Prop where
  /-- A frame that is queued is the next of the pump. -/
  queued : c'.queued = c.queued ∨ ∃ item n, c'.queued = c.queued ++ [(item, n)] ∧
    ∀ d ∈ frames [item], ∃ rest appended, c.pump = .sending (d.1 :: rest) d.2 appended
  /-- What the pump has to queue it had before, or has it from the store. -/
  pump : ∀ rest seen appended, c'.pump = .sending rest seen appended →
    (∃ before appended, c.pump = .sending (before ++ rest) seen appended) ∨
      rest = c.store.queryAfter c.sseAfterSequence none 100 ∧ seen = c.store

/-- Steps that queue nothing and leave the pump as it is. -/
theorem Takes.of_eq {c c' : State} (hqueued : c'.queued = c.queued) (hpump : c'.pump = c.pump) : Takes c c' :=
  ⟨.inl hqueued, fun _ _ _ hp => .inl ⟨[], _, hpump.symm.trans hp⟩⟩

/-- Steps that queue nothing and after which the pump has nothing to queue. -/
theorem Takes.of_idle {c c' : State} (hqueued : c'.queued = c.queued)
    (hpump : ∀ rest seen appended, c'.pump ≠ .sending rest seen appended) : Takes c c' :=
  ⟨.inl hqueued, fun rest seen appended hp => absurd hp (hpump rest seen appended)⟩

/-- Steps that queue something other than a frame. -/
theorem Takes.of_item {c c' : State} (item : Item) {n : ℕ} (hqueued : c'.queued = c.queued ++ [(item, n)])
    (hitem : frames [item] = []) (hpump : c'.pump = c.pump ∨ ∀ rest seen appended, c'.pump ≠ .sending rest seen appended) :
    Takes c c' := by
  refine ⟨.inr ⟨item, n, hqueued, fun d hd => ?_⟩, fun rest seen appended hp => ?_⟩
  · rw [hitem] at hd
    cases hd
  · rcases hpump with hsame | hidle
    · exact .inl ⟨[], _, hsame.symm.trans hp⟩
    · exact absurd hp (hidle rest seen appended)

/-- **What each step takes.** -/
theorem takes_of_step {c c' : State} {a : Act} (h : step c a = some c') : Takes c c' := by
  cases trans_of_step h with
  | bad => exact .of_item (.response badRequest) rfl rfl (.inl rfl)
  | respond response => exact .of_item (.response response) rfl rfl (.inl rfl)
  | startSse => exact .of_item .head rfl rfl (.inl rfl)
  | query => exact ⟨.inl rfl, fun rest seen appended hp => .inr ⟨(Pump.sending.inj hp).1.symm, (Pump.sending.inj hp).2.1.symm⟩⟩
  | sent frame rest seen appended hp =>
    refine ⟨.inr ⟨_, _, rfl, fun d hd => ?_⟩, fun rest' seen' appended' hp' => ?_⟩
    · obtain rfl : d = (frame, seen) := List.mem_singleton.mp hd
      exact ⟨rest, appended, hp⟩
    · obtain ⟨rfl, rfl, -⟩ := Pump.sending.inj hp'
      exact .inl ⟨[frame], appended, hp⟩
  | heartbeat => exact .of_item .heartbeat rfl rfl (.inr nofun)
  | unsent | noHeartbeat | quiet => exact .of_idle rfl fun _ _ _ => ending_ne_sending _
  | lookupPump | lostPump | modifyPump => exact .of_idle rfl nofun
  | lostReader next => cases next <;> exact .of_eq rfl rfl
  | modifyReader next => cases next <;> exact .of_eq rfl rfl
  | _ => exact .of_eq rfl rfl

/-- The stores that are seen have the capacity that the connection began with. -/
structure Sized (capacity : ℕ) (c : State) : Prop where
  store : c.store.capacity = capacity
  queued : ∀ d ∈ frames (c.queued.map Prod.fst), d.2.capacity = capacity
  pumping : ∀ rest seen appended, c.pump = .sending rest seen appended → seen.capacity = capacity

theorem capacity_of_step {c c' : State} {a : Act} (h : step c a = some c') : c'.store.capacity = c.store.capacity := by
  cases trans_of_step h with
  | append frame => exact capacity_append c.store frame
  | lostReader next => cases next <;> rfl
  | modifyReader next => cases next <;> rfl
  | _ => rfl

theorem Sized.step {capacity : ℕ} (c : State) (a : Act) (c' : State) (h : Sized capacity c)
    (hs : Connection.step c a = some c') : Sized capacity c' := by
  obtain ⟨hqueued, hpump⟩ := takes_of_step hs
  refine ⟨(capacity_of_step hs).trans h.store, fun d hd => ?_, fun rest seen appended hp => ?_⟩
  · rcases hqueued with hsame | ⟨item, n, hmore, hnext⟩
    · rw [hsame] at hd
      exact h.queued d hd
    · rw [hmore, frames_concat] at hd
      rcases List.mem_append.mp hd with hd | hd
      · exact h.queued d hd
      · obtain ⟨rest, appended, hp⟩ := hnext d hd
        exact h.pumping _ _ _ hp
  · rcases hpump rest seen appended hp with ⟨before, appended', hp'⟩ | ⟨-, rfl⟩
    · exact h.pumping _ _ _ hp'
    · exact h.store

theorem sized_run {capacity : ℕ} {hc : 0 < capacity} {hasRuntime : Bool} {as : List Act} {c : State}
    (h : run step (.start capacity hc hasRuntime) as = some c) : Sized capacity c :=
  run_invariant Sized.step ⟨rfl, fun _ hd => absurd hd List.not_mem_nil, fun _ _ _ hp => by cases hp⟩ h

/-! ### One request -/

/-- A request for the stream after `a`. -/
structure AsksStream (m : Message) (a : UInt64) : Prop where
  method : m.method = .get
  route : pathWithoutQuery m.path = bytes "/api/can/stream"
  after : (numberParameter (parseQuery m.path) (bytes "after") 0).map UInt64.ofNat = some a

/-- With a runtime a request for the stream is answered with the stream. -/
theorem AsksStream.reply {m : Message} {a : UInt64} (h : AsksStream m a) {env : Environment} {runtime : CanRuntime}
    (henv : env.canRuntime = some runtime) : processRequest m.toHttpRequest env = .stream a := by
  obtain ⟨after, hafter, rfl⟩ := Option.map_eq_some_iff.mp h.after
  have hmethod : m.toHttpRequest.method = .get := h.method
  have hpath : m.toHttpRequest.path = m.path := rfl
  have hframes : bytes "/api/can/stream" ≠ bytes "/api/can/frames" := by decide +kernel
  have hstats : bytes "/api/can/stream" ≠ bytes "/api/can/stats" := by decide +kernel
  simp only [processRequest, hmethod, hpath, h.route, hframes, hstats, and_false, if_false, and_self, if_true, henv, hafter]

/-- Nothing has come of the request yet. -/
structure Unasked (s : State) : Prop where
  pump : s.pump = .idle
  active : s.sseActive = false
  queued : s.queued = []
  holds : s.store.Holds s.appended

/-- Where a connection is that is sent the request `m` and nothing else. -/
inductive Phase (m : Message) (a : UInt64) (es : List Event) (s : State) : Prop where
  /-- The request is not found yet. -/
  | before (hes : es = []) (h : Unasked s) (hreader : s.reader = .idle ∨ s.reader = .draining ∨ s.reader = .parsing)
  /-- It is found, and `startSse` is next. -/
  | asked (hes : es = [.dispatched m.toHttpRequest]) (h : Unasked s) (hreader : ∃ len, s.reader = .starting a len)
  /-- The stream is started. -/
  | streaming (hes : es = [.dispatched m.toHttpRequest]) (n : ℕ) (h : Delivering a [(.head, n)] s)

variable {m : Message} {a : UInt64} {es : List Event} {s s' : State} {act : Act}

theorem phase_start (capacity : ℕ) (hc : 0 < capacity) : Phase m a [] (.start capacity hc true) :=
  .before rfl ⟨rfl, rfl, rfl, holds_empty capacity hc⟩ (.inl rfl)

/-- Where one request is all there is, a second event would be one too many. -/
theorem event_eq_nil (h : [.dispatched m.toHttpRequest] ++ event s act <+: [.dispatched m.toHttpRequest]) :
    event s act = [] := by
  have hlength := h.length_le
  rw [List.length_append] at hlength
  exact List.length_eq_zero_iff.mp (Nat.le_zero.mp (Nat.le_of_add_le_add_left hlength))

/-- Nothing is pumped before the stream is started. -/
theorem Unasked.idle (h : Unasked s) {pump : Pump} (hp : s.pump = pump) (hne : pump ≠ .idle) : False :=
  hne (hp.symm.trans h.pump)

/-- Before the request is found. -/
theorem Unasked.step_before (h : Unasked s) (ha : AsksStream m a) (hruntime : s.hasRuntime = true)
    (hreader : s.reader = .idle ∨ s.reader = .draining ∨ s.reader = .parsing) (hs : Connection.step s act = some s')
    (hle : event s act <+: [.dispatched m.toHttpRequest]) : Phase m a (event s act) s' := by
  have hholds := holds_of_step s act s' h.holds hs
  obtain ⟨hpump, hactive, hqueued, -⟩ := h
  cases trans_of_step hs with
  | lockRead => exact .before rfl ⟨hpump, hactive, hqueued, hholds⟩ (.inr (.inl rfl))
  | drained => exact .before rfl ⟨hpump, hactive, hqueued, hholds⟩ (.inr (.inr rfl))
  | hangUp => cases List.cons_prefix_cons.mp hle |>.1
  | wait around _ hstep =>
    have hevent : event s (.parse around) = [] := by simp only [event, hstep]
    rw [hevent]
    exact .before rfl ⟨hpump, hactive, hqueued, hholds⟩ (.inl rfl)
  | bad around text req _ hstep =>
    have hevent : event s (.parse around) = [.rejected text] := by simp only [event, hstep]
    rw [hevent] at hle
    cases List.cons_prefix_cons.mp hle |>.1
  | dispatch around req len response _ hstep hreply =>
    have hevent : event s (.parse around) = [.dispatched req] := by simp only [event, hstep]
    rw [hevent] at hle
    obtain rfl := Event.dispatched.inj (List.cons_prefix_cons.mp hle).1
    rw [ha.reply (if_pos hruntime)] at hreply
    cases hreply
  | dispatchStream around req len after _ hstep hreply =>
    have hevent : event s (.parse around) = [.dispatched req] := by simp only [event, hstep]
    rw [hevent] at hle ⊢
    obtain rfl := Event.dispatched.inj (List.cons_prefix_cons.mp hle).1
    rw [ha.reply (if_pos hruntime)] at hreply
    obtain rfl := Reply.stream.inj hreply
    exact .asked rfl ⟨hpump, hactive, hqueued, hholds⟩ ⟨len, rfl⟩
  | respond _ _ hr | startSse _ _ _ hr | lookupReader _ hr | lostReader _ hr | modifyReader _ hr =>
    rcases hreader with h | h | h <;> cases h.symm.trans hr
  | query _ h => cases hactive.symm.trans h
  | sent _ _ _ _ hp | unsent _ _ _ _ hp | quiet _ _ _ hp | heartbeat _ _ _ hp | noHeartbeat _ _ _ hp | lookupPump hp
    | lostPump hp | modifyPump hp => cases hpump.symm.trans hp
  | writing _ b out hw _ _ =>
    have hevent : event s act = [] := by cases act <;> first | rfl | cases hw
    rw [hevent]
    exact .before rfl ⟨hpump, hactive, hqueued, hholds⟩ hreader
  | _ => exact .before rfl ⟨hpump, hactive, hqueued, hholds⟩ hreader

/-- Between the request and the stream. -/
theorem Unasked.step_asked (h : Unasked s) (hreader : ∃ len, s.reader = .starting a len)
    (hs : Connection.step s act = some s') : Phase m a [.dispatched m.toHttpRequest] s' := by
  have hholds := holds_of_step s act s' h.holds hs
  obtain ⟨len, hlen⟩ := hreader
  obtain ⟨hpump, hactive, hqueued, hbefore⟩ := h
  cases trans_of_step hs with
  | startSse now =>
    have hdelivering := delivering_start hbefore hlen hs
    obtain ⟨n, hhead⟩ := queued_of_startSse hs
    rw [hhead, hqueued] at hdelivering
    exact .streaming rfl n hdelivering
  | lockRead hr | recv _ hr | drained hr | hangUp hr | wait _ hr | bad _ _ _ hr | dispatch _ _ _ _ hr
    | dispatchStream _ _ _ _ hr | respond _ _ hr | lookupReader _ hr | lostReader _ hr | modifyReader _ hr =>
    cases hlen.symm.trans hr
  | query _ h => cases hactive.symm.trans h
  | sent _ _ _ _ hp | unsent _ _ _ _ hp | quiet _ _ _ hp | heartbeat _ _ _ hp | noHeartbeat _ _ _ hp | lookupPump hp
    | lostPump hp | modifyPump hp => cases hpump.symm.trans hp
  | _ => exact .asked rfl ⟨hpump, hactive, hqueued, hholds⟩ ⟨len, hlen⟩

/-- **Every step** leads from a phase to the same or the next, if it finds no more than the request. -/
theorem Phase.step (h : Phase m a es s) (ha : AsksStream m a) (hruntime : s.hasRuntime = true)
    (hn : s.appended.length < 2 ^ 64) (hs : Connection.step s act = some s')
    (hle : es ++ event s act <+: [.dispatched m.toHttpRequest]) : Phase m a (es ++ event s act) s' := by
  cases h with
  | before hes h hreader =>
    subst hes
    exact h.step_before ha hruntime hreader hs hle
  | asked hes h hreader =>
    subst hes
    rw [event_eq_nil hle]
    exact h.step_asked hreader hs
  | streaming hes n h =>
    subst hes
    have hnone := event_eq_nil hle
    rw [hnone]
    refine .streaming rfl n (h.step s act s' hn ?_ hs)
    cases act with
    | parse around =>
      intro _
      simp only [event] at hnone
      split at hnone
      · assumption
      · cases hnone
      · cases hnone
    | _ => trivial

/-- What is made of one well-formed request, or of a beginning of it, is that request at most. -/
theorem events_of_request {capacity : ℕ} {hc : 0 < capacity} {as : List Act}
    (h : run Connection.step (.start capacity hc true) as = some s) (hopen : ∀ b ∈ as, b ≠ .hangUp)
    (hsent : receivedBytes as <+: m.render) : events (.start capacity hc true) as <+: [.dispatched m.toHttpRequest] := by
  have hone : receivedBytes as <+: [m].flatMap (·.render) := by rwa [List.flatMap_singleton]
  obtain ⟨ms₁, ms₂, hms, hserve, -⟩ := serve_beginning hone (exists_deliveries hopen)
  have hle := (served_run h).events_le
  rw [hserve] at hle
  refine hle.trans ⟨ms₂.map fun m => .dispatched m.toHttpRequest, ?_⟩
  rw [← List.map_append, ← hms, List.map_singleton]

theorem hasRuntime_of_run {t : State} {as : List Act} (h : run Connection.step s as = some t) :
    t.hasRuntime = s.hasRuntime :=
  run_invariant (I := fun t => t.hasRuntime = s.hasRuntime) (fun _ _ _ hI hs => (hasRuntime_of_step hs).trans hI) rfl h

/-- **A client that asks for a stream and then listens**: in every run, with the event loop, with
`handleWrite`, the receiver and removal in between, nothing is queued until the request is
found, and the stream goes on delivering after it is started. -/
theorem phase_run {capacity : ℕ} {hc : 0 < capacity} {as : List Act}
    (h : run Connection.step (.start capacity hc true) as = some s) (ha : AsksStream m a) (hopen : ∀ b ∈ as, b ≠ .hangUp)
    (hsent : receivedBytes as <+: m.render) (hn : s.appended.length < 2 ^ 64) :
    Phase m a (events (.start capacity hc true) as) s := by
  refine run_history (I := fun as s => (∀ b ∈ as, b ≠ .hangUp) → receivedBytes as <+: m.render → s.appended.length < 2 ^ 64 →
    Phase m a (events (.start capacity hc true) as) s) (fun _ _ _ => phase_start capacity hc)
    (fun as t b t' ht hI hs hopen hsent hn => ?_) h hopen hsent hn
  have hsplit : receivedBytes (as ++ [b]) = receivedBytes as ++ receivedBytes [b] := List.flatMap_append
  have hn' : t.appended.length < 2 ^ 64 := (appended_of_step hs).length_le.trans_lt hn
  have hphase := hI (fun c hc => hopen c (List.mem_append_left _ hc))
    ((hsplit ▸ List.prefix_append _ _ : receivedBytes as <+: receivedBytes (as ++ [b])).trans hsent) hn'
  have hle := events_of_request (run_concat ht hs) hopen hsent
  rw [events_concat ht] at hle ⊢
  exact hphase.step ha (hasRuntime_of_run ht) hn' hs hle

/-- **What such a client is sent**: a beginning of the head, events and comments, whose frames were read
one by one from the stores that the pump saw. -/
theorem Phase.delivered (h : Phase m a es s) (hrecorded : Recorded s) : ∃ items rs,
    s.out.accepted.flatten <+: sseHead ++ items.flatMap Item.payload ∧ (∀ i ∈ items, i.IsEvent) ∧
      ReadsOf s a (frames items) rs ∧ ∀ d ∈ frames items, d ∈ frames (s.queued.map Prod.fst) := by
  rw [← hrecorded]
  cases h with
  | before _ h =>
    rw [h.queued]
    exact ⟨[], [], List.nil_prefix, nofun, ⟨⟨_, .start⟩, rfl, nofun⟩, nofun⟩
  | asked _ h =>
    rw [h.queued]
    exact ⟨[], [], List.nil_prefix, nofun, ⟨⟨_, .start⟩, rfl, nofun⟩, nofun⟩
  | streaming _ n h =>
    obtain ⟨items, hitems, hevents, hseen, rs, c, hsession, hreads, -⟩ := h.queued
    refine ⟨items.map Prod.fst, rs, ?_, fun i hi => ?_, ⟨⟨c, hsession⟩, hreads, hseen⟩, fun d hd => ?_⟩
    · rw [hitems, List.flatMap_append, List.flatMap_map]
      simp [Item.payload]
    · obtain ⟨q, hq, rfl⟩ := List.mem_map.mp hi
      exact hevents q hq
    · rw [hitems, List.map_append, frames, List.filterMap_append]
      exact List.mem_append_right _ hd

end CanMonitor.Connection
