import CanMonitor.Connection.System

/-!
# An event stream

Once `startSse` has run, the connection's output is one response that does not end: its
head, then events and comments. `appendSsePayload` keeps `send_buf` within
`kMaxSsePendingBytes`. But `handleRead` goes on parsing and `processRequest` answering,
and what they queue goes into the stream, and past the bound (`stream_broken`).

In a run in which no further request is found in `recv_buf` (`Quiet`), the stream stays a
stream: everything queued after a head is an event or a comment, and leaves `send_buf`
within the bound (`stream_kept`).
-/

namespace CanMonitor.Connection

open CanMonitor.Library CanMonitor.Can CanMonitor.Http

/-- On a connection with a stream the parse loop finds no request. -/
def Quiet (s : State) : Act → Prop
  | .parse _ => s.sseActive = true → parseStep s.req s.recvBuf = .wait
  | _ => True

instance : ∀ s a, Decidable (Quiet s a) := fun s a =>
  match a with
  | .parse _ => inferInstanceAs (Decidable (s.sseActive = true → parseStep s.req s.recvBuf = .wait))
  | .append _ | .remove | .lockRead | .recv _ | .drained | .hangUp | .respond | .startSse _ | .query | .sendFrame
  | .endPump _ | .lockWrite | .copy | .write _ | .erase | .again | .fail | .lookup _ | .modify _ => isTrue trivial

/-- What may be queued after a head: an event or a comment, within the bound. -/
def Follows (p q : Item × ℕ) : Prop := p.1 = .head → q.1.IsEvent ∧ q.2 ≤ kMaxSsePendingBytes

/-- A connection whose output is a stream, or not yet. -/
structure Streaming (s : State) : Prop where
  /-- The head is queued when the stream is started. -/
  headless : s.sseActive = false → ∀ q ∈ s.queued, q.1 ≠ .head
  /-- No request is being answered on a stream. -/
  reader : s.sseActive = true →
    (∀ response len, s.reader ≠ .responding response len) ∧ ∀ after len, s.reader ≠ .starting after len
  /-- What follows a head may follow it. -/
  follows : s.queued.Pairwise Follows

theorem streaming_start (capacity : ℕ) (hc : 0 < capacity) (hasRuntime : Bool) :
    Streaming (.start capacity hc hasRuntime) :=
  ⟨fun _ _ hq => (List.not_mem_nil hq).elim, nofun, .nil⟩

/-- An event within the bound may be queued after anything. -/
theorem follows_push {s : State} (h : s.queued.Pairwise Follows) {item : Item} (hevent : item.IsEvent)
    (hfits : s.Fits item) : (s.push item).queued.Pairwise Follows := by
  refine List.pairwise_append.mpr ⟨h, List.pairwise_singleton _ _, fun p _ q hq _ => ?_⟩
  rw [List.mem_singleton.mp hq]
  refine ⟨hevent, ?_⟩
  simpa [Output.push, State.Fits] using hfits

/-- Before the head anything may be queued. -/
theorem follows_queue {s : State} (h : s.queued.Pairwise Follows) (hheadless : ∀ q ∈ s.queued, q.1 ≠ .head)
    (item : Item) : (s.queue item).queued.Pairwise Follows :=
  List.pairwise_append.mpr ⟨h, List.pairwise_singleton _ _, fun p hp _ _ hhead => absurd hhead (hheadless p hp)⟩

/-- Steps that queue nothing keep the stream, as long as they start no answer. -/
theorem Streaming.of_queued_eq {s s' : State} (h : Streaming s) (hactive : s'.sseActive = s.sseActive)
    (hqueued : s'.queued = s.queued)
    (hreader : s'.reader = s.reader ∨ s'.sseActive = false ∨
      (∀ response len, s'.reader ≠ .responding response len) ∧ ∀ after len, s'.reader ≠ .starting after len) :
    Streaming s' := by
  constructor
  · intro ha
    rw [hqueued]
    exact h.headless (hactive ▸ ha)
  · intro ha
    rcases hreader with hr | hr | hr
    · rw [hr]
      exact h.reader (hactive ▸ ha)
    · rw [hr] at ha
      cases ha
    · exact hr
  · rw [hqueued]
    exact h.follows

/-- A response is queued before the head. -/
theorem Streaming.queue_response {s s' : State} (h : Streaming s) (hidle : s.sseActive = false) (text : Bytes)
    (hactive : s'.sseActive = s.sseActive) (hqueued : s'.queued = (s.queue (.response text)).queued) :
    Streaming s' := by
  constructor
  · intro _ q hq
    rw [hqueued] at hq
    rcases List.mem_append.mp hq with hq | hq
    · exact h.headless hidle q hq
    · rw [List.mem_singleton.mp hq]
      exact nofun
  · intro ha
    rw [hactive, hidle] at ha
    cases ha
  · rw [hqueued]
    exact follows_queue h.follows (h.headless hidle) _

/-- An event is queued before the head or after it. -/
theorem Streaming.push_event {s s' : State} (h : Streaming s) {item : Item} (hevent : item.IsEvent)
    (hfits : s.Fits item) (hactive : s'.sseActive = s.sseActive) (hqueued : s'.queued = (s.push item).queued)
    (hreader : s'.reader = s.reader) : Streaming s' := by
  constructor
  · intro ha q hq
    rw [hqueued] at hq
    rcases List.mem_append.mp hq with hq | hq
    · exact h.headless (hactive ▸ ha) q hq
    · rw [List.mem_singleton.mp hq]
      rintro rfl
      exact hevent
  · intro ha
    rw [hreader]
    exact h.reader (hactive ▸ ha)
  · rw [hqueued]
    exact follows_push h.follows hevent hfits

/-- A turn of the parse loop that finds a request is made before the head. -/
theorem Quiet.inactive {s : State} {around : Surroundings} (hq : Quiet s (.parse around))
    (h : parseStep s.req s.recvBuf ≠ .wait) : s.sseActive = false :=
  Bool.eq_false_iff.mpr fun ha => h (hq ha)

/-- **Every quiet step** keeps the stream a stream. -/
theorem Streaming.step (s : State) (a : Act) (s' : State) (h : Streaming s) (hq : Quiet s a)
    (hs : Connection.step s a = some s') : Streaming s' := by
  cases trans_of_step hs with
  | bad around text req hr hstep => exact h.queue_response (hq.inactive (by simp [hstep])) badRequest rfl rfl
  | dispatch around req len response hr hstep _ =>
    exact h.of_queued_eq rfl rfl (.inr (.inl (hq.inactive (by simp [hstep]))))
  | dispatchStream around req len after hr hstep _ =>
    exact h.of_queued_eq rfl rfl (.inr (.inl (hq.inactive (by simp [hstep]))))
  | respond response len hr =>
    have hidle : s.sseActive = false := Bool.eq_false_iff.mpr fun ha => (h.reader ha).1 response len hr
    exact h.queue_response hidle response rfl rfl
  | startSse now after len hr _ =>
    have hidle : s.sseActive = false := Bool.eq_false_iff.mpr fun ha => (h.reader ha).2 after len hr
    exact ⟨nofun, fun _ => ⟨nofun, nofun⟩, follows_queue h.follows (h.headless hidle) .head⟩
  | sent frame rest seen appended _ hfits =>
    exact h.push_event (show (Item.frame frame seen).IsEvent from trivial) hfits rfl rfl rfl
  | heartbeat now seen appended _ hfits =>
    exact h.push_event (show Item.heartbeat.IsEvent from trivial) hfits rfl rfl rfl
  | lockRead | drained | hangUp | wait | lookupReader =>
    exact h.of_queued_eq rfl rfl (.inr (.inr ⟨nofun, nofun⟩))
  | lostReader next =>
    refine h.of_queued_eq (by simp) (by simp) (.inr (.inr ?_))
    rcases afterUpdate_reader s next with hr | hr <;> rw [hr] <;> exact ⟨nofun, nofun⟩
  | modifyReader next =>
    refine h.of_queued_eq (by simp) (by simp) (.inr (.inr ?_))
    rcases afterUpdate_reader (s.setInterest next.interest) next with hr | hr <;> rw [hr] <;> exact ⟨nofun, nofun⟩
  | _ => exact h.of_queued_eq rfl rfl (.inl rfl)

/-- **A stream stays a stream, and bounded**, in a run in which no request is found on a
connection that has one: what is queued after a head is an event or a comment and leaves
`send_buf` within the bound; and the bytes accepted are those of what was queued. -/
theorem stream_kept {capacity : ℕ} {hc : 0 < capacity} {hasRuntime : Bool} {as : List Act} {s : State}
    (h : run step (.start capacity hc hasRuntime) as = some s)
    (hquiet : Meets Quiet step (.start capacity hc hasRuntime) as) :
    s.out.accepted.flatten = s.queued.flatMap (·.1.payload) ∧
      ∀ before n after, s.queued = before ++ (.head, n) :: after →
        ∀ q ∈ after, q.1.IsEvent ∧ q.2 ≤ kMaxSsePendingBytes := by
  have hrecorded : Recorded s := run_invariant Recorded.step (recorded_start capacity hc hasRuntime) h
  have hstream : Streaming s := run_guarded Streaming.step (streaming_start capacity hc hasRuntime) hquiet h
  constructor
  · exact hrecorded.symm
  · intro before n after hsplit q hq
    have hfollows := hstream.follows
    rw [hsplit] at hfollows
    exact (List.pairwise_cons.mp (List.pairwise_append.mp hfollows).2.1).1 q hq rfl

/-- A request for a stream. -/
def streamRequest : Bytes := bytes "GET /api/can/stream HTTP/1.1\r\n\r\n"

/-- A call of `handleRead` that starts a stream and finds the bytes `more` after the request. -/
def startStream (more : Bytes) : List Act :=
  [.lockRead, .recv (streamRequest ++ more), .drained, .parse plainSurroundings, .startSse 0, .lookup .reader,
    .modify .reader, .parse plainSurroundings]

/-- The response for a page that is not there. -/
def notFound : Bytes :=
  (htmlResponse 404 (bytes "<h1>404 Not Found</h1><p>The requested resource was not found.</p>")).serialize
    plainSurroundings.iteration

/-- A request that comes right after the one for a stream is answered into the stream. -/
theorem stream_broken : ∃ s,
    run step (.start 8 (by decide) true) (startStream pageRequest ++ [.respond]) = some s ∧
      s.queued = [(.head, 152), (.response notFound, 304)] ∧
      ¬ ∀ before n after, s.queued = before ++ (.head, n) :: after →
        ∀ q ∈ after, q.1.IsEvent ∧ q.2 ≤ kMaxSsePendingBytes := by
  have h : (run step (.start 8 (by decide) true) (startStream pageRequest ++ [.respond])).map (·.queued) =
      some [(.head, 152), (.response notFound, 304)] := by decide +kernel
  obtain ⟨s, hs, hqueued⟩ := Option.map_eq_some_iff.mp h
  refine ⟨s, hs, hqueued, fun hall => ?_⟩
  exact (hall [] 152 _ hqueued (.response notFound, 304) (List.mem_singleton_self _)).1

/-- A stream with one frame and one comment. -/
def oneFrame : List Act := startStream [] ++ [.append {}, .query, .sendFrame, .endPump 10000000000]

theorem stream_kept_frame : ∃ s, run step (.start 8 (by decide) true) oneFrame = some s ∧
    s.out.accepted.flatten = s.queued.flatMap (·.1.payload) ∧
      ∀ before n after, s.queued = before ++ (.head, n) :: after →
        ∀ q ∈ after, q.1.IsEvent ∧ q.2 ≤ kMaxSsePendingBytes := by
  have h : (run step (.start 8 (by decide) true) oneFrame).map (·.queued.map (·.2)) = some [152, 271, 284] := by
    decide +kernel
  obtain ⟨s, hs, -⟩ := Option.map_eq_some_iff.mp h
  exact ⟨s, hs, stream_kept hs (by decide +kernel)⟩

end CanMonitor.Connection
