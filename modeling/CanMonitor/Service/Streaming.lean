import CanMonitor.Connection.Listening
import CanMonitor.Service.System
import CanMonitor.SseClient.Summary

/-!
# The stress test

The stress test puts frames on the bus and lets clients read them from event streams. From the
socket of the receive thread to what a client records there are the store, the pump of the
connection, `send_buf`, the pieces in which it is written, the lines of the stream and their
JSON. `heard_of_stream` says what is left of it all: a client hears frames that were accepted,
in order, each once and at the time when it read their line, and it misses a frame before another
only if the store had overwritten it. So what the test counts as duplicates and as out of order is
never there (`stress_client`), and the latencies of the benchmark are those of accepted frames
(`benchmark_client`).
-/

namespace CanMonitor.Service

open CanMonitor.Library CanMonitor.Can CanMonitor.Can.FrameStore CanMonitor.Http CanMonitor.Connection
open CanMonitor.SseClient

/-- An event or a comment as what is written to a stream. -/
def streamItem : Item → StreamItem
  | .frame frame _ => .event frame
  | _ => .comment

theorem streamItem_text {item : Item} (h : item.IsEvent) : (streamItem item).text = item.payload := by
  cases item with
  | frame | heartbeat => rfl
  | response | head => exact h.elim

theorem eventFrames_streamItem (items : List Item) : eventFrames (items.map streamItem) = (frames items).map Prod.fst := by
  induction items with
  | nil => rfl
  | cons item items ih =>
    cases item with
    | frame frame seen => exact congrArg (frame :: ·) ih
    | _ => exact ih

/-- What was missed was overwritten when more than the capacity had been accepted. -/
theorem length_of_evicted {store : FrameStore} {log : List CanFrame} (h : store.Holds log) (hn : log.length < 2 ^ 64)
    {q : UInt64} (hq : store.Evicted q) : q.toNat + store.capacity ≤ log.length := by
  obtain ⟨hpos, hle⟩ := (evicted_iff h hn q).mp hq
  rw [h.toNat_overwritten hn] at hle
  omega

/-- The first frames with an id lack none of those before the last of them. -/
theorem mem_of_prefix_withId {canId : ℤ} {fs kept : List CanFrame} (hasc : (fs.map (·.sequence)).Pairwise (· < ·))
    (hkept : kept <+: withId canId fs) {f g : CanFrame} (hf : f ∈ fs) (hid : (f.id.toNat : ℤ) = canId) (hg : g ∈ kept)
    (hlt : f.sequence < g.sequence) : f ∈ kept := by
  obtain ⟨rest, hrest⟩ := hkept
  have hmem : f ∈ kept ++ rest := by
    rw [hrest]
    exact List.mem_filter.mpr ⟨hf, by simpa using hid⟩
  rcases List.mem_append.mp hmem with hmem | hmem
  · exact hmem
  · have hsublist : ((kept ++ rest).map (·.sequence)).Pairwise (· < ·) := by
      rw [hrest]
      exact hasc.sublist (List.filter_sublist.map _)
    rw [List.map_append] at hsublist
    have hgf := (List.pairwise_append.mp hsublist).2.2 _ (List.mem_map_of_mem hg) _ (List.mem_map_of_mem hmem)
    exact absurd hgf (UInt64.lt_asymm hlt)

/-! ### From the bus to the client -/

section

variable {ι : Type} [DecidableEq ι] {interfaceName : String} {nominalBitrate : UInt32} {frameCapacity : ℕ}
  {new : Can.CanRuntime}

/-- What a client of a stream can have read, as items of the stream. -/
theorem streamed_items (hnew : Can.CanRuntime.make interfaceName nominalBitrate frameCapacity = .ok new)
    {as : List (Act ι)} {t : State ι} (h : run step (.start ι new) as = some t) (hn : (received as).length < 2 ^ 64) {i : ι}
    {m : Message} {a : UInt64} (ha : AsksStream m a) (hopen : ∀ b ∈ seen i (.start ι new) as, b ≠ .hangUp)
    (hsent : receivedBytes (seen i (.start ι new) as) <+: m.render) :
    ∃ items rs, (t.connection i).out.written <+: sseHead ++ (items.map streamItem).flatMap StreamItem.text ∧
      ReadsOf (t.connection i) a (frames items) rs ∧ ∀ d ∈ frames items, d.2.capacity = frameCapacity := by
  obtain ⟨hc, hstart⟩ := connection_start i hnew
  have hrun := connection_of_run i h
  rw [hstart] at hrun
  have hfew := (appended_received hnew h).1.length_le.trans_lt hn
  have hphase := phase_run hrun ha hopen hsent hfew
  have hrecorded : Connection.Recorded (t.connection i) :=
    run_invariant Connection.Recorded.step (recorded_start frameCapacity hc true) hrun
  obtain ⟨items, rs, haccepted, hevents, hreads, hqueued⟩ := hphase.delivered hrecorded
  refine ⟨items, rs, (written_accepted (conserved_run hrun)).1.trans ?_, hreads, fun d hd => ?_⟩
  · have htexts : (items.map streamItem).flatMap StreamItem.text = items.flatMap Item.payload := by
      rw [List.flatMap_map]
      exact List.flatMap_congr fun item hitem => streamItem_text (hevents item hitem)
    rwa [htexts]
  · exact (sized_run hrun).queued d (hqueued d hd)

/-- What a client heard that asked for the frames after `a` and recorded `xs` of those with an id. -/
structure Heard (accepted : List CanFrame) (capacity : ℕ) (canId : ℤ) (a : UInt64) (turns : List SseClient.Turn)
    (xs : List (CanFrame × ℤ)) : Prop where
  /-- Each was accepted, under the number of its place. -/
  stored : ∀ x ∈ xs, (x.1.id.toNat : ℤ) = canId ∧ a < x.1.sequence ∧
    (stamp accepted)[x.1.sequence.toNat - 1]? = some x.1
  /-- Its time is that of the turn that read its line. -/
  timed : ∃ ts, List.Sublist ts turns ∧ List.Forall₂ SseClient.Turn.Brings ts xs
  /-- They are in order, and each once. -/
  ascending : (xs.map fun x => (x.1.sequence.toNat : ℤ)).Pairwise (· < ·)
  /-- What is missing before one of them was overwritten. -/
  missing : ∀ frame ∈ stamp accepted, (frame.id.toNat : ℤ) = canId → a < frame.sequence →
    (∃ x ∈ xs, frame.sequence < x.1.sequence) → frame ∉ xs.map Prod.fst →
      frame.sequence.toNat + capacity ≤ accepted.length

section

variable (hnew : Can.CanRuntime.make interfaceName nominalBitrate frameCapacity = .ok new)
  {as : List (Act ι)} {t : State ι} (h : run step (.start ι new) as = some t) (hn : (received as).length < 2 ^ 64) {i : ι}
  {m : Message} {a : UInt64} (ha : AsksStream m a) (hopen : ∀ b ∈ seen i (.start ι new) as, b ≠ .hangUp)
  (hsent : receivedBytes (seen i (.start ι new) as) <+: m.render) {py : Python} (hpy : py.Documented) {p : Bytes}
  (hp : responseHead ++ p <+: (t.connection i).out.written) {turns : List SseClient.Turn} (hreads : Reads p turns)
  (canId : ℤ) (count : ℕ)
include hnew h hn ha hopen hsent hpy hp hreads

/-- **What a loop on the stream records**, whatever it counts. -/
theorem heard_of_stream (progress : Result → ℕ) : ∃ frames xs,
    Kept canId frames turns {} (receiveLoop py progress canId count {} turns) xs ∧
      Heard (received as) frameCapacity canId a turns xs := by
  obtain ⟨items, rs, hwritten, hitems, hcapacity⟩ := streamed_items hnew h hn ha hopen hsent
  have happended := (appended_received hnew h).1
  have hfew := happended.length_le.trans_lt hn
  obtain ⟨xs, hxs⟩ : ∃ xs, Kept canId (eventFrames (items.map streamItem)) turns {}
      (receiveLoop py progress canId count {} turns) xs := receiveLoop_stream hpy (hp.trans hwritten) hreads
  have hframes := hxs.frames
  rw [eventFrames_streamItem] at hframes
  have hasc : (((frames items).map Prod.fst).map (·.sequence)).Pairwise (· < ·) := by
    rw [List.map_map]
    exact hitems.ascending hfew
  have hmem : ∀ x ∈ xs, ∃ d ∈ frames items, d.1 = x.1 ∧ (x.1.id.toNat : ℤ) = canId := fun x hx => by
    obtain ⟨hin, hid⟩ := List.mem_filter.mp (hframes.subset (List.mem_map_of_mem hx))
    obtain ⟨d, hd, heq⟩ := List.mem_map.mp hin
    exact ⟨d, hd, heq, by simpa using hid⟩
  refine ⟨_, xs, hxs, fun x hx => ?_, hxs.timed, ?_, fun frame hframe hid hafter hlater hmissing => ?_⟩
  · obtain ⟨d, hd, heq, hid⟩ := hmem x hx
    obtain ⟨habove, hstored⟩ := hitems.stored hfew hd
    rw [heq] at habove hstored
    exact ⟨hid, habove, (getElem?_stamp hn ((stamp_mono happended).subset (List.mem_of_getElem? hstored))).2.2⟩
  · have hsublist := hframes.sublist.trans List.filter_sublist
    have hkept := ((List.pairwise_map.mp hasc).sublist hsublist)
    exact List.pairwise_map.mpr ((List.pairwise_map.mp hkept).imp fun hlt =>
      Int.ofNat_lt.mpr (UInt64.lt_iff_toNat_lt.mp hlt))
  · -- it was not on the stream either, so the pump that found a later one did not find it
    obtain ⟨x, hx, hlt⟩ := hlater
    obtain ⟨d, hd, heq, -⟩ := hmem x hx
    have hnot : ∀ e ∈ frames items, e.1.sequence ≠ frame.sequence := fun e he hsame => by
      have hstamped : e.1 ∈ stamp (received as) :=
        (stamp_mono happended).subset (List.mem_of_getElem? (hitems.stored hfew he).2)
      obtain rfl := eq_of_sequence_eq hn hstamped hframe hsame
      exact hmissing (mem_of_prefix_withId hasc hframes (List.mem_map_of_mem he) hid (List.mem_map_of_mem hx) hlt)
    obtain ⟨e, he, -, -, hevicted⟩ := hitems.missing hfew hafter ⟨d, hd, heq ▸ hlt⟩ hnot
    obtain ⟨log, hlog, hstore⟩ := hitems.seen e he
    have hlength := length_of_evicted hstore (hlog.length_le.trans_lt hfew) hevicted
    rw [hcapacity e he] at hlength
    exact hlength.trans (hlog.length_le.trans happended.length_le)

/-- **From the bus to the client**: in any run of the service, with any number of other clients,
let a client ask once for the stream after `a` and read what is written to it up to any byte, in
lines, with time-outs, deadlines and the end of the connection wherever they come. Then what
`receive_client` records are frames with its id that the receive thread accepted, under the
numbers of their places, above `a` and in strictly ascending order, each with the time of the
turn that read its line, from which its latency is. A frame with the id that is missing before
one that is recorded had been overwritten: as many frames as the store holds were accepted after
it. So `summarize_client` counts no frame twice and none out of order; and there is an error
only if reading failed. -/
theorem stress_client :
    ∃ xs : List (CanFrame × ℤ),
      receiveClient py canId count turns = { xs.foldl record {} with error := (receiveClient py canId count turns).error } ∧
      (∃ ts, List.Sublist ts turns ∧ List.Forall₂ SseClient.Turn.Brings ts xs) ∧
      (∀ x ∈ xs, (x.1.id.toNat : ℤ) = canId ∧ a < x.1.sequence ∧
        (stamp (received as))[x.1.sequence.toNat - 1]? = some x.1) ∧
      (receiveClient py canId count turns).sequences.Pairwise (· < ·) ∧
      (∀ frame ∈ stamp (received as), (frame.id.toNat : ℤ) = canId → a < frame.sequence →
        (∃ x ∈ xs, frame.sequence < x.1.sequence) → frame ∉ xs.map Prod.fst →
          frame.sequence.toNat + frameCapacity ≤ (received as).length) ∧
      (summarizeClient (receiveClient py canId count turns) count).duplicateFrames = 0 ∧
      (summarizeClient (receiveClient py canId count turns) count).outOfOrderFrames = 0 ∧
      ((receiveClient py canId count turns).error = true → ∃ turn ∈ turns, turn.line = .failed) := by
  obtain ⟨fs, xs, hxs, hheard⟩ :=
    heard_of_stream hnew h hn ha hopen hsent hpy hp hreads canId count (·.sequences.length)
  have hsequences : (receiveClient py canId count turns).sequences.Pairwise (· < ·) := by
    have hlist : (receiveClient py canId count turns).sequences = xs.map fun x => (x.1.sequence.toNat : ℤ) := by
      rw [receiveClient, hxs.eq]
      exact sequences_foldl_record xs {}
    rw [hlist]
    exact hheard.ascending
  obtain ⟨hduplicates, horder, -⟩ := summarize_ascending hsequences count
  exact ⟨xs, hxs.eq, hheard.timed, hheard.stored, hsequences, hheard.missing, hduplicates, horder,
    fun herror => (hxs.error herror).resolve_left Bool.false_ne_true⟩

/-- **What the benchmark measures**: the latencies that `receive_sse` reports are, in order, those of
accepted frames that have a time stamp, each up to the turn that read the frame's line. -/
theorem benchmark_client : ∃ xs, Heard (received as) frameCapacity canId a turns xs ∧
    (receiveSse py canId count turns).latencies =
      (xs.filter fun x => 0 < x.1.timestampNs.toNat).map latency := by
  obtain ⟨fs, xs, hxs, hheard⟩ :=
    heard_of_stream hnew h hn ha hopen hsent hpy hp hreads canId count (·.latencies.length)
  refine ⟨xs, hheard, ?_⟩
  rw [receiveSse, hxs.eq]
  exact latencies_foldl_record xs {}

end

end

/-- A request for the stream after `0`. -/
def streamMessage : Message :=
  { pageMessage with
    path := bytes "/api/can/stream?after=0"
    path_ne := by decide
    path_nospace := by decide +kernel
    fits := by decide +kernel }

/-- A client asks for the stream after `0`, and is written the head and one frame. -/
def oneListener : List (Act Unit) :=
  [.runtime (.start {}), .connection () .lockRead, .connection () (.recv streamMessage.render), .connection () .drained,
    .parse () plainAnswers, .connection () (.startSse 0)] ++
  (readTurn { canId := 0x123, canDlc := 2 } 7 ++ [ReceiveAction.record, .append]).map (.runtime <| .receive ·) ++
  [.connection () .query, .connection () .sendFrame, .connection () .lockWrite, .connection () .copy,
    .connection () (.write 277)]

/-- The frame of `oneListener` as it is stored. -/
def oneStamped : CanFrame := { sequence := 1, timestampNs := 7, id := 0x123, dlc := 2 }

/-- The turns in which the client of `oneListener` reads its lines, the last at the time 9. -/
def frameTurns : List SseClient.Turn :=
  [⟨false, .line (bytes ": connected" ++ [10]), 8⟩, ⟨false, .line ([] ++ [10]), 8⟩,
    ⟨false, .line (bytes "event: can_frame" ++ [10]), 8⟩, ⟨false, .line (bytes "id: 1" ++ [10]), 8⟩,
    ⟨false, .line (dataLine oneStamped ++ [10]), 9⟩]

theorem stress_client_one : ∃ new t, run step (.start Unit new) oneListener = some t ∧ ∃ xs : List (CanFrame × ℤ),
    receiveClient plainPython 0x123 1 frameTurns = { xs.foldl record {} with error := false } ∧
      (∃ ts, List.Sublist ts frameTurns ∧ List.Forall₂ SseClient.Turn.Brings ts xs) ∧
      (∀ x ∈ xs, (x.1.id.toNat : ℤ) = 0x123 ∧ 0 < x.1.sequence ∧
        (stamp (received oneListener))[x.1.sequence.toNat - 1]? = some x.1) ∧
      (receiveClient plainPython 0x123 1 frameTurns).sequences.Pairwise (· < ·) ∧
      (∀ frame ∈ stamp (received oneListener), (frame.id.toNat : ℤ) = 0x123 → 0 < frame.sequence →
        (∃ x ∈ xs, frame.sequence < x.1.sequence) → frame ∉ xs.map Prod.fst →
          frame.sequence.toNat + 8 ≤ (received oneListener).length) ∧
      (summarizeClient (receiveClient plainPython 0x123 1 frameTurns) 1).duplicateFrames = 0 ∧
      (summarizeClient (receiveClient plainPython 0x123 1 frameTurns) 1).outOfOrderFrames = 0 := by
  have hnew : Can.CanRuntime.make "vcan0" 500000 8 =
      .ok ⟨"vcan0", .empty 8 (by decide), .new 500000 1000000000 (by decide) (by decide), {}, none, false⟩ := rfl
  have hrun : (run step (.start Unit ⟨"vcan0", .empty 8 (by decide), .new 500000 1000000000 (by decide) (by decide), {},
      none, false⟩) oneListener).map (fun t => decide (responseHead ++ (bytes ": connected" ++ 10 :: ([] ++ 10 ::
        (bytes "event: can_frame" ++ 10 :: (bytes "id: 1" ++ 10 :: (dataLine oneStamped ++ 10 :: []))))) <+:
          (t.connection ()).out.written)) = some true := by decide +kernel
  obtain ⟨t, ht, hwritten⟩ := Option.map_eq_some_iff.mp hrun
  have hdata : (10 : UInt8) ∉ dataLine oneStamped := by decide +kernel
  have hreads : Reads (bytes ": connected" ++ 10 :: ([] ++ 10 :: (bytes "event: can_frame" ++ 10 :: (bytes "id: 1" ++ 10 ::
      (dataLine oneStamped ++ 10 :: []))))) frameTurns :=
    .line (by decide +kernel) rfl (.line (by decide +kernel) rfl (.line (by decide +kernel) rfl
      (.line (by decide +kernel) rfl (.line hdata rfl (.nil [])))))
  have hasks : AsksStream streamMessage 0 := ⟨rfl, by decide +kernel, by decide +kernel⟩
  have hopen : ((seen () (.start Unit ⟨"vcan0", .empty 8 (by decide), .new 500000 1000000000 (by decide) (by decide), {},
      none, false⟩) oneListener).all fun | .hangUp => false | _ => true) = true := by decide +kernel
  obtain ⟨xs, heq, htimed, hstored, hsequences, hmissing, hduplicates, horder, herror⟩ := stress_client hnew ht (by decide) hasks
    (fun b hb heq => by cases heq ▸ List.all_eq_true.mp hopen b hb) (by decide +kernel) documented_plain
    (of_decide_eq_true hwritten) hreads 0x123 1
  have hread : (receiveClient plainPython 0x123 1 frameTurns).error = false :=
    Bool.eq_false_iff.mpr fun hfailed => by
      obtain ⟨turn, hturn, hline⟩ := herror hfailed
      simp only [frameTurns, List.mem_cons, List.not_mem_nil, or_false] at hturn
      rcases hturn with rfl | rfl | rfl | rfl | rfl <;> cases hline
  rw [hread] at heq
  exact ⟨_, t, ht, xs, heq, htimed, hstored, hsequences, hmissing, hduplicates, horder⟩

end CanMonitor.Service
