import CanMonitor.Connection.System
import CanMonitor.Http.Delimiting

/-!
# Pipelined responses

A client may send one request after the other without waiting. The responses then stand
in the buffer one after the other, and the client has nothing but their length headers to
tell which bytes belong to which.

## The model

`filledIn` is the response object that a route fills in before it is serialized, with the
body that the route set. A `Turn` is a turn of the parse loop that found a request, and
`turns` are those of a run, in order: a request that was accepted, with what its handler
found in the world at that time, or one that was rejected.

## What is proved

* `filledIn_plain` — every route fills in a plain response.
* `Pipelined.step` — a step that starts no stream appends whole responses or nothing, one
  for each turn.
* `responses_match_requests` — after any run without a stream, what was queued is cut by
  the client into one response for each request, in order, with the body that the route
  set, and nothing is left over.
-/

namespace CanMonitor.Connection

open CanMonitor.Library CanMonitor.Can CanMonitor.Http

/-! ### The responses of the routes -/

/-- The response that `processRequest` serializes; `none` when it does not come to that. -/
def filledIn (req : HttpRequest) (env : Environment) : Option HttpResponse :=
  let route := pathWithoutQuery req.path
  if req.method = .get ∧ route = bytes "/api/can/frames" then some (framesResponse req.path env.canRuntime)
  else if req.method = .get ∧ route = bytes "/api/can/stats" then some (statsResponse env.canRuntime)
  else if req.method = .get ∧ route = bytes "/api/can/stream" then
    match env.canRuntime with
    | none => some (jsonResponse 503 (errorBody (bytes "CAN runtime unavailable")))
    | some _ =>
      match numberParameter (parseQuery req.path) (bytes "after") 0 with
      | none => some (jsonResponse 400 (errorBody (bytes "invalid after")))
      | some _ => none
  else if req.method = .post ∧ route = bytes "/api/can/send" then some (sendResponse req.body env.canRuntime)
  else if req.method = .get then fileResponse route env.openFile env.allocates
  else if req.method = .post then some (echoResponse req.body)
  else some (htmlResponse 405 (bytes "<h1>405 Method Not Allowed</h1>"))

/-- **How `processRequest` ends**: with the response filled in, a stream, or a file for which there is no string. -/
theorem processRequest_cases (req : HttpRequest) (env : Environment) :
    (∃ resp, filledIn req env = some resp ∧ processRequest req env = .respond (resp.serialize env.iteration)) ∨
      (∃ afterSequence, processRequest req env = .stream afterSequence) ∨
        (processRequest req env = .throws ∧
          fileResponse (pathWithoutQuery req.path) env.openFile env.allocates = none) := by
  unfold processRequest filledIn
  simp only
  split_ifs
  · exact .inl ⟨_, rfl, rfl⟩
  · exact .inl ⟨_, rfl, rfl⟩
  · cases env.canRuntime with
    | none => exact .inl ⟨_, rfl, rfl⟩
    | some runtime =>
      cases numberParameter (parseQuery req.path) (bytes "after") 0 with
      | none => exact .inl ⟨_, rfl, rfl⟩
      | some after => exact .inr (.inl ⟨_, rfl⟩)
  · exact .inl ⟨_, rfl, rfl⟩
  · cases fileResponse (pathWithoutQuery req.path) env.openFile env.allocates with
    | none => exact .inr (.inr ⟨rfl, rfl⟩)
    | some resp => exact .inl ⟨_, rfl, rfl⟩
  · exact .inl ⟨_, rfl, rfl⟩
  · exact .inl ⟨_, rfl, rfl⟩

/-- What is queued is the serialized response. -/
theorem processRequest_respond {req : HttpRequest} {env : Environment} {response : Bytes}
    (h : processRequest req env = .respond response) :
    ∃ resp, filledIn req env = some resp ∧ resp.serialize env.iteration = response := by
  rcases processRequest_cases req env with ⟨resp, hfilled, hreply⟩ | ⟨after, hreply⟩ | ⟨hreply, -⟩ <;> rw [hreply] at h
  · exact ⟨resp, hfilled, Reply.respond.inj h⟩
  · cases h
  · cases h

/-- No status text has a line break. -/
theorem statusMessage_line (code : ℕ) : (13 : UInt8) ∉ statusMessage code ∧ (10 : UInt8) ∉ statusMessage code := by
  unfold statusMessage
  split <;> decide

theorem getMimeType_line (filepath : Bytes) : (13 : UInt8) ∉ HttpResponse.getMimeType filepath ∧
    (10 : UInt8) ∉ HttpResponse.getMimeType filepath := by
  have hline : ∀ c ∈ HttpResponse.getMimeType filepath, c ≠ 13 ∧ c ≠ 10 := by
    unfold HttpResponse.getMimeType
    repeat' refine iteInduction (motive := fun t : Bytes => ∀ c ∈ t, c ≠ 13 ∧ c ≠ 10) (fun _ => ?_) fun _ => ?_
    all_goals decide +kernel
  exact ⟨fun h => (hline 13 h).1 rfl, fun h => (hline 10 h).2 rfl⟩

/-- A response with a content type and a status code of the table is plain. -/
theorem plain_of_contentType {r : HttpResponse} (code : ℕ) {type : Bytes}
    (hmessage : r.statusMessage = statusMessage code) (hheaders : r.headers = [(bytes "Content-Type", type)])
    (htype : (13 : UInt8) ∉ type ∧ (10 : UInt8) ∉ type) : r.Plain := by
  constructor
  · rw [hmessage]
    exact statusMessage_line code
  all_goals
    rw [hheaders]
    rintro h hh
    rw [List.mem_singleton.mp hh]
  · exact (by decide +kernel : ∀ c ∈ bytes "Content-Type", isNameChar c = true)
  · exact htype
  · exact (by decide : (bytes "Content-Type").map toupper ≠ bytes "CONTENT-LENGTH")

theorem jsonResponse_plain (code : ℕ) (body : Bytes) : (jsonResponse code body).Plain :=
  plain_of_contentType code rfl rfl (by decide)

theorem htmlResponse_plain (code : ℕ) (body : Bytes) : (htmlResponse code body).Plain :=
  plain_of_contentType code rfl rfl (by decide)

theorem framesResponse_plain (path : Bytes) (canRuntime : Option CanRuntime) :
    (framesResponse path canRuntime).Plain := by
  unfold framesResponse
  simp only
  repeat' split
  all_goals exact jsonResponse_plain _ _

theorem statsResponse_plain (canRuntime : Option CanRuntime) : (statsResponse canRuntime).Plain := by
  unfold statsResponse
  split <;> exact jsonResponse_plain _ _

theorem sendResponse_plain (body : Bytes) (canRuntime : Option CanRuntime) : (sendResponse body canRuntime).Plain := by
  unfold sendResponse
  repeat' split
  all_goals exact jsonResponse_plain _ _

theorem fileResponse_plain {route : Bytes} {openFile : Bytes → Option File} {allocates : ℕ → Bool}
    {resp : HttpResponse} (h : fileResponse route openFile allocates = some resp) : resp.Plain := by
  unfold fileResponse at h
  simp only at h
  split at h
  · cases h
    exact htmlResponse_plain _ _
  · obtain ⟨content, -, rfl⟩ := Option.map_eq_some_iff.mp h
    exact plain_of_contentType 200 rfl rfl (getMimeType_line _)

/-- **Every route** fills in a plain response. -/
theorem filledIn_plain {req : HttpRequest} {env : Environment} {resp : HttpResponse}
    (h : filledIn req env = some resp) : resp.Plain := by
  unfold filledIn at h
  simp only at h
  split_ifs at h
  · cases h
    exact framesResponse_plain _ _
  · cases h
    exact statsResponse_plain _
  · split at h
    · cases h
      exact jsonResponse_plain _ _
    · split at h <;> cases h
      exact jsonResponse_plain _ _
  · cases h
    exact sendResponse_plain _ _
  · exact fileResponse_plain h
  · cases h
    exact htmlResponse_plain _ _
  · cases h
    exact htmlResponse_plain _ _

/-- The answer to a rejected request, as a response object. -/
def badResponse : HttpResponse :=
  ((HttpResponse.new.setStatusCode 400).setHeader (bytes "Content-Type") (bytes "text/plain; charset=utf-8")).setBody
    (bytes "Bad Request")

theorem badRequest_eq : badResponse.serialize plainSurroundings.iteration = badRequest := by decide +kernel

theorem badResponse_plain : badResponse.Plain := plain_of_contentType 400 rfl rfl (by decide)

/-- A file that is `Servable` is read, so it is answered with. -/
theorem fileResponse_isSome {route : Bytes} {openFile : Bytes → Option File} {allocates : ℕ → Bool}
    (h : ∀ filepath, Servable allocates (openFile filepath)) :
    (fileResponse route openFile allocates).isSome = true := by
  unfold fileResponse
  simp only
  split
  · rfl
  · rename_i file hfile
    obtain ⟨hpos, hmax, hmemory⟩ := h _ file hfile
    have hsize : IsStreamsize file.size := by
      unfold kMaxStringSize at hmax
      exact ⟨by omega, by omega⟩
    rw [Option.isSome_map]
    exact (readFile_isSome_iff hsize).mpr ⟨hpos, hmax, hmemory⟩

/-! ### Turns of the parse loop -/

/-- A turn of the parse loop that finds a request. -/
inductive Turn where
  /-- It is accepted and handled in this environment. -/
  | accepted (req : HttpRequest) (env : Environment)
  /-- It is rejected. -/
  | rejected

/-- The body that the answer is given. -/
def Turn.body : Turn → Option Bytes
  | .accepted req env => (filledIn req env).map (·.body)
  | .rejected => some (bytes "Bad Request")

/-- The turn that a step is, if it is one. -/
def turn (s : State) : Act → Option Turn
  | .parse around =>
    match parseStep s.req s.recvBuf with
    | .wait => none
    | .bad _ _ => some .rejected
    | .dispatch req _ => some (.accepted req (s.environment around))
  | _ => none

/-- The turns of a run. -/
def turns (s : State) : List Act → List Turn
  | [] => []
  | a :: as => (turn s a).toList ++ (step s a).elim [] fun s' => turns s' as

/-- Is the turn a request for a stream that succeeds? -/
def Turn.isStream : Turn → Bool
  | .accepted req env =>
    match processRequest req env with
    | .stream _ => true
    | _ => false
  | .rejected => false

/-- The step starts no stream. -/
def NoStream (s : State) (a : Act) : Prop := ∀ t ∈ turn s a, t.isStream = false

instance : ∀ s a, Decidable (NoStream s a) := fun s a =>
  inferInstanceAs (Decidable (∀ t ∈ turn s a, t.isStream = false))

/-! ### What stands in the buffer -/

/-- The response that `processRequest` has yet to queue. -/
def State.inHand (s : State) : List Bytes :=
  match s.reader with
  | .responding response _ => [response]
  | _ => []

/-- What was queued and is in hand is one whole response for each turn. -/
def Answered (ts : List Turn) (queued : Bytes) (inHand : List Bytes) : Prop :=
  ∃ rs last : List (HttpResponse × Iteration), (∀ r ∈ rs ++ last, r.1.Plain) ∧
    ts.map Turn.body = (rs ++ last).map (fun r => some r.1.body) ∧
    queued = rs.flatMap (fun r => r.1.serialize r.2) ∧ inHand = last.map fun r => r.1.serialize r.2

section Answered

variable {ts : List Turn} {queued : Bytes}

/-- A request is found, and its response is in hand. -/
theorem Answered.dispatch (h : Answered ts queued []) {t : Turn} {r : HttpResponse} (hr : r.Plain)
    (ht : t.body = some r.body) (iteration : Iteration) : Answered (ts ++ [t]) queued [r.serialize iteration] := by
  obtain ⟨rs, last, hplain, hbodies, hqueued, hlast⟩ := h
  obtain rfl : last = [] := List.map_eq_nil_iff.mp hlast.symm
  rw [List.append_nil] at hplain hbodies
  refine ⟨rs, [(r, iteration)], fun r' hr' => ?_, by simp [hbodies, ht], hqueued, rfl⟩
  rcases List.mem_append.mp hr' with hr' | hr'
  · exact hplain r' hr'
  · rw [List.mem_singleton.mp hr']
    exact hr

/-- The response in hand is queued. -/
theorem Answered.respond {response : Bytes} (h : Answered ts queued [response]) :
    Answered ts (queued ++ response) [] := by
  obtain ⟨rs, last, hplain, hbodies, hqueued, hlast⟩ := h
  obtain ⟨r, rfl, rfl⟩ := List.map_eq_singleton_iff.mp hlast.symm
  exact ⟨rs ++ [r], [], by rwa [List.append_nil], by rwa [List.append_nil], by simp [hqueued], rfl⟩

/-- The client makes of the responses what the turns were given. -/
theorem Answered.decode {inHand : List Bytes} (h : Answered ts queued inHand) : ∃ bodies last,
    decodeResponses queued = some bodies ∧ ts.map Turn.body = (bodies ++ last).map some ∧
      last.length = inHand.length := by
  obtain ⟨rs, last, hplain, hbodies, rfl, rfl⟩ := h
  refine ⟨rs.map fun r => r.1.body, last.map fun r => r.1.body,
    decodeResponses_serialize fun r hr => hplain r (List.mem_append_left last hr), ?_, by simp⟩
  rw [hbodies, ← List.map_append, List.map_map]
  rfl

end Answered

/-- A connection without a stream, on which these turns were made. -/
structure Pipelined (ts : List Turn) (s : State) : Prop where
  inactive : s.sseActive = false
  pump : s.pump = .idle
  reader : ∀ after len, s.reader ≠ .starting after len
  answered : Answered ts s.out.accepted.flatten s.inHand

theorem pipelined_start (capacity : ℕ) (hc : 0 < capacity) (hasRuntime : Bool) :
    Pipelined [] (.start capacity hc hasRuntime) :=
  ⟨rfl, rfl, nofun, [], [], nofun, rfl, rfl, rfl⟩

/-- Steps that find no request and queue nothing. -/
theorem Pipelined.of_eq {ts : List Turn} {s s' : State} (h : Pipelined ts s) (hactive : s'.sseActive = s.sseActive)
    (hpump : s'.pump = s.pump) (hout : s'.out.accepted.flatten = s.out.accepted.flatten)
    (hhand : s'.inHand = s.inHand) (hreader : ∀ after len, s'.reader ≠ .starting after len) :
    Pipelined (ts ++ []) s' := by
  refine ⟨hactive.trans h.inactive, hpump.trans h.pump, hreader, ?_⟩
  rw [List.append_nil, hout, hhand]
  exact h.answered

/-- After its `updateEvent`, `handleRead` has nothing in hand. -/
theorem afterUpdate_inHand (s : State) (next : AfterUpdate) : (s.afterUpdate next).inHand = [] := by
  cases next <;> rfl

/-- **Every step that starts no stream** queues whole responses, one for each turn. -/
theorem Pipelined.step {ts : List Turn} {s : State} {a : Act} {s' : State} (h : Pipelined ts s) (hq : NoStream s a)
    (hs : Connection.step s a = some s') : Pipelined (ts ++ (turn s a).toList) s' := by
  have hans := h.answered
  cases trans_of_step hs with
  | wait around hr hstep =>
    rw [show turn s (.parse around) = none by simp [turn, hstep]]
    exact h.of_eq rfl rfl rfl (by simp [State.inHand, hr]) nofun
  | bad around text req hr hstep =>
    rw [show turn s (.parse around) = some .rejected by simp [turn, hstep]]
    rw [show s.inHand = [] by simp [State.inHand, hr]] at hans
    have hbad := (hans.dispatch (t := .rejected) badResponse_plain rfl plainSurroundings.iteration).respond
    rw [badRequest_eq] at hbad
    exact ⟨h.inactive, h.pump, nofun, (Output.appendSendBuf_accepted s.out badRequest).symm ▸ hbad⟩
  | dispatch around req len response hr hstep hreply =>
    rw [show turn s (.parse around) = some (.accepted req (s.environment around)) by simp [turn, hstep]]
    rw [show s.inHand = [] by simp [State.inHand, hr]] at hans
    obtain ⟨resp, hfilled, rfl⟩ := processRequest_respond hreply
    have hbody : (Turn.accepted req (s.environment around)).body = some resp.body := by rw [Turn.body, hfilled]; rfl
    exact ⟨h.inactive, h.pump, nofun, hans.dispatch (filledIn_plain hfilled) hbody _⟩
  | dispatchStream around req len after hr hstep hreply =>
    have hno := hq (.accepted req (s.environment around)) (by simp [turn, hstep])
    simp [Turn.isStream, hreply] at hno
  | respond response len hr =>
    rw [show s.inHand = [response] by simp [State.inHand, hr]] at hans
    refine ⟨h.inactive, h.pump, nofun, ?_⟩
    rw [show turn s .respond = none from rfl, Option.toList_none, List.append_nil]
    exact (Output.appendSendBuf_accepted s.out response).symm ▸ hans.respond
  | startSse now after len hr => exact absurd hr (h.reader after len)
  | query _ hactive => exact absurd hactive (by simp [h.inactive])
  | sent _ _ _ _ hp | unsent _ _ _ _ hp | quiet _ _ _ hp | heartbeat _ _ _ hp | noHeartbeat _ _ _ hp | lookupPump hp
  | lostPump hp | modifyPump hp => exact absurd (h.pump.symm.trans hp) nofun
  | lockRead hr | drained hr | hangUp hr | lookupReader _ hr =>
    exact h.of_eq rfl rfl rfl (by simp [State.inHand, hr]) nofun
  | lostReader next hr =>
    refine h.of_eq (by simp) (by simp) (by simp) ?_ ?_
    · rw [afterUpdate_inHand, State.inHand, hr]
    · rcases afterUpdate_reader s next with hr | hr <;> rw [hr] <;> exact nofun
  | modifyReader next hr =>
    refine h.of_eq (by simp) (by simp) (by simp) ?_ ?_
    · rw [afterUpdate_inHand, State.inHand, hr]
    · rcases afterUpdate_reader (s.setInterest next.interest) next with hr | hr <;> rw [hr] <;> exact nofun
  | writing _ b out ha hb hout =>
    rw [show turn s a = none by cases a <;> first | rfl | cases ha]
    exact h.of_eq rfl rfl (congrArg _ (Output.step_writer hb hout).2.2) rfl h.reader
  | fail out hout =>
    exact h.of_eq rfl rfl (congrArg _ (Output.step_writer (a := .leave) trivial hout).2.2) rfl h.reader
  | _ => exact h.of_eq rfl rfl rfl rfl h.reader

/-- Every run that starts no stream. -/
theorem Pipelined.run {ts : List Turn} {s t : State} {as : List Act} (h : Pipelined ts s)
    (hrun : Library.run Connection.step s as = some t) (hq : Meets NoStream Connection.step s as) :
    Pipelined (ts ++ turns s as) t := by
  induction as generalizing ts s with
  | nil =>
    cases hrun
    simpa [turns] using h
  | cons a as ih =>
    obtain ⟨s', hs, hrun⟩ := run_cons_some hrun
    obtain ⟨hqa, hqs⟩ := hq
    have hnext := ih (h.step hqa hs) hrun (hqs s' hs)
    rwa [List.append_assoc, show (turn s a).toList ++ turns s' as = turns s (a :: as) by simp [turns, hs]] at hnext

/-! ### The responses match the requests -/

/-- Every file can be read into a `std::string`, and there is memory for it. -/
def Surroundings.Regular (around : Surroundings) : Prop :=
  ∀ filepath, Servable around.allocates (around.openFile filepath)

/-- With files that are `Servable` no handler throws. -/
theorem processRequest_ne_throws {req : HttpRequest} {env : Environment}
    (h : ∀ filepath, Servable env.allocates (env.openFile filepath)) : processRequest req env ≠ .throws := by
  rcases processRequest_cases req env with ⟨resp, -, hreply⟩ | ⟨after, hreply⟩ | ⟨-, hfile⟩
  · rw [hreply]
    exact nofun
  · rw [hreply]
    exact nofun
  · have hsome := @fileResponse_isSome (pathWithoutQuery req.path) env.openFile env.allocates h
    rw [hfile] at hsome
    cases hsome

/-- In regular surroundings the parse loop goes on. -/
theorem parse_regular {s : State} (h : s.reader = .parsing) {around : Surroundings} (hregular : around.Regular) :
    ∃ s', step s (.parse around) = some s' := by
  simp only [step, if_pos h, parseTurn]
  split
  · exact ⟨_, rfl⟩
  · exact ⟨_, rfl⟩
  · rename_i req len _
    cases hreply : processRequest req (s.environment around) with
    | respond response => exact ⟨_, rfl⟩
    | stream after => exact ⟨_, rfl⟩
    | throws => exact absurd hreply (processRequest_ne_throws hregular)

/-- **Responses match requests**, in any run in which no request for a stream succeeds:
the client cuts what was queued into bodies, with nothing left over, and these are, in
order, the bodies that the routes set for the requests found, up to the one that
`processRequest` may have in hand. With files that can be read there is no request
without a response. -/
theorem responses_match_requests {capacity : ℕ} {hc : 0 < capacity} {hasRuntime : Bool} {as : List Act} {s : State}
    (h : run step (.start capacity hc hasRuntime) as = some s)
    (hstream : Meets NoStream step (.start capacity hc hasRuntime) as) :
    (∃ bodies last, decodeResponses s.out.accepted.flatten = some bodies ∧
      (turns (.start capacity hc hasRuntime) as).map Turn.body = (bodies ++ last).map some ∧
        last.length = s.inHand.length) ∧
      ∀ around : Surroundings, around.Regular → s.reader = .parsing → ∃ s', step s (.parse around) = some s' := by
  have hpipelined := (pipelined_start capacity hc hasRuntime).run h hstream
  rw [List.nil_append] at hpipelined
  exact ⟨hpipelined.answered.decode, fun _ hregular hr => parse_regular hr hregular⟩

/-- A request for a page that is not there, and one with a blank line in its body. -/
def twoRequests : List Act :=
  [.lockRead, .recv (pageRequest ++ bytes "POST /e HTTP/1.1\r\nContent-Length: 8\r\n\r\na\r\n\r\nHTT"), .drained,
    .parse plainSurroundings, .respond, .lookup .reader, .modify .reader,
    .parse plainSurroundings, .respond, .lookup .reader, .modify .reader, .parse plainSurroundings]

theorem responses_match_requests_two : ∃ s,
    run step (.start 8 (by decide) true) twoRequests = some s ∧
    (∃ bodies last, decodeResponses s.out.accepted.flatten = some bodies ∧
      (turns (.start 8 (by decide) true) twoRequests).map Turn.body = (bodies ++ last).map some ∧
        last.length = s.inHand.length) ∧
      ∀ around : Surroundings, around.Regular → s.reader = .parsing → ∃ s', step s (.parse around) = some s' := by
  have h : (run step (.start 8 (by decide) true) twoRequests).map (·.queued.length) = some 2 := by decide +kernel
  obtain ⟨s, hs, -⟩ := Option.map_eq_some_iff.mp h
  exact ⟨s, hs, responses_match_requests hs (by decide +kernel)⟩

end CanMonitor.Connection
