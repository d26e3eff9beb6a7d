import CanMonitor.Connection.DocumentRoot
import CanMonitor.Connection.Pipelining

/-!
# Static files

When a `GET` of a file is answered. `processRequest` makes a string as long as `tellg` says
that the file is, so what matters is that number, and whether there is memory for so many
characters: a directory opens like any file, and `tellg` then says what the file system
likes, or `-1` when it fails; and a regular file may be longer than the memory. What `read`
delivers does not matter; what is missing stays null characters.

Nothing catches an exception between `processRequest` and the end of a worker's thread, so
one that is thrown ends the program: in `step`, there is no step.

## The model

* `Servable` — the file does not open, or a string can have its size and there is memory for it.
* `Reply.IsWhole` — one response is queued, and a client cuts one body from it and has
  nothing left.
* `State.Answers` — the same of a connection that has found a request.

## What is proved

* `processRequest_cases_file` — a `GET` of a file is answered, or the handler throws.
* `static_file_served_iff` — it is answered exactly when the file is `Servable`.
* `directory_ends_program` — a request for `/.` need not be.
* `memory_ends_program` — nor one for a file that is longer than the memory.
-/

namespace CanMonitor.Connection

open CanMonitor.Library CanMonitor.Can CanMonitor.Http

/-! ### Being answered -/

/-- One response is queued, and it is whole. -/
def Reply.IsWhole (reply : Reply) : Prop :=
  ∃ response body, reply = .respond response ∧ decodeResponses response = some [body]

/-- A turn of the parse loop puts one more response into the buffer, and it is whole. -/
def State.Answers (s : State) (around : Surroundings) : Prop :=
  ∃ t response body, run step s [.parse around, .respond] = some t ∧
    t.out.accepted = s.out.accepted ++ [response] ∧ decodeResponses response = some [body]

/-- What is whole is not empty. -/
theorem ne_nil_of_decode {response body : Bytes} (h : decodeResponses response = some [body]) : response ≠ [] := by
  rintro rfl
  rw [decodeResponses_nil] at h
  cases h

/-- A plain response is whole. -/
theorem decode_serialize {resp : HttpResponse} (h : resp.Plain) (iteration : Iteration) :
    decodeResponses (resp.serialize iteration) = some [resp.body] := by
  have hone := @decodeResponses_serialize [(resp, iteration)] (List.forall_mem_singleton.mpr h)
  rwa [List.flatMap_singleton] at hone

/-- A response in hand is queued, and nothing else. -/
theorem respond_accepted {s : State} {response : Bytes} {requestLen : ℕ}
    (hreader : s.reader = .responding response requestLen) (hne : response ≠ []) :
    ∃ t, step s .respond = some t ∧ t.out.accepted = s.out.accepted ++ [response] := by
  refine ⟨{ s.queue (.response response) with reader := .updating (.erase requestLen) false }, ?_, ?_⟩
  · simp only [step, hreader]
  · change (s.out.appendSendBuf response).accepted = _
    rw [Output.appendSendBuf, if_neg hne]
    rfl

/-- There is a response for a file exactly when it is `Servable`. -/
theorem fileResponse_isSome_iff {route : Bytes} {openFile : Bytes → Option File} {allocates : ℕ → Bool}
    (hsize : ∀ file ∈ openFile (filepath route), IsStreamsize file.size) :
    (fileResponse route openFile allocates).isSome = true ↔ Servable allocates (openFile (filepath route)) := by
  unfold fileResponse
  simp only [← filepath.eq_1]
  cases hopen : openFile (filepath route) with
  | none => exact iff_of_true rfl fun file hfile => absurd hfile (Option.not_mem_none file)
  | some file =>
    simp only [Option.isSome_map, readFile_isSome_iff (hsize file hopen), Servable, Option.mem_some_iff, forall_eq']

section

variable {req : HttpRequest} (hget : req.method = .get) (hroute : pathWithoutQuery req.path ∉ apiRoutes)
  {env : Environment} (hsize : ∀ file ∈ env.openFile (filepath (pathWithoutQuery req.path)), IsStreamsize file.size)
include hget hroute hsize

/-- **How a `GET` of a file ends**: with a plain response, or not at all. -/
theorem processRequest_cases_file :
    (Servable env.allocates (env.openFile (filepath (pathWithoutQuery req.path))) ∧ ∃ resp : HttpResponse, resp.Plain ∧
      processRequest req env = .respond (resp.serialize env.iteration)) ∨
    (¬ Servable env.allocates (env.openFile (filepath (pathWithoutQuery req.path))) ∧ processRequest req env = .throws) := by
  rw [← fileResponse_isSome_iff hsize, processRequest_file hget hroute]
  cases hresp : fileResponse (pathWithoutQuery req.path) env.openFile env.allocates with
  | none => exact .inr ⟨Bool.false_ne_true, rfl⟩
  | some resp => exact .inl ⟨rfl, resp, fileResponse_plain hresp, rfl⟩

theorem isWhole_iff : (processRequest req env).IsWhole ↔
    Servable env.allocates (env.openFile (filepath (pathWithoutQuery req.path))) := by
  rcases processRequest_cases_file hget hroute hsize with ⟨hservable, resp, hplain, hreply⟩ | ⟨hnot, hreply⟩
  · exact iff_of_true ⟨_, _, hreply, decode_serialize hplain _⟩ hservable
  · refine iff_of_false ?_ hnot
    rintro ⟨response, body, hrespond, -⟩
    rw [hreply] at hrespond
    cases hrespond

section

variable {s : State} {around : Surroundings} {requestLen : ℕ} (hreader : s.reader = .parsing)
  (hfound : parseStep s.req s.recvBuf = .dispatch req requestLen) (henv : s.environment around = env)
include hreader hfound henv

/-- A connection that has found a request for a file that is `Servable` answers it. -/
theorem answers_of_servable (h : Servable env.allocates (env.openFile (filepath (pathWithoutQuery req.path)))) :
    s.Answers around := by
  subst henv
  obtain ⟨-, resp, hplain, hreply⟩ | ⟨hnot, -⟩ := processRequest_cases_file hget hroute hsize
  · have hwhole := decode_serialize hplain (s.environment around).iteration
    have hturn : step s (.parse around) = parseTurn s around := if_pos hreader
    simp only [parseTurn, hfound, hreply] at hturn
    obtain ⟨t, hrespond, haccepted⟩ := respond_accepted (s := { s with
      req, reader := .responding (resp.serialize (s.environment around).iteration) requestLen })
        rfl (ne_nil_of_decode hwhole)
    have hrun : run step s [.parse around, .respond] = some t := by
      rw [run_cons, hturn, Option.bind_some, run_cons, hrespond]
      rfl
    exact ⟨t, _, _, hrun, haccepted, hwhole⟩
  · exact absurd h hnot

/-- A file that cannot be served ends the program. -/
theorem step_parse_eq_none (h : ¬ Servable env.allocates (env.openFile (filepath (pathWithoutQuery req.path)))) :
    step s (.parse around) = none := by
  subst henv
  obtain ⟨hservable, -⟩ | ⟨-, hreply⟩ := processRequest_cases_file hget hroute hsize
  · exact absurd hservable h
  · have hturn : step s (.parse around) = parseTurn s around := if_pos hreader
    simpa only [parseTurn, hfound, hreply] using hturn

theorem answers_iff : s.Answers around ↔ Servable env.allocates (env.openFile (filepath (pathWithoutQuery req.path))) := by
  refine ⟨?_, answers_of_servable hget hroute hsize hreader hfound henv⟩
  rintro ⟨t, response, body, hrun, -⟩
  by_contra hnot
  rw [run_cons, step_parse_eq_none hget hroute hsize hreader hfound henv hnot] at hrun
  cases hrun

end

/-- **A static file is served** exactly when it does not open, or a string can have the size
that `tellg` says and there is memory for it: then one whole response is queued, by the
handler and in any connection that has found the request. Otherwise the handler throws, and
the program ends. -/
theorem static_file_served_iff :
    ((processRequest req env).IsWhole ↔ Servable env.allocates (env.openFile (filepath (pathWithoutQuery req.path)))) ∧
      ∀ (s : State) (around : Surroundings) (requestLen : ℕ), s.reader = .parsing →
        parseStep s.req s.recvBuf = .dispatch req requestLen → s.environment around = env →
          (s.Answers around ↔ Servable env.allocates (env.openFile (filepath (pathWithoutQuery req.path)))) :=
  ⟨isWhole_iff hget hroute hsize,
    fun _ _ _ hreader hfound henv => answers_iff hget hroute hsize hreader hfound henv⟩

end

/-- Surroundings in which one name opens. -/
def oneFile (name : Bytes) (file : File) : Surroundings :=
  { plainSurroundings with openFile := fun other => if other = name then some file else none }

theorem oneFile_open (s : State) {name other : Bytes} (h : other = name) (file : File) :
    (s.environment (oneFile name file)).openFile other = some file := by
  change (if other = name then some file else none) = some file
  rw [if_pos h]

/-- A connection that has read a text and is about to parse it. -/
def received (text : Bytes) : State := { State.start 1 Nat.one_pos true with recvBuf := text, reader := .parsing }

/-- A request for a style sheet. -/
def styleRequest : HttpRequest := { HttpRequest.fresh with method := .get, path := bytes "/style.css?v=1" }

/-- A style sheet of which `tellg` says three bytes and `read` delivers one. -/
def styleSheet : Surroundings := oneFile (bytes "wwwroot/style.css") ⟨3, bytes "a"⟩

theorem static_file_served_iff_style :
    (processRequest styleRequest ((received []).environment styleSheet)).IsWhole := by
  have hname : filepath (pathWithoutQuery styleRequest.path) = bytes "wwwroot/style.css" := by decide +kernel
  have hopen : ((received []).environment styleSheet).openFile (filepath (pathWithoutQuery styleRequest.path)) =
    some ⟨3, bytes "a"⟩ := oneFile_open _ hname _
  refine (static_file_served_iff rfl (by decide +kernel) ?_).1.mpr ?_
  · rw [hopen]
    exact fun file hfile => Option.mem_some.mp hfile ▸ ⟨by decide, by decide⟩
  · rw [hopen]
    exact fun file hfile => Option.mem_some.mp hfile ▸ ⟨by decide, by decide, by decide +kernel⟩

/-- A connection that finds a request for a file that is not `Servable` ends the program. -/
theorem oneFile_ends_program {text : Bytes} {req : HttpRequest} {name : Bytes} {file : File}
    (hfound : parseStep .fresh text = .dispatch req text.length) (hget : req.method = .get)
    (hroute : pathWithoutQuery req.path ∉ apiRoutes) (hname : filepath (pathWithoutQuery req.path) = name)
    (hsize : IsStreamsize file.size) (hnot : ¬ Servable plainSurroundings.allocates (some file)) :
    ¬ (processRequest req ((received text).environment (oneFile name file))).IsWhole ∧
      ¬ (received text).Answers (oneFile name file) ∧ step (received text) (.parse (oneFile name file)) = none := by
  have hopen : ((received text).environment (oneFile name file)).openFile (filepath (pathWithoutQuery req.path)) =
    some file := oneFile_open _ hname _
  have hsizes : ∀ opened ∈ ((received text).environment (oneFile name file)).openFile
      (filepath (pathWithoutQuery req.path)), IsStreamsize opened.size := by
    rw [hopen]
    exact fun opened hopened => Option.mem_some.mp hopened ▸ hsize
  rw [← hopen] at hnot
  exact ⟨fun h => hnot ((isWhole_iff hget hroute hsizes).mp h),
    fun h => hnot ((answers_iff hget hroute hsizes rfl hfound rfl).mp h),
    step_parse_eq_none hget hroute hsizes rfl hfound rfl hnot⟩

/-- A request for the directory of the files. -/
def directoryText : Bytes := bytes "GET /. HTTP/1.1\r\n\r\n"

/-- The request for the directory, as it is parsed. -/
def directoryRequest : HttpRequest := (parse .fresh directoryText).2

/-- The directory of the files, with what `tellg` says of it. -/
def directory (size : ℤ) : Surroundings := oneFile (bytes "wwwroot/.") ⟨size, []⟩

/-- **A directory ends the program**, whether `tellg` says the largest number or fails: the
request is accepted, and then there is no step. -/
theorem directory_ends_program :
    run step (.start 1 Nat.one_pos true) [.lockRead, .recv directoryText, .drained] = some (received directoryText) ∧
    parseStep .fresh directoryText = .dispatch directoryRequest directoryText.length ∧
    directoryRequest.method = .get ∧ pathWithoutQuery directoryRequest.path ∉ apiRoutes ∧
    ∀ size ∈ [(2 ^ 63 - 1 : ℤ), -1], IsStreamsize size ∧
      ¬ (processRequest directoryRequest ((received directoryText).environment (directory size))).IsWhole ∧
      ¬ (received directoryText).Answers (directory size) ∧
      step (received directoryText) (.parse (directory size)) = none := by
  have hget : directoryRequest.method = .get := by decide +kernel
  have hroute : pathWithoutQuery directoryRequest.path ∉ apiRoutes := by decide +kernel
  have hname : filepath (pathWithoutQuery directoryRequest.path) = bytes "wwwroot/." := by decide +kernel
  have hfound : parseStep .fresh directoryText = .dispatch directoryRequest directoryText.length := rfl
  refine ⟨rfl, hfound, hget, hroute, fun size hsize => ?_⟩
  have hrange : IsStreamsize size ∧ ¬ Servable plainSurroundings.allocates (some ⟨size, []⟩) := by
    rw [List.mem_cons, List.mem_singleton] at hsize
    rcases hsize with rfl | rfl
    · exact ⟨⟨by decide, by decide⟩, fun h => absurd (h _ rfl).2.1 (by decide)⟩
    · exact ⟨⟨by decide, by decide⟩, fun h => absurd (h _ rfl).1 (by decide)⟩
  exact ⟨hrange.1, oneFile_ends_program hfound hget hroute hname hrange.1 hrange.2⟩

/-- A request for a recording. -/
def recordingText : Bytes := bytes "GET /bus.log HTTP/1.1\r\n\r\n"

/-- The request for the recording, as it is parsed. -/
def recordingRequest : HttpRequest := (parse .fresh recordingText).2

/-- The recording, of `15 * 2^40` bytes. -/
def recording : Surroundings := oneFile (bytes "wwwroot/bus.log") ⟨15 * 2 ^ 40, []⟩

/-- **A file longer than the memory ends the program**, though a string could have its size. -/
theorem memory_ends_program :
    parseStep .fresh recordingText = .dispatch recordingRequest recordingText.length ∧
    (15 * 2 ^ 40 ≤ kMaxStringSize ∧ recording.allocates (15 * 2 ^ 40) = false) ∧
    ¬ (processRequest recordingRequest ((received recordingText).environment recording)).IsWhole ∧
    ¬ (received recordingText).Answers recording ∧ step (received recordingText) (.parse recording) = none := by
  have hfound : parseStep .fresh recordingText = .dispatch recordingRequest recordingText.length := rfl
  refine ⟨hfound, by decide +kernel, ?_⟩
  refine oneFile_ends_program hfound (by decide +kernel) (by decide +kernel) (by decide +kernel) ?_ fun h => ?_
  · exact ⟨by decide, by decide⟩
  · exact absurd (h _ rfl).2.2 (by decide +kernel)

end CanMonitor.Connection
