import CanMonitor.Http.Request

/-!
# Framing

How a connection cuts the bytes it receives into requests: `extractContentLength`, the
parse loop of `Connection::handleRead`, and `handleRead` itself as far as it concerns
the two members `recv_buf` and `req` (what `processRequest` does with a dispatched
request is another matter; it touches neither).

## The model

* `parseStep` — one iteration of the loop: it stops (`wait`), answers 400 (`bad`), or
  dispatches a request and takes its bytes off the buffer (`dispatch`). Lengths are
  `size_t`, so their sum is modulo `2^64`.
* `parseLoop` — the loop. It ends because a dispatched request has a head, and so at
  least one byte (`parseStep_dispatch`).
* `handleRead` — one call: what the `read`s return until `EAGAIN`, then the loop.
* `serve` — calls of `handleRead` one after the other.

## What is proved

* `parseStep_dispatch` — a dispatched request has the length that its head announces,
  without wrap-around, and is all there.
-/

namespace CanMonitor.Http

open CanMonitor.Library

/-! ### The length of a request -/

/-- The characters that `trim` cuts off: `" \t\r\n"`. -/
def isTrimmed (c : UInt8) : Bool := c == 32 || c == 9 || c == 13 || c == 10

theorem isspace_of_isTrimmed : ∀ c : UInt8, isTrimmed c = true → isspace c = true := forall_byte (by decide +kernel)

/-- The loop of `extractContentLength` over the lines after the first. -/
def scanLength : List Bytes → ℕ
  | [] => 0
  | line :: rest =>
    if stripCR line = [] then 0
    else match find [58] (stripCR line) with
      | none => scanLength rest
      | some colon =>
        if trim isTrimmed ((stripCR line).take colon) = contentLengthName then
          (stoul (trim isTrimmed ((stripCR line).drop (colon + 1)))).getD 0
        else scanLength rest

/-- How many bytes of body the head of the first request announces. -/
def extractContentLength (request : Bytes) : ℕ :=
  match find blankLine request with
  | none => 0
  | some headerEnd => scanLength (lines 10 (request.take headerEnd)).tail

/-- Does a header line announce a length: is its name, trimmed, `Content-Length`? -/
def announces (line : Bytes) : Bool :=
  match find [58] line with
  | none => false
  | some colon => trim isTrimmed (line.take colon) = contentLengthName

/-- The number after the colon of a header line. -/
def announced (line : Bytes) : Option ℕ :=
  (find [58] line).bind fun colon => stoul (line.drop (colon + 1))

/-- `extractContentLength` goes by the first header line that announces a length; a number
that is none counts as `0`. -/
theorem scanLength_eq (ls : List Bytes) :
    scanLength ls = (((headerLines ls).find? announces).bind announced).getD 0 := by
  induction ls with
  | nil => rfl
  | cons line rest ih =>
    rw [headerLines_cons, scanLength]
    by_cases he : stripCR line = []
    · simp [he]
    · simp only [if_neg he, List.find?_cons, announces]
      cases hf : find [58] (stripCR line) with
      | none => simpa using ih
      | some colon =>
        by_cases hk : trim isTrimmed ((stripCR line).take colon) = contentLengthName
        · simp [hk, announced, hf, stoul_trim isspace_of_isTrimmed]
        · simp [hk, ih]

theorem scanLength_lt (ls : List Bytes) : scanLength ls < 2 ^ 64 := by
  induction ls with
  | nil => exact Nat.two_pow_pos 64
  | cons line rest ih =>
    unfold scanLength
    split
    · exact Nat.two_pow_pos 64
    split
    · exact ih
    split
    · cases hn : stoul (trim isTrimmed ((stripCR line).drop _)) with
      | none => exact Nat.two_pow_pos 64
      | some n => exact stoul_lt hn
    · exact ih

theorem extractContentLength_lt (request : Bytes) : extractContentLength request < 2 ^ 64 := by
  unfold extractContentLength
  split
  · exact Nat.two_pow_pos 64
  · exact scanLength_lt _

/-! ### The parse loop -/

/-- What one iteration of the parse loop does. -/
inductive Step where
  /-- No complete request is there. -/
  | wait
  /-- This text is rejected, which leaves the request object so. -/
  | bad (text : Bytes) (req : HttpRequest)
  /-- The request is accepted; it takes so many bytes. -/
  | dispatch (req : HttpRequest) (requestLen : ℕ)

/-- One iteration of the parse loop. -/
def parseStep (req : HttpRequest) (recvBuf : Bytes) : Step :=
  match find blankLine recvBuf with
  | none => .wait
  | some headerEnd =>
    let requestLen := (headerEnd + 4 + extractContentLength recvBuf) % 2 ^ 64
    if recvBuf.length < requestLen then .wait
    else match parse req (recvBuf.take requestLen) with
      | (false, req) => .bad (recvBuf.take requestLen) req
      | (true, req) => .dispatch req requestLen

instance (step : Step) : Decidable (step = .wait) :=
  match step with
  | .wait => isTrue rfl
  | .bad _ _ => isFalse nofun
  | .dispatch _ _ => isFalse nofun

/-- An accepted text has a blank line. -/
theorem exists_find_of_parse {r r' : HttpRequest} {data : Bytes} (h : parse r data = (true, r')) :
    ∃ i, find blankLine data = some i := by
  obtain ⟨_, _, _, headers, body, -, -, -, hb, -⟩ := parse_eq_true h
  rw [← Option.ne_none_iff_exists']
  intro hnone
  rw [bodyOf, hnone] at hb
  cases hb

/-- **A dispatched request** has a head, which announces its length, and is all there. -/
theorem parseStep_dispatch {req r : HttpRequest} {recvBuf : Bytes} {len : ℕ}
    (h : parseStep req recvBuf = .dispatch r len) :
    ∃ headerEnd, find blankLine recvBuf = some headerEnd ∧
      len = headerEnd + 4 + extractContentLength recvBuf ∧ len ≤ recvBuf.length ∧
      parse req (recvBuf.take len) = (true, r) := by
  unfold parseStep at h
  split at h
  · cases h
  rename_i headerEnd hf
  simp only at h
  split_ifs at h with hlen
  split at h
  · cases h
  rename_i r₁ hp
  cases h
  refine ⟨headerEnd, hf, ?_, Nat.le_of_not_lt hlen, hp⟩
  -- a sum that wrapped around would cut the text before the end of the blank line
  obtain ⟨i, hi⟩ := exists_find_of_parse hp
  have hlt := extractContentLength_lt recvBuf
  have hcut : ¬ (headerEnd + 4 + extractContentLength recvBuf) % 2 ^ 64 < headerEnd + 4 := fun hcut => by
    rw [find_take_eq_none hf hcut] at hi
    cases hi
  omega

/-- A rejected text was parsed into the object that was there. -/
theorem parseStep_bad {req r : HttpRequest} {recvBuf text : Bytes} (h : parseStep req recvBuf = .bad text r) :
    parse req text = (false, r) := by
  unfold parseStep at h
  split at h
  · cases h
  simp only at h
  split_ifs at h
  split at h
  · cases h
    assumption
  · cases h

/-- The two members of a connection that reading is about. -/
structure Reader where
  /-- `recv_buf`. -/
  recvBuf : Bytes
  /-- `req`. -/
  req : HttpRequest

/-- The members of a new connection. -/
def Reader.fresh : Reader := ⟨[], .fresh⟩

/-- What a call of `handleRead` does, one after the other. -/
inductive Event where
  /-- `processRequest()` with this `req`. -/
  | dispatched (req : HttpRequest)
  /-- The answer 400 to a text. -/
  | rejected (text : Bytes)
  /-- The connection is removed: the peer closed it, or reading failed. -/
  | removed

/-- The parse loop of `handleRead`. -/
def parseLoop (s : Reader) : List Event × Reader :=
  match _ : parseStep s.req s.recvBuf with
  | .wait => ([], s)
  | .bad text req => ([.rejected text], ⟨[], req⟩)
  | .dispatch req len =>
    let (es, t) := parseLoop ⟨s.recvBuf.drop len, .fresh⟩
    (.dispatched req :: es, t)
termination_by s.recvBuf.length
decreasing_by
  rename_i h
  obtain ⟨headerEnd, -, rfl, hle, -⟩ := parseStep_dispatch h
  simp only [List.length_drop]
  omega

theorem parseLoop_wait {s : Reader} (h : parseStep s.req s.recvBuf = .wait) : parseLoop s = ([], s) := by
  rw [parseLoop]
  split <;> simp_all

theorem parseLoop_bad {s : Reader} {text : Bytes} {r : HttpRequest}
    (h : parseStep s.req s.recvBuf = .bad text r) : parseLoop s = ([.rejected text], ⟨[], r⟩) := by
  rw [parseLoop]
  split <;> simp_all

theorem parseLoop_dispatch {s : Reader} {r : HttpRequest} {len : ℕ}
    (h : parseStep s.req s.recvBuf = .dispatch r len) :
    parseLoop s = (.dispatched r :: (parseLoop ⟨s.recvBuf.drop len, .fresh⟩).1,
      (parseLoop ⟨s.recvBuf.drop len, .fresh⟩).2) := by
  rw [parseLoop]
  split <;> simp_all

/-! ### Calls of `handleRead` -/

/-- What `read` returns, other than that there is nothing to read yet. -/
inductive ReadResult where
  /-- Some bytes. -/
  | data (chunk : Bytes)
  /-- The end of the stream. -/
  | closed
  /-- An error that is not `EAGAIN`. -/
  | failed

/-- The read loop: the buffer afterwards, and whether it ended with `EAGAIN` (which is
where the list ends). -/
def drain (recvBuf : Bytes) : List ReadResult → Bytes × Bool
  | [] => (recvBuf, true)
  | .data chunk :: rest => drain (recvBuf ++ chunk) rest
  | .closed :: _ => (recvBuf, false)
  | .failed :: _ => (recvBuf, false)

/-- One call of `handleRead`. -/
def handleRead (s : Reader) (reads : List ReadResult) : List Event × Reader :=
  match drain s.recvBuf reads with
  | (recvBuf, true) => parseLoop { s with recvBuf }
  | (recvBuf, false) => ([.removed], { s with recvBuf })

/-- Calls of `handleRead` one after the other. -/
def serve (s : Reader) : List (List ReadResult) → List Event × Reader
  | [] => ([], s)
  | reads :: rest =>
    ((handleRead s reads).1 ++ (serve (handleRead s reads).2 rest).1, (serve (handleRead s reads).2 rest).2)

theorem serve_concat (s : Reader) (history : List (List ReadResult)) (reads : List ReadResult) :
    serve s (history ++ [reads]) = ((serve s history).1 ++ (handleRead (serve s history).2 reads).1,
      (handleRead (serve s history).2 reads).2) := by
  induction history generalizing s with
  | nil => simp [serve]
  | cons first history ih => simp [serve, ih]

theorem drain_data (recvBuf : Bytes) (chunks : List Bytes) :
    drain recvBuf (chunks.map .data) = (recvBuf ++ chunks.flatten, true) := by
  induction chunks generalizing recvBuf with
  | nil => simp [drain]
  | cons chunk chunks ih => rw [List.map_cons, drain, ih, List.flatten_cons, List.append_assoc]

/-- A call that reads without end or error. -/
theorem handleRead_data (s : Reader) (chunks : List Bytes) :
    handleRead s (chunks.map .data) = parseLoop { s with recvBuf := s.recvBuf ++ chunks.flatten } := by
  rw [handleRead, drain_data]

end CanMonitor.Http
