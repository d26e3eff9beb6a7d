import CanMonitor.Connection.Json
import CanMonitor.Http.Framing
import CanMonitor.Http.Response

/-!
# Routes

What `Connection::processRequest` answers. It ends in one of three ways (`Reply`): it
queues a response, it starts a stream, or it throws, when a file says it is longer than
a `std::string` can be, or there is no memory for one of that length.

## The model

What the request handlers ask of the rest of the world is in `Environment`: the CAN
runtime, if the server has one, the files below `wwwroot`, the memory for a file, and the
order of the header map. A string whose length does not come from a file is taken to be
had. Maps from text to text are functions; `result[key] = value` is `Function.update`.
Cutting a string with `find` and `substr` goes by the rest of the string after each
`find`.
-/

namespace CanMonitor.Connection

open CanMonitor.Library CanMonitor.Can CanMonitor.Http

/-! ### Parameters -/

/-- `pathWithoutQuery`. -/
def pathWithoutQuery (path : Bytes) : Bytes := path.takeWhile (· ≠ 63)

/-- Store an item of a query: what is before its `=` is the key. An item without `=` is
skipped. -/
def storeItem (result : Bytes → Option Bytes) (item : Bytes) : Bytes → Option Bytes :=
  match find [61] item with
  | none => result
  | some equals => Function.update result (item.take equals) (some (item.drop (equals + 1)))

/-- The loop of `parseQuery` over the rest of the query. -/
def queryItems (result : Bytes → Option Bytes) (query : Bytes) : Bytes → Option Bytes :=
  match _ : find [38] query with
  | none => storeItem result query
  | some ampersand => queryItems (storeItem result (query.take ampersand)) (query.drop (ampersand + 1))
termination_by query.length
decreasing_by
  rename_i h
  have := find_add_length_le h
  rw [List.length_singleton] at this
  rw [List.length_drop]
  omega

theorem queryItems_last {query : Bytes} (h : find [38] query = none) (result : Bytes → Option Bytes) :
    queryItems result query = storeItem result query := by
  rw [queryItems]
  split
  · rfl
  · simp_all

theorem queryItems_item {query : Bytes} {ampersand : ℕ} (h : find [38] query = some ampersand)
    (result : Bytes → Option Bytes) : queryItems result query =
      queryItems (storeItem result (query.take ampersand)) (query.drop (ampersand + 1)) := by
  rw [queryItems]
  split <;> simp_all

/-- `parseQuery`. -/
def parseQuery (path : Bytes) : Bytes → Option Bytes :=
  match find [63] path with
  | none => fun _ => none
  | some questionMark => queryItems (fun _ => none) (path.drop (questionMark + 1))

/-- `parseUnsigned`: the number that the whole text is. -/
def parseUnsigned (text : Bytes) : Option ℕ :=
  match strtoull 0 text with
  | some (parsed, consumed) => if consumed = text.length then some parsed else none
  | none => none

/-- The largest identifier, `0x1FFFFFFF`. -/
def kMaxId : ℕ := 0x1FFFFFFF

/-! ### The body of a send request -/

/-- `readValue`: the text after the colon that follows a key, up to a comma or a closing
brace, without its quotes; an empty one counts as none. -/
def readValue (body key : Bytes) : Option Bytes :=
  (find (34 :: key ++ [34]) body).bind fun keyPosition =>
    (find [58] (body.drop keyPosition)).bind fun colon =>
      let rest := (body.drop (keyPosition + colon + 1)).dropWhile isspace
      let value := trim isTrimmed (rest.takeWhile fun c => c ≠ 44 ∧ c ≠ 125)
      let value :=
        if 2 ≤ value.length ∧ value.head? = some 34 ∧ value.getLast? = some 34 then value.tail.dropLast
        else value
      if value = [] then none else some value

/-- The loop that reads the numbers between the brackets. -/
def readBytes (data : List UInt8) (text : Bytes) : Option (List UInt8) :=
  if _ : (text.dropWhile fun c => isspace c || c == 44) = [] then some data
  else
    let rest := text.dropWhile fun c => isspace c || c == 44
    match parseUnsigned (trim isTrimmed (rest.takeWhile (· ≠ 44))) with
    | none => none
    | some byte =>
      if 0xFF < byte ∨ kMaxDataLength ≤ data.length then none
      else readBytes (data ++ [UInt8.ofNat byte]) (rest.dropWhile (· ≠ 44))
termination_by text.length
decreasing_by
  -- the first character left is no comma, so the item takes at least that one
  have h : ¬ text.dropWhile (fun c => isspace c || c == 44) = [] := by assumption
  have hc := List.head_dropWhile_not (fun c => isspace c || c == 44) h
  have hle := (List.dropWhile_sublist (l := text) fun c => isspace c || c == 44).length_le
  generalize hr : text.dropWhile (fun c => isspace c || c == 44) = r at h hc hle
  obtain ⟨c, t, rfl⟩ := List.exists_cons_of_ne_nil h
  rw [List.head_cons, Bool.or_eq_false_iff, beq_eq_false_iff_ne] at hc
  rw [List.dropWhile_cons_of_pos (by simpa using hc.2)]
  have := (List.dropWhile_sublist (l := t) (· ≠ 44)).length_le
  rw [List.length_cons] at hle
  omega

/-- `parseSendBody`, called with the flag off and no data. -/
def parseSendBody (body : Bytes) : Option (UInt32 × Bool × List UInt8) :=
  match (readValue body (bytes "id")).bind parseUnsigned with
  | none => none
  | some parsedId =>
    if kMaxId < parsedId then none
    else
      let extended : Option Bool :=
        match readValue body (bytes "extended") with
        | none => some false
        | some text => if text = bytes "true" then some true else if text = bytes "false" then some false else none
      match extended with
      | none => none
      | some isExtended =>
        match find (bytes "\"data\"") body with
        | none => none
        | some dataKey =>
          match find [91] (body.drop dataKey) with
          | none => none
          | some beginBracket =>
            let inside := body.drop (dataKey + beginBracket)
            match find [93] inside with
            | none => none
            | some endBracket =>
              (readBytes [] ((inside.take endBracket).drop 1)).map fun data =>
                (UInt32.ofNat parsedId, isExtended, data)

/-! ### The environment -/

/-- What `CanRuntime` offers to a connection. -/
structure CanRuntime where
  store : FrameStore
  busStats : CanBusStatisticsSnapshot
  /-- `sender_.isOpen()`. -/
  senderIsOpen : Bool
  /-- Whether `sender_.sendRaw` succeeds. -/
  sendRaw : UInt32 → Bool → List UInt8 → Bool

/-- `CanRuntime::sendFrame`. -/
def CanRuntime.sendFrame (runtime : CanRuntime) (id : UInt32) (isExtended : Bool) (data : List UInt8) : Bool :=
  if (if isExtended then kMaxId else 0x7FF) < id.toNat then false
  else if kMaxDataLength < data.length then false
  else if !runtime.senderIsOpen then false
  else runtime.sendRaw id isExtended data

/-- A file that was opened: what `tellg` says at its end, and the bytes that `read`
delivers. -/
structure File where
  size : ℤ
  content : Bytes

/-- What a request handler asks of the rest of the world. -/
structure Environment where
  canRuntime : Option CanRuntime
  /-- `ifstream`; `none` when it does not open. -/
  openFile : Bytes → Option File
  /-- Whether memory is had for the strings that the characters of a file, so many, pass
  through: what is read, the body, the response and the longer `send_buf`. -/
  allocates : ℕ → Bool
  iteration : Iteration

/-- How long a `std::string` can be: `max_size()`, which the library of GCC puts at half of
what its allocator can give. -/
def kMaxStringSize : ℕ := 2 ^ 62 - 1

/-- What a `streamsize` can be. -/
def IsStreamsize (size : ℤ) : Prop := -2 ^ 63 ≤ size ∧ size < 2 ^ 63

/-- What is read of a file into a string of its size; `none` when there can be no such
string (`length_error`), or no memory for it (`bad_alloc`). -/
def readFile (allocates : ℕ → Bool) (file : File) : Option Bytes :=
  let size := (file.size % 2 ^ 64).toNat
  if kMaxStringSize < size then none
  else if !allocates size then none
  else some (file.content.take size ++ List.replicate (size - file.content.length) 0)

/-- The file does not open, or a string can have its size, and there is memory for it. -/
def Servable (allocates : ℕ → Bool) (opened : Option File) : Prop :=
  ∀ file ∈ opened, 0 ≤ file.size ∧ file.size ≤ kMaxStringSize ∧ allocates file.size.toNat = true

/-- A file is read exactly when its size is not negative, not too large and to be had. -/
theorem readFile_isSome_iff {allocates : ℕ → Bool} {file : File} (h : IsStreamsize file.size) :
    (readFile allocates file).isSome = true ↔
      0 ≤ file.size ∧ file.size ≤ kMaxStringSize ∧ allocates file.size.toNat = true := by
  obtain ⟨hlow, hhigh⟩ := h
  have hread : (readFile allocates file).isSome = true ↔
      (file.size % 2 ^ 64).toNat ≤ kMaxStringSize ∧ allocates (file.size % 2 ^ 64).toNat = true := by
    rw [readFile]
    generalize (file.size % 2 ^ 64).toNat = size
    split_ifs with hmax hmemory
    · exact iff_of_false Bool.false_ne_true fun hs => absurd hs.1 (not_le.mpr hmax)
    · exact iff_of_false Bool.false_ne_true fun hs => by simp [hs.2] at hmemory
    · exact iff_of_true rfl ⟨not_lt.mp hmax, by simpa using hmemory⟩
  rw [hread]
  constructor
  · rintro ⟨hmax, hmemory⟩
    -- the conversion to `size_t` makes a negative size too large
    have hpos : 0 ≤ file.size := by
      unfold kMaxStringSize at hmax
      omega
    rw [Int.emod_eq_of_lt hpos (by omega)] at hmax hmemory
    exact ⟨hpos, by omega, hmemory⟩
  · rintro ⟨hpos, hmax, hmemory⟩
    rw [Int.emod_eq_of_lt hpos (by omega)]
    exact ⟨by omega, hmemory⟩

/-! ### The handlers -/

/-- How `processRequest` ends. -/
inductive Reply where
  /-- It queues a response. -/
  | respond (response : Bytes)
  /-- It starts a stream after a sequence. -/
  | stream (afterSequence : UInt64)
  /-- It throws. -/
  | throws
  deriving DecidableEq

/-- A JSON response. -/
def jsonResponse (statusCode : ℕ) (body : Bytes) : HttpResponse :=
  ((HttpResponse.new.setHeader (bytes "Content-Type") (bytes "application/json; charset=utf-8")).setStatusCode
    statusCode).setBody body

/-- An HTML response. -/
def htmlResponse (statusCode : ℕ) (body : Bytes) : HttpResponse :=
  ((HttpResponse.new.setStatusCode statusCode).setHeader (bytes "Content-Type")
    (bytes "text/html; charset=utf-8")).setBody body

/-- `{"error":"…"}`. -/
def errorBody (message : Bytes) : Bytes := 123 :: bytes "\"error\":\"" ++ message ++ bytes "\"" ++ [125]

/-- A parameter that is a number, with its default. -/
def numberParameter (query : Bytes → Option Bytes) (key : Bytes) (default : ℕ) : Option ℕ :=
  match query key with
  | none => some default
  | some text => parseUnsigned text

/-- `GET /api/can/frames`. -/
def framesResponse (path : Bytes) (canRuntime : Option CanRuntime) : HttpResponse :=
  match canRuntime with
  | none => jsonResponse 503 (errorBody (bytes "CAN runtime unavailable"))
  | some runtime =>
    let query := parseQuery path
    match numberParameter query (bytes "after") 0 with
    | none => jsonResponse 400 (errorBody (bytes "invalid after"))
    | some after =>
      match numberParameter query (bytes "limit") 50 with
      | none => jsonResponse 400 (errorBody (bytes "invalid limit"))
      | some limit =>
        if limit = 0 ∨ 1000 < limit then jsonResponse 400 (errorBody (bytes "invalid limit"))
        else
          match query (bytes "id") with
          | none =>
            jsonResponse 200 (framesToJson (runtime.store.queryAfter (UInt64.ofNat after) none limit))
          | some text =>
            match parseUnsigned text with
            | none => jsonResponse 400 (errorBody (bytes "invalid id"))
            | some id =>
              if kMaxId < id then jsonResponse 400 (errorBody (bytes "invalid id"))
              else jsonResponse 200
                (framesToJson (runtime.store.queryAfter (UInt64.ofNat after) (some (UInt32.ofNat id)) limit))

/-- `GET /api/can/stats`. -/
def statsResponse (canRuntime : Option CanRuntime) : HttpResponse :=
  match canRuntime with
  | none => jsonResponse 503 (errorBody (bytes "CAN runtime unavailable"))
  | some runtime => jsonResponse 200 (statisticsToJson runtime.busStats)

/-- `POST /api/can/send`. -/
def sendResponse (body : Bytes) (canRuntime : Option CanRuntime) : HttpResponse :=
  match canRuntime with
  | none => jsonResponse 503 (errorBody (bytes "CAN runtime unavailable"))
  | some runtime =>
    match parseSendBody body with
    | none => jsonResponse 400 (errorBody (bytes "body must contain id and data[]"))
    | some (id, isExtended, data) =>
      if !runtime.sendFrame id isExtended data then jsonResponse 500 (errorBody (bytes "CAN send failed"))
      else jsonResponse 200 (123 :: bytes "\"sent\":true" ++ [125])

/-- `GET` of a file. -/
def fileResponse (route : Bytes) (openFile : Bytes → Option File) (allocates : ℕ → Bool) : Option HttpResponse :=
  let urlpath := if route = bytes "/" then bytes "/index.html" else route
  let filepath := bytes "wwwroot" ++ urlpath
  match openFile filepath with
  | none =>
    some (htmlResponse 404
      (bytes "<h1>404 Not Found</h1><p>The requested resource was not found.</p>"))
  | some file =>
    (readFile allocates file).map fun content =>
      ((HttpResponse.new.setStatusCode 200).setHeader (bytes "Content-Type")
        (HttpResponse.getMimeType filepath)).setBody content

/-- `POST` of anything else: the body is echoed. -/
def echoResponse (body : Bytes) : HttpResponse :=
  htmlResponse 200 (bytes "<h1>POST request received</h1>" ++ bytes "<p>Request body:</p>" ++
    bytes "<pre>" ++ body ++ bytes "</pre>")

/-- `processRequest`, up to what it queues. -/
def processRequest (req : HttpRequest) (env : Environment) : Reply :=
  let route := pathWithoutQuery req.path
  let respond (resp : HttpResponse) : Reply := .respond (resp.serialize env.iteration)
  if req.method = .get ∧ route = bytes "/api/can/frames" then
    respond (framesResponse req.path env.canRuntime)
  else if req.method = .get ∧ route = bytes "/api/can/stats" then
    respond (statsResponse env.canRuntime)
  else if req.method = .get ∧ route = bytes "/api/can/stream" then
    match env.canRuntime with
    | none => respond (jsonResponse 503 (errorBody (bytes "CAN runtime unavailable")))
    | some _ =>
      match numberParameter (parseQuery req.path) (bytes "after") 0 with
      | none => respond (jsonResponse 400 (errorBody (bytes "invalid after")))
      | some after => .stream (UInt64.ofNat after)
  else if req.method = .post ∧ route = bytes "/api/can/send" then
    respond (sendResponse req.body env.canRuntime)
  else if req.method = .get then
    match fileResponse route env.openFile env.allocates with
    | none => .throws
    | some resp => respond resp
  else if req.method = .post then respond (echoResponse req.body)
  else respond (htmlResponse 405 (bytes "<h1>405 Method Not Allowed</h1>"))

/-- The answer to a rejected request. -/
def badRequest : Bytes :=
  bytes "HTTP/1.1 400 Bad Request\r\n" ++ bytes "Content-Type: text/plain; charset=utf-8\r\n" ++
    bytes "Content-Length: 11\r\n" ++ bytes "\r\n" ++ bytes "Bad Request"

end CanMonitor.Connection
