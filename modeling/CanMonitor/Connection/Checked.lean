import CanMonitor.Connection.Routes
import CanMonitor.Library.StdString

/-!
# Positions past the end

The parsers again, by positions as the source has them, and with the exception that `substr`
and `erase` throw for a position past the end of a string. Nothing catches it in a worker
task.

## The model

Each definition has the name of the function it embeds, once more. Where a position is the
result of arithmetic on lengths that a client announces, it is modulo `2^64`; sums of
positions in a string do not come near that. The parse loop has a fuel, and `none` if it
does not end.

## What is proved

* `extractContentLength_ok`, `parse_ok`, `parseQuery_ok`, `parseSendBody_ok` — each function
  returns, with what the model without positions says.
* `request_loop_total` — so does the parse loop, after no more turns than there are bytes; in
  each it stops, or rejects and clears the buffer, or takes off a request that is all there.
-/

namespace CanMonitor.Connection.Checked

open CanMonitor.Library CanMonitor.Can CanMonitor.Http

/-! ### The length of a request -/

/-- `trim`. -/
def trim (value : Bytes) : Except OutOfRange Bytes :=
  match findFirstNotOf isTrimmed value with
  | none => .ok []
  | some first =>
    match findLastNotOf isTrimmed value with
    | none => substr value first none
    | some last => substr value first (some (last - first + 1))

/-- The loop of `extractContentLength`. -/
def scanLength : List Bytes → Except OutOfRange ℕ
  | [] => .ok 0
  | line :: rest =>
    if stripCR line = [] then .ok 0
    else match find [58] (stripCR line) with
      | none => scanLength rest
      | some colon => do
        let key ← trim (← substr (stripCR line) 0 (some colon))
        let value ← trim (← substr (stripCR line) (colon + 1) none)
        if key = contentLengthName then .ok ((stoul value).getD 0) else scanLength rest

/-- `extractContentLength`. -/
def extractContentLength (request : Bytes) : Except OutOfRange ℕ :=
  match find blankLine request with
  | none => .ok 0
  | some headerEnd => do
    let text ← substr request 0 (some headerEnd)
    scanLength (lines 10 text).tail

/-! ### `HttpRequest` -/

/-- `HttpRequest::parseHeader`; `npos + 1` is `0`. -/
def parseHeader (headers : Headers) (line : Bytes) : Except OutOfRange (Option Headers) :=
  match find [58] line with
  | none => .ok none
  | some colonPos => do
    let key ← substr line 0 (some colonPos)
    let value ← substr line (colonPos + 1) none
    let key ← erase key 0 (findFirstNotOf isBlank key)
    let key ← erase key ((findLastNotOf isBlank key).elim 0 (· + 1)) none
    let value ← erase value 0 (findFirstNotOf isBlank value)
    .ok (some (Function.update headers key (some value)))

/-- The loop of `HttpRequest::parse` over the header lines. -/
def parseHeaders (headers : Headers) : List Bytes → Except OutOfRange (Bool × Headers)
  | [] => .ok (true, headers)
  | line :: rest =>
    if stripCR line = [] then .ok (true, headers)
    else do
      match ← parseHeader headers (stripCR line) with
      | none => .ok (false, headers)
      | some headers => parseHeaders headers rest

/-- The body in the whole text. -/
def bodyOf (headers : Headers) (data : Bytes) : Except OutOfRange (Option Bytes) :=
  match find blankLine data with
  | none => .ok none
  | some bodyStart =>
    match headers contentLengthName with
    | none => do
      let body ← substr data (bodyStart + 4) none
      .ok (some body)
    | some value =>
      match stoul value with
      | none => .ok none
      | some bodyLen =>
        if data.length < (bodyStart + 4 + bodyLen) % 2 ^ 64 then .ok none
        else do
          let body ← substr data (bodyStart + 4) (some bodyLen)
          .ok (some body)

/-- `HttpRequest::parse`. -/
def parse (r : HttpRequest) (data : Bytes) : Except OutOfRange (Bool × HttpRequest) :=
  match lines 10 data with
  | [] => .ok (false, r)
  | line :: rest =>
    match parseRequestLine r (stripCR line) with
    | (false, r) => .ok (false, r)
    | (true, r) => do
      match ← parseHeaders r.headers rest with
      | (false, headers) => .ok (false, { r with headers })
      | (true, headers) =>
        match ← bodyOf headers data with
        | none => .ok (false, { r with headers })
        | some body => .ok (true, { r with headers, body })

/-! ### Parameters and bodies -/

/-- `pathWithoutQuery`. -/
def pathWithoutQuery (path : Bytes) : Except OutOfRange Bytes :=
  match find [63] path with
  | none => .ok path
  | some questionMark => substr path 0 (some questionMark)

/-- Store an item of a query. -/
def storeItem (result : Bytes → Option Bytes) (item : Bytes) : Except OutOfRange (Bytes → Option Bytes) :=
  match find [61] item with
  | none => .ok result
  | some equals => do
    let key ← substr item 0 (some equals)
    let value ← substr item (equals + 1) none
    .ok (Function.update result key (some value))

/-- The loop of `parseQuery` from the position `begin`. -/
def queryLoop (query : Bytes) (result : Bytes → Option Bytes) (start : ℕ) : Except OutOfRange (Bytes → Option Bytes) :=
  if _ : start ≤ query.length then
    match h : findFrom [38] query start with
    | none => do
      let item ← substr query start none
      storeItem result item
    | some ampersand => do
      let item ← substr query start (some (ampersand - start))
      let result ← storeItem result item
      queryLoop query result (ampersand + 1)
  else .ok result
termination_by query.length + 1 - start
decreasing_by
  have := findFrom_le (by assumption) h
  rw [List.length_singleton] at this
  omega

/-- `parseQuery`. -/
def parseQuery (path : Bytes) : Except OutOfRange (Bytes → Option Bytes) :=
  match find [63] path with
  | none => .ok fun _ => none
  | some questionMark => do
    let query ← substr path (questionMark + 1) none
    queryLoop query (fun _ => none) 0

/-- `readValue`. -/
def readValue (body key : Bytes) : Except OutOfRange (Option Bytes) :=
  match find (34 :: key ++ [34]) body with
  | none => .ok none
  | some keyPosition =>
    match findFrom [58] body keyPosition with
    | none => .ok none
    | some colon => do
      let start := skip isspace body (colon + 1)
      let stop := skip (fun c => c ≠ 44 ∧ c ≠ 125) body start
      let value ← trim (← substr body start (some (stop - start)))
      let value ← if 2 ≤ value.length ∧ value.head? = some 34 ∧ value.getLast? = some 34 then
        substr value 1 (some (value.length - 2)) else .ok value
      .ok (if value = [] then none else some value)

/-- A separator between the numbers of a body. -/
def isSeparator (c : UInt8) : Bool := isspace c || c == 44

/-- The loop over the numbers between the brackets, from the position `start`. -/
def readBytes (data : List UInt8) (text : Bytes) (start : ℕ) : Except OutOfRange (Option (List UInt8)) :=
  if _ : start < text.length then
    if _ : skip isSeparator text start = text.length then .ok (some data)
    else do
      let start' := skip isSeparator text start
      let stop := skip (· ≠ 44) text start'
      let item ← trim (← substr text start' (some (stop - start')))
      match parseUnsigned item with
      | none => .ok none
      | some byte =>
        if 0xFF < byte ∨ kMaxDataLength ≤ data.length then .ok none
        else readBytes (data ++ [UInt8.ofNat byte]) text stop
  else .ok (some data)
termination_by text.length - start
decreasing_by
  -- the first character left is no comma, so the item takes at least that one
  have hlt : start < text.length := by assumption
  have hend : ¬ skip isSeparator text start = text.length := by assumption
  obtain ⟨hstart, hsize, -, -⟩ := skip_spec isSeparator hlt.le
  have hpos : skip isSeparator text start < text.length := lt_of_le_of_ne hsize hend
  have hcomma : text[skip isSeparator text start] ≠ 44 := fun h =>
    not_of_skip hlt.le hpos (by rw [h]; rfl)
  have hitem := lt_skip (p := (· ≠ 44)) hpos (by simpa using hcomma)
  omega

/-- The part of `parseSendBody` that reads the data. -/
def parseData (body : Bytes) : Except OutOfRange (Option (List UInt8)) :=
  match find (bytes "\"data\"") body with
  | none => .ok none
  | some dataKey =>
    match findFrom [91] body dataKey with
    | none => .ok none
    | some beginBracket =>
      match findFrom [93] body beginBracket with
      | none => .ok none
      | some endBracket => do
        let text ← substr body (beginBracket + 1) (some (endBracket - beginBracket - 1))
        readBytes [] text 0

/-- `parseSendBody`, called with the flag off and no data. -/
def parseSendBody (body : Bytes) : Except OutOfRange (Option (UInt32 × Bool × List UInt8)) := do
  let idText ← readValue body (bytes "id")
  match idText.bind parseUnsigned with
  | none => .ok none
  | some parsedId =>
    if kMaxId < parsedId then .ok none
    else do
      let extendedText ← readValue body (bytes "extended")
      let extended : Option Bool :=
        match extendedText with
        | none => some false
        | some text => if text = bytes "true" then some true else if text = bytes "false" then some false else none
      match extended with
      | none => .ok none
      | some isExtended => do
        let data ← parseData body
        .ok (data.map fun data => (UInt32.ofNat parsedId, isExtended, data))

/-! ### The parse loop -/

/-- One iteration of the parse loop. -/
def parseStep (req : HttpRequest) (recvBuf : Bytes) : Except OutOfRange Step :=
  match find blankLine recvBuf with
  | none => .ok .wait
  | some headerEnd => do
    let contentLength ← extractContentLength recvBuf
    let requestLen := (headerEnd + 4 + contentLength) % 2 ^ 64
    if recvBuf.length < requestLen then .ok .wait
    else do
      let text ← substr recvBuf 0 (some requestLen)
      match ← parse req text with
      | (false, req) => .ok (.bad text req)
      | (true, req) => .ok (.dispatch req requestLen)

/-- The parse loop of `handleRead`, for at most `fuel` iterations. -/
def parseLoop : ℕ → Reader → Option (Except OutOfRange (List Event × Reader))
  | 0, _ => none
  | fuel + 1, s =>
    match parseStep s.req s.recvBuf with
    | .error e => some (.error e)
    | .ok .wait => some (.ok ([], s))
    | .ok (.bad text req) => some (.ok ([.rejected text], ⟨[], req⟩))
    | .ok (.dispatch req len) =>
      match erase s.recvBuf 0 (some len) with
      | .error e => some (.error e)
      | .ok recvBuf => (parseLoop fuel ⟨recvBuf, .fresh⟩).map (·.map fun (es, t) => (.dispatched req :: es, t))

/-! ### Nothing throws -/

theorem trim_ok (value : Bytes) : trim value = .ok (Library.trim isTrimmed value) := by
  unfold trim
  cases hfirst : findFirstNotOf isTrimmed value with
  | none =>
    have hnil := drop_findFirstNotOf isTrimmed value
    rw [hfirst, Option.elim_none] at hnil
    rw [Library.trim, ← hnil]
    rfl
  | some first =>
    cases hlast : findLastNotOf isTrimmed value with
    | none =>
      rw [findFirstNotOf_eq_none hlast] at hfirst
      cases hfirst
    | some last => exact substr_trim hfirst hlast

/-- What is after a character that is found. -/
theorem substr_after {c : UInt8} {s : Bytes} {i : ℕ} (h : find [c] s = some i) :
    substr s (i + 1) none = .ok (s.drop (i + 1)) :=
  substr_of_le (by simpa using find_add_length_le h) none

theorem scanLength_ok (ls : List Bytes) : scanLength ls = .ok (Http.scanLength ls) := by
  induction ls with
  | nil => rfl
  | cons line rest ih =>
    unfold scanLength Http.scanLength
    split
    · rfl
    cases hcolon : find [58] (stripCR line) with
    | none => exact ih
    | some colon =>
      simp only [substr_zero, substr_after hcolon, trim_ok, ok_bind]
      split
      · rfl
      · exact ih

theorem extractContentLength_ok (request : Bytes) :
    extractContentLength request = .ok (Http.extractContentLength request) := by
  unfold extractContentLength Http.extractContentLength
  cases find blankLine request with
  | none => rfl
  | some headerEnd => exact scanLength_ok _

theorem parseHeader_ok (headers : Headers) (line : Bytes) :
    parseHeader headers line = .ok (Http.parseHeader headers line) := by
  unfold parseHeader Http.parseHeader
  cases hcolon : find [58] line with
  | none => rfl
  | some colonPos =>
    have hlast := take_findLastNotOf isBlank ((line.take colonPos).dropWhile isBlank)
    have hle := (List.rdropWhile_prefix isBlank ((line.take colonPos).dropWhile isBlank)).length_le
    simp only [substr_zero, substr_after hcolon, erase_zero, drop_findFirstNotOf, hlast.1, erase_toEnd hle, hlast.2,
      ok_bind]
    rfl

theorem parseHeaders_ok (headers : Headers) (rest : List Bytes) :
    parseHeaders headers rest = .ok (Http.parseHeaders headers rest) := by
  induction rest generalizing headers with
  | nil => rfl
  | cons line rest ih =>
    unfold parseHeaders Http.parseHeaders
    split
    · rfl
    rw [parseHeader_ok, ok_bind]
    cases Http.parseHeader headers (stripCR line) with
    | none => rfl
    | some headers => exact ih headers

theorem bodyOf_ok (headers : Headers) (data : Bytes) : bodyOf headers data = .ok (Http.bodyOf headers data) := by
  unfold bodyOf Http.bodyOf
  cases hstart : find blankLine data with
  | none => rfl
  | some bodyStart =>
    -- the position is that of the end of the blank line, whatever the length
    have hle : bodyStart + 4 ≤ data.length := find_add_length_le hstart
    cases headers contentLengthName with
    | none => simp only [substr_of_le hle, ok_bind]; rfl
    | some value =>
      dsimp only
      cases stoul value with
      | none => rfl
      | some bodyLen =>
        dsimp only
        split
        · rfl
        · simp only [substr_of_le hle, ok_bind]
          rfl

theorem parse_ok (r : HttpRequest) (data : Bytes) : parse r data = .ok (Http.parse r data) := by
  unfold parse Http.parse
  cases lines 10 data with
  | nil => rfl
  | cons line rest =>
    dsimp only
    rcases parseRequestLine r (stripCR line) with ⟨_ | _, r⟩
    · rfl
    · dsimp only
      rw [parseHeaders_ok, ok_bind]
      rcases Http.parseHeaders r.headers rest with ⟨_ | _, headers⟩
      · rfl
      · dsimp only
        rw [bodyOf_ok, ok_bind]
        cases Http.bodyOf headers data <;> rfl

theorem pathWithoutQuery_ok (path : Bytes) : pathWithoutQuery path = .ok (Connection.pathWithoutQuery path) := by
  unfold pathWithoutQuery Connection.pathWithoutQuery
  cases hquestion : find [63] path with
  | none =>
    have hno := find_singleton_eq_none.mp hquestion
    rw [List.takeWhile_eq_self_iff.mpr fun c hc => by simpa using fun h : c = 63 => hno (h ▸ hc)]
  | some questionMark =>
    dsimp only
    rw [substr_zero, take_of_find hquestion]

theorem storeItem_ok (result : Bytes → Option Bytes) (item : Bytes) :
    storeItem result item = .ok (Connection.storeItem result item) := by
  unfold storeItem Connection.storeItem
  cases hequals : find [61] item with
  | none => rfl
  | some equals => simp only [substr_zero, substr_after hequals, ok_bind]

/-- The loop from a position is the loop over the rest. -/
theorem queryLoop_ok {query : Bytes} (result : Bytes → Option Bytes) {start : ℕ} (h : start ≤ query.length) :
    queryLoop query result start = .ok (queryItems result (query.drop start)) := by
  fun_induction queryLoop query result start with
  | case1 result start hle hnone =>
    rw [substr_of_le hle, ok_bind, storeItem_ok]
    exact congrArg Except.ok (queryItems_last (Option.map_eq_none_iff.mp hnone) result).symm
  | case2 result start hle ampersand hsome ih =>
    have hnext := (findFrom_le hle hsome).2
    obtain ⟨i, hi, rfl⟩ := Option.map_eq_some_iff.mp hsome
    rw [substr_of_le hle, ok_bind, storeItem_ok, ok_bind, ih _ hnext, queryItems_item hi, List.drop_drop,
      Nat.add_sub_cancel_left, Nat.add_assoc]
    rfl
  | case3 => contradiction

theorem parseQuery_ok (path : Bytes) : parseQuery path = .ok (Connection.parseQuery path) := by
  unfold parseQuery Connection.parseQuery
  cases hquestion : find [63] path with
  | none => rfl
  | some questionMark =>
    simp only [substr_after hquestion, ok_bind]
    exact queryLoop_ok _ (Nat.zero_le _)

/-- A text between quotes. -/
theorem substr_unquote {value : Bytes} (h : 2 ≤ value.length) :
    substr value 1 (some (value.length - 2)) = .ok value.tail.dropLast := by
  rw [substr_of_le (by omega), Option.elim_some, List.drop_one, List.dropLast_eq_take, List.length_tail, Nat.sub_sub]

/-- What the two loops of a scan leave of the text, and what they pass over. -/
theorem substr_skip {p q : UInt8 → Bool} {s : Bytes} {start : ℕ} (h : start ≤ s.length) :
    substr s (skip p s start) (some (skip q s (skip p s start) - skip p s start)) =
      .ok (((s.drop start).dropWhile p).takeWhile q) := by
  obtain ⟨-, hle, hdrop, -⟩ := skip_spec p h
  obtain ⟨-, -, -, htake⟩ := skip_spec q hle
  rw [substr_of_le hle, Option.elim_some, htake, hdrop]

theorem readValue_ok (body key : Bytes) : readValue body key = .ok (Connection.readValue body key) := by
  unfold readValue Connection.readValue
  cases hkey : find (34 :: key ++ [34]) body with
  | none => rfl
  | some keyPosition =>
    have hstart : keyPosition ≤ body.length := by have := find_add_length_le hkey; omega
    cases hcolon : find [58] (body.drop keyPosition) with
    | none => simp only [findFrom, hcolon, Option.map_none, Option.bind_some, Option.bind_none]
    | some colon =>
      have hfound : findFrom [58] body keyPosition = some (keyPosition + colon) := by rw [findFrom, hcolon]; rfl
      have hnext : keyPosition + colon + 1 ≤ body.length := (findFrom_le hstart hfound).2
      simp only [hfound, hcolon, Option.bind_some, substr_skip hnext, trim_ok, ok_bind]
      split
      · rename_i hquotes
        rw [substr_unquote hquotes.1, ok_bind]
      · rfl

/-- The loop from a position is the loop over the rest. -/
theorem readBytes_ok (data : List UInt8) {text : Bytes} {start : ℕ} (h : start ≤ text.length) :
    readBytes data text start = .ok (Connection.readBytes data (text.drop start)) := by
  have hdrop : ∀ {start}, start ≤ text.length →
      text.drop (skip isSeparator text start) = (text.drop start).dropWhile fun c => isspace c || c == 44 :=
    fun h => (skip_spec isSeparator h).2.2.1
  fun_induction readBytes data text start with
  | case1 data start hlt hend =>
    rw [Connection.readBytes, dif_pos]
    rw [← hdrop h, hend, List.drop_length]
  | case2 data start hlt hend start' stop ih =>
    have hle : start' ≤ text.length := (skip_spec isSeparator h).2.1
    obtain ⟨-, hstop, hrest, htake⟩ := skip_spec (· ≠ 44) hle
    rw [Connection.readBytes, dif_neg]
    · simp only [substr_of_le hle, ok_bind, trim_ok, Option.elim_some, ← hdrop h]
      rw [htake]
      cases parseUnsigned (Library.trim isTrimmed ((text.drop start').takeWhile (· ≠ 44))) with
      | none => rfl
      | some byte =>
        dsimp only
        split
        · rfl
        · rw [ih byte hstop, hrest]
    · rw [← hdrop h, List.drop_eq_nil_iff, Nat.not_le]
      exact lt_of_le_of_ne hle hend
  | case3 data start hge =>
    rw [List.drop_eq_nil_of_le (Nat.not_lt.mp hge), Connection.readBytes]
    rfl

/-- What the model without positions reads of the data. -/
theorem parseData_ok (body : Bytes) : parseData body = .ok ((find (bytes "\"data\"") body).bind fun dataKey =>
    (find [91] (body.drop dataKey)).bind fun beginBracket =>
      (find [93] (body.drop (dataKey + beginBracket))).bind fun endBracket =>
        Connection.readBytes [] (((body.drop (dataKey + beginBracket)).take endBracket).drop 1)) := by
  unfold parseData
  cases hkey : find (bytes "\"data\"") body with
  | none => rfl
  | some dataKey =>
    have hstart : dataKey ≤ body.length := by have := find_add_length_le hkey; omega
    cases hopen : find [91] (body.drop dataKey) with
    | none => simp only [findFrom, hopen, Option.map_none, Option.bind_some, Option.bind_none]
    | some beginBracket =>
      have hbegin : findFrom [91] body dataKey = some (dataKey + beginBracket) := by rw [findFrom, hopen]; rfl
      have hnext : dataKey + beginBracket + 1 ≤ body.length := (findFrom_le hstart hbegin).2
      simp only [hbegin, hopen, Option.bind_some]
      cases hclose : find [93] (body.drop (dataKey + beginBracket)) with
      | none => simp only [findFrom, hclose, Option.map_none, Option.bind_none]
      | some endBracket =>
        have hend : findFrom [93] body (dataKey + beginBracket) = some (dataKey + beginBracket + endBracket) := by
          rw [findFrom, hclose]
          rfl
        simp only [hend, substr_of_le hnext, ok_bind, Option.elim_some, readBytes_ok [] (Nat.zero_le _),
          Option.bind_some, List.drop_zero, List.drop_take, List.drop_drop, Nat.add_sub_cancel_left]

theorem parseSendBody_ok (body : Bytes) : parseSendBody body = .ok (Connection.parseSendBody body) := by
  have hdata : ∀ (id : UInt32) (isExtended : Bool),
      (do let data ← parseData body; Except.ok (data.map fun data => (id, isExtended, data))) =
        (.ok (match find (bytes "\"data\"") body with
          | none => none
          | some dataKey =>
            match find [91] (body.drop dataKey) with
            | none => none
            | some beginBracket =>
              match find [93] (body.drop (dataKey + beginBracket)) with
              | none => none
              | some endBracket =>
                (Connection.readBytes [] (((body.drop (dataKey + beginBracket)).take endBracket).drop 1)).map
                  fun data => (id, isExtended, data)) : Except OutOfRange _) := by
    intro id isExtended
    rw [parseData_ok, ok_bind]
    cases find (bytes "\"data\"") body with
    | none => rfl
    | some dataKey =>
      simp only [Option.bind_some]
      cases find [91] (body.drop dataKey) with
      | none => rfl
      | some beginBracket =>
        simp only [Option.bind_some]
        cases find [93] (body.drop (dataKey + beginBracket)) <;> rfl
  unfold parseSendBody Connection.parseSendBody
  simp only [readValue_ok, ok_bind]
  cases (Connection.readValue body (bytes "id")).bind parseUnsigned with
  | none => rfl
  | some parsedId =>
    dsimp only
    split
    · rfl
    cases Connection.readValue body (bytes "extended") with
    | none => exact hdata _ false
    | some text =>
      dsimp only
      split_ifs
      · exact hdata _ true
      · exact hdata _ false
      · rfl

theorem parseStep_ok (req : HttpRequest) (recvBuf : Bytes) :
    parseStep req recvBuf = .ok (Http.parseStep req recvBuf) := by
  unfold parseStep Http.parseStep
  cases find blankLine recvBuf with
  | none => rfl
  | some headerEnd =>
    simp only [extractContentLength_ok, ok_bind]
    split
    · rfl
    · simp only [substr_zero, parse_ok, ok_bind]
      rcases Http.parse req _ with ⟨_ | _, req⟩ <;> rfl

/-- More iterations than there are bytes are enough. -/
theorem parseLoop_ok {fuel : ℕ} {s : Reader} (h : s.recvBuf.length < fuel) :
    parseLoop fuel s = some (.ok (Http.parseLoop s)) := by
  induction fuel generalizing s with
  | zero => exact absurd h (Nat.not_lt_zero _)
  | succ fuel ih =>
    rw [parseLoop, parseStep_ok]
    cases hstep : Http.parseStep s.req s.recvBuf with
    | wait => rw [parseLoop_wait hstep]
    | bad text req => rw [parseLoop_bad hstep]
    | dispatch req len =>
      obtain ⟨headerEnd, -, hlen, hle, -⟩ := parseStep_dispatch hstep
      have hrest : (⟨s.recvBuf.drop len, .fresh⟩ : Reader).recvBuf.length < fuel := by
        rw [List.length_drop]
        omega
      simp only [erase_zero, Option.elim_some, ih hrest, parseLoop_dispatch hstep]
      rfl

/-- **The request loop** ends on every buffer. In each turn it stops, or it rejects and clears
the buffer, or it dispatches and takes off a request that is all there, its length as its
head announces it, without wrap-around. And no position in it, or in what parses the
requests, is past the end of a string. -/
theorem request_loop_total (s : Reader) :
    (∀ fuel, s.recvBuf.length < fuel → parseLoop fuel s = some (.ok (Http.parseLoop s))) ∧
      (∃ step, parseStep s.req s.recvBuf = .ok step ∧ match step with
        | .wait => Http.parseLoop s = ([], s)
        | .bad text req => Http.parseLoop s = ([.rejected text], ⟨[], req⟩)
        | .dispatch req len => ∃ headerEnd, find blankLine s.recvBuf = some headerEnd ∧
            len = headerEnd + 4 + Http.extractContentLength s.recvBuf ∧ len ≤ s.recvBuf.length ∧
              Http.parseLoop s = (.dispatched req :: (Http.parseLoop ⟨s.recvBuf.drop len, .fresh⟩).1,
                (Http.parseLoop ⟨s.recvBuf.drop len, .fresh⟩).2)) ∧
      (∀ request, extractContentLength request = .ok (Http.extractContentLength request)) ∧
      (∀ headers line, parseHeader headers line = .ok (Http.parseHeader headers line)) ∧
      (∀ req data, parse req data = .ok (Http.parse req data)) ∧
      (∀ path, pathWithoutQuery path = .ok (Connection.pathWithoutQuery path)) ∧
      (∀ path, parseQuery path = .ok (Connection.parseQuery path)) ∧
      ∀ body, parseSendBody body = .ok (Connection.parseSendBody body) := by
  refine ⟨fun fuel h => parseLoop_ok h, ⟨_, parseStep_ok _ _, ?_⟩, extractContentLength_ok, parseHeader_ok, parse_ok,
    pathWithoutQuery_ok, parseQuery_ok, parseSendBody_ok⟩
  cases hstep : Http.parseStep s.req s.recvBuf with
  | wait => exact parseLoop_wait hstep
  | bad text req => exact parseLoop_bad hstep
  | dispatch req len =>
    obtain ⟨headerEnd, hfind, hlen, hle, -⟩ := parseStep_dispatch hstep
    exact ⟨headerEnd, hfind, hlen, hle, parseLoop_dispatch hstep⟩

end CanMonitor.Connection.Checked
