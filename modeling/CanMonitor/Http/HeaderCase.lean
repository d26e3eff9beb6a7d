import CanMonitor.Http.Decoding
import CanMonitor.Http.ContentLength

/-!
# The case of header names

The names of headers are the same whatever the case of their letters; the server compares
them as they are. It looks for one name only, `Content-Length`.

## The model

`RawRequest` is a valid request of any client: any method, blanks around the values, any
order and any repetition of headers. A header whose name is `Content-Length` in any case has
the length of the body, and there is one if there is a body. Two requests are `Recased` if
they differ in the case of letters in header names only. `observed` is what `handleRead` makes
of a stream: method, path, body and length of each request it cuts off.

## What is proved

* `RawRequest.asRead` — what the server takes for a request: all of it if the name is spelled
  `Content-Length`, else its head.
* `letter_case_iff` — a change of case makes no difference if and only if every request with a
  body still spells the name so.
-/

namespace CanMonitor.Http

open CanMonitor.Library

/-! ### Requests of any client -/

/-- The blanks that may stand around the value of a header. -/
def isOws (c : UInt8) : Bool := c == 32 || c == 9

theorem isspace_of_isOws : ∀ c : UInt8, isOws c = true → isspace c = true := forall_byte (by decide +kernel)

/-- A header with its name in capitals. -/
def upperName (h : Bytes × Bytes) : Bytes × Bytes := (h.1.map toupper, h.2)

/-- Is this a length header, in any case? -/
def IsLength (h : Bytes × Bytes) : Prop := h.1.map toupper = contentLengthName.map toupper

/-- A valid request: the three words of its first line, the headers with what follows the
colon, and the body. -/
structure RawRequest where
  method : Bytes
  path : Bytes
  version : Bytes
  headers : List (Bytes × Bytes)
  body : Bytes
  method_ne : method ≠ []
  method_nospace : ∀ c ∈ method, isspace c = false
  path_ne : path ≠ []
  path_nospace : ∀ c ∈ path, isspace c = false
  version_ok : version = bytes "HTTP/1.0" ∨ version = bytes "HTTP/1.1"
  name_chars : ∀ h ∈ headers, ∀ c ∈ h.1, isNameChar c = true
  value_line : ∀ h ∈ headers, (13 : UInt8) ∉ h.2 ∧ (10 : UInt8) ∉ h.2
  /-- A length header has the length of the body. -/
  length_eq : ∀ h ∈ headers, IsLength h → IsDecimal (trim isOws h.2) body.length
  /-- A body comes with a length header. -/
  length_mem : body ≠ [] → ∃ h ∈ headers, IsLength h
  /-- A `size_t` can hold the length of the request. -/
  fits : method.length + path.length + version.length + (headers.map fun h => h.1.length + h.2.length + 3).sum +
    body.length + 6 < 2 ^ 64

namespace RawRequest

/-- The request line. -/
def startLine (r : RawRequest) : Bytes := r.method ++ 32 :: (r.path ++ 32 :: r.version)

/-- A header line. -/
def headerLine (h : Bytes × Bytes) : Bytes := h.1 ++ 58 :: h.2

/-- The head, with the blank line that ends it. -/
def head (r : RawRequest) : Bytes := (r.startLine :: r.headers.map headerLine).flatMap (· ++ crlf) ++ crlf

/-- The whole request. -/
def render (r : RawRequest) : Bytes := r.head ++ r.body

/-- The requests differ in the case of letters in header names only. -/
structure Recased (r r' : RawRequest) : Prop where
  method : r'.method = r.method
  path : r'.path = r.path
  version : r'.version = r.version
  headers : r'.headers.map upperName = r.headers.map upperName
  body : r'.body = r.body

/-- Does the request spell the name of a length header as the server does? -/
def Spelled (r : RawRequest) : Prop := ∃ h ∈ r.headers, h.1 = contentLengthName

instance (r : RawRequest) : Decidable r.Spelled := inferInstanceAs (Decidable (∃ h ∈ r.headers, h.1 = contentLengthName))

/-- What the server takes for the body. -/
def readBody (r : RawRequest) : Bytes := if r.Spelled then r.body else []

variable (r : RawRequest)

theorem length_head : r.head.length =
    r.method.length + r.path.length + r.version.length + (r.headers.map fun h => h.1.length + h.2.length + 3).sum + 6 := by
  have hlines : ∀ hs : List (Bytes × Bytes), ((hs.map headerLine).flatMap (· ++ crlf)).length =
      (hs.map fun h => h.1.length + h.2.length + 3).sum := by
    intro hs
    induction hs with
    | nil => rfl
    | cons h hs ih =>
      rw [List.map_cons, List.flatMap_cons, List.length_append, ih, List.map_cons, List.sum_cons]
      simp only [headerLine, crlf, List.length_append, List.length_cons, List.length_nil]
      omega
  rw [head, List.flatMap_cons, List.length_append, List.length_append, hlines]
  simp only [startLine, crlf, List.length_append, List.length_cons, List.length_nil]
  omega

theorem length_render_lt : r.render.length < 2 ^ 64 := by
  have := r.fits
  rw [render, List.length_append, length_head]
  omega

/-! ### The head -/

/-- The lines of the head have no line ends in them, and header lines are not empty. -/
theorem line_spec {l : Bytes} (hl : l ∈ r.startLine :: r.headers.map headerLine) :
    (13 : UInt8) ∉ l ∧ (10 : UInt8) ∉ l := by
  rw [List.mem_cons, List.mem_map] at hl
  rcases hl with rfl | ⟨h, hh, rfl⟩
  · have hversion : ∀ c ∈ r.version, isspace c = false := by
      rcases r.version_ok with h | h <;> rw [h] <;> decide +kernel
    have hc : ∀ c ∈ r.startLine, c ≠ 13 ∧ c ≠ 10 := by
      intro c hc
      simp only [startLine, List.mem_append, List.mem_cons] at hc
      rcases hc with hc | rfl | hc | rfl | hc
      · exact Message.line_of_nospace c (r.method_nospace c hc)
      · decide
      · exact Message.line_of_nospace c (r.path_nospace c hc)
      · decide
      · exact Message.line_of_nospace c (hversion c hc)
    exact ⟨fun h => (hc 13 h).1 rfl, fun h => (hc 10 h).2 rfl⟩
  · have hname := fun c hc => isNameChar_spec c (r.name_chars h hh c hc)
    obtain ⟨hcr, hlf⟩ := r.value_line h hh
    simp only [headerLine, List.mem_append, List.mem_cons, not_or]
    exact ⟨⟨fun hmem => (hname 13 hmem).1 rfl, by decide, hcr⟩, fun hmem => (hname 10 hmem).2.1 rfl, by decide, hlf⟩

theorem headerLine_ne : ∀ l ∈ r.headers.map headerLine, l ≠ [] := by
  intro l hl
  obtain ⟨h, -, rfl⟩ := List.mem_map.mp hl
  simp [headerLine]

/-- Where the head ends. -/
theorem find_head (s : Bytes) : ∃ headerEnd, find blankLine (r.head ++ s) = some headerEnd ∧
    headerEnd + 4 = r.head.length := by
  obtain ⟨i, hi, hlen⟩ := find_blankLine (fun l hl => (r.line_spec hl).1) r.headerLine_ne s
  refine ⟨i, hi, ?_⟩
  rw [head, List.length_append, ← hlen]
  rfl

/-- The lines that are read of the head: the request line and the header lines. -/
theorem lines_head (s : Bytes) : ∃ rest, lines 10 (r.head ++ s) = (r.startLine ++ [13]) :: rest ∧
    headerLines rest = r.headers.map headerLine :=
  lines_headBlock (fun _ hl => (r.line_spec hl).2) r.headerLine_ne s

/-- The request line says its words. -/
theorem parseRequestLine_startLine (q : HttpRequest) : ∃ version, parseRequestLine q r.startLine =
    (true, { q with method := methodOf r.method, path := r.path, version }) := by
  have hversion : r.version ≠ [] ∧ (∀ c ∈ r.version, isspace c = false) ∧ versionOf r.version ≠ .unknown := by
    rcases r.version_ok with h | h <;> rw [h] <;> decide +kernel
  have hwords : words isspace r.startLine = [r.method, r.path, r.version] := by
    rw [startLine, words_append_cons r.method_nospace r.method_ne rfl, words_append_cons r.path_nospace r.path_ne rfl,
      words_eq_singleton hversion.2.1 hversion.1]
  refine ⟨versionOf r.version, ?_⟩
  unfold parseRequestLine
  rw [hwords]
  simp [hversion.2.2]

/-! ### The two readers of the length -/

/-- A header line is a length header to either reader if its name is spelled so, and says the
number after the colon. -/
theorem announces_headerLine {h : Bytes × Bytes} (hh : h ∈ r.headers) :
    announces (headerLine h) = decide (h.1 = contentLengthName) ∧
      stores (headerLine h) = decide (h.1 = contentLengthName) ∧ announced (headerLine h) = stoul h.2 := by
  have hname := fun c hc => isNameChar_spec c (r.name_chars h hh c hc)
  have hf : find [58] (headerLine h) = some h.1.length := find_singleton (fun h58 => (hname 58 h58).2.2.1 rfl) h.2
  have htake : (headerLine h).take h.1.length = h.1 := List.take_left
  have hdrop : (headerLine h).drop (h.1.length + 1) = h.2 := drop_after h.1 58 h.2
  refine ⟨?_, ?_, ?_⟩
  · simp only [announces, hf, htake, trim_eq_self fun c hc => (hname c hc).2.2.2.2]
  · simp only [stores, hf, htake, trim_eq_self fun c hc => (hname c hc).2.2.2.1]
  · rw [announced, hf, Option.bind_some, hdrop]

/-- The number of a length header is the length of the body. -/
theorem stoul_length {h : Bytes × Bytes} (hh : h ∈ r.headers) (hname : h.1 = contentLengthName) :
    stoul h.2 = some r.body.length := by
  have hlt := r.length_render_lt
  rw [render, List.length_append] at hlt
  rw [← stoul_trim isspace_of_isOws]
  exact stoul_decimal (r.length_eq h hh (by rw [IsLength, hname])) (by omega)

/-- Both readers of the length go by that of the body if the name is spelled so, and by nothing otherwise. -/
theorem lengths_eq : firstLength (r.headers.map headerLine) = (if r.Spelled then some r.body.length else none) ∧
    lastLength (r.headers.map headerLine) = (if r.Spelled then some r.body.length else none) := by
  have hnumber : ∀ l ∈ r.headers.map headerLine, announces l = stores l ∧
      (announces l = true → announced l = some r.body.length ∧ r.Spelled) := by
    intro l hl
    obtain ⟨h, hh, rfl⟩ := List.mem_map.mp hl
    obtain ⟨hann, hstores, hnum⟩ := r.announces_headerLine hh
    refine ⟨hann.trans hstores.symm, fun htrue => ?_⟩
    rw [hann, decide_eq_true_eq] at htrue
    exact ⟨hnum.trans (r.stoul_length hh htrue), h, hh, htrue⟩
  have hsome : r.Spelled → ∃ l ∈ r.headers.map headerLine, announces l = true := by
    rintro ⟨h, hh, hname⟩
    exact ⟨headerLine h, List.mem_map_of_mem hh, by rw [(r.announces_headerLine hh).1, hname]; simp⟩
  constructor
  · unfold firstLength
    cases hfind : (r.headers.map headerLine).find? announces with
    | none =>
      rw [if_neg fun hspelled => ?_]
      · rfl
      · obtain ⟨l, hl, htrue⟩ := hsome hspelled
        exact List.find?_eq_none.mp hfind l hl htrue
    | some l =>
      obtain ⟨hnum, hspelled⟩ := (hnumber l (List.mem_of_find?_eq_some hfind)).2 (List.find?_some hfind)
      rw [if_pos hspelled, Option.bind_some, hnum]
  · unfold lastLength
    cases hlast : ((r.headers.map headerLine).filter stores).getLast? with
    | none =>
      rw [if_neg fun hspelled => ?_]
      · rfl
      · obtain ⟨l, hl, htrue⟩ := hsome hspelled
        rw [List.getLast?_eq_none_iff, List.filter_eq_nil_iff] at hlast
        exact hlast l hl ((hnumber l hl).1 ▸ htrue)
    | some l =>
      obtain ⟨hl, hstores⟩ := List.mem_filter.mp (List.mem_of_getLast? hlast)
      obtain ⟨hnum, hspelled⟩ := (hnumber l hl).2 ((hnumber l hl).1 ▸ hstores)
      rw [if_pos hspelled, Option.bind_some, hnum]

/-! ### What the server takes for a request -/

/-- Every header line is accepted. -/
theorem exists_headers (headers : Headers) : ∃ headers', (r.headers.map headerLine).foldlM parseHeader headers = some headers' := by
  have hall : ∀ l ∈ r.headers.map headerLine, (58 : UInt8) ∈ l := by
    intro l hl
    obtain ⟨h, -, rfl⟩ := List.mem_map.mp hl
    simp [headerLine]
  generalize r.headers.map headerLine = ls at hall
  induction ls generalizing headers with
  | nil => exact ⟨headers, rfl⟩
  | cons l ls ih =>
    cases hp : parseHeader headers l with
    | none =>
      rw [parseHeader, Option.map_eq_none_iff, find_singleton_eq_none] at hp
      exact absurd (hall l List.mem_cons_self) hp
    | some headers₁ =>
      rw [List.foldlM_cons, hp]
      exact ih headers₁ fun l' hl' => hall l' (List.mem_cons_of_mem _ hl')

/-- Without a line that stores it there is no length. -/
theorem headers_eq_none {ls : List Bytes} (hls : ∀ l ∈ ls, stores l = false) {headers headers' : Headers}
    (h : ls.foldlM parseHeader headers = some headers') : headers' contentLengthName = headers contentLengthName := by
  induction ls generalizing headers with
  | nil =>
    cases h
    rfl
  | cons l ls ih =>
    rw [List.foldlM_cons] at h
    obtain ⟨headers₁, hl, hrest⟩ := Option.bind_eq_some_iff.mp h
    obtain ⟨colon, hf, rfl⟩ := Option.map_eq_some_iff.mp hl
    have hstores := hls l List.mem_cons_self
    rw [stores, hf, decide_eq_false_iff_not] at hstores
    rw [ih (fun l' hl' => hls l' (List.mem_cons_of_mem _ hl')) hrest]
    exact Function.update_of_ne (Ne.symm hstores) _ _

/-- The body is taken out of what is framed. -/
theorem bodyOf_read {headers : Headers} (h : (r.headers.map headerLine).foldlM parseHeader HttpRequest.fresh.headers = some headers) :
    bodyOf headers (r.head ++ r.readBody) = some r.readBody := by
  obtain ⟨headerEnd, hf, hhead⟩ := r.find_head r.readBody
  have hdrop : (r.head ++ r.readBody).drop (headerEnd + 4) = r.readBody := List.drop_left' hhead.symm
  have hlt := r.length_render_lt
  rw [render, List.length_append] at hlt
  unfold bodyOf
  rw [hf]
  simp only [hdrop]
  by_cases hspelled : r.Spelled
  · have hlast := r.lengths_eq.2
    rw [if_pos hspelled] at hlast
    have hbody : r.readBody = r.body := if_pos hspelled
    rcases headers_contentLength h with ⟨-, hnone⟩ | ⟨v, hv, hn⟩
    · rw [hlast] at hnone
      cases hnone
    · simp only [hv, hn, hlast, hbody, List.length_append, hhead]
      rw [if_neg (by rw [Nat.mod_eq_of_lt hlt]; omega), List.take_length]
  · have hstores : ∀ l ∈ r.headers.map headerLine, stores l = false := by
      intro l hl
      obtain ⟨h, hh, rfl⟩ := List.mem_map.mp hl
      rw [(r.announces_headerLine hh).2.1, decide_eq_false_iff_not]
      exact fun hname => hspelled ⟨h, hh, hname⟩
    rw [headers_eq_none hstores h]
    rfl

/-- What is framed is accepted. -/
theorem parse_read : ∃ q, parse .fresh (r.head ++ r.readBody) = (true, q) ∧ q.method = methodOf r.method ∧
    q.path = r.path ∧ q.body = r.readBody := by
  obtain ⟨rest, hlines, hheaders⟩ := r.lines_head r.readBody
  obtain ⟨version, hline⟩ := r.parseRequestLine_startLine .fresh
  obtain ⟨headers, hstored⟩ := r.exists_headers HttpRequest.fresh.headers
  have hbody := r.bodyOf_read hstored
  rw [← hheaders, ← parseHeaders_eq_true] at hstored
  unfold parse
  rw [hlines]
  simp only [stripCR_append, hline, hstored, hbody]
  exact ⟨_, rfl, rfl, rfl, rfl⟩

theorem parseStep_read : parseStep .fresh (r.head ++ r.readBody) =
    .dispatch (parse .fresh (r.head ++ r.readBody)).2 (r.head ++ r.readBody).length := by
  obtain ⟨headerEnd, hf, hhead⟩ := r.find_head r.readBody
  obtain ⟨rest, hlines, hheaders⟩ := r.lines_head r.readBody
  obtain ⟨q, hparse, -⟩ := r.parse_read
  have hlt := r.length_render_lt
  rw [render, List.length_append] at hlt
  have hlength : extractContentLength (r.head ++ r.readBody) = r.readBody.length := by
    rw [extractContentLength_eq hf, headLines, hlines, List.tail_cons, hheaders, r.lengths_eq.1, readBody]
    split_ifs <;> rfl
  have hread : r.readBody.length ≤ r.body.length := by
    unfold readBody
    split_ifs <;> simp
  have hrequest : (headerEnd + 4 + extractContentLength (r.head ++ r.readBody)) % 2 ^ 64 =
      (r.head ++ r.readBody).length := by
    rw [hlength, hhead, List.length_append, Nat.mod_eq_of_lt (by omega)]
  unfold parseStep
  rw [hf]
  simp only [hrequest, List.take_length, hparse]
  rw [if_neg (Nat.lt_irrefl _)]

/-- **What the server takes for the request**: all of it, or its head. -/
def asRead : Whole := ⟨r.head ++ r.readBody, (parse .fresh (r.head ++ r.readBody)).2, r.parseStep_read⟩

/-- What is seen of a request: method, path, body and length. -/
theorem asRead_seen : (r.asRead.req.method, r.asRead.req.path, r.asRead.req.body, r.asRead.text.length) =
    (methodOf r.method, r.path, r.readBody, r.head.length + r.readBody.length) := by
  obtain ⟨q, hparse, hmethod, hpath, hbody⟩ := r.parse_read
  have hreq : r.asRead.req = q := congrArg Prod.snd hparse
  rw [hreq, hmethod, hpath, hbody, asRead, List.length_append]

/-- A change of case does not change how long the head is. -/
theorem Recased.length_head {r r' : RawRequest} (h : r.Recased r') : r'.head.length = r.head.length := by
  have hsum : ∀ hs : List (Bytes × Bytes), (hs.map fun h => h.1.length + h.2.length + 3).sum =
      ((hs.map upperName).map fun h => h.1.length + h.2.length + 3).sum := by
    intro hs
    simp [upperName, Function.comp_def]
  rw [RawRequest.length_head, RawRequest.length_head, hsum r'.headers, hsum r.headers, h.headers, h.method, h.path,
    h.version]

/-- Can the server tell where the request ends? -/
def Framable (r : RawRequest) : Prop := r.body = [] ∨ r.Spelled

theorem readBody_eq_iff : r.readBody = r.body ↔ r.Framable := by
  unfold readBody Framable
  split_ifs with h
  · simp [h]
  · simp [h, eq_comm]

end RawRequest

/-! ### Streams -/

/-- What `handleRead` makes of a stream: method, path, body and length of each request. -/
def observed (deliveries : List (List Bytes)) : List (Method × Bytes × Bytes × ℕ) :=
  (framedCalls .fresh deliveries).map fun x => (x.1.method, x.1.path, x.1.body, x.2)

/-- What the server should make of a request. -/
def RawRequest.meant (r : RawRequest) : Method × Bytes × Bytes × ℕ :=
  (methodOf r.method, r.path, r.body, r.render.length)

/-- A request that the server can frame is seen as it is meant, whatever follows it. -/
theorem observed_framable {r : RawRequest} (hr : r.Framable) {t : Bytes} {deliveries : List (List Bytes)}
    (h : deliveries.flatten.flatten = r.render ++ t) : ∃ later : List (List Bytes), later.flatten.flatten = t ∧
      observed deliveries = r.meant :: observed later := by
  have hbody := r.readBody_eq_iff.mpr hr
  have htext : deliveries.flatten.flatten = [r.asRead].flatMap (·.text) ++ t := by
    rw [h, List.flatMap_singleton, RawRequest.render, ← hbody]
    rfl
  obtain ⟨later, hlater, -, hframed⟩ := serve_wholes [r.asRead] (p := []) rfl htext
  refine ⟨later, hlater, ?_⟩
  have hseen := r.asRead_seen
  rw [hbody, ← List.length_append] at hseen
  rw [observed, show Reader.fresh = ⟨[], .fresh⟩ from rfl, hframed, List.map_append, List.map_singleton,
    List.map_singleton, hseen]
  rfl

/-- A request that the server cannot frame is seen without its body. -/
theorem observed_not_framable {r : RawRequest} (hr : ¬ r.Framable) {t : Bytes} {deliveries : List (List Bytes)}
    (h : deliveries.flatten.flatten = r.render ++ t) :
    ∃ more, observed deliveries = (methodOf r.method, r.path, [], r.head.length) :: more := by
  have hbody : r.readBody = [] := if_neg fun hspelled => hr (.inr hspelled)
  have htext : deliveries.flatten.flatten = [r.asRead].flatMap (·.text) ++ (r.body ++ t) := by
    rw [h, List.flatMap_singleton, RawRequest.render, List.append_assoc,
      show r.asRead.text = r.head ++ r.readBody from rfl, hbody, List.append_nil]
  obtain ⟨later, -, -, hframed⟩ := serve_wholes [r.asRead] (p := []) rfl htext
  have hseen := r.asRead_seen
  rw [hbody, List.length_nil, Nat.add_zero] at hseen
  rw [observed, show Reader.fresh = ⟨[], .fresh⟩ from rfl, hframed, List.map_append, List.map_singleton,
    List.map_singleton, hseen]
  exact ⟨_, rfl⟩

/-- Nothing is seen in an empty stream. -/
theorem observed_nil {deliveries : List (List Bytes)} (h : deliveries.flatten.flatten = []) : observed deliveries = [] := by
  have hserve := serve_waiting parseStep_nil (p := []) h
  have hcalls := framedCalls_eq .fresh deliveries
  rw [show Reader.fresh = ⟨[], .fresh⟩ from rfl, hserve] at hcalls
  rw [observed, show Reader.fresh = ⟨[], .fresh⟩ from rfl, List.map_eq_nil_iff.mp hcalls]
  rfl

/-- A change of case does not change what is meant. -/
theorem RawRequest.Recased.meant {r r' : RawRequest} (h : r.Recased r') : r'.meant = r.meant := by
  rw [RawRequest.meant, RawRequest.meant, RawRequest.render, RawRequest.render, List.length_append, List.length_append,
    h.length_head, h.method, h.path, h.body]

/-- **The case of letters in header names** makes no difference, of requests that the server
can frame, exactly when it still can. -/
theorem letter_case_iff {rs rs' : List RawRequest} (hcase : List.Forall₂ RawRequest.Recased rs rs')
    (hrs : ∀ r ∈ rs, r.Framable) {deliveries deliveries' : List (List Bytes)}
    (h : deliveries.flatten.flatten = rs.flatMap (·.render))
    (h' : deliveries'.flatten.flatten = rs'.flatMap (·.render)) :
    observed deliveries' = observed deliveries ↔ ∀ r ∈ rs', r.Framable := by
  induction hcase generalizing deliveries deliveries' with
  | nil => simp [observed_nil h, observed_nil h']
  | @cons r r' rs rs' hr hcase ih =>
    rw [List.forall_mem_cons] at hrs
    rw [List.flatMap_cons] at h h'
    obtain ⟨later, hlater, hseen⟩ := observed_framable hrs.1 h
    rw [List.forall_mem_cons, hseen]
    by_cases hframable : r'.Framable
    · obtain ⟨later', hlater', hseen'⟩ := observed_framable hframable h'
      rw [hseen', hr.meant, List.cons_inj_right, ih hrs.2 hlater hlater']
      simp [hframable]
    · -- what is dispatched in its place has no body
      obtain ⟨more, hseen'⟩ := observed_not_framable hframable h'
      have hbody : r'.body ≠ [] := fun hnil => hframable (.inl hnil)
      rw [hseen']
      constructor
      · intro heq
        rw [RawRequest.meant, List.cons.injEq, Prod.mk.injEq, Prod.mk.injEq, Prod.mk.injEq] at heq
        exact absurd (hr.body.trans heq.1.2.2.1.symm) hbody
      · exact fun hall => absurd hall.1 hframable

theorem root_ne : bytes "/" ≠ [] := by decide

theorem root_nospace : ∀ c ∈ bytes "/", isspace c = false := by decide +kernel

/-- A request whose length header is spelled `name`. -/
def helloRequest (name : Bytes) (hname : name.map toupper = contentLengthName.map toupper)
    (hchars : ∀ c ∈ name, isNameChar c = true) (hlength : name.length = 14) : RawRequest where
  method := bytes "POST"
  path := bytes "/"
  version := bytes "HTTP/1.1"
  headers := [(name, bytes " 5")]
  body := bytes "hello"
  method_ne := by decide
  method_nospace := by decide +kernel
  path_ne := root_ne
  path_nospace := root_nospace
  version_ok := by decide
  name_chars := by simpa using hchars
  value_line := by
    intro h hh
    rw [List.mem_singleton.mp hh]
    exact (by decide : (13 : UInt8) ∉ bytes " 5" ∧ (10 : UInt8) ∉ bytes " 5")
  length_eq := by
    rintro h hh -
    have hfive : IsDecimal (trim isOws (bytes " 5")) 5 := ⟨by decide +kernel, by decide +kernel, by decide +kernel⟩
    rw [List.mem_singleton.mp hh]
    exact hfive
  length_mem := fun _ => ⟨_, List.mem_singleton_self _, hname⟩
  fits := by simp [hlength, bytes]

/-- The header of the length is spelled as the server does. -/
def helloCapital : RawRequest := helloRequest contentLengthName rfl (by decide +kernel) (by decide)

/-- The header of the length is spelled in small letters. -/
def helloSmall : RawRequest := helloRequest (bytes "content-length") (by decide) (by decide +kernel) (by decide)

/-- A request with a header for the host too, which is spelled `name`. -/
def hostRequest (name : Bytes) (hname : name ∈ [bytes "Host", bytes "host"]) : RawRequest :=
  { helloCapital with
    headers := [(name, bytes " can"), (contentLengthName, bytes " 5")]
    name_chars := by
      have hall : ∀ name ∈ [bytes "Host", bytes "host"], ∀ c ∈ name, isNameChar c = true := by decide +kernel
      rw [List.forall_mem_cons, List.forall_mem_singleton]
      exact ⟨hall name hname, by decide +kernel⟩
    value_line := by
      rw [List.forall_mem_cons, List.forall_mem_singleton]
      exact ⟨(by decide : (13 : UInt8) ∉ bytes " can" ∧ (10 : UInt8) ∉ bytes " can"), by decide⟩
    length_eq := by
      have hall : ∀ name ∈ [bytes "Host", bytes "host"], name.map toupper ≠ contentLengthName.map toupper := by
        decide +kernel
      rw [List.forall_mem_cons, List.forall_mem_singleton]
      exact ⟨fun hlength => absurd hlength (hall name hname), helloCapital.length_eq _ (List.mem_singleton_self _)⟩
    length_mem := fun _ => ⟨_, List.mem_cons_of_mem _ (List.mem_singleton_self _), rfl⟩
    fits := by
      have hall : ∀ name ∈ [bytes "Host", bytes "host"], name.length = 4 := by decide
      simp only [List.map_cons, hall name hname]
      decide }

/-- The header of the host is spelled `Host`. -/
def hostCapital : RawRequest := hostRequest (bytes "Host") (by decide)

/-- The header of the host is spelled `host`. -/
def hostSmall : RawRequest := hostRequest (bytes "host") (by decide)

/-- The header of the host may be spelled in small letters, the one of the length may not. -/
theorem letter_case_iff_host :
    observed [[hostSmall.render.take 20, hostSmall.render.drop 20]] = observed [[hostCapital.render]] ∧
      observed [[helloSmall.render]] ≠ observed [[helloCapital.render]] := by
  constructor
  · have hcase : List.Forall₂ RawRequest.Recased [hostCapital] [hostSmall] :=
      .cons ⟨by decide, by decide, by decide, by decide, by decide⟩ .nil
    have hframable : ∀ r ∈ [hostCapital], r.Framable := by
      rw [List.forall_mem_singleton]
      exact .inr (by decide)
    refine (letter_case_iff hcase hframable (by simp) (by simp)).mpr ?_
    rw [List.forall_mem_singleton]
    exact .inr (by decide)
  · have hcase : List.Forall₂ RawRequest.Recased [helloCapital] [helloSmall] :=
      .cons ⟨by decide, by decide, by decide, by decide, by decide⟩ .nil
    have hframable : ∀ r ∈ [helloCapital], r.Framable := by
      rw [List.forall_mem_singleton]
      exact .inr (by decide)
    refine mt (letter_case_iff hcase hframable (by simp) (by simp)).mp ?_
    rw [List.forall_mem_singleton]
    unfold RawRequest.Framable
    decide

/-- In small letters the request is dispatched without its body. -/
theorem letter_case_matters : helloCapital.Recased helloSmall ∧
    observed [[helloCapital.render]] = [(.post, bytes "/", bytes "hello", 43)] ∧
    ∃ more, observed [[helloSmall.render]] = (.post, bytes "/", [], 38) :: more := by
  refine ⟨⟨by decide, by decide, by decide, by decide, by decide⟩, ?_, ?_⟩
  · obtain ⟨later, hlater, hseen⟩ := observed_framable (r := helloCapital) (.inr (by decide)) (by simp :
      [[helloCapital.render]].flatten.flatten = helloCapital.render ++ [])
    rw [hseen, observed_nil hlater]
    decide
  · have hsmall : ¬ helloSmall.Framable := by
      unfold RawRequest.Framable
      decide
    obtain ⟨more, hseen⟩ := observed_not_framable hsmall (by simp :
      [[helloSmall.render]].flatten.flatten = helloSmall.render ++ [])
    have hwithout : (methodOf helloSmall.method, helloSmall.path, ([] : Bytes), helloSmall.head.length) =
        (.post, bytes "/", [], 38) := by decide
    exact ⟨more, hseen.trans (congrArg (· :: more) hwithout)⟩

end CanMonitor.Http
