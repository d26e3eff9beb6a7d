import CanMonitor.Http.Framing

/-!
# Recovery from a rejected request

`handleRead` answers a request that `HttpRequest::parse` rejects with 400 and clears
`recv_buf`. A request that is accepted is followed by `req = HttpRequest()`, a rejected
one is not: what `parse` stored before it gave up is still in `req` when the next
request is parsed into it.

## The model

`storesHeader` is a condition on a rejected text alone: its request line is good and so
is the first line after it. `rejectedSince` are the texts rejected since the last request
that was dispatched, which is when the object was last made new.

## What is proved

* `serve_congr` — later calls depend on what `req` was through its headers only.
* `serve_after_reject_iff` — after a rejection the connection behaves as a new one if
  and only if nothing was stored, by this request or by one rejected before it.
* `reject_leaves_residue` — it does not after a rejected request with a length header.
-/

namespace CanMonitor.Http

open CanMonitor.Library

/-! ### What later calls depend on -/

/-- One iteration of the loop does the same on objects that agree on the headers. -/
theorem parseStep_congr {r r' : HttpRequest} (h : r'.headers = r.headers) (recvBuf : Bytes) :
    (∃ text q q', parseStep r recvBuf = .bad text q ∧ parseStep r' recvBuf = .bad text q' ∧
        q'.headers = q.headers) ∨
      ((∀ text q, parseStep r recvBuf ≠ .bad text q) ∧ parseStep r' recvBuf = parseStep r recvBuf) := by
  unfold parseStep
  split
  · exact .inr ⟨nofun, rfl⟩
  rename_i headerEnd _
  simp only
  split_ifs
  · exact .inr ⟨nofun, rfl⟩
  obtain ⟨hok, hheaders, hsame⟩ := parse_eq_of_headers h
    (recvBuf.take ((headerEnd + 4 + extractContentLength recvBuf) % 2 ^ 64))
  split
  · rename_i q hq
    split
    · rename_i q' hq'
      rw [hq, hq'] at hheaders
      exact .inl ⟨_, q, q', rfl, rfl, hheaders⟩
    · rename_i q' hq'
      rw [hq, hq'] at hok
      cases hok
  · rename_i q hq
    rw [hsame (by rw [hq]), hq]
    exact .inr ⟨nofun, rfl⟩

/-- The loop does the same on objects that agree on the headers, and leaves such. -/
theorem parseLoop_congr {r r' : HttpRequest} (h : r'.headers = r.headers) (recvBuf : Bytes) :
    (parseLoop ⟨recvBuf, r'⟩).1 = (parseLoop ⟨recvBuf, r⟩).1 ∧
      (parseLoop ⟨recvBuf, r'⟩).2.recvBuf = (parseLoop ⟨recvBuf, r⟩).2.recvBuf ∧
      (parseLoop ⟨recvBuf, r'⟩).2.req.headers = (parseLoop ⟨recvBuf, r⟩).2.req.headers := by
  rcases parseStep_congr h recvBuf with ⟨text, q, q', hq, hq', hheaders⟩ | ⟨hgood, hsame⟩
  · rw [parseLoop_bad (s := ⟨recvBuf, r⟩) hq, parseLoop_bad (s := ⟨recvBuf, r'⟩) hq']
    exact ⟨rfl, rfl, hheaders⟩
  · cases hstep : parseStep r recvBuf with
    | wait =>
      rw [parseLoop_wait (s := ⟨recvBuf, r⟩) hstep, parseLoop_wait (s := ⟨recvBuf, r'⟩) (hsame.trans hstep)]
      exact ⟨rfl, rfl, h⟩
    | bad text q => exact absurd hstep (hgood text q)
    | dispatch q len =>
      rw [parseLoop_dispatch (s := ⟨recvBuf, r⟩) hstep,
        parseLoop_dispatch (s := ⟨recvBuf, r'⟩) (hsame.trans hstep)]
      exact ⟨rfl, rfl, rfl⟩

/-- **Later calls** do the same on connections whose buffers are equal and whose objects
agree on the headers. -/
theorem serve_congr {r r' : HttpRequest} (h : r'.headers = r.headers) (recvBuf : Bytes)
    (deliveries : List (List ReadResult)) :
    (serve ⟨recvBuf, r'⟩ deliveries).1 = (serve ⟨recvBuf, r⟩ deliveries).1 := by
  induction deliveries generalizing recvBuf r r' with
  | nil => rfl
  | cons reads deliveries ih =>
    have hread : (handleRead ⟨recvBuf, r'⟩ reads).1 = (handleRead ⟨recvBuf, r⟩ reads).1 ∧
        (handleRead ⟨recvBuf, r'⟩ reads).2.recvBuf = (handleRead ⟨recvBuf, r⟩ reads).2.recvBuf ∧
        (handleRead ⟨recvBuf, r'⟩ reads).2.req.headers = (handleRead ⟨recvBuf, r⟩ reads).2.req.headers := by
      unfold handleRead
      simp only
      rcases drain recvBuf reads with ⟨buf, _ | _⟩
      · exact ⟨rfl, rfl, h⟩
      · exact parseLoop_congr h buf
    rw [serve, serve]
    generalize handleRead ⟨recvBuf, r'⟩ reads = x' at *
    generalize handleRead ⟨recvBuf, r⟩ reads = x at *
    obtain ⟨es', buf', q'⟩ := x'
    obtain ⟨es, buf, q⟩ := x
    obtain ⟨rfl, rfl, hheaders⟩ := hread
    exact congrArg (es' ++ ·) (ih hheaders buf')

/-! ### What a rejected request stores -/

/-- Does the text have a good request line and after it a good header line? -/
def storesHeader (text : Bytes) : Bool :=
  match lines 10 text with
  | line :: next :: _ =>
    (parseRequestLine .fresh (stripCR line)).1 && stripCR next ≠ [] && (stripCR next).contains 58
  | _ => false

theorem ne_fresh_of_parseHeader {headers headers' : Headers} {line : Bytes}
    (h : parseHeader headers line = some headers') : headers' ≠ HttpRequest.fresh.headers := by
  obtain ⟨colon, -, rfl⟩ := Option.map_eq_some_iff.mp h
  intro hfresh
  have := congrFun hfresh (headerOf line colon).1
  rw [Function.update_self] at this
  cases this

/-- Headers are only added. -/
theorem parseHeaders_ne_fresh {headers : Headers} (h : headers ≠ HttpRequest.fresh.headers) (rest : List Bytes) :
    (parseHeaders headers rest).2 ≠ HttpRequest.fresh.headers := by
  induction rest generalizing headers with
  | nil => exact h
  | cons line rest ih =>
    unfold parseHeaders
    split_ifs
    · exact h
    · split
      · exact h
      · exact ih (ne_fresh_of_parseHeader ‹_›)

/-- The header lines store nothing only if the first of them is none. -/
theorem parseHeaders_eq_fresh_iff (rest : List Bytes) :
    (parseHeaders HttpRequest.fresh.headers rest).2 = HttpRequest.fresh.headers ↔
      ∀ line ∈ rest.head?, stripCR line = [] ∨ (58 : UInt8) ∉ stripCR line := by
  cases rest with
  | nil => simp [parseHeaders]
  | cons line rest =>
    simp only [parseHeaders, List.head?_cons, Option.mem_def, Option.some.injEq, forall_eq']
    by_cases he : stripCR line = []
    · simp [he]
    · simp only [he, false_or]
      cases hp : parseHeader HttpRequest.fresh.headers (stripCR line) with
      | none =>
        rw [parseHeader, Option.map_eq_none_iff, find_singleton_eq_none] at hp
        simp [hp]
      | some headers =>
        have hstored := parseHeaders_ne_fresh (ne_fresh_of_parseHeader hp) rest
        obtain ⟨colon, hf, -⟩ := Option.map_eq_some_iff.mp hp
        have hcolon : (58 : UInt8) ∈ stripCR line := by
          by_contra hno
          rw [find_singleton_eq_none.mpr hno] at hf
          cases hf
        simp [hstored, hcolon]

/-- **What a rejected request leaves** is nothing if and only if nothing was there and it
stores nothing itself. -/
theorem headers_of_reject {r r' : HttpRequest} {data : Bytes} (h : parse r data = (false, r')) :
    r'.headers = HttpRequest.fresh.headers ↔ r.headers = HttpRequest.fresh.headers ∧ storesHeader data = false := by
  unfold parse at h
  cases hlines : lines 10 data with
  | nil =>
    rw [hlines] at h
    cases h
    simp [storesHeader, hlines]
  | cons line rest =>
    simp only [hlines] at h
    obtain ⟨hok, hkept, -⟩ := parseRequestLine_congr .fresh r (stripCR line)
    have hstores : storesHeader data = false ↔ ((parseRequestLine r (stripCR line)).1 = true →
        ∀ next ∈ rest.head?, stripCR next = [] ∨ (58 : UInt8) ∉ stripCR next) := by
      rw [hok]
      cases rest with
      | nil => simp [storesHeader, hlines]
      | cons next rest =>
        simp only [List.head?_cons, Option.mem_def, Option.some.injEq, forall_eq']
        simp [storesHeader, hlines, imp_iff_not_or, or_assoc]
    rw [hstores]
    generalize parseRequestLine r (stripCR line) = p at *
    obtain ⟨ok, q⟩ := p
    replace hkept : q.headers = r.headers := hkept
    cases ok
    · cases h
      simp [hkept]
    · -- whatever made `parse` give up, the headers are those that were read
      have hread : r'.headers = (parseHeaders r.headers rest).2 := by
        simp only [hkept] at h
        generalize parseHeaders r.headers rest = p at h
        obtain ⟨_ | _, headers⟩ := p
        · cases h
          rfl
        · simp only at h
          cases hb : bodyOf headers data with
          | none => rw [hb] at h; cases h; rfl
          | some body => rw [hb] at h; cases h
      rw [hread, forall_prop_of_true rfl, ← parseHeaders_eq_fresh_iff]
      constructor
      · intro hnone
        have hr : r.headers = HttpRequest.fresh.headers :=
          by_contra fun hr => parseHeaders_ne_fresh hr rest hnone
        exact ⟨hr, hr ▸ hnone⟩
      · rintro ⟨hr, hnone⟩
        rw [hr, hnone]

/-! ### After a rejection -/

/-- `GET / HTTP/1.1` without headers. -/
def plainGet : Bytes := bytes "GET / HTTP/1.1\r\n\r\n"

/-- The object that holds `plainGet`. -/
def plainRequest : HttpRequest := ⟨.get, bytes "/", .http11, [], fun _ => none⟩

theorem serve_plainGet : (serve .fresh [[.data plainGet]]).1 = [.dispatched plainRequest] := by
  have hstep : parseStep .fresh plainGet = .dispatch plainRequest 18 := rfl
  rw [serve, serve, show handleRead .fresh [.data plainGet] = parseLoop ⟨plainGet, .fresh⟩ from rfl,
    parseLoop_dispatch hstep, parseLoop_wait rfl]
  rfl

/-- A request without headers is dispatched with those that were there. -/
theorem headers_of_serve_plainGet {r : HttpRequest} {q : HttpRequest}
    (h : (serve ⟨[], r⟩ [[.data plainGet]]).1 = [.dispatched q]) : q.headers = r.headers := by
  rw [serve, serve, show handleRead ⟨[], r⟩ [.data plainGet] = parseLoop ⟨plainGet, r⟩ from rfl] at h
  cases hstep : parseStep r plainGet with
  | wait => simp [parseLoop_wait (s := ⟨plainGet, r⟩) hstep] at h
  | bad text q' => simp [parseLoop_bad (s := ⟨plainGet, r⟩) hstep] at h
  | dispatch q' len =>
    rw [parseLoop_dispatch (s := ⟨plainGet, r⟩) hstep, List.append_nil] at h
    obtain rfl : q' = q := Event.dispatched.inj (List.cons.inj h).1
    obtain ⟨headerEnd, hf, rfl, -, hparse⟩ := parseStep_dispatch hstep
    obtain rfl : 14 = headerEnd := Option.some.inj hf
    obtain ⟨line, rest, p, headers, body, hlines, -, hstored, -, rfl⟩ := parse_eq_true hparse
    obtain ⟨-, rfl⟩ := List.cons.inj hlines
    exact (Option.some.inj hstored).symm

/-- The texts rejected since the last request that was dispatched. -/
def rejectedSince (texts : List Bytes) : List Event → List Bytes
  | [] => texts
  | .dispatched _ :: es => rejectedSince [] es
  | .rejected text :: es => rejectedSince (text :: texts) es
  | .removed :: es => rejectedSince texts es

theorem rejectedSince_append (texts : List Bytes) (es es' : List Event) :
    rejectedSince texts (es ++ es') = rejectedSince (rejectedSince texts es) es' := by
  induction es generalizing texts with
  | nil => rfl
  | cons e es ih => cases e <;> exact ih _

/-- The object holds no headers exactly when none of these texts stores one. -/
def Residue (r : HttpRequest) (texts : List Bytes) : Prop :=
  r.headers = HttpRequest.fresh.headers ↔ ∀ text ∈ texts, storesHeader text = false

theorem residue_fresh : Residue .fresh [] := by simp [Residue]

theorem Residue.bad {r q : HttpRequest} {texts : List Bytes} {text : Bytes} (h : Residue r texts)
    (hp : parse r text = (false, q)) : Residue q (text :: texts) := by
  rw [Residue, headers_of_reject hp, List.forall_mem_cons, and_comm]
  exact and_congr_right' h

theorem Residue.parseLoop (s : Reader) {texts : List Bytes} (h : Residue s.req texts) :
    Residue (parseLoop s).2.req (rejectedSince texts (parseLoop s).1) := by
  induction s using parseLoop.induct generalizing texts with
  | case1 s hstep =>
    rw [parseLoop_wait hstep]
    exact h
  | case2 s text q hstep =>
    rw [parseLoop_bad hstep]
    exact h.bad (parseStep_bad hstep)
  | case3 s q len hstep es t hloop ih =>
    rw [parseLoop_dispatch hstep]
    exact ih residue_fresh

theorem Residue.handleRead (s : Reader) {texts : List Bytes} (h : Residue s.req texts) (reads : List ReadResult) :
    Residue (handleRead s reads).2.req (rejectedSince texts (handleRead s reads).1) := by
  unfold Http.handleRead
  split
  · exact Residue.parseLoop _ h
  · exact h

theorem Residue.serve (s : Reader) {texts : List Bytes} (h : Residue s.req texts) (history : List (List ReadResult)) :
    Residue (serve s history).2.req (rejectedSince texts (serve s history).1) := by
  induction history generalizing s texts with
  | nil => exact h
  | cons reads history ih =>
    rw [Http.serve, rejectedSince_append]
    exact ih _ (h.handleRead s reads)

theorem recvBuf_of_rejected (s : Reader) {es : List Event} {text : Bytes}
    (h : (parseLoop s).1 = es ++ [.rejected text]) : (parseLoop s).2.recvBuf = [] := by
  induction s using parseLoop.induct generalizing es with
  | case1 s hstep => simp [parseLoop_wait hstep] at h
  | case2 s text q hstep => rw [parseLoop_bad hstep]
  | case3 s q len hstep es' t hloop ih =>
    rw [parseLoop_dispatch hstep] at h ⊢
    cases es with
    | nil => simp at h
    | cons e es => exact ih (List.cons.inj h).2

/-- A call that ends with the answer 400 leaves the buffer empty. -/
theorem recvBuf_of_handleRead {s : Reader} {reads : List ReadResult} {es : List Event} {text : Bytes}
    (h : (handleRead s reads).1 = es ++ [.rejected text]) : (handleRead s reads).2.recvBuf = [] := by
  unfold handleRead at h ⊢
  split at h
  · exact recvBuf_of_rejected _ h
  · cases es <;> simp at h

/-- **A rejected request leaves no residue exactly when none was stored**: after a history
of calls on a new connection that ends with the answer 400, later calls do what they
would do on a new connection if and only if no text rejected since the last dispatched
request stores a header. -/
theorem serve_after_reject_iff {history : List (List ReadResult)} {reads : List ReadResult} {es : List Event}
    {text : Bytes} (h : (handleRead (serve .fresh history).2 reads).1 = es ++ [.rejected text]) :
    (∀ later, (serve (serve .fresh (history ++ [reads])).2 later).1 = (serve .fresh later).1) ↔
      ∀ text ∈ rejectedSince [] (serve .fresh (history ++ [reads])).1, storesHeader text = false := by
  have hbuf := recvBuf_of_handleRead h
  refine Iff.trans ?_ (Residue.serve .fresh residue_fresh (history ++ [reads]))
  rw [serve_concat]
  simp only
  generalize (handleRead (serve .fresh history).2 reads).2 = t at hbuf ⊢
  obtain ⟨buf, r⟩ := t
  obtain rfl : buf = [] := hbuf
  constructor
  · intro hall
    exact (headers_of_serve_plainGet ((hall _).trans serve_plainGet)).symm
  · exact fun hr => serve_congr hr []

/-- A request with a length header and a line that is no header line. -/
def brokenRequest : Bytes := bytes "GET / HTTP/1.1\r\nContent-Length: 5\r\nbad\r\n\r\nhello"

theorem handleRead_brokenRequest : ∃ r,
    handleRead .fresh [.data brokenRequest] = ([.rejected brokenRequest], ⟨[], r⟩) ∧
      parseStep r plainGet = .bad plainGet r := by
  refine ⟨(parse .fresh brokenRequest).2, parseLoop_bad (s := ⟨brokenRequest, .fresh⟩) rfl, rfl⟩

theorem serve_after_reject_broken :
    (∀ later, (serve (serve .fresh ([] ++ [[.data brokenRequest]])).2 later).1 = (serve .fresh later).1) ↔
      ∀ text ∈ rejectedSince [] (serve .fresh ([] ++ [[.data brokenRequest]])).1, storesHeader text = false := by
  obtain ⟨r, hr, -⟩ := handleRead_brokenRequest
  have h : (handleRead (serve .fresh []).2 [.data brokenRequest]).1 = [] ++ [.rejected brokenRequest] := by
    rw [serve, hr]
    rfl
  exact serve_after_reject_iff h

/-- The length header of a rejected request makes the request after it, which a new
connection accepts, be rejected too. -/
theorem reject_leaves_residue :
    (serve .fresh [[.data brokenRequest]]).1 = [.rejected brokenRequest] ∧
      ¬ ∀ later, (serve (serve .fresh [[.data brokenRequest]]).2 later).1 = (serve .fresh later).1 := by
  obtain ⟨r, hr, hbad⟩ := handleRead_brokenRequest
  have hs : serve .fresh [[.data brokenRequest]] = ([.rejected brokenRequest], ⟨[], r⟩) := by
    simp [serve, hr]
  have hnext : (serve ⟨[], r⟩ [[.data plainGet]]).1 = [.rejected plainGet] := by
    rw [serve, serve, show handleRead ⟨[], r⟩ [.data plainGet] = parseLoop ⟨plainGet, r⟩ from rfl,
      parseLoop_bad (s := ⟨plainGet, r⟩) hbad]
    rfl
  constructor
  · rw [hs]
  · intro hall
    have := hall [[.data plainGet]]
    rw [hs, hnext, serve_plainGet] at this
    cases this

end CanMonitor.Http
