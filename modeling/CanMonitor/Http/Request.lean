import CanMonitor.Library.Text
import CanMonitor.Library.Numeral
import Mathlib.Logic.Function.Basic

/-!
# Requests

`HttpRequest` and its parser. `HttpRequest::parse` is called on a member that the
connection keeps from one request to the next, so every parsing function takes the
object as it is and gives it back as it leaves it, also when it fails.

## The model

* `headers` is the map `unordered_map<string, string>` as a function; assignment is
  `Function.update`, so a later header of one name replaces an earlier one.
* `parseRequestLine` reads words as `>>` does. With one word nothing is assigned, with
  two or more than three `path` is, and `method` and `version` only with exactly three.
* `parse` reads lines with `getline`, takes one carriage return off the end of each,
  and looks for the body after the first `CRLF CRLF` of the whole text. Sums of
  `size_t` are modulo `2^64`.

## What is proved

* `parse_eq_of_headers` — the only field that parsing reads is `headers`: two objects
  that agree on it accept the same texts, and what they hold after accepting one is
  the same.
* `parseHeaders_eq_true` and `parse_eq_true` — what acceptance says about the lines, the headers
  and the body.
-/

namespace CanMonitor.Http

open CanMonitor.Library

/-- The request methods; the parser only gives `get`, `post` and `unknown`. -/
inductive Method where
  | get
  | post
  | put
  | delete
  | unknown
  deriving DecidableEq, Repr

/-- The protocol versions. -/
inductive Version where
  | http10
  | http11
  | unknown
  deriving DecidableEq, Repr

/-- The header map. -/
abbrev Headers := Bytes → Option Bytes

/-- A request object. -/
structure HttpRequest where
  method : Method
  path : Bytes
  version : Version
  /-- The body, which only `POST` uses. -/
  body : Bytes
  headers : Headers

/-- `HttpRequest()`. -/
def HttpRequest.fresh : HttpRequest := ⟨.unknown, [], .unknown, [], fun _ => none⟩

/-- The name `Content-Length`. -/
def contentLengthName : Bytes := bytes "Content-Length"

/-- `CRLF CRLF`, the end of the head of a message. -/
def blankLine : Bytes := [13, 10, 13, 10]

/-- Take one carriage return off the end of a line. -/
def stripCR (line : Bytes) : Bytes := if line.getLast? = some 13 then line.dropLast else line

/-- Is the character a blank (the only one that `parseHeader` cuts off)? -/
def isBlank (c : UInt8) : Bool := c == 32

/-! ### The parser -/

/-- The method of the first word of a request line. -/
def methodOf (word : Bytes) : Method :=
  if word.map toupper = bytes "GET" then .get
  else if word.map toupper = bytes "POST" then .post
  else .unknown

/-- The version of the last word of a request line. -/
def versionOf (word : Bytes) : Version :=
  if word = bytes "HTTP/1.1" then .http11
  else if word = bytes "HTTP/1.0" then .http10
  else .unknown

/-- Read a request line. -/
def parseRequestLine (r : HttpRequest) (line : Bytes) : Bool × HttpRequest :=
  match words isspace line with
  | [method, path, version] =>
    (versionOf version ≠ .unknown, { r with method := methodOf method, path, version := versionOf version })
  | _ :: path :: _ => (false, { r with path })
  | _ => (false, r)

/-- The name and the value on a header line with the colon at `colon`. -/
def headerOf (line : Bytes) (colon : ℕ) : Bytes × Bytes :=
  (trim isBlank (line.take colon), (line.drop (colon + 1)).dropWhile isBlank)

/-- Read a header line; it fails without a colon. -/
def parseHeader (headers : Headers) (line : Bytes) : Option Headers :=
  (find [58] line).map fun colon =>
    Function.update headers (headerOf line colon).1 (some (headerOf line colon).2)

/-- Read header lines, up to an empty one or one that is none. -/
def parseHeaders (headers : Headers) : List Bytes → Bool × Headers
  | [] => (true, headers)
  | line :: rest =>
    if stripCR line = [] then (true, headers)
    else match parseHeader headers (stripCR line) with
      | none => (false, headers)
      | some headers => parseHeaders headers rest

/-- The body in the whole text, once the headers are read. -/
def bodyOf (headers : Headers) (data : Bytes) : Option Bytes :=
  match find blankLine data with
  | none => none
  | some bodyStart =>
    match headers contentLengthName with
    | none => some (data.drop (bodyStart + 4))
    | some value =>
      match stoul value with
      | none => none
      | some bodyLen =>
        if data.length < (bodyStart + 4 + bodyLen) % 2 ^ 64 then none
        else some ((data.drop (bodyStart + 4)).take bodyLen)

/-- `HttpRequest::parse`: is the text accepted, and the object afterwards. -/
def parse (r : HttpRequest) (data : Bytes) : Bool × HttpRequest :=
  match lines 10 data with
  | [] => (false, r)
  | line :: rest =>
    match parseRequestLine r (stripCR line) with
    | (false, r) => (false, r)
    | (true, r) =>
      match parseHeaders r.headers rest with
      | (false, headers) => (false, { r with headers })
      | (true, headers) =>
        match bodyOf headers data with
        | none => (false, { r with headers })
        | some body => (true, { r with headers, body })

/-! ### What parsing reads and keeps -/

/-- An accepted request line gives the three fields whatever they were; nothing else of
the object changes. -/
theorem parseRequestLine_congr (r r' : HttpRequest) (line : Bytes) :
    (parseRequestLine r' line).1 = (parseRequestLine r line).1 ∧
      (parseRequestLine r' line).2.headers = r'.headers ∧
      ((parseRequestLine r line).1 = true → (parseRequestLine r' line).2 =
        { (parseRequestLine r line).2 with body := r'.body, headers := r'.headers }) := by
  unfold parseRequestLine
  split <;> simp

/-- **What is left of an earlier request** matters to the next one through `headers`
alone: objects that agree on it accept the same texts, hold the same after accepting
one, and still agree on it after rejecting one. -/
theorem parse_eq_of_headers {r r' : HttpRequest} (h : r'.headers = r.headers) (data : Bytes) :
    (parse r' data).1 = (parse r data).1 ∧ (parse r' data).2.headers = (parse r data).2.headers ∧
      ((parse r data).1 = true → parse r' data = parse r data) := by
  unfold parse
  cases lines 10 data with
  | nil => simp [h]
  | cons line rest =>
    obtain ⟨hok, hheaders', hsame⟩ := parseRequestLine_congr r r' (stripCR line)
    obtain ⟨-, hheaders, -⟩ := parseRequestLine_congr r r (stripCR line)
    dsimp only
    generalize parseRequestLine r (stripCR line) = p at *
    generalize parseRequestLine r' (stripCR line) = p' at *
    obtain ⟨ok, q⟩ := p
    obtain ⟨ok', q'⟩ := p'
    obtain rfl : ok' = ok := hok
    cases ok' with
    | false => exact ⟨rfl, hheaders'.trans (h.trans hheaders.symm), nofun⟩
    | true =>
      obtain rfl : q' = { q with body := r'.body, headers := r'.headers } := hsame rfl
      simp only [h, show q.headers = r.headers from hheaders]
      rcases parseHeaders r.headers rest with ⟨_ | _, headers⟩
      · simp
      · dsimp only
        cases bodyOf headers data <;> simp

theorem stripCR_append (l : Bytes) : stripCR (l ++ [13]) = l := by simp [stripCR]

/-- The header lines that are read: those before the first empty one, without their
carriage return. -/
def headerLines (rest : List Bytes) : List Bytes := (rest.map stripCR).takeWhile (· ≠ [])

@[simp] theorem headerLines_nil : headerLines [] = [] := rfl

theorem headerLines_cons (line : Bytes) (rest : List Bytes) :
    headerLines (line :: rest) = if stripCR line = [] then [] else stripCR line :: headerLines rest := by
  simp [headerLines, List.takeWhile_cons]

/-- The lines up to an empty one do not depend on what follows it. -/
theorem headerLines_append_cr (ls rest : List Bytes) : headerLines (ls ++ [13] :: rest) = headerLines ls := by
  induction ls with
  | nil => rfl
  | cons l ls ih => rw [List.cons_append, headerLines_cons, headerLines_cons, ih]

/-- Headers are accepted when every line before the empty one has a colon; what is stored
then is what the lines store one after the other. -/
theorem parseHeaders_eq_true {headers headers' : Headers} {rest : List Bytes} :
    parseHeaders headers rest = (true, headers') ↔ (headerLines rest).foldlM parseHeader headers = some headers' := by
  induction rest generalizing headers with
  | nil => simp [parseHeaders]
  | cons line rest ih =>
    rw [headerLines_cons, parseHeaders]
    by_cases he : stripCR line = []
    · simp [he]
    · simp only [if_neg he, List.foldlM_cons]
      cases parseHeader headers (stripCR line) with
      | none => simp
      | some headers₁ => exact ih

/-- An accepted text: its lines, its fields and its body. -/
theorem parse_eq_true {r r' : HttpRequest} {data : Bytes} (h : parse r data = (true, r')) :
    ∃ line rest q headers body, lines 10 data = line :: rest ∧ parseRequestLine r (stripCR line) = (true, q) ∧
      (headerLines rest).foldlM parseHeader r.headers = some headers ∧ bodyOf headers data = some body ∧
      r' = { q with headers, body } := by
  unfold parse at h
  split at h
  · simp at h
  rename_i line rest hlines
  have hheaders := (parseRequestLine_congr r r (stripCR line)).2.1
  split at h
  · simp at h
  rename_i q hq
  split at h
  · simp at h
  rename_i headers hp
  split at h
  · simp at h
  rename_i body hb
  rw [hq] at hheaders
  rw [show q.headers = r.headers from hheaders] at hp
  refine ⟨line, rest, q, headers, body, hlines, hq, parseHeaders_eq_true.mp hp, hb, ?_⟩
  simpa using h.symm

end CanMonitor.Http
