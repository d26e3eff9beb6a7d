import CanMonitor.Http.Decoding
import CanMonitor.Http.Response

/-!
# Self-delimiting responses

How a client cuts what comes down a connection that is kept open into responses, and why
it finds those that `serialize` wrote.

## The model

`takeResponse` is the client: it reads to the first blank line, looks among the lines of
this head for the length, in whatever capitals, and takes as many bytes after it.
`decodeResponses` goes on until nothing is left. They know nothing of the server.

`HttpResponse.Plain` says what the head of a response must not have for this to work: a
line break, or a length of its own.

## What is proved

* `takeResponse_serialize` — a plain response is cut off where it ends, whatever follows.
* `decodeResponses_serialize` — so a list of them is read back one by one.
-/

namespace CanMonitor.Http

open CanMonitor.Library

/-! ### The client -/

/-- The name of a header, in capitals. -/
def headerName (line : Bytes) : Bytes := (line.takeWhile (· ≠ 58)).map toupper

/-- The number that is the value of a header. -/
def headerNumber (line : Bytes) : Option ℕ :=
  let digits := ((line.dropWhile (· ≠ 58)).tail.dropWhile isspace).takeWhile (isDigit 10)
  if digits = [] then none else some (value 10 digits)

/-- The length that a head gives. -/
def contentLength (head : Bytes) : Option ℕ :=
  ((lines 10 head).tail.find? fun line => headerName line = bytes "CONTENT-LENGTH").bind headerNumber

/-- The body of the first response, and what follows it. -/
def takeResponse (received : Bytes) : Option (Bytes × Bytes) :=
  (find blankLine received).bind fun headerEnd =>
    (contentLength (received.take headerEnd)).bind fun length =>
      let rest := received.drop (headerEnd + 4)
      if rest.length < length then none else some (rest.take length, rest.drop length)

theorem takeResponse_length {received body rest : Bytes} (h : takeResponse received = some (body, rest)) :
    rest.length < received.length := by
  obtain ⟨headerEnd, hfind, h⟩ := Option.bind_eq_some_iff.mp h
  obtain ⟨length, -, h⟩ := Option.bind_eq_some_iff.mp h
  have hle : headerEnd + 4 ≤ received.length := find_add_length_le hfind
  simp only [Option.ite_none_left_eq_some, Option.some.injEq, Prod.mk.injEq] at h
  rw [← h.2.2, List.length_drop, List.length_drop]
  omega

/-- The bodies of the responses, if that is all there is. -/
def decodeResponses (received : Bytes) : Option (List Bytes) :=
  if received = [] then some []
  else
    match _ : takeResponse received with
    | none => none
    | some (body, rest) => (decodeResponses rest).map (body :: ·)
termination_by received.length
decreasing_by exact takeResponse_length ‹_›

theorem decodeResponses_nil : decodeResponses [] = some [] := by
  rw [decodeResponses, if_pos rfl]

theorem decodeResponses_take {received body rest : Bytes} (h : takeResponse received = some (body, rest)) :
    decodeResponses received = (decodeResponses rest).map (body :: ·) := by
  have hne : received ≠ [] := fun hnil => by simpa [hnil] using takeResponse_length h
  rw [decodeResponses, if_neg hne]
  split <;> simp_all

theorem headerName_append {name : Bytes} (h : ∀ c ∈ name, isNameChar c = true) (s : Bytes) :
    headerName (name ++ 58 :: s) = name.map toupper := by
  have hcolon : ∀ c ∈ name, (c ≠ 58) := fun c hc => (isNameChar_spec c (h c hc)).2.2.1
  rw [headerName, List.takeWhile_append_of_pos (by simpa using hcolon)]
  simp

theorem length_name_chars : ∀ c ∈ bytes "Content-Length", isNameChar c = true := by decide +kernel

theorem headerNumber_length (n : ℕ) : headerNumber (Parts.headerLine (bytes "Content-Length", decimal n)) = some n := by
  obtain ⟨hne, hd, hn⟩ := isDecimal_decimal n
  have hvalue : ((Parts.headerLine (bytes "Content-Length", decimal n)).dropWhile (· ≠ 58)).tail = 32 :: decimal n := rfl
  have hspace : (32 :: decimal n).dropWhile isspace = decimal n := by
    rw [List.dropWhile_cons_of_pos (by decide),
      dropWhile_eq_self fun a ha => isspace_of_isDigit a (hd a (List.mem_of_head? ha))]
  rw [headerNumber, hvalue, hspace, List.takeWhile_eq_self_iff.mpr hd, if_neg hne, hn]

/-! ### Plain responses -/

namespace HttpResponse

/-- The head has no line break in it and no length of its own. -/
structure Plain (r : HttpResponse) : Prop where
  message : (13 : UInt8) ∉ r.statusMessage ∧ (10 : UInt8) ∉ r.statusMessage
  name_chars : ∀ h ∈ r.headers, ∀ c ∈ h.1, isNameChar c = true
  value_line : ∀ h ∈ r.headers, (13 : UInt8) ∉ h.2 ∧ (10 : UInt8) ∉ h.2
  no_length : ∀ h ∈ r.headers, h.1.map toupper ≠ bytes "CONTENT-LENGTH"

/-- The first line of a response. -/
def statusLine (r : HttpResponse) : Bytes :=
  bytes "HTTP/1.1 " ++ decimal r.statusCode ++ bytes " " ++ r.statusMessage

/-- The line that gives the length of the body. -/
def lengthLine (r : HttpResponse) : Bytes := Parts.headerLine (bytes "Content-Length", decimal r.body.length)

/-- The lines before the one that gives the length of the body. -/
def linesBefore (r : HttpResponse) (iteration : Iteration) : List Bytes :=
  r.statusLine :: (iteration.order r.headers).map Parts.headerLine

theorem decimal_line (n : ℕ) : (13 : UInt8) ∉ decimal n ∧ (10 : UInt8) ∉ decimal n := by
  have hd := (isDecimal_decimal n).2.1
  exact ⟨fun h => absurd (hd 13 h) (by decide), fun h => absurd (hd 10 h) (by decide)⟩

variable {r : HttpResponse} (hr : r.Plain) (iteration : Iteration)

include hr

/-- `serialize` writes lines, the last of which gives the length, a blank line and the body. -/
theorem serialize_eq : r.serialize iteration =
    (r.linesBefore iteration ++ [r.lengthLine]).flatMap (· ++ crlf) ++ crlf ++ r.body := by
  have hnone : bytes "Content-Length" ∉ r.headers.map Prod.fst := by
    intro hmem
    obtain ⟨h, hh, heq⟩ := List.mem_map.mp hmem
    exact hr.no_length h hh (by rw [heq]; decide)
  have hcrlf : bytes "\r\n" = crlf := by decide
  have hcolon : bytes ": " = [58, 32] := by decide
  have hlength : bytes "Content-Length: " = bytes "Content-Length" ++ [58, 32] := by decide
  rw [serialize, headerText, if_neg hnone]
  simp [linesBefore, statusLine, lengthLine, Parts.headerLine, List.flatMap_map, hcrlf, hcolon, hlength]

theorem lines_spec {l : Bytes} (hl : l ∈ r.linesBefore iteration ++ [r.lengthLine]) :
    l ≠ [] ∧ (13 : UInt8) ∉ l ∧ (10 : UInt8) ∉ l := by
  simp only [linesBefore, List.cons_append, List.mem_cons, List.mem_append, List.mem_map, List.not_mem_nil,
    or_false, (iteration.perm r.headers).mem_iff] at hl
  obtain rfl | ⟨h, hh, rfl⟩ | rfl := hl
  · have hd := decimal_line r.statusCode
    have hm := hr.message
    refine ⟨by simp [statusLine, bytes], ?_, ?_⟩
    · simp only [statusLine, List.mem_append, not_or]
      exact ⟨⟨⟨by decide, hd.1⟩, by decide⟩, hm.1⟩
    · simp only [statusLine, List.mem_append, not_or]
      exact ⟨⟨⟨by decide, hd.2⟩, by decide⟩, hm.2⟩
  · exact headerLine_spec (hr.name_chars h hh) (hr.value_line h hh)
  · exact headerLine_spec length_name_chars (decimal_line r.body.length)

/-- The length line says how long the body is. -/
theorem contentLength_lines : (((r.linesBefore iteration).map (· ++ [13]) ++ [r.lengthLine]).tail.find?
    fun line => headerName line = bytes "CONTENT-LENGTH").bind headerNumber = some r.body.length := by
  have hbefore : ∀ h ∈ iteration.order r.headers,
      ¬ headerName (Parts.headerLine h ++ [13]) = bytes "CONTENT-LENGTH" := by
    intro h hh
    rw [(iteration.perm r.headers).mem_iff] at hh
    rw [Parts.headerLine, List.append_assoc, List.cons_append, headerName_append (hr.name_chars h hh)]
    exact hr.no_length h hh
  have hname : headerName r.lengthLine = bytes "CONTENT-LENGTH" :=
    (headerName_append length_name_chars _).trans (by decide)
  have hnumber : headerNumber r.lengthLine = some r.body.length := headerNumber_length r.body.length
  rw [linesBefore, List.map_cons, List.cons_append, List.tail_cons, List.find?_append, List.find?_eq_none.mpr]
  · simp [hname, hnumber]
  · rintro line hline
    obtain ⟨l, hl, rfl⟩ := List.mem_map.mp hline
    obtain ⟨h, hh, rfl⟩ := List.mem_map.mp hl
    simpa using hbefore h hh

/-- **A plain response ends where its length says**, whatever follows. -/
theorem takeResponse_serialize (rest : Bytes) :
    takeResponse (r.serialize iteration ++ rest) = some (r.body, rest) := by
  have hspec := fun l => lines_spec hr iteration (l := l)
  obtain ⟨headerEnd, hfind, hlen⟩ : ∃ headerEnd, find blankLine
      ((r.linesBefore iteration ++ [r.lengthLine]).flatMap (· ++ crlf) ++ crlf ++ (r.body ++ rest)) = some headerEnd ∧
      headerEnd + 2 = ((r.linesBefore iteration ++ [r.lengthLine]).flatMap (· ++ crlf)).length :=
    find_blankLine (fun l hl => (hspec l hl).2.1) (fun l hl => (hspec l (List.mem_cons_of_mem _ hl)).1) _
  have htext : r.serialize iteration ++ rest =
      (r.linesBefore iteration ++ [r.lengthLine]).flatMap (· ++ crlf) ++ crlf ++ (r.body ++ rest) := by
    rw [serialize_eq hr, List.append_assoc]
  have hhead : contentLength ((r.serialize iteration ++ rest).take headerEnd) = some r.body.length := by
    rw [htext, contentLength, List.append_assoc _ crlf,
      lines_take_block (fun l hl => (hspec l hl).2.2) (hspec r.lengthLine (by simp)).1 hlen]
    exact contentLength_lines hr iteration
  have hdrop : (r.serialize iteration ++ rest).drop (headerEnd + 4) = r.body ++ rest := by
    rw [htext, List.drop_left' (by rw [List.length_append, ← hlen]; rfl)]
  rw [takeResponse, htext, hfind, ← htext, Option.bind_some, hhead, Option.bind_some, hdrop]
  simp

end HttpResponse

/-- **Responses one after the other** are read back one by one. -/
theorem decodeResponses_serialize {rs : List (HttpResponse × Iteration)} (h : ∀ r ∈ rs, r.1.Plain) :
    decodeResponses (rs.flatMap fun r => r.1.serialize r.2) = some (rs.map fun r => r.1.body) := by
  induction rs with
  | nil => exact decodeResponses_nil
  | cons r rs ih =>
    rw [List.flatMap_cons, decodeResponses_take (HttpResponse.takeResponse_serialize (h r List.mem_cons_self) r.2 _),
      ih fun r' hr' => h r' (List.mem_cons_of_mem r hr')]
    rfl

end CanMonitor.Http
