import CanMonitor.Library.Numeral

/-!
# Responses

`HttpResponse` and its rendering. The header map is an `unordered_map`, so the order in
which `serialize` writes the headers is not the program's to choose: it is a parameter,
some permutation of the entries.
-/

namespace CanMonitor.Http

open CanMonitor.Library

/-- `status_messages_`, with the text for a code that is not there. -/
def statusMessage : ℕ → Bytes
  | 200 => bytes "OK"
  | 400 => bytes "Bad Request"
  | 403 => bytes "Forbidden"
  | 404 => bytes "Not Found"
  | 500 => bytes "Internal Server Error"
  | 503 => bytes "Service Unavailable"
  | _ => bytes "Unknown"

/-- A response object. -/
structure HttpResponse where
  statusCode : ℕ
  statusMessage : Bytes
  /-- The entries of the map, no two of one name. -/
  headers : List (Bytes × Bytes)
  body : Bytes

/-- An order in which the entries of a map are visited. -/
structure Iteration where
  order : List (Bytes × Bytes) → List (Bytes × Bytes)
  perm : ∀ l, (order l).Perm l

namespace HttpResponse

/-- `HttpResponse()`. -/
def new : HttpResponse := ⟨200, bytes "OK", [], []⟩

def setStatusCode (r : HttpResponse) (code : ℕ) : HttpResponse :=
  { r with statusCode := code, statusMessage := Http.statusMessage code }

/-- `headers_[key] = value`. -/
def setHeader (r : HttpResponse) (key value : Bytes) : HttpResponse :=
  { r with headers := r.headers.filter (·.1 ≠ key) ++ [(key, value)] }

def setBody (r : HttpResponse) (body : Bytes) : HttpResponse := { r with body }

/-- The content type by the end of a file's name. -/
def getMimeType (filepath : Bytes) : Bytes :=
  if (46 : UInt8) ∉ filepath then bytes "application/octet-stream"
  else
    let ext := filepath.rtakeWhile (· ≠ 46)
    if ext = bytes "html" ∨ ext = bytes "htm" then bytes "text/html; charset=utf-8"
    else if ext = bytes "css" then bytes "text/css"
    else if ext = bytes "js" then bytes "application/javascript"
    else if ext = bytes "json" then bytes "application/json"
    else if ext = bytes "png" then bytes "image/png"
    else if ext = bytes "jpg" ∨ ext = bytes "jpeg" then bytes "image/jpeg"
    else if ext = bytes "gif" then bytes "image/gif"
    else if ext = bytes "ico" then bytes "image/x-icon"
    else if ext = bytes "svg" then bytes "image/svg+xml"
    else if ext = bytes "txt" then bytes "text/plain"
    else bytes "application/octet-stream"

/-- The header lines of a response, with the length of the body unless it is among them. -/
def headerText (r : HttpResponse) (iteration : Iteration) : Bytes :=
  ((iteration.order r.headers).flatMap fun h => h.1 ++ bytes ": " ++ h.2 ++ bytes "\r\n") ++
    if bytes "Content-Length" ∈ r.headers.map Prod.fst then []
    else bytes "Content-Length: " ++ decimal r.body.length ++ bytes "\r\n"

/-- `serialize`. -/
def serialize (r : HttpResponse) (iteration : Iteration) : Bytes :=
  bytes "HTTP/1.1 " ++ decimal r.statusCode ++ bytes " " ++ r.statusMessage ++ bytes "\r\n" ++
    r.headerText iteration ++ bytes "\r\n" ++ r.body

/-- The first digit of a status is in the answer. -/
theorem serialize_head (r : HttpResponse) (iteration : Iteration) :
    ((r.serialize iteration).drop 9).head? = (decimal r.statusCode).head? := by
  have hne : decimal r.statusCode ≠ [] := (isDecimal_decimal r.statusCode).1
  have hlength : (bytes "HTTP/1.1 ").length = 9 := by decide +kernel
  unfold serialize
  simp only [List.append_assoc]
  rw [List.drop_append_of_le_length (by rw [hlength]), List.drop_of_length_le (by rw [hlength]), List.nil_append,
    List.head?_append_of_ne_nil _ hne]

end HttpResponse

end CanMonitor.Http
