import CanMonitor.Connection.Routes
import CanMonitor.Library.Path

/-!
# The document root

Which file a `GET` of anything but the API routes opens. `processRequest` puts `wwwroot` in
front of the route and opens what that names; it does not look at the segments of the route,
nor whether it begins with a slash.

## The model

* `Reads` — the answer depends on what file a name stands for: the one way that a file comes
  into `processRequest`.
* `IsBelow` — the name leads strictly below `wwwroot`, by its text alone. A file name ends at
  its first null character (`cString`).

## What is proved

* `reads_iff` — exactly one name is asked for, whatever the route.
* `files_below_root_iff` — it leads below `wwwroot` exactly when the text enters that directory
  from the one above, does not leave it any more and goes on to something in it.
* `file_above_root` — a request for `/../CMakeLists.txt` is accepted and opens that file.
-/

namespace CanMonitor.Connection

open CanMonitor.Library CanMonitor.Can CanMonitor.Http

/-! ### Files and names -/

/-- The part of a name that the operating system sees. -/
def cString (name : Bytes) : Bytes := name.takeWhile (· ≠ 0)

/-- What a segment of a name does. -/
def moveOf (segment : Bytes) : Move Bytes :=
  if segment = [] ∨ segment = bytes "." then .stay else if segment = bytes ".." then .up else .down segment

/-- The moves of a name. -/
def movesOf (name : Bytes) : List (Move Bytes) := ((cString name).splitOn 47).map moveOf

/-- The name leads strictly below `wwwroot`. -/
def IsBelow (name : Bytes) : Prop := ∃ rest, rest ≠ [] ∧ resolve (movesOf name) = ⟨0, rest ++ [bytes "wwwroot"]⟩

/-- The answer depends on what file the name stands for. -/
def Reads (req : HttpRequest) (name : Bytes) : Prop :=
  ∃ (env : Environment) (openFile : Bytes → Option File), (∀ other, other ≠ name → openFile other = env.openFile other) ∧
    processRequest req { env with openFile } ≠ processRequest req env

/-- The routes of the API that are answered to a `GET`. -/
def apiRoutes : List Bytes := [bytes "/api/can/frames", bytes "/api/can/stats", bytes "/api/can/stream"]

/-- The name of the file of a route. -/
def filepath (route : Bytes) : Bytes := bytes "wwwroot" ++ if route = bytes "/" then bytes "/index.html" else route

/-! ### What is opened -/

section

variable {req : HttpRequest} (hget : req.method = .get) (hroute : pathWithoutQuery req.path ∉ apiRoutes)
include hget hroute

/-- A `GET` of no API route is one of a file. -/
theorem processRequest_file (env : Environment) : processRequest req env =
    match fileResponse (pathWithoutQuery req.path) env.openFile env.allocates with
    | none => .throws
    | some resp => .respond (resp.serialize env.iteration) := by
  simp only [apiRoutes, List.mem_cons, List.not_mem_nil, or_false, not_or] at hroute
  unfold processRequest
  simp only [hget, hroute, and_false, if_false, if_true]
  rfl

/-- **One name** is asked for: `wwwroot` and the route. -/
theorem reads_iff (name : Bytes) : Reads req name ↔ name = filepath (pathWithoutQuery req.path) := by
  constructor
  · rintro ⟨env, openFile, hsame, hne⟩
    by_contra hname
    have hopen : openFile (filepath (pathWithoutQuery req.path)) = env.openFile (filepath (pathWithoutQuery req.path)) :=
      hsame _ (Ne.symm hname)
    refine hne ?_
    rw [processRequest_file hget hroute, processRequest_file hget hroute]
    unfold fileResponse
    simp only [filepath] at hopen
    simp only [hopen]
  · rintro rfl
    -- an empty file against none
    let env : Environment := ⟨none, fun _ => none, fun _ => true, ⟨fun l => l, fun l => .refl l⟩⟩
    refine ⟨env, fun other => if other = filepath (pathWithoutQuery req.path) then some ⟨0, []⟩ else none,
      fun other hother => if_neg hother, fun heq => ?_⟩
    rw [processRequest_file hget hroute, processRequest_file hget hroute] at heq
    unfold fileResponse at heq
    simp only [← filepath.eq_1, if_true] at heq
    have hhead := congrArg (fun s => (s.drop 9).head?) (Reply.respond.inj heq)
    simp only [HttpResponse.serialize_head] at hhead
    change (decimal 200).head? = (decimal 404).head? at hhead
    exact absurd hhead (by decide +kernel)

/-- **Files below the root.** What a request opens leads strictly below `wwwroot` if and only
if its segments can be cut at a `wwwroot` so that those before it lead back to where they
began, and those after it never lead above it and end deeper than it. -/
theorem files_below_root_iff : (∀ name, Reads req name → IsBelow name) ↔
    ∃ pre post d, movesOf (filepath (pathWithoutQuery req.path)) = pre ++ .down (bytes "wwwroot") :: post ∧
      descend 0 pre = some 0 ∧ descend 0 post = some (d + 1) := by
  rw [← resolve_below_iff]
  constructor
  · exact fun h => h _ ((reads_iff hget hroute _).mpr rfl)
  · intro h name hname
    rw [(reads_iff hget hroute name).mp hname]
    exact h

end

theorem files_below_root_iff_app :
    (∀ name, Reads { HttpRequest.fresh with method := .get, path := bytes "/css/../app.js?v=1" } name → IsBelow name) ↔
      ∃ pre post d, movesOf (filepath (bytes "/css/../app.js")) = pre ++ .down (bytes "wwwroot") :: post ∧
        descend 0 pre = some 0 ∧ descend 0 post = some (d + 1) := by
  have hroute : pathWithoutQuery (bytes "/css/../app.js?v=1") = bytes "/css/../app.js" := by decide +kernel
  have h := @files_below_root_iff { HttpRequest.fresh with method := .get, path := bytes "/css/../app.js?v=1" }
    rfl (by decide +kernel)
  rwa [hroute] at h

/-- A request for a file beside `wwwroot`. -/
def besideRequest : Bytes := bytes "GET /../CMakeLists.txt HTTP/1.1\r\n\r\n"

/-- The request is accepted, and the file beside `wwwroot` is opened. -/
theorem file_above_root : (parse .fresh besideRequest).1 = true ∧ (parse .fresh besideRequest).2.method = .get ∧
    Reads (parse .fresh besideRequest).2 (bytes "wwwroot/../CMakeLists.txt") ∧
      ¬ IsBelow (bytes "wwwroot/../CMakeLists.txt") := by
  have hget : (parse .fresh besideRequest).2.method = .get := by decide +kernel
  refine ⟨by decide +kernel, hget, (reads_iff hget (by decide +kernel) _).mpr (by decide +kernel), ?_⟩
  rintro ⟨rest, hne, hresolve⟩
  have hplace : resolve (movesOf (bytes "wwwroot/../CMakeLists.txt")) = ⟨0, [bytes "CMakeLists.txt"]⟩ := by
    decide +kernel
  rw [hplace, Place.mk.injEq] at hresolve
  have hlength := congrArg List.length hresolve.2
  rw [List.length_append, List.length_singleton] at hlength
  exact hne (List.length_eq_zero_iff.mp (by simpa using hlength.symm))

end CanMonitor.Connection
