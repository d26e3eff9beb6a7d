import CanMonitor.Http.Decoding

/-!
# The end of the stream

A peer that shuts down its side of the connection has its end of stream read after the last
bytes. `handleRead` reads all there is before it parses any of it, and returns at an end of
stream; what it has read in the same call is then never parsed.

## What is proved

* `requests_before_close` — of a stream of whole requests and its end, all requests are
  dispatched before the connection is removed if and only if the call that reads the end reads
  nothing else.
* `request_lost_at_close` — one request and the end in one call: it is not dispatched.
-/

namespace CanMonitor.Http

open CanMonitor.Library

theorem drain_closed (recvBuf : Bytes) (chunks : List Bytes) :
    drain recvBuf (chunks.map .data ++ [.closed]) = (recvBuf ++ chunks.flatten, false) := by
  induction chunks generalizing recvBuf with
  | nil => simp [drain]
  | cons chunk chunks ih => rw [List.map_cons, List.cons_append, drain, ih, List.flatten_cons, List.append_assoc]

/-- The call that reads the end of the stream only removes the connection. -/
theorem handleRead_closed (s : Reader) (chunks : List Bytes) :
    (handleRead s (chunks.map .data ++ [.closed])).1 = [.removed] := by
  rw [handleRead, drain_closed]

/-- **Every request is dispatched before the connection is removed** exactly when the end of
the stream is read in a call of its own. -/
theorem requests_before_close (ws : List Whole) {deliveries : List (List Bytes)} {last : List Bytes}
    (h : deliveries.flatten.flatten ++ last.flatten = ws.flatMap (·.text)) :
    (serve .fresh (deliveries.map (·.map .data) ++ [last.map .data ++ [.closed]])).1 =
        (ws.map fun w => .dispatched w.req) ++ [.removed] ↔ last.flatten = [] := by
  rw [serve_concat, handleRead_closed]
  simp only [List.append_left_inj]
  constructor
  · intro hall
    rcases exists_short_or_all ws (t := []) ⟨_, h.trans (List.append_nil _).symm⟩ with ⟨ws₁, w, ws₂, rest, rfl, hp, hrest, hne⟩ | ⟨u, hp⟩
    · -- the calls before leave some request incomplete, so they do not dispatch it
      rw [serve_then_waiting ws₁ (fun _ => w.parseStep_shorter hrest hne) hp] at hall
      have := congrArg List.length hall
      simp at this
    · rw [hp, List.append_assoc] at h
      exact (List.append_eq_nil_iff.mp (List.append_right_eq_self.mp h)).2
  · intro hlast
    rw [hlast, List.append_nil] at h
    rw [serve_then_waiting ws parseStep_nil (h.trans (List.append_nil _).symm)]

/-- The end of the stream comes after the request. -/
theorem requests_before_close_apart :
    (serve .fresh ([[sendMessage.render.take 30], [sendMessage.render.drop 30]].map (·.map .data) ++
        [[].map .data ++ [.closed]])).1 =
      ([sendMessage.whole].map fun w => .dispatched w.req) ++ [.removed] ↔ ([] : List Bytes).flatten = [] :=
  requests_before_close [sendMessage.whole] (by decide)

/-- A request that comes together with the end of the stream is not dispatched. -/
theorem request_lost_at_close :
    sendMessage.render = bytes "POST /api/can/send HTTP/1.1\r\nHost: localhost\r\nContent-Length: 4\r\n\r\n\r\n\r\n" ∧
      (serve .fresh [[.data sendMessage.render], [.closed]]).1 = [.dispatched sendMessage.toHttpRequest, .removed] ∧
      (serve .fresh [[.data sendMessage.render, .closed]]).1 = [.removed] := by
  have hserve : serve .fresh [[.data sendMessage.render]] = ([.dispatched sendMessage.toHttpRequest], .fresh) :=
    serve_then_waiting [sendMessage.whole] parseStep_nil (by decide : [[sendMessage.render]].flatten.flatten = _)
  refine ⟨by decide, ?_, rfl⟩
  rw [show [[ReadResult.data sendMessage.render], [.closed]] = [[.data sendMessage.render]] ++ [[.closed]] from rfl,
    serve_concat, hserve]
  rfl

end CanMonitor.Http
