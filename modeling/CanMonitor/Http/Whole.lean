import CanMonitor.Http.Framing

/-!
# Streams of whole requests

A connection sees a stream of requests through whatever pieces the network makes of it.

## The model

A `Whole` is a text that a new connection takes for exactly one request, so what it is
depends on `parseStep` only and not on a way of writing requests. `framed` lists the
requests that the parse loop cuts off the buffer with their lengths, and `framedCalls`
those of calls of `handleRead`: where the boundaries are, beside what is dispatched.

## What is proved

* `Whole.parseStep_append` and `Whole.parseStep_short` — a whole text is dispatched whatever
  follows it, and waited for as long as something is missing.
* `serve_wholes` — however a stream that begins with whole texts is cut into calls, these are
  dispatched first, in order and once each, and the rest is served as a stream of its own.
-/

namespace CanMonitor.Http

open CanMonitor.Library

/-- A text that a new connection takes for one request. -/
structure Whole where
  text : Bytes
  req : HttpRequest
  dispatched : parseStep .fresh text = .dispatch req text.length

namespace Whole

variable (w : Whole)

/-- The head of a whole request announces its length, which a `size_t` can hold. -/
theorem length_eq : ∃ headerEnd, find blankLine w.text = some headerEnd ∧
    w.text.length = headerEnd + 4 + extractContentLength w.text ∧ w.text.length < 2 ^ 64 := by
  obtain ⟨headerEnd, hf, hlen, -, -⟩ := parseStep_dispatch w.dispatched
  refine ⟨headerEnd, hf, hlen, ?_⟩
  have hstep := w.dispatched
  unfold parseStep at hstep
  rw [hf] at hstep
  simp only at hstep
  split_ifs at hstep
  split at hstep
  · cases hstep
  · rw [← (Step.dispatch.inj hstep).2]
    exact Nat.mod_lt _ (Nat.two_pow_pos 64)

/-- The length of a request is announced by its head alone. -/
theorem extractContentLength_append {text : Bytes} {headerEnd : ℕ} (hf : find blankLine text = some headerEnd)
    (s : Bytes) : extractContentLength (text ++ s) = extractContentLength text := by
  have hle := find_add_length_le hf
  unfold extractContentLength
  rw [find_append hf, hf]
  simp only
  rw [List.take_append_of_le_length (by omega)]

/-- **A whole request is dispatched**, whatever follows it. -/
theorem parseStep_append (s : Bytes) : parseStep .fresh (w.text ++ s) = .dispatch w.req w.text.length := by
  obtain ⟨headerEnd, hf, hlen, hlt⟩ := w.length_eq
  obtain ⟨-, -, -, -, hparse⟩ := parseStep_dispatch w.dispatched
  rw [List.take_length] at hparse
  unfold parseStep
  rw [find_append hf]
  simp only [extractContentLength_append hf, ← hlen, Nat.mod_eq_of_lt hlt, List.take_left, hparse]
  rw [if_neg (by simp)]

/-- **A request is waited for** as long as something of it is missing. -/
theorem parseStep_short {t : Bytes} (ht : t <+: w.text) (hne : t ≠ w.text) : parseStep .fresh t = .wait := by
  obtain ⟨headerEnd, hf, hlen, hlt⟩ := w.length_eq
  have hshort : t.length < w.text.length := lt_of_le_of_ne ht.length_le fun h => hne (ht.eq_of_length h)
  cases hft : find blankLine t with
  | none => rw [parseStep, hft]
  | some i =>
    -- the head is there, and with it the length
    obtain ⟨s, hs⟩ := ht
    have hf' := find_append hft s
    rw [hs, hf, Option.some.injEq] at hf'
    subst hf'
    have hlength : headerEnd + 4 + extractContentLength t = w.text.length := by
      rw [hlen, ← hs, extractContentLength_append hft]
    unfold parseStep
    rw [hft]
    simp only [hlength, Nat.mod_eq_of_lt hlt]
    rw [if_pos hshort]

/-- Any beginning of what is waited for is waited for. -/
theorem parseStep_shorter {t u : Bytes} (ht : t <+: w.text) (hne : t ≠ w.text) (hu : u <+: t) :
    parseStep .fresh u = .wait := by
  refine w.parseStep_short (hu.trans ht) fun huw => ?_
  rw [huw] at hu
  exact hne (ht.eq_of_length (le_antisymm ht.length_le hu.length_le))

end Whole

/-- An empty buffer waits. -/
theorem parseStep_nil (u : Bytes) (hu : u <+: []) : parseStep .fresh u = .wait := by
  rw [List.prefix_nil.mp hu]
  rfl

/-! ### Boundaries -/

/-- The requests that the parse loop cuts off, with their lengths. -/
def framed (s : Reader) : List (HttpRequest × ℕ) :=
  match _ : parseStep s.req s.recvBuf with
  | .wait => []
  | .bad _ _ => []
  | .dispatch req len => (req, len) :: framed ⟨s.recvBuf.drop len, .fresh⟩
termination_by s.recvBuf.length
decreasing_by
  rename_i h
  obtain ⟨headerEnd, -, rfl, hle, -⟩ := parseStep_dispatch h
  simp only [List.length_drop]
  omega

theorem framed_wait {s : Reader} (h : parseStep s.req s.recvBuf = .wait) : framed s = [] := by
  rw [framed]
  split <;> simp_all

theorem framed_dispatch {s : Reader} {r : HttpRequest} {len : ℕ} (h : parseStep s.req s.recvBuf = .dispatch r len) :
    framed s = (r, len) :: framed ⟨s.recvBuf.drop len, .fresh⟩ := by
  rw [framed]
  split <;> simp_all

/-- The requests, with their lengths, that calls cut off which read without end or error. -/
def framedCalls (s : Reader) : List (List Bytes) → List (HttpRequest × ℕ)
  | [] => []
  | chunks :: rest =>
    framed { s with recvBuf := s.recvBuf ++ chunks.flatten } ++ framedCalls (handleRead s (chunks.map .data)).2 rest

/-- The request that an event dispatches. -/
def Event.request : Event → Option HttpRequest
  | .dispatched req => some req
  | _ => none

/-- The requests that are cut off are those that are dispatched. -/
theorem framed_eq (s : Reader) : (framed s).map Prod.fst = (parseLoop s).1.filterMap Event.request := by
  induction s using parseLoop.induct with
  | case1 s hstep =>
    rw [framed_wait hstep, parseLoop_wait hstep]
    rfl
  | case2 s text q hstep =>
    rw [framed, parseLoop_bad hstep]
    split <;> simp_all [Event.request]
  | case3 s q len hstep es t hloop ih =>
    rw [framed_dispatch hstep, parseLoop_dispatch hstep, List.map_cons, ih]
    rfl

theorem framedCalls_eq (s : Reader) (deliveries : List (List Bytes)) :
    (framedCalls s deliveries).map Prod.fst = (serve s (deliveries.map (·.map .data))).1.filterMap Event.request := by
  induction deliveries generalizing s with
  | nil => rfl
  | cons chunks deliveries ih =>
    rw [framedCalls, List.map_append, framed_eq, ih, List.map_cons, serve, List.filterMap_append]
    simp only [handleRead_data]

/-! ### Streams -/

/-- Where a beginning of a stream of whole texts ends. -/
theorem exists_short_or_all (ws : List Whole) {t p : Bytes} (hp : p <+: ws.flatMap (·.text) ++ t) :
    (∃ ws₁ w ws₂ rest, ws = ws₁ ++ w :: ws₂ ∧ p = ws₁.flatMap (·.text) ++ rest ∧ rest <+: w.text ∧ rest ≠ w.text) ∨
      ∃ u, p = ws.flatMap (·.text) ++ u := by
  induction ws generalizing p with
  | nil => exact .inr ⟨p, rfl⟩
  | cons w ws ih =>
    rw [List.flatMap_cons, List.append_assoc] at hp
    by_cases hw : w.text <+: p
    · obtain ⟨p', rfl⟩ := hw
      rcases ih ((List.prefix_append_right_inj _).mp hp) with ⟨ws₁, w', ws₂, rest, rfl, rfl, hrest⟩ | ⟨u, rfl⟩
      · exact .inl ⟨w :: ws₁, w', ws₂, rest, rfl, by simp, hrest⟩
      · exact .inr ⟨u, by simp⟩
    · have hshort := (List.prefix_or_prefix_of_prefix hp (List.prefix_append w.text _)).resolve_right hw
      exact .inl ⟨[], w, ws, p, rfl, rfl, hshort, fun h => hw (h ▸ List.prefix_rfl)⟩

/-- The loop dispatches the whole texts at the front of the buffer. -/
theorem parseLoop_wholes (ws : List Whole) (u : Bytes) :
    parseLoop ⟨ws.flatMap (·.text) ++ u, .fresh⟩ =
        ((ws.map fun w => .dispatched w.req) ++ (parseLoop ⟨u, .fresh⟩).1, (parseLoop ⟨u, .fresh⟩).2) ∧
      framed ⟨ws.flatMap (·.text) ++ u, .fresh⟩ =
        (ws.map fun w => (w.req, w.text.length)) ++ framed ⟨u, .fresh⟩ := by
  induction ws with
  | nil => exact ⟨rfl, rfl⟩
  | cons w ws ih =>
    have hstep := w.parseStep_append (ws.flatMap (·.text) ++ u)
    rw [← List.append_assoc, ← List.flatMap_cons (f := Whole.text)] at hstep
    have hdrop : ((w :: ws).flatMap (·.text) ++ u).drop w.text.length = ws.flatMap (·.text) ++ u := by
      rw [List.flatMap_cons, List.append_assoc, List.drop_left]
    constructor
    · rw [parseLoop_dispatch hstep]
      simp only [hdrop, ih.1, List.map_cons, List.cons_append]
    · rw [framed_dispatch hstep]
      simp only [hdrop, ih.2, List.map_cons, List.cons_append]

/-- A new connection gets a buffer in one piece, then more. -/
theorem serve_fresh (u : Bytes) (deliveries : List (List Bytes)) :
    serve .fresh (([u] :: deliveries).map (·.map .data)) =
        ((parseLoop ⟨u, .fresh⟩).1 ++ (serve (parseLoop ⟨u, .fresh⟩).2 (deliveries.map (·.map .data))).1,
          (serve (parseLoop ⟨u, .fresh⟩).2 (deliveries.map (·.map .data))).2) ∧
      framedCalls .fresh ([u] :: deliveries) =
        framed ⟨u, .fresh⟩ ++ framedCalls (parseLoop ⟨u, .fresh⟩).2 deliveries := by
  have hbuf : Reader.fresh.recvBuf ++ [u].flatten = u := List.append_nil u
  rw [List.map_cons, serve, framedCalls, handleRead_data, hbuf]
  exact ⟨rfl, rfl⟩

/-- **A stream that begins with whole texts**, in whatever pieces: they are dispatched, and the
rest is served as by a new connection. -/
theorem serve_wholes (ws : List Whole) {t p : Bytes} {deliveries : List (List Bytes)}
    (hwait : parseStep .fresh p = .wait) (h : p ++ deliveries.flatten.flatten = ws.flatMap (·.text) ++ t) :
    ∃ later : List (List Bytes), later.flatten.flatten = t ∧
      serve ⟨p, .fresh⟩ (deliveries.map (·.map .data)) =
        ((ws.map fun w => .dispatched w.req) ++ (serve .fresh (later.map (·.map .data))).1,
          (serve .fresh (later.map (·.map .data))).2) ∧
      framedCalls ⟨p, .fresh⟩ deliveries = (ws.map fun w => (w.req, w.text.length)) ++ framedCalls .fresh later := by
  induction deliveries generalizing ws p with
  | nil =>
    rw [List.flatten_nil, List.flatten_nil, List.append_nil] at h
    cases ws with
    | nil =>
      obtain ⟨hserve, hframed⟩ := serve_fresh p []
      rw [parseLoop_wait (s := ⟨p, .fresh⟩) hwait] at hserve hframed
      rw [framed_wait (s := ⟨p, .fresh⟩) hwait] at hframed
      exact ⟨[[p]], by simp [h], by rw [hserve]; rfl, by rw [hframed]; rfl⟩
    | cons w ws =>
      -- a buffer that begins with a whole text would not wait
      rw [h, List.flatMap_cons, List.append_assoc, w.parseStep_append] at hwait
      cases hwait
  | cons chunks deliveries ih =>
    rw [List.flatten_cons, List.flatten_append, ← List.append_assoc] at h
    rw [List.map_cons, serve, framedCalls, handleRead_data]
    simp only
    rcases exists_short_or_all ws ⟨_, h⟩ with ⟨ws₁, w, ws₂, rest, rfl, hp, hrest, hne⟩ | ⟨u, hp⟩
    · -- some request is not complete yet
      have hshort := w.parseStep_short hrest hne
      obtain ⟨hloop, hframed⟩ := parseLoop_wholes ws₁ rest
      rw [parseLoop_wait (s := ⟨rest, .fresh⟩) hshort] at hloop
      rw [framed_wait (s := ⟨rest, .fresh⟩) hshort] at hframed
      rw [hp, List.append_assoc, List.flatMap_append, List.append_assoc] at h
      obtain ⟨later, hlater, hserve, hcalls⟩ := ih (w :: ws₂) hshort (List.append_cancel_left h)
      refine ⟨later, hlater, ?_, ?_⟩
      · rw [hp, hloop, hserve]
        simp
      · rw [hp, hloop, hframed, hcalls]
        simp
    · -- all are there, and perhaps more
      obtain ⟨hloop, hframed⟩ := parseLoop_wholes ws u
      obtain ⟨hserve, hcalls⟩ := serve_fresh u deliveries
      rw [hp, List.append_assoc] at h
      refine ⟨[u] :: deliveries, by simpa using List.append_cancel_left h, ?_, ?_⟩
      · rw [hp, hloop, hserve]
        simp
      · rw [hp, hloop, hframed, hcalls]
        simp

/-- A stream in which nothing is complete is kept. -/
theorem serve_waiting {t p : Bytes} (ht : ∀ u, u <+: t → parseStep .fresh u = .wait) {deliveries : List (List Bytes)}
    (h : p ++ deliveries.flatten.flatten = t) :
    serve ⟨p, .fresh⟩ (deliveries.map (·.map .data)) = ([], ⟨t, .fresh⟩) := by
  induction deliveries generalizing p with
  | nil => simpa [serve] using h
  | cons chunks deliveries ih =>
    rw [List.flatten_cons, List.flatten_append, ← List.append_assoc] at h
    have hwait := ht _ ⟨_, h⟩
    rw [List.map_cons, serve, handleRead_data]
    simp only [parseLoop_wait (s := ⟨p ++ chunks.flatten, .fresh⟩) hwait, ih h, List.append_nil]

/-- Whole texts, and after them something that waits, are dispatched however they come. -/
theorem serve_then_waiting (ws : List Whole) {t : Bytes} (ht : ∀ u, u <+: t → parseStep .fresh u = .wait)
    {deliveries : List (List Bytes)} (h : deliveries.flatten.flatten = ws.flatMap (·.text) ++ t) :
    serve .fresh (deliveries.map (·.map .data)) = (ws.map fun w => .dispatched w.req, ⟨t, .fresh⟩) := by
  obtain ⟨later, hlater, hserve, -⟩ := serve_wholes ws (p := []) rfl h
  have hrest := serve_waiting ht (p := []) hlater
  rw [show Reader.fresh = ⟨[], .fresh⟩ from rfl] at hserve ⊢
  rw [hserve, hrest, List.append_nil]

end CanMonitor.Http
