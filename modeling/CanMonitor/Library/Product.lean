import CanMonitor.Library.Runs

/-!
# Two systems that work on the same things

Two models of one program may each have a part of it in detail and leave the other part to the
environment. Put together, a step is one of the first alone, one of the second alone, or one of
both at once, and the last are those in which both say the same (`joint`).

What they say can be addressed to any of several things, each of which is a small machine that
both know: a system `Refines` the machine if it sees each thing in a state of the machine, and a
step is seen by the thing that it addresses as the step of the machine that it says, and by the
others not at all.

* `joint_left` and `joint_right` — a run of both is a run of each.
* `Refines.run_view` — a run of a system is seen as a run of the machine, at each thing.
* `agree_step` — two systems that refine one machine, put together, agree on every thing.
-/

namespace CanMonitor.Library

variable {σ τ α β ι ℓ ν : Type*}

/-- A step of one of two systems, or of both at once. -/
inductive Joint (α β : Type*) where
  | left (a : α)
  | right (b : β)
  | both (a : α) (b : β)

namespace Joint

/-- What the first does. -/
def left? : Joint α β → Option α
  | left a | both a _ => some a
  | right _ => none

/-- What the second does. -/
def right? : Joint α β → Option β
  | right b | both _ b => some b
  | left _ => none

end Joint

/-- One step of two systems, where it is permitted. -/
def joint [DecidableEq ℓ] (permits : σ × τ → Joint α β → Bool) (stepL : σ → α → Option σ) (stepR : τ → β → Option τ)
    (callL : σ → α → Option ℓ) (callR : τ → β → Option ℓ) (s : σ × τ) (a : Joint α β) : Option (σ × τ) :=
  if permits s a then
    match a with
    | .left a => if callL s.1 a = none then (stepL s.1 a).map fun t => (t, s.2) else none
    | .right b => if callR s.2 b = none then (stepR s.2 b).map fun t => (s.1, t) else none
    | .both a b =>
      if callL s.1 a ≠ none ∧ callL s.1 a = callR s.2 b then
        (stepL s.1 a).bind fun t => (stepR s.2 b).map fun u => (t, u)
      else none
  else none

/-- What is said to one thing. -/
def addressed [DecidableEq ι] (i : ι) (said : Option (ι × ℓ)) : List ℓ :=
  said.toList.filterMap fun call => if call.1 = i then some call.2 else none

@[simp] theorem addressed_none [DecidableEq ι] (i : ι) : addressed i (none : Option (ι × ℓ)) = [] := rfl

@[simp] theorem addressed_self [DecidableEq ι] (i : ι) (call : ℓ) : addressed i (some (i, call)) = [call] := by
  simp [addressed]

theorem addressed_of_ne [DecidableEq ι] {i j : ι} (h : j ≠ i) (call : ℓ) : addressed i (some (j, call)) = [] := by
  simp [addressed, h]

/-- A system whose steps are steps of a machine, at whatever they address. -/
structure Refines [DecidableEq ι] (machine : ν → ℓ → Option ν) (step : σ → α → Option σ) (call : σ → α → Option (ι × ℓ))
    (view : σ → ι → ν) (I : σ → Prop) : Prop where
  kept : ∀ s a s', I s → step s a = some s' → I s'
  seen : ∀ s a s', I s → step s a = some s' → ∀ i, run machine (view s i) (addressed i (call s a)) = some (view s' i)

section

variable [DecidableEq ι] {machine : ν → ℓ → Option ν} {stepL : σ → α → Option σ} {stepR : τ → β → Option τ}
  {callL : σ → α → Option (ι × ℓ)} {callR : τ → β → Option (ι × ℓ)} {viewL : σ → ι → ν} {viewR : τ → ι → ν}
  {IL : σ → Prop} {IR : τ → Prop}

/-- **A run of a system** is seen by each thing as a run of the machine. -/
theorem Refines.run_view (h : Refines machine stepL callL viewL IL) {s t : σ} {as : List α} (hs : IL s)
    (hrun : run stepL s as = some t) (i : ι) :
    run machine (viewL s i) (emitted (fun s a => addressed i (callL s a)) stepL s as) = some (viewL t i) := by
  induction as generalizing s with
  | nil =>
    cases hrun
    rfl
  | cons a as ih =>
    obtain ⟨s', hstep, hrest⟩ := run_cons_some hrun
    rw [emitted, run_append, h.seen s a s' hs hstep i, Option.bind_some, hstep]
    exact ih (h.kept s a s' hs hstep) hrest

/-- What is not said is not seen. -/
theorem Refines.view_eq (h : Refines machine stepL callL viewL IL) {s s' : σ} {a : α} (hs : IL s)
    (hstep : stepL s a = some s') (hcall : callL s a = none) (i : ι) : viewL s' i = viewL s i := by
  have hseen := h.seen s a s' hs hstep i
  rw [hcall] at hseen
  exact (Option.some.inj hseen).symm

end

section

variable [DecidableEq ℓ] {permits : σ × τ → Joint α β → Bool} {stepL : σ → α → Option σ} {stepR : τ → β → Option τ}
  {callL : σ → α → Option ℓ} {callR : τ → β → Option ℓ} {s t : σ × τ}

theorem permits_of_joint {a : Joint α β} (h : joint permits stepL stepR callL callR s a = some t) :
    permits s a = true :=
  (Option.ite_none_right_eq_some.mp h).1

/-- What a step of both is for each of them. -/
theorem joint_cases {a : Joint α β} (h : joint permits stepL stepR callL callR s a = some t) :
    (∃ b, a = .left b ∧ callL s.1 b = none ∧ stepL s.1 b = some t.1 ∧ t.2 = s.2) ∨
    (∃ b, a = .right b ∧ callR s.2 b = none ∧ stepR s.2 b = some t.2 ∧ t.1 = s.1) ∨
    ∃ b c, a = .both b c ∧ callL s.1 b ≠ none ∧ callL s.1 b = callR s.2 c ∧ stepL s.1 b = some t.1 ∧
      stepR s.2 c = some t.2 := by
  replace h := (Option.ite_none_right_eq_some.mp h).2
  cases a with
  | left b =>
    obtain ⟨hcall, h⟩ := Option.ite_none_right_eq_some.mp h
    obtain ⟨s', hs, rfl⟩ := Option.map_eq_some_iff.mp h
    exact .inl ⟨b, rfl, hcall, hs, rfl⟩
  | right b =>
    obtain ⟨hcall, h⟩ := Option.ite_none_right_eq_some.mp h
    obtain ⟨s', hs, rfl⟩ := Option.map_eq_some_iff.mp h
    exact .inr (.inl ⟨b, rfl, hcall, hs, rfl⟩)
  | both b c =>
    obtain ⟨⟨hsome, hcall⟩, h⟩ := Option.ite_none_right_eq_some.mp h
    obtain ⟨s', hs, h⟩ := Option.bind_eq_some_iff.mp h
    obtain ⟨s'', hs', rfl⟩ := Option.map_eq_some_iff.mp h
    exact .inr (.inr ⟨b, c, rfl, hsome, hcall, hs, hs'⟩)

/-- What the first does in a run of both is a run of its own. -/
theorem joint_left {as : List (Joint α β)} (h : run (joint permits stepL stepR callL callR) s as = some t) :
    run stepL s.1 (as.filterMap Joint.left?) = some t.1 := by
  induction as generalizing s with
  | nil =>
    cases h
    rfl
  | cons a as ih =>
    obtain ⟨s', hs, hrun⟩ := run_cons_some h
    rcases joint_cases hs with ⟨b, rfl, -, hb, -⟩ | ⟨b, rfl, -, -, heq⟩ | ⟨b, c, rfl, -, -, hb, -⟩
    · exact (run_cons ..).trans (by rw [hb]; exact ih hrun)
    · rw [← heq]
      exact ih hrun
    · exact (run_cons ..).trans (by rw [hb]; exact ih hrun)

/-- What the second does in a run of both is a run of its own. -/
theorem joint_right {as : List (Joint α β)} (h : run (joint permits stepL stepR callL callR) s as = some t) :
    run stepR s.2 (as.filterMap Joint.right?) = some t.2 := by
  induction as generalizing s with
  | nil =>
    cases h
    rfl
  | cons a as ih =>
    obtain ⟨s', hs, hrun⟩ := run_cons_some h
    rcases joint_cases hs with ⟨b, rfl, -, -, heq⟩ | ⟨b, rfl, -, hb, -⟩ | ⟨b, c, rfl, -, -, -, hb⟩
    · rw [← heq]
      exact ih hrun
    · exact (run_cons ..).trans (by rw [hb]; exact ih hrun)
    · exact (run_cons ..).trans (by rw [hb]; exact ih hrun)

end

section

variable [DecidableEq ι] [DecidableEq ℓ] {machine : ν → ℓ → Option ν} {permits : σ × τ → Joint α β → Bool}
  {stepL : σ → α → Option σ} {stepR : τ → β → Option τ} {callL : σ → α → Option (ι × ℓ)}
  {callR : τ → β → Option (ι × ℓ)} {viewL : σ → ι → ν} {viewR : τ → ι → ν} {IL : σ → Prop} {IR : τ → Prop}

/-- **Agreement**: two systems that refine one machine see every thing in the same state, as long
as each says to it what the other says. -/
theorem agree_step (hL : Refines machine stepL callL viewL IL) (hR : Refines machine stepR callR viewR IR) {s t : σ × τ}
    {a : Joint α β} (hs : joint permits stepL stepR callL callR s a = some t) (hl : IL s.1) (hr : IR s.2)
    (h : viewL s.1 = viewR s.2) : IL t.1 ∧ IR t.2 ∧ viewL t.1 = viewR t.2 := by
  rcases joint_cases hs with ⟨b, -, hcall, hb, heq⟩ | ⟨b, -, hcall, hb, heq⟩ | ⟨b, c, -, -, hcall, hb, hc⟩
  · refine ⟨hL.kept _ b _ hl hb, heq ▸ hr, ?_⟩
    rw [heq, ← h]
    exact funext (hL.view_eq hl hb hcall)
  · refine ⟨heq ▸ hl, hR.kept _ b _ hr hb, ?_⟩
    rw [heq, h]
    exact (funext (hR.view_eq hr hb hcall)).symm
  · refine ⟨hL.kept _ b _ hl hb, hR.kept _ c _ hr hc, funext fun i => ?_⟩
    have hseen := hL.seen _ b _ hl hb i
    rw [hcall, h, hR.seen _ c _ hr hc i] at hseen
    exact (Option.some.inj hseen).symm

end

end CanMonitor.Library
