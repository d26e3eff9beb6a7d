import Mathlib.Data.List.Basic
import Mathlib.Data.List.Induction

/-!
# Runs of a step function

A system is given by a partial step function `step : σ → α → Option σ`: `step s a`
is the state after action `a`, or `none` when `a` is not possible in `s`. What the
threads of a program may do in any order is one such system, whose actions say
which thread moves; a run is then one interleaving.

* `run step s as` — the state after the actions `as`, if all are possible in turn.
* `run_invariant` — what every step keeps, every run keeps.
* `Meets C step s as` — every step of the run is taken in a state that meets `C`;
  `run_guarded` is the invariant rule for such runs, and `run_bounded` counts actions in them.
* `emitted out step s as` — what the steps of the run put out; `run_history` is the rule
  for what relates a state to the run that led to it, and `run_projects` for what a part of
  a system does in a run of the whole.
-/

namespace CanMonitor.Library

variable {σ α : Type*} {step : σ → α → Option σ} {C : σ → α → Prop}

/-- The state after the actions `as`, each possible where it is taken. -/
def run (step : σ → α → Option σ) (s : σ) (as : List α) : Option σ := as.foldlM step s

@[simp] theorem run_nil (s : σ) : run step s [] = some s := rfl

@[simp] theorem run_cons (s : σ) (a : α) (as : List α) :
    run step s (a :: as) = (step s a).bind fun s' => run step s' as := rfl

theorem run_append (s : σ) (as bs : List α) :
    run step s (as ++ bs) = (run step s as).bind fun s' => run step s' bs := by
  simp only [run, List.foldlM_append]
  rfl

theorem run_cons_some {s t : σ} {a : α} {as : List α} (h : run step s (a :: as) = some t) :
    ∃ s', step s a = some s' ∧ run step s' as = some t := by
  rw [run_cons] at h
  exact Option.bind_eq_some_iff.mp h

theorem run_append_some {s t : σ} {as bs : List α} (h : run step s (as ++ bs) = some t) :
    ∃ s', run step s as = some s' ∧ run step s' bs = some t := by
  rw [run_append] at h
  exact Option.bind_eq_some_iff.mp h

/-- The run `as`, then one more action. -/
theorem run_concat {s s' t : σ} {as : List α} {a : α} (h : run step s as = some s')
    (ha : step s' a = some t) : run step s (as ++ [a]) = some t := by
  rw [run_append, h, Option.bind_some, run_cons, ha]
  rfl

/-- **Invariants**: what every step keeps, every run keeps. -/
theorem run_invariant {I : σ → Prop} (hstep : ∀ s a s', I s → step s a = some s' → I s')
    {s t : σ} {as : List α} (hs : I s) (h : run step s as = some t) : I t := by
  induction as generalizing s with
  | nil => cases h; exact hs
  | cons a as ih =>
    obtain ⟨s', h₁, h₂⟩ := run_cons_some h
    exact ih (hstep s a s' hs h₁) h₂

/-- Every step of the run `as` from `s` is taken in a state that meets `C`. -/
def Meets (C : σ → α → Prop) (step : σ → α → Option σ) : σ → List α → Prop
  | _, [] => True
  | s, a :: as => C s a ∧ ∀ s', step s a = some s' → Meets C step s' as

instance Meets.decidable [∀ s a, Decidable (C s a)] : ∀ s as, Decidable (Meets C step s as)
  | _, [] => isTrue trivial
  | s, a :: as =>
    match h : step s a with
    | none => decidable_of_iff (C s a) (by simp [Meets, h])
    | some s' =>
      have := Meets.decidable s' as
      decidable_of_iff (C s a ∧ Meets C step s' as) (by simp [Meets, h])

/-- Actions that meet `C` in any state. -/
theorem Meets.of_forall {as : List α} (h : ∀ a ∈ as, ∀ s, C s a) (s : σ) : Meets C step s as := by
  induction as generalizing s with
  | nil => trivial
  | cons a as ih =>
    exact ⟨h a List.mem_cons_self s, fun s' _ => ih (fun b hb => h b (List.mem_cons_of_mem a hb)) s'⟩

/-- A guarded run in two parts. -/
theorem Meets.append {s t : σ} {as bs : List α} (hC : Meets C step s (as ++ bs)) (h : run step s as = some t) :
    Meets C step s as ∧ Meets C step t bs := by
  induction as generalizing s with
  | nil =>
    cases h
    exact ⟨trivial, hC⟩
  | cons a as ih =>
    obtain ⟨s', h₁, h₂⟩ := run_cons_some h
    obtain ⟨has, hbs⟩ := ih (hC.2 s' h₁) h₂
    refine ⟨⟨hC.1, fun s'' h₁' => ?_⟩, hbs⟩
    obtain rfl : s' = s'' := Option.some.inj (h₁.symm.trans h₁')
    exact has

/-- **Guarded invariants**: what every step that meets `C` keeps, every run whose
steps all meet `C` keeps. -/
theorem run_guarded {I : σ → Prop} (hstep : ∀ s a s', I s → C s a → step s a = some s' → I s')
    {s t : σ} {as : List α} (hs : I s) (hC : Meets C step s as) (h : run step s as = some t) : I t := by
  induction as generalizing s with
  | nil => cases h; exact hs
  | cons a as ih =>
    obtain ⟨s', h₁, h₂⟩ := run_cons_some h
    exact ih (hstep s a s' hs hC.1 h₁) (hC.2 s' h₁) h₂

/-- **Bounded runs**: if every action that `f` counts uses up some of a measure which no step
raises, there are no more of them in a run than the measure allows. -/
theorem run_bounded {β : Type*} {I : σ → Prop} {m : σ → ℕ} {f : α → Option β}
    (hstep : ∀ s a s', I s → C s a → step s a = some s' → I s' ∧ m s' + (f a).toList.length ≤ m s)
    {s t : σ} {as : List α} (hs : I s) (hC : Meets C step s as) (h : run step s as = some t) :
    I t ∧ m t + (as.filterMap f).length ≤ m s := by
  induction as generalizing s with
  | nil =>
    cases h
    exact ⟨hs, Nat.le_refl _⟩
  | cons a as ih =>
    obtain ⟨s', h₁, h₂⟩ := run_cons_some h
    obtain ⟨hs', hfirst⟩ := hstep s a s' hs hC.1 h₁
    obtain ⟨ht, hrest⟩ := ih hs' (hC.2 s' h₁) h₂
    have hcons : ((a :: as).filterMap f).length = (f a).toList.length + (as.filterMap f).length := by
      rw [List.filterMap_cons]
      cases f a <;> simp [Nat.add_comm]
    exact ⟨ht, by omega⟩

/-! ### Histories -/

variable {β : Type*} {out : σ → α → List β}

/-- What the steps of a run put out, in order. -/
def emitted (out : σ → α → List β) (step : σ → α → Option σ) : σ → List α → List β
  | _, [] => []
  | s, a :: as => out s a ++ (step s a).elim [] fun s' => emitted out step s' as

theorem emitted_append {s t : σ} {as : List α} (h : run step s as = some t) (bs : List α) :
    emitted out step s (as ++ bs) = emitted out step s as ++ emitted out step t bs := by
  induction as generalizing s with
  | nil =>
    cases h
    rfl
  | cons a as ih =>
    obtain ⟨s', hs, hrun⟩ := run_cons_some h
    simp only [List.cons_append, emitted, hs, Option.elim_some, ih hrun, List.append_assoc]

/-- The run `as`, then one more action. -/
theorem emitted_concat {s t : σ} {as : List α} (h : run step s as = some t) (a : α) :
    emitted out step s (as ++ [a]) = emitted out step s as ++ out t a := by
  have hlast : emitted out step t [a] = out t a := by
    rw [emitted]
    cases step t a <;> exact List.append_nil _
  rw [emitted_append h, hlast]

/-- What a run put out, some step of it did. -/
theorem mem_emitted {s t : σ} {as : List α} (h : run step s as = some t) {b : β} (hb : b ∈ emitted out step s as) :
    ∃ before a after t₁ t₂, as = before ++ a :: after ∧ run step s before = some t₁ ∧ step t₁ a = some t₂ ∧
      run step t₂ after = some t ∧ b ∈ out t₁ a := by
  induction as generalizing s with
  | nil => exact absurd hb List.not_mem_nil
  | cons a as ih =>
    obtain ⟨s', hs, hrun⟩ := run_cons_some h
    rw [emitted, hs, Option.elim_some, List.mem_append] at hb
    rcases hb with hb | hb
    · exact ⟨[], a, as, s, s', rfl, rfl, hs, hrun, hb⟩
    · obtain ⟨before, a', after, t₁, t₂, rfl, hbefore, hrest⟩ := ih hrun hb
      refine ⟨a :: before, a', after, t₁, t₂, rfl, ?_, hrest⟩
      rw [run_cons, hs]
      exact hbefore

/-- **Projection**: when each step of a system is seen by a part of it as some steps of its
own, each run is seen as a run of the part. -/
theorem run_projects {σ' α' : Type*} {step' : σ' → α' → Option σ'} {view : σ → σ'} {out : σ → α → List α'}
    (hstep : ∀ s a s', step s a = some s' → run step' (view s) (out s a) = some (view s'))
    {s t : σ} {as : List α} (h : run step s as = some t) :
    run step' (view s) (emitted out step s as) = some (view t) := by
  induction as generalizing s with
  | nil =>
    cases h
    rfl
  | cons a as ih =>
    obtain ⟨s', hs, hrun⟩ := run_cons_some h
    rw [emitted, run_append, hstep s a s' hs, Option.bind_some, hs]
    exact ih hrun

/-- What the part puts out in its run is put out step by step in the run of the whole. -/
theorem emitted_projects {σ' α' : Type*} {step' : σ' → α' → Option σ'} {view : σ → σ'} {seen : σ → α → List α'}
    (hstep : ∀ s a s', step s a = some s' → run step' (view s) (seen s a) = some (view s')) {out : σ' → α' → List β}
    {s t : σ} {as : List α} (h : run step s as = some t) :
    emitted out step' (view s) (emitted seen step s as) =
      emitted (fun s a => emitted out step' (view s) (seen s a)) step s as := by
  induction as generalizing s with
  | nil => rfl
  | cons a as ih =>
    obtain ⟨s', hs, hrun⟩ := run_cons_some h
    rw [emitted, emitted, hs, Option.elim_some, Option.elim_some, emitted_append (hstep s a s' hs), ih hrun]

/-- **Invariants of a state and the run that led to it**: what holds of the empty run, and
one more action keeps. -/
theorem run_history {I : List α → σ → Prop} {s : σ} (hs : I [] s)
    (hstep : ∀ as t a t', run step s as = some t → I as t → step t a = some t' → I (as ++ [a]) t')
    {as : List α} {t : σ} (h : run step s as = some t) : I as t := by
  induction as using List.reverseRecOn generalizing t with
  | nil =>
    cases h
    exact hs
  | append_singleton as a ih =>
    obtain ⟨t', ht', ha⟩ := run_append_some h
    obtain ⟨t'', hstep', hnil⟩ := run_cons_some ha
    cases hnil
    exact hstep as t' a _ ht' (ih ht') hstep'

end CanMonitor.Library
