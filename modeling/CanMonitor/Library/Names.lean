import Mathlib.Logic.Function.Basic
import Mathlib.Data.List.Basic

/-!
# Names that are given out again

A table says what each name denotes at present, as a kernel's table of open files does:
`close` takes a name back and `bind` gives a free name out again. Somebody who uses a
name later, with nothing but the name, means what it denoted when he got it.

A reference is a name with what is meant by it. It is `Own` if the name denotes that or
nothing, so that a use of the name acts on what is meant or fails.

* `Safe.close`, `Safe.bind` — references stay so when a name is taken back, and when a
  name is given out that none of them uses.
* `not_safe_bind` — and not otherwise.
-/

namespace CanMonitor.Library

variable {ν ω : Type*} {t : ν → Option ω} {n : ν} {o : ω} {refs refs' : List (ν × ω)}

/-- The name denotes what is meant by it, or nothing. -/
def Own (t : ν → Option ω) (r : ν × ω) : Prop := t r.1 = none ∨ t r.1 = some r.2

/-- All references are their own. -/
def Safe (t : ν → Option ω) (refs : List (ν × ω)) : Prop := ∀ r ∈ refs, Own t r

theorem Own.of_eq {r : ν × ω} (h : t r.1 = some r.2) : Own t r := .inr h

/-- What is meant by a name that denotes something is that. -/
theorem Own.eq_of_some {r : ν × ω} (h : Own t r) (ho : t r.1 = some o) : o = r.2 := by
  rcases h with hnone | hsome
  · rw [ho] at hnone
    cases hnone
  · exact Option.some.inj (ho.symm.trans hsome)

theorem Safe.mono (h : Safe t refs) (hsub : refs' ⊆ refs) : Safe t refs' := fun r hr => h r (hsub hr)

variable [DecidableEq ν]

theorem Own.close {r : ν × ω} (h : Own t r) (n : ν) : Own (Function.update t n none) r := by
  by_cases hn : r.1 = n
  · exact .inl (by rw [hn, Function.update_self])
  · simpa [Own, Function.update_of_ne hn] using h

theorem Own.bind {r : ν × ω} (h : Own t r) (hn : r.1 ≠ n) : Own (Function.update t n (some o)) r := by
  simpa [Own, Function.update_of_ne hn] using h

/-- A name is taken back. -/
theorem Safe.close (h : Safe t refs) (n : ν) : Safe (Function.update t n none) refs := fun r hr => (h r hr).close n

/-- A name is given out that no reference uses. -/
theorem Safe.bind (h : Safe t refs) (hn : ∀ r ∈ refs, r.1 ≠ n) : Safe (Function.update t n (some o)) refs :=
  fun r hr => (h r hr).bind (hn r hr)

/-- A name is given out that a reference to something else uses. -/
theorem not_safe_bind {r : ν × ω} (hr : r ∈ refs) (hn : r.1 = n) (ho : r.2 ≠ o) :
    ¬ Safe (Function.update t n (some o)) refs := by
  intro h
  exact ho ((h r hr).eq_of_some (by rw [hn, Function.update_self])).symm

end CanMonitor.Library
