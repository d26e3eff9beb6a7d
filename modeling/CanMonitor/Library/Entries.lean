import Mathlib.Logic.Function.Basic
import Mathlib.Data.List.Induction

/-!
# Maps that entries are stored in

What is in a map after a list of entries was stored in it, one after the other, each in
place of what was there for its key.

* `foldl_storeEntry` — the value of the last entry with the key.
-/

namespace CanMonitor.Library

variable {κ ω : Type*} [DecidableEq κ]

/-- Store an entry. -/
def storeEntry (result : κ → Option ω) (entry : κ × ω) : κ → Option ω :=
  Function.update result entry.1 (some entry.2)

/-- The value of the last entry with a key. -/
def lastValue (entries : List (κ × ω)) (key : κ) : Option ω :=
  (entries.filter (·.1 = key)).getLast?.map Prod.snd

theorem lastValue_nil : lastValue ([] : List (κ × ω)) = fun _ => none := rfl

/-- One more entry. -/
theorem lastValue_concat (entries : List (κ × ω)) (entry : κ × ω) :
    lastValue (entries ++ [entry]) = storeEntry (lastValue entries) entry := by
  funext key
  by_cases h : entry.1 = key
  · subst h
    simp [lastValue, storeEntry]
  · simp [lastValue, storeEntry, h, Ne.symm h]

/-- **What is in the map** for each key is the value of its last entry. -/
theorem foldl_storeEntry (entries : List (κ × ω)) :
    entries.foldl storeEntry (fun _ => none) = lastValue entries := by
  induction entries using List.reverseRecOn with
  | nil => exact lastValue_nil.symm
  | append_singleton entries entry ih => rw [List.foldl_append, ih, List.foldl_cons, List.foldl_nil, lastValue_concat]

end CanMonitor.Library
