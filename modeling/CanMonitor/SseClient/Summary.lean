import CanMonitor.SseClient.Receive
import Mathlib.Data.List.Dedup
import Mathlib.Data.List.Perm.Basic

/-!
# What the stress test counts

`summarize_client` counts the sequences that a client recorded: those that came twice, those
that came late, and those that are missing between the first and the last. For sequences that
are strictly ascending, as a stream's are, the first two counts are zero and the third is that
of the numbers in between that were not recorded (`summarize_ascending`).

The rates and the percentiles, which are computed in floating point, are left out.
-/

namespace CanMonitor.SseClient

/-- What is reported of a client. -/
structure Summary where
  expectedFrames : ℕ
  receivedFrames : ℕ
  lostFrames : ℤ
  duplicateFrames : ℕ
  sequenceGaps : ℤ
  outOfOrderFrames : ℕ
  error : Bool
  deriving DecidableEq

/-- `max(unique_sequences) - min(unique_sequences) + 1 - len(unique_sequences)`, if it is positive. -/
def sequenceGaps : List ℤ → ℤ
  | [] => 0
  | q :: qs => max 0 (qs.foldl max q - qs.foldl min q + 1 - (q :: qs).length)

/-- `summarize_client`. -/
def summarizeClient (result : Result) (expected : ℕ) : Summary where
  expectedFrames := expected
  receivedFrames := result.sequences.length
  lostFrames := max 0 (expected - result.sequences.length : ℤ)
  duplicateFrames := result.sequences.length - result.sequences.dedup.length
  sequenceGaps := sequenceGaps result.sequences.dedup
  outOfOrderFrames := ((result.sequences.zip result.sequences.tail).filter fun pair => pair.2 ≤ pair.1).length
  error := result.error

/-- The last of ascending numbers is the greatest. -/
theorem foldl_max_ascending {q : ℤ} {qs : List ℤ} (h : (q :: qs).Pairwise (· < ·)) :
    qs.foldl max q = (q :: qs).getLast (List.cons_ne_nil q qs) := by
  induction qs generalizing q with
  | nil => rfl
  | cons r qs ih =>
    obtain ⟨hq, hrest⟩ := List.pairwise_cons.mp h
    rw [List.foldl_cons, max_eq_right (hq r List.mem_cons_self).le, ih hrest]
    exact (List.getLast_cons (List.cons_ne_nil r qs)).symm

/-- The first of ascending numbers is the least. -/
theorem foldl_min_ascending {q : ℤ} {qs : List ℤ} (h : ∀ r ∈ qs, q < r) : qs.foldl min q = q := by
  induction qs with
  | nil => rfl
  | cons r qs ih =>
    rw [List.foldl_cons, min_eq_left (h r List.mem_cons_self).le, ih fun r hr => h r (List.mem_cons_of_mem _ hr)]

theorem le_getLast_ascending {qs : List ℤ} (h : qs.Pairwise (· < ·)) (hne : qs ≠ []) : ∀ r ∈ qs, r ≤ qs.getLast hne := by
  intro r hr
  rw [← List.dropLast_append_getLast hne] at h hr
  rcases List.mem_append.mp hr with hr | hr
  · exact ((List.pairwise_append.mp h).2.2 r hr _ (List.mem_singleton_self _)).le
  · exact (List.mem_singleton.mp hr).le

/-- The numbers from one to another that are not there. -/
def missing (qs : List ℤ) (first last : ℤ) : List ℤ :=
  ((List.range (last + 1 - first).toNat).map fun k : ℕ => first + k).filter (· ∉ qs)

theorem mem_missing {qs : List ℤ} {first last q : ℤ} : q ∈ missing qs first last ↔ first ≤ q ∧ q ≤ last ∧ q ∉ qs := by
  simp only [missing, List.mem_filter, List.mem_map, List.mem_range, decide_eq_true_eq]
  constructor
  · rintro ⟨⟨k, hk, rfl⟩, hq⟩
    exact ⟨by omega, by omega, hq⟩
  · rintro ⟨hfirst, hlast, hq⟩
    exact ⟨⟨(q - first).toNat, by omega, by omega⟩, hq⟩

/-- In ascending sequences the missing ones are counted by what the ends are apart. -/
theorem sequenceGaps_ascending {q : ℤ} {qs : List ℤ} (h : (q :: qs).Pairwise (· < ·)) :
    sequenceGaps (q :: qs) = (missing (q :: qs) q ((q :: qs).getLast (List.cons_ne_nil q qs))).length := by
  obtain ⟨hq, -⟩ := List.pairwise_cons.mp h
  have hle := le_getLast_ascending h (List.cons_ne_nil q qs)
  rw [sequenceGaps, foldl_max_ascending h, foldl_min_ascending hq]
  generalize (q :: qs).getLast (List.cons_ne_nil q qs) = last at hle ⊢
  let between := (List.range (last + 1 - q).toNat).map fun k : ℕ => q + k
  have hnodup : between.Nodup := List.nodup_range.map fun k k' heq => Int.ofNat_inj.mp (Int.add_left_cancel heq)
  -- those that are there are all between
  have hthere : (between.filter (· ∈ q :: qs)).Perm (q :: qs) := by
    refine (List.perm_ext_iff_of_nodup (hnodup.filter _) (h.imp fun hlt => hlt.ne)).mpr fun r => ?_
    rw [List.mem_filter, decide_eq_true_eq, and_iff_right_iff_imp]
    intro hr
    have hlast := hle r hr
    have hfirst : q ≤ r := by
      rcases List.mem_cons.mp hr with rfl | hr
      · exact le_rfl
      · exact (hq r hr).le
    exact List.mem_map.mpr ⟨(r - q).toNat, List.mem_range.mpr (by omega), by omega⟩
  have hsum := List.length_eq_length_filter_add (l := between) (· ∈ q :: qs)
  have hlength : between.length = (last + 1 - q).toNat := by rw [List.length_map, List.length_range]
  have hmissing : missing (q :: qs) q last = between.filter fun r => !decide (r ∈ q :: qs) :=
    List.filter_congr fun r _ => decide_not
  rw [hthere.length_eq, hlength, ← hmissing] at hsum
  have hfirst := hle q List.mem_cons_self
  omega

theorem outOfOrder_ascending {qs : List ℤ} (h : qs.Pairwise (· < ·)) :
    (qs.zip qs.tail).filter (fun pair => decide (pair.2 ≤ pair.1)) = [] := by
  induction qs with
  | nil => rfl
  | cons q qs ih =>
    obtain ⟨hq, hrest⟩ := List.pairwise_cons.mp h
    cases qs with
    | nil => rfl
    | cons r qs =>
      have hlt : ¬ (r ≤ q) := (hq r List.mem_cons_self).not_ge
      rw [List.tail_cons, List.zip_cons_cons, List.filter_cons_of_neg (by simpa using hlt)]
      exact ih hrest

/-- **What is counted of ascending sequences**: none twice, none late, and as missing those
between the first and the last that are not there. -/
theorem summarize_ascending {result : Result} (h : result.sequences.Pairwise (· < ·)) (expected : ℕ) :
    (summarizeClient result expected).duplicateFrames = 0 ∧ (summarizeClient result expected).outOfOrderFrames = 0 ∧
      ∀ q qs, result.sequences = q :: qs → (summarizeClient result expected).sequenceGaps =
        (missing (q :: qs) q ((q :: qs).getLast (List.cons_ne_nil q qs))).length := by
  have hdedup : result.sequences.dedup = result.sequences :=
    List.Nodup.dedup (h.imp fun hlt => hlt.ne)
  refine ⟨?_, ?_, fun q qs heq => ?_⟩
  · rw [summarizeClient, hdedup, Nat.sub_self]
  · rw [summarizeClient, outOfOrder_ascending h, List.length_nil]
  · rw [summarizeClient, hdedup, heq]
    exact sequenceGaps_ascending (heq ▸ h)

end CanMonitor.SseClient
