import NsiOrchestrator.Lib.Dict
import Mathlib.Order.Lattice

/-! # Runs of consecutive integers

An ascending list of integers is the concatenation of its maximal runs. Values of one
run share the difference of the value and its index, so grouping on that difference
finds the runs.
-/

namespace NsiOrchestrator

/-- Ranges in ascending order, with a gap between each two. -/
structure Separated (ranges : List (Int × Int)) : Prop where
  nonempty : ∀ range ∈ ranges, range.1 ≤ range.2
  gap : ranges.Pairwise fun range range' => range.2 + 2 ≤ range'.1

/-- The ends of the runs of a list. -/
def spans : List Int → List (Int × Int)
  | [] => []
  | value :: rest =>
      match spans rest with
      | [] => [(value, value)]
      | (low, high) :: ranges =>
          if low = value + 1 then (value, high) :: ranges
          else (value, value) :: (low, high) :: ranges

theorem spans_cons (value : Int) (rest : List Int) :
    ∃ high ranges, spans (value :: rest) = (value, high) :: ranges := by
  unfold spans
  split
  · exact ⟨value, [], rfl⟩
  · split
    · exact ⟨_, _, rfl⟩
    · exact ⟨_, _, rfl⟩

theorem spans_cons_of_spans {rest : List Int} {low high : Int} {ranges : List (Int × Int)}
    (h : spans rest = (low, high) :: ranges) (value : Int) :
    spans (value :: rest) =
      if low = value + 1 then (value, high) :: ranges
      else (value, value) :: (low, high) :: ranges := by
  rw [spans, h]

/-! ## Ascending lists -/

theorem spans_separated {values : List Int} (h : values.Pairwise (· < ·)) :
    Separated (spans values) := by
  induction values with
  | nil => exact ⟨by simp [spans], by simp [spans]⟩
  | cons value rest ih =>
      rw [List.pairwise_cons] at h
      have ih := ih h.2
      cases rest with
      | nil => exact ⟨by simp [spans], by simp [spans]⟩
      | cons next rest =>
          obtain ⟨high, ranges, hspans⟩ := spans_cons next rest
          have hnext : value < next := h.1 next (by simp)
          rw [hspans] at ih
          have hhigh : next ≤ high := ih.nonempty _ List.mem_cons_self
          have hgap := List.pairwise_cons.mp ih.gap
          rw [spans_cons_of_spans hspans]
          by_cases hrun : next = value + 1
          · simp only [hrun, if_true]
            refine ⟨?_, List.pairwise_cons.mpr hgap⟩
            intro range hrange
            rcases List.mem_cons.mp hrange with rfl | hrange
            · simp only
              omega
            · exact ih.nonempty range (List.mem_cons_of_mem _ hrange)
          · simp only [hrun, if_false]
            refine ⟨?_, List.pairwise_cons.mpr ⟨?_, ih.gap⟩⟩
            · intro range hrange
              rcases List.mem_cons.mp hrange with rfl | hrange
              · simp
              · exact ih.nonempty range hrange
            · intro range hrange
              rcases List.mem_cons.mp hrange with rfl | hrange
              · simp only
                omega
              · have := hgap.1 range hrange
                simp only at this ⊢
                omega

theorem mem_spans {values : List Int} (h : values.Pairwise (· < ·)) (value : Int) :
    value ∈ values ↔ ∃ range ∈ spans values, range.1 ≤ value ∧ value ≤ range.2 := by
  induction values with
  | nil => simp [spans]
  | cons first rest ih =>
      rw [List.pairwise_cons] at h
      have ih := ih h.2
      have hsep := spans_separated h.2
      rw [List.mem_cons, ih]
      cases rest with
      | nil =>
          simp only [spans, List.not_mem_nil, false_and, exists_const, or_false, List.mem_singleton,
            exists_eq_left]
          omega
      | cons next rest =>
          obtain ⟨high, ranges, hspans⟩ := spans_cons next rest
          rw [hspans] at hsep
          have hhigh : next ≤ high := hsep.nonempty _ List.mem_cons_self
          rw [spans_cons_of_spans hspans, hspans]
          by_cases hrun : next = first + 1
          · simp only [hrun, if_true, List.mem_cons, exists_eq_or_imp, ← or_assoc]
            refine or_congr_left ?_
            omega
          · simp only [hrun, if_false, List.mem_cons, exists_eq_or_imp]
            refine or_congr_left ?_
            omega

/-! ## Grouping on the difference to the index -/

/-- The values with their difference to the index, counted from `n`. -/
def differences (n : ℕ) : List Int → List (Int × Int)
  | [] => []
  | value :: rest => (value - n, value) :: differences (n + 1) rest

theorem mapIdx_eq_differences (values : List Int) :
    values.mapIdx (fun index value => (value - (index : Int), value)) = differences 0 values := by
  have h : ∀ n : ℕ, values.mapIdx (fun index value => (value - ((index + n : ℕ) : Int), value)) =
      differences n values := by
    induction values with
    | nil => simp [differences]
    | cons value rest ih =>
        intro n
        rw [List.mapIdx_cons, differences, ← ih (n + 1), Nat.zero_add]
        simp only [Nat.add_assoc, Nat.add_comm 1 n]
  exact h 0

/-- The groups are the runs: they start and end where the runs do. -/
theorem groupRuns_differences (n : ℕ) (values : List Int) :
    (groupRuns (differences n values)).map (fun group => (group.2.head?, group.2.getLast?)) =
      (spans values).map fun range => (some range.1, some range.2) := by
  suffices h : (groupRuns (differences n values)).map
      (fun group => (group.2.head?, group.2.getLast?)) =
        (spans values).map (fun range => (some range.1, some range.2)) ∧
      ∀ group ∈ (groupRuns (differences n values)).head?, group.2.head? = some (group.1 + n) from
    h.1
  induction values generalizing n with
  | nil => simp [differences, groupRuns, spans]
  | cons value rest ih =>
      obtain ⟨ihmap, ihhead⟩ := ih (n + 1)
      rw [differences, groupRuns, spans]
      cases hgroups : groupRuns (differences (n + 1) rest) with
      | nil =>
          have hnil : spans rest = [] := by simpa [hgroups] using ihmap.symm
          simp [hnil]
      | cons group groups =>
          obtain ⟨key, run⟩ := group
          rw [hgroups] at ihmap ihhead
          cases hspans : spans rest with
          | nil => simp [hspans] at ihmap
          | cons range ranges =>
              obtain ⟨low, high⟩ := range
              rw [hspans] at ihmap
              simp only [List.map_cons, List.cons.injEq, Prod.mk.injEq] at ihmap
              obtain ⟨⟨hlow, hhigh⟩, hrest⟩ := ihmap
              -- The key of the next run tells whether it starts right after this value.
              have hkey : key + (n + 1 : ℕ) = low := by
                simpa [hlow] using (ihhead (key, run) (by simp)).symm
              have hrun : key = value - n ↔ low = value + 1 := by omega
              have hne : run ≠ [] := by
                rintro rfl
                simp at hlow
              by_cases hconsecutive : low = value + 1
              · simp only [hrun.mpr hconsecutive, hconsecutive, if_true]
                refine ⟨?_, by simp⟩
                simp [List.getLast?_cons_of_ne_nil hne, hhigh, hrest]
              · simp only [mt hrun.mp hconsecutive, hconsecutive, if_false]
                exact ⟨by simp [hlow, hhigh, hrest], by simp⟩

end NsiOrchestrator
