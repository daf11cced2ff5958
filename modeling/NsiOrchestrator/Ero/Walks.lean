import NsiOrchestrator.Ero.Stps

/-! # Routes as walks put end to end

A route is one walk in the graph for each leg, from the leg's entry to its exit, the
walks put end to end. `_route_length` answers with the least number of networks of
such a sequence that meets no network twice.
-/

namespace NsiOrchestrator.Ero

variable {N : Type*} {graph : Graph N}

/-- A walk in the graph from one network to another. -/
structure Walk (graph : Graph N) (x y : N) (w : List N) : Prop where
  hops : w.IsChain fun a b => b ∈ graph.hops a
  first : w.head? = some x
  last : w.getLast? = some y

def Concatenates (graph : Graph N) (legs : List (N × N)) (r : List N) : Prop :=
  ∃ walks, List.Forall₂ (fun leg w => Walk graph leg.1 leg.2 w) legs walks ∧ r = walks.flatten

theorem Walk.singleton (x : N) : Walk graph x x [x] := ⟨by simp, rfl, rfl⟩

theorem Walk.cons {x y z : N} {w : List N} (hhop : y ∈ graph.hops x) (h : Walk graph y z w) :
    Walk graph x z (x :: w) := by
  obtain ⟨hhops, hfirst, hlast⟩ := h
  cases w with
  | nil => cases hfirst
  | cons a w =>
      obtain rfl : a = y := Option.some.inj hfirst
      constructor
      · rw [List.isChain_cons_cons]
        exact ⟨hhop, hhops⟩
      · rfl
      · rw [List.getLast?_cons_cons]
        exact hlast

theorem Walk.rest {x exit : N} {later : List (N × N)} {w tail : List N}
    (h : Walk graph x exit w) (hrest : Rest graph exit exit later (exit :: tail)) :
    Rest graph x exit later (w ++ tail) := by
  induction w generalizing x with
  | nil => cases h.first
  | cons a w ih =>
      obtain rfl : a = x := Option.some.inj h.first
      cases w with
      | nil =>
          obtain rfl : a = exit := by simpa using h.last
          exact hrest
      | cons b w =>
          have hchain := List.isChain_cons_cons.mp h.hops
          have hwalk : Walk graph b exit (b :: w) :=
            ⟨hchain.2, rfl, by simpa [List.getLast?_cons_cons] using h.last⟩
          exact .hop hchain.1 (ih hwalk)

theorem rest_iff_walks {x exit : N} {later : List (N × N)} {r : List N} :
    Rest graph x exit later r ↔
      ∃ w r', Walk graph x exit w ∧ Concatenates graph later r' ∧ r = w ++ r' := by
  constructor
  · intro h
    induction h with
    | arrive x => exact ⟨[x], [], .singleton x, ⟨[], .nil, rfl⟩, rfl⟩
    | hop hhop _ ih =>
        obtain ⟨w, r', hwalk, hlater, rfl⟩ := ih
        exact ⟨_ :: w, r', hwalk.cons hhop, hlater, rfl⟩
    | @cross x entry exit later r _ ih =>
        obtain ⟨w, r', hwalk, ⟨walks, hwalks, rfl⟩, rfl⟩ := ih
        exact ⟨[x], _, .singleton x, ⟨w :: walks, .cons hwalk hwalks, rfl⟩, rfl⟩
  · rintro ⟨w, r', hwalk, ⟨walks, hwalks, rfl⟩, rfl⟩
    apply hwalk.rest
    clear hwalk
    induction hwalks generalizing exit with
    | nil => exact .arrive exit
    | @cons leg w' later walks hwalk _ ih =>
        have hrest : Rest graph leg.2 leg.2 later (leg.2 :: walks.flatten) := ih
        exact .cross (hwalk.rest hrest)

theorem legRoute_iff_concatenates {legs : List (N × N)} (hlegs : legs ≠ []) {r : List N} :
    LegRoute graph legs r ↔ Concatenates graph legs r := by
  cases legs with
  | nil => exact absurd rfl hlegs
  | cons leg later =>
      rw [LegRoute, rest_iff_walks]
      constructor
      · rintro ⟨w, r', hwalk, ⟨walks, hwalks, rfl⟩, rfl⟩
        exact ⟨w :: walks, .cons hwalk hwalks, rfl⟩
      · rintro ⟨_, hwalks, rfl⟩
        cases hwalks with
        | @cons _ w _ walks hwalk hwalks => exact ⟨w, _, hwalk, ⟨walks, hwalks, rfl⟩, rfl⟩

/-- For every graph and every non-empty list of legs, and whatever the order sets are iterated
in, `_route_length` answers with the least number of networks of a sequence of distinct networks
that puts a walk for each leg end to end, and with `None` exactly when there is none. -/
theorem routeLength_least [DecidableEq N] (order : SetOrder (RouteState N)) (graph : Graph N)
    {legs : List (N × N)} (hlegs : legs ≠ []) :
    (∀ length, routeLength order graph legs = .ok (some length) ↔
      IsLeast {n | ∃ r, Concatenates graph legs r ∧ r.Nodup ∧ r.length = n} length) ∧
    (routeLength order graph legs = .ok none ↔ ¬ ∃ r, Concatenates graph legs r ∧ r.Nodup) := by
  have hroute : ∀ r, SimpleRoute graph legs r ↔ Concatenates graph legs r ∧ r.Nodup := by
    intro r
    rw [SimpleRoute, legRoute_iff_concatenates hlegs]
  have hspec := routeLength_spec order graph hlegs
  simp only [hroute, and_assoc] at hspec
  cases hspec with
  | inl h =>
      obtain ⟨length, hlength, hleast⟩ := h
      obtain ⟨r, hr, hnodup, _⟩ := hleast.1
      constructor
      · intro length'
        rw [hlength, Except.ok.injEq, Option.some.injEq]
        constructor
        · intro heq
          exact heq ▸ hleast
        · intro hleast'
          exact hleast.unique hleast'
      · rw [hlength]
        simp only [Except.ok.injEq, reduceCtorEq, false_iff, not_not]
        exact ⟨r, hr, hnodup⟩
  | inr h =>
      constructor
      · intro length
        rw [h.1]
        simp only [Except.ok.injEq, reduceCtorEq, false_iff]
        intro hleast
        obtain ⟨r, hr, hnodup, _⟩ := hleast.1
        exact h.2 r ⟨hr, hnodup⟩
      · rw [h.1]
        simp only [true_iff, not_exists]
        exact h.2

def ring : Graph String where
  networks := {"A", "B", "C"}
  hops x := if x ∈ ({"A", "B", "C"} : Finset String) then {"A", "B", "C"} else ∅
  hops_subset x := by
    split
    · exact Finset.Subset.refl _
    · exact Finset.empty_subset _

theorem routeLength_least_ring :
    IsLeast {n | ∃ r, Concatenates ring [("A", "B"), ("C", "C")] r ∧ r.Nodup ∧ r.length = n} 3 :=
  ((routeLength_least byLegAndNetwork ring (by simp)).1 3).mp (by decide +kernel)

end NsiOrchestrator.Ero
