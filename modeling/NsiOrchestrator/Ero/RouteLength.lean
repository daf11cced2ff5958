import NsiOrchestrator.Lib.Search
import NsiOrchestrator.Py
import Mathlib.Data.Finset.Powerset
import Mathlib.Data.Finset.Prod
import Mathlib.Data.Finset.Range
import Mathlib.Order.Bounds.Defs

/-! # The shortest route through a list of legs

`_route_length` searches over (leg index, current network, networks visited).
Its answer is tied to routes: sequences of networks that walk each leg from its
entry to its exit. The route a state still has to go is what both directions of
the correctness proof speak about.
-/

namespace NsiOrchestrator.Ero

open Search

variable {N : Type*}

/-- The adjacency map: `hops x` is `graph.get(x, set())`. -/
structure Graph (N : Type*) where
  networks : Finset N
  hops : N → Finset N
  hops_subset : ∀ x, hops x ⊆ networks

abbrev RouteState (N : Type*) := ℕ × N × Finset N

/-- The body of the `while` loop for one state taken from the queue. -/
def visitState [DecidableEq N] (graph : Graph N) (legs : List (N × N)) :
    RouteState N → Visit (RouteState N) (Except PyError ℕ)
  | (leg, current, visited) =>
      match legs[leg]? with
      | none => .stop (.error .indexError)
      | some (_, exit) =>
          if current = exit then
            if leg + 1 = legs.length then .stop (.ok visited.card)
            else
              match legs[leg + 1]? with
              | none => .stop (.error .indexError)
              | some (entry, _) =>
                  .expand (if entry ∉ visited then {(leg + 1, entry, insert entry visited)} else ∅)
          else
            .expand ((graph.hops current \ visited).image fun hop => (leg, hop, insert hop visited))

def legNetworks [DecidableEq N] (graph : Graph N) (legs : List (N × N)) : Finset N :=
  graph.networks ∪ (legs.map Prod.fst).toFinset

def searchSpace [DecidableEq N] (graph : Graph N) (legs : List (N × N)) : Finset (RouteState N) :=
  Finset.range legs.length ×ˢ legNetworks graph legs ×ˢ (legNetworks graph legs).powerset

/-- `_route_length`. The fuel is one more than the number of states there are. -/
def routeLength [DecidableEq N] (order : SetOrder (RouteState N)) (graph : Graph N)
    (legs : List (N × N)) :
    Except PyError (Option ℕ) :=
  match legs with
  | [] => .error .indexError
  | (entry, _) :: _ =>
      let start : RouteState N := (0, entry, {entry})
      match search order (visitState graph legs) ((searchSpace graph legs).card + 1) [start] {start}
        with
      | none => .error .diverged
      | some none => .ok none
      | some (some (.ok length)) => .ok (some length)
      | some (some (.error e)) => .error e

/-! ## Routes -/

/-- The networks still to be crossed from a network of the current leg, which
ends at the given exit, through the later legs. -/
inductive Rest (graph : Graph N) : N → N → List (N × N) → List N → Prop where
  | arrive (x : N) : Rest graph x x [] [x]
  | hop {x y exit : N} {later : List (N × N)} {r : List N} :
      y ∈ graph.hops x → Rest graph y exit later r → Rest graph x exit later (x :: r)
  | cross {x entry exit : N} {later : List (N × N)} {r : List N} :
      Rest graph entry exit later r → Rest graph x x ((entry, exit) :: later) (x :: r)

/-- The networks of a walk through every leg in turn. -/
def LegRoute (graph : Graph N) : List (N × N) → List N → Prop
  | [], _ => False
  | (entry, exit) :: later, r => Rest graph entry exit later r

def SimpleRoute (graph : Graph N) (legs : List (N × N)) (r : List N) : Prop :=
  LegRoute graph legs r ∧ r.Nodup

theorem Rest.head {graph : Graph N} {x exit : N} {later : List (N × N)} {r : List N}
    (h : Rest graph x exit later r) : ∃ tail, r = x :: tail := by
  cases h <;> exact ⟨_, rfl⟩

theorem Rest.exit_mem {graph : Graph N} {x exit : N} {later : List (N × N)} {r : List N}
    (h : Rest graph x exit later r) : exit ∈ r := by
  induction h with
  | arrive x => simp
  | hop _ _ ih => simp [ih]
  | cross _ _ => simp

/-! ## What one visit does -/

variable {graph : Graph N} {past later : List (N × N)} {entry exit current : N}
  {visited : Finset N}

theorem getElem?_current : (past ++ (entry, exit) :: later)[past.length]? = some (entry, exit) := by
  simp

theorem getElem?_next : (past ++ (entry, exit) :: later)[past.length + 1]? = later.head? := by
  rw [List.getElem?_append_right (by omega)]
  simp [List.head?_eq_getElem?]

theorem split_at_leg {legs : List (N × N)} {leg : ℕ} (h : leg < legs.length) :
    ∃ past entry exit later, legs = past ++ (entry, exit) :: later ∧ past.length = leg :=
  ⟨legs.take leg, legs[leg].1, legs[leg].2, legs.drop (leg + 1), by simp, by simp; omega⟩

variable [DecidableEq N]

theorem succ_cases {t : RouteState N}
    (h : Succ (visitState graph (past ++ (entry, exit) :: later))
      (past.length, current, visited) t) :
    (current = exit ∧ ∃ entry' exit' later', later = (entry', exit') :: later' ∧
      entry' ∉ visited ∧ t = (past.length + 1, entry', insert entry' visited)) ∨
    (current ≠ exit ∧ ∃ hop ∈ graph.hops current, hop ∉ visited ∧
      t = (past.length, hop, insert hop visited)) := by
  obtain ⟨successors, hv, ht⟩ := h
  simp only [visitState, getElem?_current] at hv
  by_cases hexit : current = exit
  · left
    rw [if_pos hexit, getElem?_next] at hv
    cases later with
    | nil => simp at hv
    | cons leg later =>
        obtain ⟨entry', exit'⟩ := leg
        simp only [List.head?_cons, List.length_append, List.length_cons] at hv
        rw [if_neg (by omega)] at hv
        cases hv
        by_cases hin : entry' ∈ visited
        · simp [hin] at ht
        · exact ⟨hexit, entry', exit', later, rfl, hin, by simpa [hin] using ht⟩
  · right
    rw [if_neg hexit] at hv
    cases hv
    obtain ⟨hop, hhop, rfl⟩ := Finset.mem_image.mp ht
    rw [Finset.mem_sdiff] at hhop
    exact ⟨hexit, hop, hhop.1, hhop.2, rfl⟩

theorem succ_hop {hop : N} (hexit : current ≠ exit) (hhop : hop ∈ graph.hops current)
    (hnew : hop ∉ visited) :
    Succ (visitState graph (past ++ (entry, exit) :: later)) (past.length, current, visited)
      (past.length, hop, insert hop visited) := by
  refine ⟨(graph.hops current \ visited).image fun hop => (past.length, hop, insert hop visited),
    ?_, Finset.mem_image_of_mem _ (Finset.mem_sdiff.mpr ⟨hhop, hnew⟩)⟩
  simp only [visitState, getElem?_current, if_neg hexit]

theorem succ_cross {entry' exit' : N} {later' : List (N × N)} (hnew : entry' ∉ visited) :
    Succ (visitState graph (past ++ (entry, exit) :: (entry', exit') :: later'))
      (past.length, exit, visited) (past.length + 1, entry', insert entry' visited) := by
  refine ⟨{(past.length + 1, entry', insert entry' visited)}, ?_, by simp⟩
  simp only [visitState, getElem?_current, getElem?_next, List.head?_cons, List.length_append,
    List.length_cons, if_true, hnew, not_false_eq_true]
  rw [if_neg (by omega)]

theorem stops_iff {result : Except PyError ℕ} :
    Stops (visitState graph (past ++ (entry, exit) :: later))
      (past.length, current, visited) result ↔
      current = exit ∧ later = [] ∧ result = .ok visited.card := by
  unfold Stops
  simp only [visitState, getElem?_current]
  by_cases hexit : current = exit
  · rw [if_pos hexit, getElem?_next]
    cases later with
    | nil => simp [hexit, eq_comm]
    | cons leg later =>
        simp only [List.head?_cons, List.length_append, List.length_cons]
        rw [if_neg (by omega)]
        simp
  · simp [hexit]

/-- The index stays in range, the current network is visited, and every visit adds
exactly one network. -/
theorem standing_succ {legs : List (N × N)} {s t : RouteState N} (hs : s.1 < legs.length)
    (h : Succ (visitState graph legs) s t) :
    t.1 < legs.length ∧ t.2.1 ∈ t.2.2 ∧ t.2.1 ∉ s.2.2 ∧ t.2.2 = insert t.2.1 s.2.2 := by
  obtain ⟨leg, current, visited⟩ := s
  obtain ⟨past, entry, exit, later, rfl, rfl⟩ := split_at_leg hs
  rcases succ_cases h with ⟨_, entry', exit', later', rfl, hnew, rfl⟩ | ⟨_, hop, _, hnew, rfl⟩
  · exact ⟨by simp, by simp, hnew, rfl⟩
  · exact ⟨by simp, by simp, hnew, rfl⟩

theorem succ_in_range {legs : List (N × N)} {s t : RouteState N}
    (h : Succ (visitState graph legs) s t) : s.1 < legs.length := by
  by_contra hs
  obtain ⟨successors, hv, _⟩ := h
  obtain ⟨leg, current, visited⟩ := s
  simp [visitState, List.getElem?_eq_none (not_lt.mp hs)] at hv

theorem visitState_graded (graph : Graph N) (legs : List (N × N)) :
    Graded (visitState graph legs) fun s => s.2.2.card := by
  intro s t h
  obtain ⟨_, _, hnew, heq⟩ := standing_succ (succ_in_range h) h
  simp only [heq, Finset.card_insert_of_notMem hnew]

theorem reaches_in_range {legs : List (N × N)} {s t : RouteState N} (hs : s.1 < legs.length)
    (h : Reaches (visitState graph legs) s t) : t.1 < legs.length := by
  induction h with
  | refl => exact hs
  | tail _ hstep ih => exact (standing_succ ih hstep).1

/-! ## Stopping states and the rest of a route -/

def Fresh (visited : Finset N) (r : List N) : Prop := r.Nodup ∧ ∀ x ∈ r.tail, x ∉ visited

theorem fresh_cons_iff {y exit : N} {r : List N} (hr : Rest graph y exit later r)
    (hcurrent : current ∈ visited) :
    Fresh visited (current :: r) ↔ y ∉ visited ∧ Fresh (insert y visited) r := by
  obtain ⟨tail, rfl⟩ := hr.head
  simp only [Fresh, List.nodup_cons, List.tail_cons, List.mem_cons, not_or, forall_eq_or_imp,
    Finset.mem_insert]
  constructor
  · rintro ⟨⟨_, hy, htail⟩, hnew, hrest⟩
    exact ⟨hnew, ⟨hy, htail⟩, fun x hx => ⟨fun h => hy (h ▸ hx), hrest x hx⟩⟩
  · rintro ⟨hnew, ⟨hy, htail⟩, hrest⟩
    refine ⟨⟨⟨fun h => hnew (h ▸ hcurrent), fun h => (hrest current h).2 hcurrent⟩, hy, htail⟩,
      hnew, fun x hx => (hrest x hx).2⟩

theorem rest_of_reaches {legs : List (N × N)} {s t : RouteState N} {length : ℕ}
    (h : Reaches (visitState graph legs) s t) (hstop : Stops (visitState graph legs) t (.ok length))
    (hin : s.1 < legs.length) (hvisited : s.2.1 ∈ s.2.2) :
    ∀ past entry exit later, legs = past ++ (entry, exit) :: later → past.length = s.1 →
      ∃ r, Rest graph s.2.1 exit later r ∧ Fresh s.2.2 r ∧ length + 1 = s.2.2.card + r.length := by
  induction h using Relation.ReflTransGen.head_induction_on with
  | refl =>
      rintro past entry exit later rfl hlen
      obtain ⟨leg, current, visited⟩ := t
      simp only at hlen
      subst hlen
      obtain ⟨rfl, rfl, hlength⟩ := stops_iff.mp hstop
      cases hlength
      exact ⟨[current], .arrive current, by simp [Fresh], by simp⟩
  | @head s s' hstep _ ih =>
      rintro past entry exit later rfl hlen
      obtain ⟨leg, current, visited⟩ := s
      simp only at hlen hvisited
      subst hlen
      obtain ⟨hin', hvisited', _, _⟩ := standing_succ hin hstep
      rcases succ_cases hstep with ⟨rfl, entry', exit', later', rfl, hnew, rfl⟩ |
        ⟨_, hop, hhop, hnew, rfl⟩
      · obtain ⟨r, hr, hfresh, hcount⟩ := ih hin' hvisited'
          (past ++ [(entry, current)]) entry' exit' later' (by simp) (by simp)
        simp only [Finset.card_insert_of_notMem hnew] at hcount
        exact ⟨current :: r, .cross hr, (fresh_cons_iff hr hvisited).mpr ⟨hnew, hfresh⟩,
          by simp only [List.length_cons]; omega⟩
      · obtain ⟨r, hr, hfresh, hcount⟩ := ih hin' hvisited' past entry exit later rfl rfl
        simp only [Finset.card_insert_of_notMem hnew] at hcount
        exact ⟨current :: r, .hop hhop hr, (fresh_cons_iff hr hvisited).mpr ⟨hnew, hfresh⟩,
          by simp only [List.length_cons]; omega⟩

/-- A fresh rest of a route leads to a stopping state that counts its networks. A
network before the exit is not the exit, or the route would meet it twice. -/
theorem reaches_of_rest (past : List (N × N)) (entry : N) {r : List N}
    (hr : Rest graph current exit later r)
    (hcurrent : current ∈ visited) (hfresh : Fresh visited r) :
    ∃ t length, Reaches (visitState graph (past ++ (entry, exit) :: later))
        (past.length, current, visited) t ∧
      Stops (visitState graph (past ++ (entry, exit) :: later)) t (.ok length) ∧
      length + 1 = visited.card + r.length := by
  induction hr generalizing past entry visited with
  | arrive x => exact ⟨_, visited.card, .refl, stops_iff.mpr ⟨rfl, rfl, rfl⟩, by simp⟩
  | @hop x y exit later r hhop hr ih =>
      obtain ⟨hnew, hfresh'⟩ := (fresh_cons_iff hr hcurrent).mp hfresh
      obtain ⟨t, length, hreach, hstop, hcount⟩ :=
        ih past entry (Finset.mem_insert_self y visited) hfresh'
      rw [Finset.card_insert_of_notMem hnew] at hcount
      have hexit : x ≠ exit := fun h =>
        (List.nodup_cons.mp hfresh.1).1 (h ▸ hr.exit_mem)
      exact ⟨t, length, .head (succ_hop hexit hhop hnew) hreach, hstop,
        by simp only [List.length_cons]; omega⟩
  | @cross x entry' exit' later r hr ih =>
      obtain ⟨hnew, hfresh'⟩ := (fresh_cons_iff hr hcurrent).mp hfresh
      obtain ⟨t, length, hreach, hstop, hcount⟩ :=
        ih (past ++ [(entry, x)]) entry' (Finset.mem_insert_self entry' visited) hfresh'
      rw [Finset.card_insert_of_notMem hnew] at hcount
      simp only [List.append_assoc, List.cons_append, List.nil_append, List.length_append,
        List.length_cons, List.length_nil] at hreach hstop
      exact ⟨t, length, .head (succ_cross hnew) hreach, hstop,
        by simp only [List.length_cons]; omega⟩

/-! ## The answer of `_route_length` -/

theorem searchSpace_closed (graph : Graph N) (legs : List (N × N)) :
    ∀ s ∈ searchSpace graph legs, ∀ t, Succ (visitState graph legs) s t →
      t ∈ searchSpace graph legs := by
  rintro ⟨leg, current, visited⟩ hs t h
  simp only [searchSpace, Finset.mem_product, Finset.mem_range, Finset.mem_powerset] at hs ⊢
  obtain ⟨hleg, hcurrent, hvisited⟩ := hs
  obtain ⟨hin, _, _, heq⟩ := standing_succ hleg h
  have hnetwork : t.2.1 ∈ legNetworks graph legs := by
    obtain ⟨past, entry, exit, later, rfl, rfl⟩ := split_at_leg hleg
    rcases succ_cases h with ⟨_, entry', exit', later', rfl, _, rfl⟩ | ⟨_, hop, hhop, _, rfl⟩
    · simp [legNetworks]
    · simp [legNetworks, graph.hops_subset current hhop]
  refine ⟨hin, hnetwork, ?_⟩
  rw [heq]
  exact Finset.insert_subset hnetwork hvisited

theorem routeLength_search (order : SetOrder (RouteState N)) (graph : Graph N) (entry exit : N)
    (later : List (N × N)) :
    ∃ result, search order (visitState graph ((entry, exit) :: later))
      ((searchSpace graph ((entry, exit) :: later)).card + 1) [(0, entry, {entry})]
      {(0, entry, {entry})} = some result := by
  have hstart : (0, entry, {entry}) ∈ searchSpace graph ((entry, exit) :: later) := by
    simp [searchSpace, legNetworks]
  apply search_total order _ _ (searchSpace_closed graph _)
  · simpa using hstart
  · simp
  · have hsub : ({(0, entry, {entry})} : Finset (RouteState N)) ⊆
        searchSpace graph ((entry, exit) :: later) := by simpa using hstart
    have := Finset.card_sdiff_add_card_eq_card hsub
    simp only [Finset.card_singleton] at this
    simp only [List.length_singleton]
    omega

theorem stops_in_range {legs : List (N × N)} {s : RouteState N} {result : Except PyError ℕ}
    (hin : s.1 < legs.length) (hstop : Stops (visitState graph legs) s result) :
    result = .ok s.2.2.card := by
  obtain ⟨leg, current, visited⟩ := s
  obtain ⟨past, entry, exit, later, rfl, rfl⟩ := split_at_leg hin
  exact (stops_iff.mp hstop).2.2

theorem simpleRoute_of_stop {later : List (N × N)} {t : RouteState N} {length : ℕ}
    (hreach : Reaches (visitState graph ((entry, exit) :: later)) (0, entry, {entry}) t)
    (hstop : Stops (visitState graph ((entry, exit) :: later)) t (.ok length)) :
    ∃ r, SimpleRoute graph ((entry, exit) :: later) r ∧ r.length = length := by
  obtain ⟨r, hr, hfresh, hcount⟩ := rest_of_reaches hreach hstop (by simp) (by simp)
    [] entry exit later rfl rfl
  simp only [Finset.card_singleton] at hcount
  exact ⟨r, ⟨hr, hfresh.1⟩, by omega⟩

theorem stop_of_simpleRoute {r : List N} (h : SimpleRoute graph ((entry, exit) :: later) r) :
    ∃ t, Reaches (visitState graph ((entry, exit) :: later)) (0, entry, {entry}) t ∧
      Stops (visitState graph ((entry, exit) :: later)) t (.ok r.length) := by
  obtain ⟨hr, hnodup⟩ := h
  have hfresh : Fresh {entry} r := by
    obtain ⟨tail, rfl⟩ := hr.head
    refine ⟨hnodup, fun x hx hmem => (List.nodup_cons.mp hnodup).1 ?_⟩
    rwa [← Finset.mem_singleton.mp hmem]
  obtain ⟨t, length, hreach, hstop, hcount⟩ :=
    reaches_of_rest [] entry hr (Finset.mem_singleton_self entry) hfresh
  simp only [Finset.card_singleton] at hcount
  obtain rfl : length = r.length := by omega
  exact ⟨t, hreach, hstop⟩

/-- For a non-empty list of legs `_route_length` returns, whatever the order sets
are iterated in: the number of networks of a shortest simple route, or nothing
when there is none. -/
theorem routeLength_spec (order : SetOrder (RouteState N)) (graph : Graph N)
    {legs : List (N × N)} (hlegs : legs ≠ []) :
    (∃ length, routeLength order graph legs = .ok (some length) ∧
      IsLeast {n | ∃ r, SimpleRoute graph legs r ∧ r.length = n} length) ∨
    (routeLength order graph legs = .ok none ∧ ∀ r, ¬ SimpleRoute graph legs r) := by
  obtain ⟨⟨entry, exit⟩, later, rfl⟩ := List.exists_cons_of_ne_nil hlegs
  have hgraded := visitState_graded graph ((entry, exit) :: later)
  have hfrontier := Frontier.init (visitState graph ((entry, exit) :: later))
    (fun s => s.2.2.card) (0, entry, {entry})
  obtain ⟨result, hresult⟩ := routeLength_search order graph entry exit later
  cases result with
  | none =>
      right
      refine ⟨by simp only [routeLength, hresult], fun r hr => ?_⟩
      obtain ⟨t, hreach, hstop⟩ := stop_of_simpleRoute hr
      exact search_none hgraded order hfrontier hresult t _ hreach hstop
  | some answer =>
      left
      obtain ⟨s, hreach, hstop, hleast⟩ := search_least hgraded order hfrontier hresult
      obtain rfl := stops_in_range (reaches_in_range (by simp) hreach) hstop
      refine ⟨s.2.2.card, by simp only [routeLength, hresult], simpleRoute_of_stop hreach hstop, ?_⟩
      rintro n ⟨r, hr, rfl⟩
      obtain ⟨t, hreach', hstop'⟩ := stop_of_simpleRoute hr
      have hcount := stops_in_range (reaches_in_range (by simp) hreach') hstop'
      simp only [Except.ok.injEq] at hcount
      rw [hcount]
      exact hleast t _ hreach' hstop'

end NsiOrchestrator.Ero
