import NsiOrchestrator.Ero.RouteLength
import NsiOrchestrator.Lib.SearchLoop

/-! # The turns of `_route_length`

Every state the loop queues stands on a network it has visited and on a leg there is,
and its successors have visited one network more. The states are distinct and there
are finitely many of them, so the loop ends.
-/

namespace NsiOrchestrator.Ero

open Search Transition

variable {N : Type*} [DecidableEq N] {graph : Graph N} {legs : List (N × N)}

/-- The state stands on a visited network of a leg in range. -/
structure Standing (legs : List (N × N)) (s : RouteState N) : Prop where
  leg : s.1 < legs.length
  visited : s.2.1 ∈ s.2.2

theorem Standing.reaches {s t : RouteState N} (hs : Standing legs s)
    (h : Reaches (visitState graph legs) s t) : Standing legs t := by
  induction h with
  | refl => exact hs
  | tail _ hstep ih =>
      have hsucc := standing_succ ih.leg hstep
      exact ⟨hsucc.1, hsucc.2.1⟩

theorem Standing.visit_ne_error {s : RouteState N} (hs : Standing legs s) (e : PyError) :
    visitState graph legs s ≠ .stop (.error e) := by
  intro h
  cases stops_in_range hs.leg h

/-- What holds of the loop before every turn. -/
structure Sound (graph : Graph N) (legs : List (N × N)) (l : Loop (RouteState N)) : Prop where
  /-- Each turn takes one state, and there are no more than these. -/
  bounded : l.taken.length ≤ (searchSpace graph legs).card
  once : l.queued.Nodup
  standing : ∀ s ∈ l.queue, Standing legs s
  successors : ∀ s ∈ l.queue, ∀ t, Succ (visitState graph legs) s t →
    t.2.1 ∉ s.2.2 ∧ t.2.2 = insert t.2.1 s.2.2
  inRange : ∀ s ∈ l.queue, ∀ e, visitState graph legs s ≠ .stop (.error e)

/-- The `while` loop, from the first leg's entry. -/
def routeLoop (order : SetOrder (RouteState N)) (graph : Graph N) (entry exit : N)
    (later : List (N × N)) : System (Loop (RouteState N)) ℕ :=
  loop order (visitState graph ((entry, exit) :: later)) (0, entry, {entry})

theorem Sound.of_reachable {order : SetOrder (RouteState N)} {entry exit : N}
    {later : List (N × N)} {l : Loop (RouteState N)}
    (h : (routeLoop order graph entry exit later).Reachable l) :
    Sound graph ((entry, exit) :: later) l := by
  have hqueued := Queued.of_reachable h
  have hstart : Standing ((entry, exit) :: later) (0, entry, {entry}) := ⟨by simp, by simp⟩
  have hstanding : ∀ s ∈ l.queue, Standing ((entry, exit) :: later) s := by
    intro s hs
    exact hstart.reaches (hqueued.reach s (List.mem_append_right _ hs))
  have hspace : (0, entry, {entry}) ∈ searchSpace graph ((entry, exit) :: later) := by
    simp [searchSpace, legNetworks]
  have hlength := hqueued.length_le hspace (searchSpace_closed graph _)
  constructor
  · simp only [Loop.queued, List.length_append] at hlength
    omega
  · exact hqueued.once
  · exact hstanding
  · intro s hs t ht
    exact (standing_succ (hstanding s hs).leg ht).2.2
  · intro s hs e
    exact (hstanding s hs).visit_ne_error e

/-- For every graph and every non-empty list of legs the loop ends with an answer, and before
each of its turns the queue is sound: the index of a leg is never out of range, no state is
queued twice, and there are no more turns than states. -/
theorem routeLength_ends (order : SetOrder (RouteState N)) (graph : Graph N) (entry exit : N)
    (later : List (N × N)) :
    (∃ answer, routeLength order graph ((entry, exit) :: later) = .ok answer ∧
      ∃ l n, (routeLoop order graph entry exit later).Reachable l ∧
        turn order (visitState graph ((entry, exit) :: later)) n l.queue l.seen =
          .done (answer.map .ok)) ∧
    ∀ l, (routeLoop order graph entry exit later).Reachable l →
      Sound graph ((entry, exit) :: later) l := by
  refine ⟨?_, fun l hl => Sound.of_reachable hl⟩
  obtain ⟨result, hresult⟩ := routeLength_search order graph entry exit later
  have hinit : (routeLoop order graph entry exit later).Reachable
      ⟨[], [(0, entry, {entry})], {(0, entry, {entry})}⟩ := .init rfl
  obtain ⟨l, n, hl, hturn⟩ := loop_of_search hinit hresult
  cases result with
  | none => exact ⟨none, by simp only [routeLength, hresult], l, n, hl, hturn⟩
  | some answer =>
      cases answer with
      | ok length => exact ⟨some length, by simp only [routeLength, hresult], l, n, hl, hturn⟩
      | error e =>
          obtain ⟨s, hs, hstop⟩ := turn_done hturn
          exact absurd hstop ((Sound.of_reachable hl).inRange s hs e)

end NsiOrchestrator.Ero
