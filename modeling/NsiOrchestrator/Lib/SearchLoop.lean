import NsiOrchestrator.Lib.Search
import NsiOrchestrator.Lib.Transition

/-! # The turns of a breadth-first search

The loop as a transition system, one step for each turn. Besides the queue and the
seen set it records the states already taken from the queue, so that the taken
states followed by the queue list everything that was ever queued, in order.
-/

namespace NsiOrchestrator.Search

open Transition

variable {σ β : Type*} [DecidableEq σ]

structure Loop (σ : Type*) where
  taken : List σ
  queue : List σ
  seen : Finset σ

/-- Everything queued so far, in order. -/
def Loop.queued (l : Loop σ) : List σ := l.taken ++ l.queue

/-- An event is the use of the iteration order that a turn makes. -/
def loop (order : SetOrder σ) (visit : σ → Visit σ β) (start : σ) : System (Loop σ) ℕ where
  init l := l = ⟨[], [start], {start}⟩
  step l n l' := ∃ s rest, l.queue = s :: rest ∧
    turn order visit n l.queue l.seen = .next l'.queue l'.seen ∧ l'.taken = l.taken ++ [s]

theorem turn_next {order : SetOrder σ} {visit : σ → Visit σ β} {n : ℕ} {s : σ}
    {rest queue : List σ} {seen seen' : Finset σ}
    (h : turn order visit n (s :: rest) seen = .next queue seen') :
    ∃ successors, visit s = .expand successors ∧
      queue = rest ++ order.list n (successors \ seen) ∧ seen' = seen ∪ (successors \ seen) := by
  cases hv : visit s with
  | stop result => simp [turn, hv] at h
  | expand successors =>
      simp only [turn, hv, Turn.next.injEq] at h
      exact ⟨successors, rfl, h.1.symm, h.2.symm⟩

theorem turn_done {order : SetOrder σ} {visit : σ → Visit σ β} {n : ℕ} {queue : List σ}
    {seen : Finset σ} {result : β} (h : turn order visit n queue seen = .done (some result)) :
    ∃ s ∈ queue, visit s = .stop result := by
  cases queue with
  | nil => simp [turn] at h
  | cons s rest =>
      cases hv : visit s with
      | stop result' =>
          simp only [turn, hv, Turn.done.injEq, Option.some.injEq] at h
          exact ⟨s, List.mem_cons_self, h ▸ hv⟩
      | expand successors => simp [turn, hv] at h

/-- The loop has seen what it queued, each state once and reachable. -/
structure Queued (visit : σ → Visit σ β) (start : σ) (l : Loop σ) : Prop where
  once : l.queued.Nodup
  seen : ∀ s, s ∈ l.seen ↔ s ∈ l.queued
  reach : ∀ s ∈ l.queued, Reaches visit start s

omit [DecidableEq σ] in
theorem Queued.init (visit : σ → Visit σ β) (start : σ) :
    Queued visit start ⟨[], [start], {start}⟩ := by
  constructor
  · simp [Loop.queued]
  · simp [Loop.queued]
  · intro s hs
    obtain rfl : s = start := by simpa [Loop.queued] using hs
    exact .refl

theorem Queued.step {order : SetOrder σ} {visit : σ → Visit σ β} {start : σ} {l l' : Loop σ}
    {n : ℕ} (h : Queued visit start l) (hstep : (loop order visit start).step l n l') :
    Queued visit start l' := by
  obtain ⟨s, rest, hqueue, hturn, htaken⟩ := hstep
  rw [hqueue] at hturn
  obtain ⟨successors, hvisit, hnext, hseen⟩ := turn_next hturn
  have hqueued : l'.queued = l.queued ++ order.list n (successors \ l.seen) := by
    simp [Loop.queued, htaken, hnext, hqueue]
  have hs : s ∈ l.queued := by simp [Loop.queued, hqueue]
  constructor
  · rw [hqueued, List.nodup_append]
    refine ⟨h.once, order.nodup _ _, fun t ht u hu heq => ?_⟩
    subst heq
    rw [SetOrder.mem_list, Finset.mem_sdiff] at hu
    exact hu.2 ((h.seen t).mpr ht)
  · intro t
    rw [hseen, hqueued, Finset.mem_union, List.mem_append, SetOrder.mem_list, h.seen]
  · intro t ht
    rw [hqueued, List.mem_append, SetOrder.mem_list, Finset.mem_sdiff] at ht
    cases ht with
    | inl ht => exact h.reach t ht
    | inr ht => exact (h.reach s hs).tail ⟨successors, hvisit, ht.1⟩

theorem Queued.of_reachable {order : SetOrder σ} {visit : σ → Visit σ β} {start : σ} {l : Loop σ}
    (h : (loop order visit start).Reachable l) : Queued visit start l := by
  apply h.invariant
  · intro l hinit
    rw [show l = ⟨[], [start], {start}⟩ from hinit]
    exact Queued.init visit start
  · intro l n l' ih hstep
    exact ih.step hstep

/-- Inside a finite set of states the loop queues at most as many, and so makes at most as
many turns. -/
theorem Queued.length_le {visit : σ → Visit σ β} {start : σ} {l : Loop σ}
    (h : Queued visit start l) {states : Finset σ} (hstart : start ∈ states)
    (stays : ∀ s ∈ states, ∀ t, Succ visit s t → t ∈ states) : l.queued.length ≤ states.card := by
  have hstates : ∀ s, Reaches visit start s → s ∈ states := by
    intro s hs
    induction hs with
    | refl => exact hstart
    | tail _ hstep ih => exact stays _ ih _ hstep
  rw [← List.toFinset_card_of_nodup h.once]
  apply Finset.card_le_card
  intro s hs
  exact hstates s (h.reach s (List.mem_toFinset.mp hs))

theorem loop_of_search {order : SetOrder σ} {visit : σ → Visit σ β} {start : σ} {fuel : ℕ}
    {l : Loop σ} {result : Option β} (hl : (loop order visit start).Reachable l)
    (h : search order visit fuel l.queue l.seen = some result) :
    ∃ l' n, (loop order visit start).Reachable l' ∧
      turn order visit n l'.queue l'.seen = .done result := by
  induction fuel generalizing l with
  | zero => simp [search] at h
  | succ fuel ih =>
      cases hturn : turn order visit fuel l.queue l.seen with
      | done result' =>
          simp only [search, hturn, Option.some.injEq] at h
          exact ⟨l, fuel, hl, h ▸ hturn⟩
      | next queue seen =>
          simp only [search, hturn] at h
          cases hqueue : l.queue with
          | nil => simp [hqueue, turn] at hturn
          | cons s rest =>
              apply ih (l := ⟨l.taken ++ [s], queue, seen⟩) _ h
              exact .step hl ⟨s, rest, hqueue, hturn, rfl⟩

end NsiOrchestrator.Search
