import NsiOrchestrator.Lib.SetOrder
import Mathlib.Logic.Relation

/-! # Breadth-first search over a graded successor relation

The search keeps a queue and the set of states ever queued. A visit of a state
either stops the search with a result or yields a finite set of successors,
which are queued in an order the caller cannot predict. When every successor is
one rank above its parent, the first state that stops the search has the least
rank of all reachable stopping states, whatever that order is.
-/

namespace NsiOrchestrator.Search

/-- Visiting a state ends the search or yields its successors. -/
inductive Visit (σ β : Type*) where
  | stop (result : β)
  | expand (successors : Finset σ)

variable {σ β : Type*}

def Succ (visit : σ → Visit σ β) (s t : σ) : Prop :=
  ∃ successors, visit s = .expand successors ∧ t ∈ successors

abbrev Reaches (visit : σ → Visit σ β) : σ → σ → Prop := Relation.ReflTransGen (Succ visit)

/-- Every successor ranks one above its parent. -/
def Graded (visit : σ → Visit σ β) (rank : σ → ℕ) : Prop :=
  ∀ s t, Succ visit s t → rank t = rank s + 1

theorem Graded.rank_le {visit : σ → Visit σ β} {rank : σ → ℕ} (graded : Graded visit rank)
    {s t : σ} (h : Reaches visit s t) : rank s ≤ rank t := by
  induction h with
  | refl => exact le_rfl
  | tail _ hstep ih =>
      have := graded _ _ hstep
      omega

def Stops (visit : σ → Visit σ β) (t : σ) (result : β) : Prop := visit t = .stop result

/-! ## The loop invariant -/

/-- The queue is ascending in rank and spans at most two ranks; everything seen
is reachable, and everything seen but no longer queued is expanded into the
seen set. -/
structure Frontier (visit : σ → Visit σ β) (rank : σ → ℕ) (start : σ)
    (queue : List σ) (seen : Finset σ) : Prop where
  start_seen : start ∈ seen
  reach : ∀ s ∈ seen, Reaches visit start s
  queue_seen : ∀ s ∈ queue, s ∈ seen
  closed : ∀ s ∈ seen, s ∉ queue → ∃ successors, visit s = .expand successors ∧ successors ⊆ seen
  sorted : queue.Pairwise fun s t => rank s ≤ rank t
  spread : ∀ s ∈ queue, ∀ t ∈ queue, rank t ≤ rank s + 1

theorem Frontier.init (visit : σ → Visit σ β) (rank : σ → ℕ) (start : σ) :
    Frontier visit rank start [start] {start} := by
  constructor <;> simp
  exact Relation.ReflTransGen.refl

/-- A reachable state is already expanded, or the path to it passes a queued state. -/
theorem Frontier.cut {visit : σ → Visit σ β} {rank : σ → ℕ} {start : σ} {queue : List σ}
    {seen : Finset σ} (h : Frontier visit rank start queue seen) {t : σ}
    (ht : Reaches visit start t) :
    (t ∈ seen ∧ t ∉ queue) ∨ ∃ q ∈ queue, Reaches visit q t := by
  induction ht with
  | refl =>
      by_cases hq : start ∈ queue
      · exact Or.inr ⟨start, hq, .refl⟩
      · exact Or.inl ⟨h.start_seen, hq⟩
  | @tail b c _ hbc ih =>
      rcases ih with ⟨hb, hbq⟩ | ⟨q, hq, hqb⟩
      · obtain ⟨ts, hv, hsub⟩ := h.closed b hb hbq
        obtain ⟨ts', hv', hc⟩ := hbc
        rw [hv] at hv'
        cases hv'
        by_cases hcq : c ∈ queue
        · exact Or.inr ⟨c, hcq, .refl⟩
        · exact Or.inl ⟨hsub hc, hcq⟩
      · exact Or.inr ⟨q, hq, hqb.tail hbc⟩

theorem Frontier.stop_behind_queue {visit : σ → Visit σ β} {rank : σ → ℕ} {start : σ}
    {queue : List σ} {seen : Finset σ} (h : Frontier visit rank start queue seen) {t : σ}
    {result : β} (ht : Reaches visit start t) (hstop : Stops visit t result) :
    ∃ q ∈ queue, Reaches visit q t := by
  rcases h.cut ht with ⟨hseen, hq⟩ | hq
  · obtain ⟨ts, hv, _⟩ := h.closed t hseen hq
    rw [Stops, hv] at hstop
    cases hstop
  · exact hq

/-! ## The loop -/

variable [DecidableEq σ]

/-- One turn of the loop: it ends, or continues with a new queue and seen set. -/
inductive Turn (σ β : Type*) where
  | done (result : Option β)
  | next (queue : List σ) (seen : Finset σ)

def turn (order : SetOrder σ) (visit : σ → Visit σ β) (n : ℕ) :
    List σ → Finset σ → Turn σ β
  | [], _ => .done none
  | s :: queue, seen =>
      match visit s with
      | .stop result => .done (some result)
      | .expand successors =>
          let fresh := successors \ seen
          .next (queue ++ order.list n fresh) (seen ∪ fresh)

/-- The loop, with `none` for running out of fuel. -/
def search (order : SetOrder σ) (visit : σ → Visit σ β) :
    ℕ → List σ → Finset σ → Option (Option β)
  | 0, _, _ => none
  | fuel + 1, queue, seen =>
      match turn order visit fuel queue seen with
      | .done result => some result
      | .next queue' seen' => search order visit fuel queue' seen'

theorem Frontier.next {visit : σ → Visit σ β} {rank : σ → ℕ} {start : σ}
    (graded : Graded visit rank) {s : σ} {queue : List σ} {seen : Finset σ}
    (h : Frontier visit rank start (s :: queue) seen) {successors : Finset σ}
    (hs : visit s = .expand successors) (order : SetOrder σ) (n : ℕ) :
    Frontier visit rank start (queue ++ order.list n (successors \ seen))
      (seen ∪ (successors \ seen)) := by
  have hsucc : ∀ t ∈ successors, rank t = rank s + 1 := fun t ht =>
    graded s t ⟨successors, hs, ht⟩
  have hhead : ∀ t ∈ queue, rank s ≤ rank t := fun _ ht => List.rel_of_pairwise_cons h.sorted ht
  have hnear : ∀ t ∈ queue, rank t ≤ rank s + 1 := fun t ht =>
    h.spread s (by simp) t (by simp [ht])
  constructor
  · simp [h.start_seen]
  · intro t ht
    rcases Finset.mem_union.mp ht with ht | ht
    · exact h.reach t ht
    · exact (h.reach s (h.queue_seen s (by simp))).tail
        ⟨successors, hs, (Finset.mem_sdiff.mp ht).1⟩
  · intro t ht
    rcases List.mem_append.mp ht with ht | ht
    · exact Finset.mem_union_left _ (h.queue_seen t (by simp [ht]))
    · exact Finset.mem_union_right _ (by simpa using ht)
  · intro t ht hq
    simp only [List.mem_append, SetOrder.mem_list, not_or] at hq
    by_cases hts : t = s
    · subst hts
      refine ⟨successors, hs, fun u hu => ?_⟩
      by_cases hu' : u ∈ seen
      · exact Finset.mem_union_left _ hu'
      · exact Finset.mem_union_right _ (Finset.mem_sdiff.mpr ⟨hu, hu'⟩)
    · rcases Finset.mem_union.mp ht with ht | ht
      · obtain ⟨ts, hv, hsub⟩ := h.closed t ht (by simp [hts, hq.1])
        exact ⟨ts, hv, hsub.trans Finset.subset_union_left⟩
      · exact (hq.2 ht).elim
  · rw [List.pairwise_append]
    refine ⟨h.sorted.of_cons, ?_, ?_⟩
    · refine List.Pairwise.imp_of_mem (R := fun _ _ => True) ?_ (List.pairwise_of_forall (by simp))
      intro t u ht hu _
      simp only [SetOrder.mem_list, Finset.mem_sdiff] at ht hu
      rw [hsucc t ht.1, hsucc u hu.1]
    · intro t ht u hu
      simp only [SetOrder.mem_list, Finset.mem_sdiff] at hu
      rw [hsucc u hu.1]
      exact hnear t ht
  · have hband : ∀ t ∈ queue ++ order.list n (successors \ seen),
        rank s ≤ rank t ∧ rank t ≤ rank s + 1 := by
      intro t ht
      rcases List.mem_append.mp ht with ht | ht
      · exact ⟨hhead t ht, hnear t ht⟩
      · simp only [SetOrder.mem_list, Finset.mem_sdiff] at ht
        have := hsucc t ht.1
        omega
    intro t ht u hu
    have := hband t ht
    have := hband u hu
    omega

/-! ## Outcomes -/

/-- A reported result belongs to a reachable stopping state of least rank. -/
theorem search_least {visit : σ → Visit σ β} {rank : σ → ℕ} (graded : Graded visit rank)
    (order : SetOrder σ) {start : σ} {fuel : ℕ} {queue : List σ} {seen : Finset σ}
    (h : Frontier visit rank start queue seen) {result : β}
    (found : search order visit fuel queue seen = some (some result)) :
    ∃ s, Reaches visit start s ∧ Stops visit s result ∧
      ∀ t result', Reaches visit start t → Stops visit t result' → rank s ≤ rank t := by
  induction fuel generalizing queue seen with
  | zero => simp [search] at found
  | succ fuel ih =>
      cases queue with
      | nil => simp [search, turn] at found
      | cons s queue =>
          cases hv : visit s with
          | stop r =>
              simp only [search, turn, hv, Option.some.injEq] at found
              subst found
              refine ⟨s, h.reach s (h.queue_seen s (by simp)), hv, fun t r' ht hstop => ?_⟩
              obtain ⟨q, hq, hqt⟩ := h.stop_behind_queue ht hstop
              have hsq : rank s ≤ rank q := by
                rcases List.mem_cons.mp hq with rfl | hq
                · exact le_rfl
                · exact List.rel_of_pairwise_cons h.sorted hq
              exact hsq.trans (graded.rank_le hqt)
          | expand successors =>
              simp only [search, turn, hv] at found
              exact ih (h.next graded hv order fuel) found

/-- An exhausted queue means no reachable state stops the search. -/
theorem search_none {visit : σ → Visit σ β} {rank : σ → ℕ} (graded : Graded visit rank)
    (order : SetOrder σ) {start : σ} {fuel : ℕ} {queue : List σ} {seen : Finset σ}
    (h : Frontier visit rank start queue seen)
    (exhausted : search order visit fuel queue seen = some none) (t : σ) (result : β)
    (ht : Reaches visit start t) : ¬ Stops visit t result := by
  induction fuel generalizing queue seen with
  | zero => simp [search] at exhausted
  | succ fuel ih =>
      cases queue with
      | nil =>
          intro hstop
          obtain ⟨q, hq, _⟩ := h.stop_behind_queue ht hstop
          simp at hq
      | cons s queue =>
          cases hv : visit s with
          | stop r => simp [search, turn, hv] at exhausted
          | expand successors =>
              simp only [search, turn, hv] at exhausted
              exact ih (h.next graded hv order fuel) exhausted

/-- The loop ends once its fuel exceeds the queued plus the unseen states of a
finite set that the visits never leave. -/
theorem search_total (order : SetOrder σ) (visit : σ → Visit σ β) (states : Finset σ)
    (stays : ∀ s ∈ states, ∀ t, Succ visit s t → t ∈ states) (fuel : ℕ)
    (queue : List σ) (seen : Finset σ) (hseen : seen ⊆ states)
    (hqueue : ∀ s ∈ queue, s ∈ seen)
    (enough : queue.length + (states \ seen).card < fuel) :
    ∃ result, search order visit fuel queue seen = some result := by
  induction fuel generalizing queue seen with
  | zero => omega
  | succ fuel ih =>
      cases queue with
      | nil => exact ⟨none, by simp [search, turn]⟩
      | cons s queue =>
          cases hv : visit s with
          | stop r => exact ⟨some r, by simp [search, turn, hv]⟩
          | expand successors =>
              have hs : s ∈ states := hseen (hqueue s (by simp))
              have hfresh : successors \ seen ⊆ states \ seen := by
                intro t ht
                rw [Finset.mem_sdiff] at ht ⊢
                exact ⟨stays s hs t ⟨successors, hv, ht.1⟩, ht.2⟩
              have hcount : (states \ (seen ∪ (successors \ seen))).card +
                  (successors \ seen).card = (states \ seen).card := by
                have hsplit : states \ (seen ∪ (successors \ seen)) =
                    (states \ seen) \ (successors \ seen) := by
                  ext t
                  simp only [Finset.mem_sdiff, Finset.mem_union]
                  tauto
                rw [hsplit]
                exact Finset.card_sdiff_add_card_eq_card hfresh
              simp only [search, turn, hv]
              apply ih
              · exact Finset.union_subset hseen (hfresh.trans Finset.sdiff_subset)
              · intro t ht
                rcases List.mem_append.mp ht with ht | ht
                · exact Finset.mem_union_left _ (hqueue t (by simp [ht]))
                · exact Finset.mem_union_right _ (by simpa using ht)
              · simp only [List.length_append, order.length_list]
                simp only [List.length_cons] at enough
                omega

end NsiOrchestrator.Search
