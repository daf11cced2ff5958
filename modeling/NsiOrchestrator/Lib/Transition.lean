import Mathlib.Logic.Relation
import Mathlib.Order.Basic

/-! # Transition systems and plans

Runs of a labelled transition system, with the invariant rule. A plan is a list of
tasks still to be done in order: it is sound from a state when every task finds its
precondition, whatever states the tasks before it leave behind.
-/

namespace NsiOrchestrator.Transition

structure System (σ ε : Type*) where
  init : σ → Prop
  step : σ → ε → σ → Prop

variable {σ ε τ : Type*}

namespace System

inductive Reachable (S : System σ ε) : σ → Prop where
  | init {s : σ} : S.init s → Reachable S s
  | step {s t : σ} {e : ε} : Reachable S s → S.step s e t → Reachable S t

/-- The steps that meet a condition. -/
def restrict (S : System σ ε) (condition : σ → ε → Prop) : System σ ε where
  init := S.init
  step s e t := condition s e ∧ S.step s e t

theorem Reachable.invariant {S : System σ ε} {P : σ → Prop} (hinit : ∀ s, S.init s → P s)
    (hstep : ∀ s e t, P s → S.step s e t → P t) {s : σ} (h : S.Reachable s) : P s := by
  induction h with
  | init h => exact hinit _ h
  | step _ h ih => exact hstep _ _ _ ih h

theorem Reachable.of_restrict {S : System σ ε} {condition : σ → ε → Prop} {s : σ}
    (h : (S.restrict condition).Reachable s) : S.Reachable s := by
  induction h with
  | init h => exact .init h
  | step _ h ih => exact .step ih h.2

theorem Reachable.restrict {S : System σ ε} {condition : σ → ε → Prop} {s : σ}
    (hcondition : ∀ s e, condition s e) (h : S.Reachable s) :
    (S.restrict condition).Reachable s := by
  induction h with
  | init h => exact .init h
  | step _ h ih => exact .step ih ⟨hcondition _ _, h⟩

/-- A system whose steps include those of a partial function reaches what the function does. -/
theorem Reachable.foldlM {S : System σ ε} {next : σ → ε → Option σ}
    {events : List ε} (hnext : ∀ e ∈ events, ∀ s t, next s e = some t → S.step s e t) {s t : σ}
    (hs : S.Reachable s) (h : events.foldlM next s = some t) : S.Reachable t := by
  induction events generalizing s with
  | nil =>
      cases h
      exact hs
  | cons e events ih =>
      rw [List.foldlM_cons] at h
      obtain ⟨u, hu, h⟩ := Option.bind_eq_some_iff.mp h
      exact ih (fun e he => hnext e (List.mem_cons_of_mem _ he))
        (.step hs (hnext e List.mem_cons_self _ _ hu)) h

theorem Reachable.runs {S : System σ ε} {R : σ → σ → Prop}
    (hsteps : ∀ s t, R s t → ∃ e, S.step s e t) {s t : σ} (h : S.Reachable s)
    (hrun : Relation.ReflTransGen R s t) : S.Reachable t := by
  induction hrun with
  | refl => exact h
  | tail _ hstep ih =>
      obtain ⟨e, he⟩ := hsteps _ _ hstep
      exact .step ih he

/-- A view of the states under which every step is a step of another system, or nothing. -/
theorem Reachable.project {δ : Type*} {S : System σ ε} {T : System τ δ} {v : σ → τ}
    (hinit : ∀ s, S.init s → T.init (v s))
    (hstep : ∀ s e t, S.step s e t → v t = v s ∨ ∃ d, T.step (v s) d (v t)) {s : σ}
    (h : S.Reachable s) : T.Reachable (v s) := by
  induction h with
  | init h => exact .init (hinit _ h)
  | step _ h ih =>
      obtain heq | ⟨d, hd⟩ := hstep _ _ _ h
      · exact heq ▸ ih
      · exact .step ih hd

end System

/-! ## Runs that get somewhere -/

section Plan

variable (pre : τ → σ → Prop) (post : τ → σ → σ → Prop)

def Plan : List τ → σ → Prop
  | [], _ => True
  | task :: rest, s => pre task s ∧ ∀ t, post task s t → Plan rest t

variable {pre post}

theorem Plan.head {task : τ} {rest : List τ} {s : σ} (h : Plan pre post (task :: rest) s) :
    pre task s := h.1

theorem Plan.next {task : τ} {rest : List τ} {s t : σ} (h : Plan pre post (task :: rest) s)
    (hpost : post task s t) : Plan pre post rest t := h.2 t hpost

/-- A state that the first task cannot tell from another has the same plan. -/
theorem Plan.move {task : τ} {rest : List τ} {s s' : σ} (h : Plan pre post (task :: rest) s)
    (hpre : pre task s') (hpost : ∀ t, post task s' t → post task s t) :
    Plan pre post (task :: rest) s' :=
  ⟨hpre, fun t ht => h.2 t (hpost t ht)⟩

end Plan

end NsiOrchestrator.Transition
