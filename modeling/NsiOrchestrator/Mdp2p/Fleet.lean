import NsiOrchestrator.Mdp2p.Storing
import Mathlib.Logic.Function.Basic

/-! # Reserves sent for any set of circuits

Circuits run side by side, with a record of the global reservation ids their runs
assigned and of the reserve requests they sent. A uuid is never drawn twice and every
run has a number of its own.
-/

namespace NsiOrchestrator.Mdp2p

open Outcome Forms Vlans Transition

structure SentReserve where
  run : ℕ
  body : ReserveBody
  deriving DecidableEq, Repr

structure Fleet (ι : Type*) where
  circuits : ι → Machine
  /-- The numbers of the runs started so far. -/
  started : List ℕ
  /-- The uuids drawn so far. -/
  drawn : List String
  /-- The global reservation ids stored so far, with the runs that stored them. -/
  assigned : List (ℕ × String)
  sent : List SentReserve

def Machine.reservationId (m : Machine) : Option String :=
  m.subscription.map (·.vc.globalReservationId)

def Request.reserveBody : Request → Option ReserveBody
  | reserve body => some body
  | _ => none

theorem Request.reserveBodies_nil {requests : List Request}
    (h : ∀ body, .reserve body ∉ requests) : requests.filterMap Request.reserveBody = [] := by
  rw [List.filterMap_eq_nil_iff]
  rintro (body | _ | _ | _) hin
  · exact absurd hin (h body)
  all_goals rfl

section Fleet

variable {ι : Type*} [DecidableEq ι]

/-- Every run has a new number, and every uuid is new. -/
def Fleet.Fresh (f : Fleet ι) : Event → Prop
  | .start _ run => run ∉ f.started
  | .run env => env.uuid ∉ f.drawn
  | _ => True

def Fleet.after (f : Fleet ι) (i : ι) (event : Event) (m : Machine) (requests : List Request) :
    Fleet ι where
  circuits := Function.update f.circuits i m
  started := match event with
    | .start _ run => run :: f.started
    | _ => f.started
  drawn := match event with
    | .run env => env.uuid :: f.drawn
    | _ => f.drawn
  assigned := match (f.circuits i).process, m.reservationId with
    | some p, some id =>
        if (f.circuits i).reservationId = some id then f.assigned else (p.run, id) :: f.assigned
    | _, _ => f.assigned
  sent := match (f.circuits i).process with
    | some p => (requests.filterMap Request.reserveBody).map (⟨p.run, ·⟩) ++ f.sent
    | none => f.sent

def fleet : System (Fleet ι) (ι × Event) where
  init f := f = ⟨fun _ => Machine.blank, [], [], [], []⟩
  step f e f' := f.Fresh e.2 ∧ ∃ m requests,
    (f.circuits e.1).next e.2 = some (.ok (m, requests)) ∧ f' = f.after e.1 e.2 m requests

/-! ## Reserves still to be sent -/

def ReservePending (remaining : List Step) : Prop :=
  (∀ step ∈ remaining, step.stores = none) ∧
    ∃ condition ero handler, .callbackStep condition (.reserveConnection ero) handler ∈ remaining

def Workflow.ero (workflow : Workflow) : List String :=
  workflow.submission.elim [] fun submission => submission.path.ero

theorem reservePending_cons {workflow : Workflow} {condition : Condition} {ero : List String}
    {handler : Handler} {rest : List Step}
    (h : .callbackStep condition (.reserveConnection ero) handler :: rest <:+ workflow.steps) :
    ero = workflow.ero ∧
      ReservePending (.callbackStep condition (.reserveConnection ero) handler :: rest) := by
  obtain ⟨submission, hsubmission, rfl, rfl, rfl, rfl⟩ := Workflow.reserve_step h
  refine ⟨by rw [Workflow.ero, hsubmission]; rfl, ?_, _, _, _, List.mem_cons_self⟩
  simp [Step.stores]

/-! ## The invariant -/

/-- Every id was drawn by the one run that stored it, no two circuits store the same one, and a
reserve still to be sent agrees with those sent under its id. -/
structure Sound (f : Fleet ι) : Prop where
  drawn : ∀ run id, (run, id) ∈ f.assigned → ∃ uuid ∈ f.drawn, id = globalReservationId uuid
  once : ∀ run run' id, (run, id) ∈ f.assigned → (run', id) ∈ f.assigned → run = run'
  stored : ∀ i id, (f.circuits i).reservationId = some id → ∃ run, (run, id) ∈ f.assigned
  apart : ∀ i j id, (f.circuits i).reservationId = some id →
    (f.circuits j).reservationId = some id → i = j
  suffix : ∀ i p, (f.circuits i).process = some p → p.remaining <:+ p.workflow.steps
  pending : ∀ i p, (f.circuits i).process = some p → ReservePending p.remaining →
    ∃ s, (f.circuits i).subscription = some s ∧ (p.run, s.vc.globalReservationId) ∈ f.assigned ∧
      ∀ a ∈ f.sent, a.body.globalReservationId = s.vc.globalReservationId →
        a.body.p2ps = (reserveRequest p.workflow.ero s.vc).p2ps
  owned : ∀ a ∈ f.sent, (a.run, a.body.globalReservationId) ∈ f.assigned
  same : ∀ a ∈ f.sent, ∀ b ∈ f.sent, a.body.globalReservationId = b.body.globalReservationId →
    a.body.p2ps = b.body.p2ps

theorem KeepsInput.reservationId {m m' : Machine}
    (h : KeepsInput m.subscription m'.subscription) : m'.reservationId = m.reservationId := by
  cases hs : m.subscription with
  | none =>
      cases ht : m'.subscription with
      | none => rw [Machine.reservationId, Machine.reservationId, hs, ht]
      | some t => rw [hs, ht] at h; cases h
  | some s =>
      obtain ⟨t, ht, hsame⟩ := h.exists_after hs
      simp [Machine.reservationId, hs, ht, hsame.id]

theorem Continues.pending {m m' : Machine} {event : Event} (h : Continues m event m') {p' : Process}
    (hp' : m'.process = some p') (hsuffix : p'.remaining <:+ p'.workflow.steps)
    (hpending : ReservePending p'.remaining) :
    ∃ p, m.process = some p ∧ p'.run = p.run ∧ p'.workflow = p.workflow ∧
      ReservePending p.remaining := by
  obtain ⟨hpast, condition, ero, handler, hin⟩ := hpending
  obtain ⟨before, after, heq⟩ := List.append_of_mem hin
  obtain ⟨submission, hsubmission, _⟩ :=
    Workflow.reserve_step ((heq ▸ List.suffix_append before _).trans hsuffix)
  obtain ⟨p, hp, hrun, hworkflow, hsubset, hpast⟩ := h.past hp' hsubmission hpast
  exact ⟨p, hp, hrun, hworkflow, hpast, condition, ero, handler, hsubset hin⟩

theorem Fleet.after_circuits (f : Fleet ι) (i : ι) (event : Event) (m : Machine)
    (requests : List Request) (j : ι) :
    (f.after i event m requests).circuits j = if j = i then m else f.circuits j := by
  simp [Fleet.after, Function.update_apply]

theorem Fleet.drawn_subset (f : Fleet ι) (i : ι) (event : Event) (m : Machine)
    (requests : List Request) : f.drawn ⊆ (f.after i event m requests).drawn := by
  intro uuid h
  unfold Fleet.after
  dsimp only
  split
  · exact List.mem_cons_of_mem _ h
  · exact h

theorem Fleet.after_assigned (f : Fleet ι) {i : ι} (event : Event) {m : Machine}
    (requests : List Request) (h : m.reservationId = (f.circuits i).reservationId) :
    (f.after i event m requests).assigned = f.assigned := by
  unfold Fleet.after
  dsimp only
  split
  · next hid => rw [if_pos (h ▸ hid)]
  · rfl

theorem Fleet.after_reservationId (f : Fleet ι) {i : ι} (event : Event) {m : Machine}
    (requests : List Request) (h : m.reservationId = (f.circuits i).reservationId) (j : ι) :
    ((f.after i event m requests).circuits j).reservationId = (f.circuits j).reservationId := by
  rw [Fleet.after_circuits]
  split
  · next hj => rw [h, hj]
  · rfl

theorem Sound.kept {f : Fleet ι} (hsound : Sound f) {i : ι} {event : Event} {m : Machine}
    {requests : List Request} (hkeeps : KeepsInput (f.circuits i).subscription m.subscription)
    (hcontinues : Continues (f.circuits i) event m)
    (howned : ∀ a ∈ (f.after i event m requests).sent,
      (a.run, a.body.globalReservationId) ∈ f.assigned)
    (hsame : ∀ a ∈ (f.after i event m requests).sent, ∀ b ∈ (f.after i event m requests).sent,
      a.body.globalReservationId = b.body.globalReservationId → a.body.p2ps = b.body.p2ps)
    (hpending : ∀ j p s, (f.circuits j).process = some p → ReservePending p.remaining →
      (f.circuits j).subscription = some s →
      ∀ a ∈ (f.after i event m requests).sent,
        a.body.globalReservationId = s.vc.globalReservationId →
          a.body.p2ps = (reserveRequest p.workflow.ero s.vc).p2ps) :
    Sound (f.after i event m requests) := by
  have hassigned := f.after_assigned event requests hkeeps.reservationId
  have hids := f.after_reservationId event requests hkeeps.reservationId
  refine ⟨?_, ?_, ?_, ?_, ?_, ?_, ?_, hsame⟩
  · intro run id hin
    obtain ⟨uuid, huuid, hid⟩ := hsound.drawn run id (hassigned ▸ hin)
    exact ⟨uuid, f.drawn_subset i event m requests huuid, hid⟩
  · rw [hassigned]
    exact hsound.once
  · intro j id hid
    rw [hassigned]
    exact hsound.stored j id (hids j ▸ hid)
  · intro j k id hj hk
    exact hsound.apart j k id (hids j ▸ hj) (hids k ▸ hk)
  · intro j p hp
    rw [Fleet.after_circuits] at hp
    split at hp
    · exact hcontinues.suffix (hsound.suffix i) hp
    · exact hsound.suffix j p hp
  · intro j p hp hreserve
    rw [Fleet.after_circuits] at hp ⊢
    rw [hassigned]
    split at hp
    · next hj =>
        obtain ⟨q, hq, hrun, hworkflow, hq'⟩ :=
          hcontinues.pending hp (hcontinues.suffix (hsound.suffix i) hp) hreserve
        obtain ⟨s, hs, hin, _⟩ := hsound.pending i q hq hq'
        obtain ⟨t, ht, hinput⟩ := hkeeps.exists_after hs
        refine ⟨t, by simp [hj, ht], hrun ▸ hinput.id ▸ hin, fun a ha haid => ?_⟩
        rw [hworkflow, hinput.p2ps]
        exact hpending i q s hq hq' hs a ha (haid.trans hinput.id)
    · next hj =>
        obtain ⟨s, hs, hin, _⟩ := hsound.pending j p hp hreserve
        exact ⟨s, by simp [hj, hs], hin, hpending j p s hp hreserve hs⟩
  · rw [hassigned]
    exact howned

/-- A reserve that is sent agrees with those sent before under its id. -/
theorem Sound.sent {f : Fleet ι} (hsound : Sound f) {i : ι} {event : Event} {m : Machine}
    (hkeeps : KeepsInput (f.circuits i).subscription m.subscription)
    (hcontinues : Continues (f.circuits i) event m) {p : Process} {condition : Condition}
    {ero : List String} {handler : Handler} {rest : List Step} {s : Subscription}
    (hp : (f.circuits i).process = some p) (hs : (f.circuits i).subscription = some s)
    (hremaining : p.remaining = .callbackStep condition (.reserveConnection ero) handler :: rest) :
    Sound (f.after i event m [.reserve (reserveRequest ero s.vc)]) := by
  have hsent : (f.after i event m [.reserve (reserveRequest ero s.vc)]).sent =
      ⟨p.run, reserveRequest ero s.vc⟩ :: f.sent := by
    simp [Fleet.after, hp, Request.reserveBody]
  obtain ⟨hero, hreserve⟩ := reservePending_cons (hremaining ▸ hsound.suffix i p hp)
  obtain ⟨s', hs', howned, hagrees⟩ := hsound.pending i p hp (hremaining ▸ hreserve)
  obtain rfl : s' = s := Option.some.inj (hs'.symm.trans hs)
  subst hero
  refine hsound.kept hkeeps hcontinues ?_ ?_ ?_
  · rw [hsent]
    rintro a ha
    rcases List.mem_cons.mp ha with rfl | ha
    · exact howned
    · exact hsound.owned a ha
  · rw [hsent]
    intro a ha b hb hab
    rcases List.mem_cons.mp ha with rfl | ha <;> rcases List.mem_cons.mp hb with rfl | hb
    · rfl
    · exact (hagrees b hb hab.symm).symm
    · exact hagrees a ha hab
    · exact hsound.same a ha b hb hab
  · rw [hsent]
    intro j q t hq hpending ht a ha hid
    obtain ⟨t', ht', _, hagrees'⟩ := hsound.pending j q hq hpending
    obtain rfl : t' = t := Option.some.inj (ht'.symm.trans ht)
    rcases List.mem_cons.mp ha with rfl | ha
    · obtain rfl : i = j := by
        refine hsound.apart i j _ ?_ (by rw [Machine.reservationId, ht]; rfl)
        rw [Machine.reservationId, hs]
        exact congrArg some hid
      obtain rfl : p = q := Option.some.inj (hp.symm.trans hq)
      obtain rfl : s' = t' := Option.some.inj (hs.symm.trans ht)
      rfl
    · exact hagrees' a ha hid

section Fresh

variable {f : Fleet ι} {uuid : String}

omit [DecidableEq ι]

theorem Sound.unassigned (hsound : Sound f) (hfresh : uuid ∉ f.drawn) (run : ℕ) :
    (run, globalReservationId uuid) ∉ f.assigned := by
  intro hin
  obtain ⟨uuid', huuid, heq⟩ := hsound.drawn run _ hin
  exact hfresh (globalReservationId_injective heq ▸ huuid)

theorem Sound.unstored (hsound : Sound f) (hfresh : uuid ∉ f.drawn) (i : ι) :
    (f.circuits i).reservationId ≠ some (globalReservationId uuid) := by
  intro h
  obtain ⟨run, hin⟩ := hsound.stored i _ h
  exact hsound.unassigned hfresh run hin

theorem Sound.unsent (hsound : Sound f) (hfresh : uuid ∉ f.drawn) :
    ∀ a ∈ f.sent, a.body.globalReservationId ≠ globalReservationId uuid := by
  intro a ha heq
  exact hsound.unassigned hfresh a.run (heq ▸ hsound.owned a ha)

end Fresh

theorem Sound.stored_new {f : Fleet ι} (hsound : Sound f) {i : ι} {env : StepEnv}
    (hfresh : env.uuid ∉ f.drawn) {p : Process} {s : Subscription}
    (hp : (f.circuits i).process = some p)
    (hid : s.vc.globalReservationId = globalReservationId env.uuid) :
    Sound (f.after i (.run env) ⟨some s, p.advance⟩ []) := by
  have hnew := hsound.unassigned hfresh
  have hunstored := hsound.unstored hfresh
  have hunsent := hsound.unsent hfresh
  rw [← hid] at hnew hunstored hunsent
  have hassigned : (f.after i (.run env) ⟨some s, p.advance⟩ []).assigned =
      (p.run, s.vc.globalReservationId) :: f.assigned := by
    have hid' : Machine.reservationId ⟨some s, p.advance⟩ = some s.vc.globalReservationId := rfl
    simp [Fleet.after, hp, hid', hunstored i]
  have hsent : (f.after i (.run env) ⟨some s, p.advance⟩ []).sent = f.sent := by
    simp [Fleet.after, hp]
  refine ⟨?_, ?_, ?_, ?_, ?_, ?_, ?_, ?_⟩
  · rw [hassigned]
    intro run id hin
    rcases List.mem_cons.mp hin with heq | hin
    · cases heq
      exact ⟨env.uuid, List.mem_cons_self, hid⟩
    · obtain ⟨uuid, huuid, heq⟩ := hsound.drawn run id hin
      exact ⟨uuid, List.mem_cons_of_mem _ huuid, heq⟩
  · rw [hassigned]
    intro run run' id hin hin'
    rcases List.mem_cons.mp hin with heq | hin <;> rcases List.mem_cons.mp hin' with heq' | hin'
    · exact (Prod.mk.inj heq).1.trans (Prod.mk.inj heq').1.symm
    · cases heq
      exact absurd hin' (hnew run')
    · cases heq'
      exact absurd hin (hnew run)
    · exact hsound.once run run' id hin hin'
  · rw [hassigned]
    intro j id hj
    rw [Fleet.after_circuits] at hj
    split at hj
    · cases hj
      exact ⟨p.run, List.mem_cons_self⟩
    · obtain ⟨run, hin⟩ := hsound.stored j id hj
      exact ⟨run, List.mem_cons_of_mem _ hin⟩
  · intro j k id hj hk
    rw [Fleet.after_circuits] at hj hk
    split at hj <;> split at hk
    · next hj' hk' => exact hj'.trans hk'.symm
    · cases hj
      exact absurd hk (hunstored k)
    · cases hk
      exact absurd hj (hunstored j)
    · exact hsound.apart j k id hj hk
  · intro j q hq
    rw [Fleet.after_circuits] at hq
    split at hq
    · have hadvanced := p.advance_eq_some hq
      rw [hadvanced.remaining, hadvanced.workflow]
      exact (List.tail_suffix _).trans (hsound.suffix i p hp)
    · exact hsound.suffix j q hq
  · rw [hassigned, hsent]
    intro j q hq hpending
    rw [Fleet.after_circuits] at hq ⊢
    split at hq
    · next hj =>
        refine ⟨s, by simp [hj], ?_, fun a ha hid => absurd hid (hunsent a ha)⟩
        rw [(p.advance_eq_some hq).run]
        exact List.mem_cons_self
    · next hj =>
        obtain ⟨t, ht, hin, hagrees⟩ := hsound.pending j q hq hpending
        exact ⟨t, by simp [hj, ht], List.mem_cons_of_mem _ hin, hagrees⟩
  · rw [hassigned, hsent]
    exact fun a ha => List.mem_cons_of_mem _ (hsound.owned a ha)
  · rw [hsent]
    exact hsound.same

theorem Sound.step {f f' : Fleet ι} {e : ι × Event} (hsound : Sound f) (h : fleet.step f e f') :
    Sound f' := by
  obtain ⟨i, event⟩ := e
  obtain ⟨hfresh, m, requests, hnext, rfl⟩ := h
  dsimp only at hnext hfresh ⊢
  cases Effect.of_fires (fires_of_next hnext) with
  | kept hkeeps hcontinues hnone =>
      have hsent : (f.after i event m requests).sent = f.sent := by
        unfold Fleet.after
        dsimp only
        split
        · rw [Request.reserveBodies_nil hnone, List.map_nil, List.nil_append]
        · rfl
      refine hsound.kept hkeeps hcontinues (hsent ▸ hsound.owned) (hsent ▸ hsound.same) ?_
      rw [hsent]
      intro j p s hp hpending hs
      obtain ⟨s', hs', _, hagrees⟩ := hsound.pending j p hp hpending
      obtain rfl : s' = s := Option.some.inj (hs'.symm.trans hs)
      exact hagrees
  | stored hp _ _ _ hid => exact hsound.stored_new hfresh hp hid
  | reserved hkeeps hcontinues hp hs hremaining =>
      exact hsound.sent hkeeps hcontinues hp hs hremaining

/-- Two reserves sent under one global reservation id ask for the same criteria, and the id was
stored and sent by a single run. -/
theorem reserves_idempotent {f : Fleet ι} (h : fleet.Reachable f) :
    (∀ a ∈ f.sent, ∀ b ∈ f.sent, a.body.globalReservationId = b.body.globalReservationId →
      a.body.p2ps = b.body.p2ps) ∧
    ∀ a ∈ f.sent,
      (∀ run, (run, a.body.globalReservationId) ∈ f.assigned → run = a.run) ∧
      ∀ b ∈ f.sent, b.body.globalReservationId = a.body.globalReservationId → b.run = a.run := by
  have hsound : Sound f := by
    refine h.invariant (P := Sound) ?_ fun _ _ _ => Sound.step
    rintro _ rfl
    exact
      { drawn := fun _ _ h => nomatch h
        once := fun _ _ _ h => nomatch h
        stored := fun _ _ h => nomatch h
        apart := fun _ _ _ h => nomatch h
        suffix := fun _ _ h => nomatch h
        pending := fun _ _ h => nomatch h
        owned := fun _ h => nomatch h
        same := fun _ h => nomatch h }
  refine ⟨hsound.same, fun a ha => ⟨fun run hin => ?_, fun b hb hid => ?_⟩⟩
  · exact hsound.once _ _ _ hin (hsound.owned a ha)
  · exact hsound.once _ _ _ (hid ▸ hsound.owned b hb) (hsound.owned a ha)

end Fleet

/-! ## A reserve of the line's circuit that is sent twice -/

instance (f : Fleet Unit) (event : Event) : Decidable (f.Fresh event) := by
  cases event <;> unfold Fleet.Fresh <;> infer_instance

def Fleet.fire (f : Fleet Unit) (e : Unit × Event) : Option (Fleet Unit) :=
  match (f.circuits e.1).next e.2 with
  | some (.ok (m, requests)) => if f.Fresh e.2 then some (f.after e.1 e.2 m requests) else none
  | _ => none

/-- A create whose first try to reserve fails after the request was sent. -/
def lineReserves : List (Unit × Event) :=
  [((), .start (.create lineSubmission) 0), ((), .run lineEnv), ((), .failAfterSending lineEnv),
    ((), .run { lineEnv with uuid := "2" })]

theorem fleet_of_fire {f f' : Fleet Unit} {e : Unit × Event} (h : f.fire e = some f') :
    fleet.step f e f' := by
  unfold Fleet.fire at h
  split at h
  · next m requests hnext =>
      simp only [Option.ite_none_right_eq_some] at h
      exact ⟨h.1, m, requests, hnext, (Option.some.inj h.2).symm⟩
  · cases h

theorem reserves_idempotent_line :
    ∃ f ∈ lineReserves.foldlM Fleet.fire ⟨fun _ => Machine.blank, [], [], [], []⟩,
      f.sent.length = 2 ∧
      (∀ a ∈ f.sent, ∀ b ∈ f.sent, a.body.globalReservationId = b.body.globalReservationId →
        a.body.p2ps = b.body.p2ps) ∧
      ∀ a ∈ f.sent,
        (∀ run, (run, a.body.globalReservationId) ∈ f.assigned → run = a.run) ∧
        ∀ b ∈ f.sent, b.body.globalReservationId = a.body.globalReservationId → b.run = a.run := by
  have hsome : (lineReserves.foldlM Fleet.fire
      ⟨fun _ => Machine.blank, [], [], [], []⟩).isSome := by
    decide +kernel
  have hlength : ∀ f ∈ lineReserves.foldlM Fleet.fire ⟨fun _ => Machine.blank, [], [], [], []⟩,
      f.sent.length = 2 := by
    decide +kernel
  obtain ⟨f, hf⟩ := Option.isSome_iff_exists.mp hsome
  have hinit : fleet.Reachable (⟨fun _ => Machine.blank, [], [], [], []⟩ : Fleet Unit) := .init rfl
  exact ⟨f, hf, hlength f hf,
    reserves_idempotent (hinit.foldlM (fun _ _ _ _ => fleet_of_fire) hf)⟩

end NsiOrchestrator.Mdp2p
