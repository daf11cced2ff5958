import NsiOrchestrator.Mdp2p.Fleet
import NsiOrchestrator.Mdp2p.Stranding
import NsiOrchestrator.Mdp2p.Tracking

/-! # The aggregator a circuit talks to

The aggregator proxy is not part of the repository: it is a `Service` here, which may
do anything. What the orchestrator relies on is `Service.Lawful`, a hypothesis of the
results that need it.
-/

namespace NsiOrchestrator.Mdp2p

open Outcome Forms Vlans Transition

/-- The reservations, and the request that is worked on for a connection. -/
structure Aggregator where
  reservations : List AggregatorReservation
  operations : String → Option Request

def Aggregator.empty : Aggregator := ⟨[], fun _ => none⟩

def Request.outcomes : Request → List String
  | reserve _ | release _ => [ConnectionState.reserved, ConnectionState.failed]
  | provision _ => [ConnectionState.activated, ConnectionState.failed]
  | terminate _ => [ConnectionState.terminated]

def Request.addressee : Request → Option String
  | reserve _ => none
  | provision connectionId | release connectionId => some connectionId
  | terminate connectionId => connectionId

def ReserveBody.criteria (body : ReserveBody) : AggregatorCriteria :=
  ⟨⟨body.p2ps.capacity, body.p2ps.sourceStp, body.p2ps.destStp⟩⟩

def Aggregator.working (a : Aggregator) (connectionId : String) (operation : Option Request) :
    Aggregator :=
  { a with operations := Function.update a.operations connectionId operation }

/-- The aggregator takes a request, and answers a reserve with a connection id. A reserve under a
known global reservation id is answered with the reservation that has it. -/
inductive Aggregator.Receives (a : Aggregator) : Request → String → Aggregator → Prop where
  | reserved {body : ReserveBody} {r : AggregatorReservation} :
      (∀ r' ∈ a.reservations, r'.connectionId ≠ r.connectionId ∧
        r'.globalReservationId ≠ some body.globalReservationId) →
      r.connectionId ≠ "" → r.globalReservationId = some body.globalReservationId →
      r.criteria = some body.criteria → r.status ≠ ConnectionState.terminated →
      Receives a (.reserve body) r.connectionId
        (Aggregator.working ⟨r :: a.reservations, a.operations⟩ r.connectionId
          (some (.reserve body)))
  | deduplicated {body : ReserveBody} {r : AggregatorReservation} : r ∈ a.reservations →
      r.globalReservationId = some body.globalReservationId →
      Receives a (.reserve body) r.connectionId (a.working r.connectionId (some (.reserve body)))
  | addressed {request : Request} {connectionId answer : String} :
      request.addressee = some connectionId →
      Receives a request answer (a.working connectionId (some request))
  | unaddressed {answer : String} : Receives a (.terminate none) answer a

/-- The aggregator knows the connection, and returns its reservation. -/
structure Aggregator.Returns (a : Aggregator) (connectionId : Option String)
    (reservation : AggregatorReservation) : Prop where
  listed : reservation ∈ a.reservations
  connection : connectionId = some reservation.connectionId

/-- The status of a connection is posted as the result of the request that is worked on, which
ends the work on it. -/
structure Aggregator.Posts (a : Aggregator) (connectionId : Option String)
    (result : CallbackResult) (a' : Aggregator) (r : AggregatorReservation) (request : Request) :
    Prop extends a.Returns connectionId r where
  worked : a.operations r.connectionId = some request
  status : result.status = some r.status
  rested : a' = a.working r.connectionId none

/-- What may become of a reservation by itself: a new path, a new error, and while a request is
worked on a new status, which is terminated only when a terminate is. -/
structure Aggregator.Progresses (a : Aggregator) (r r' : AggregatorReservation) : Prop where
  connectionId : r'.connectionId = r.connectionId
  globalReservationId : r'.globalReservationId = r.globalReservationId
  criteria : r'.criteria = r.criteria
  status : r'.status = r.status ∨ ∃ request, a.operations r.connectionId = some request ∧
    (r'.status = ConnectionState.terminated → ConnectionState.terminated ∈ request.outcomes)

def Aggregator.progress (a : Aggregator) (r r' : AggregatorReservation) : Aggregator :=
  { a with reservations := a.reservations.map fun other => if other = r then r' else other }

/-! ## The service -/

/-- How the aggregator starts, how it takes and answers a request, what it returns when it is
read, what it posts to a callback, and what it makes of a reservation by itself. -/
structure Service where
  starts (a : Aggregator) : Prop
  receives (a : Aggregator) (request : Request) (answer : String) (a' : Aggregator) : Prop
  returns (a : Aggregator) (connectionId : Option String) (reservation : AggregatorReservation) :
    Prop
  posts (a : Aggregator) (connectionId : Option String) (result : CallbackResult)
    (a' : Aggregator) : Prop
  moves (a : Aggregator) (r r' : AggregatorReservation) (a' : Aggregator) : Prop

/-- What the orchestrator relies on. It checks none of it. -/
structure Service.Lawful (service : Service) : Prop where
  -- no reservation is made but for the orchestrator: `ignored_connection_ids` is for the others
  starts : ∀ {a}, service.starts a → a.reservations = []
  -- `update_subscription` of retry: "The aggregator dedups on globalReservationId"
  receives : ∀ {a request answer a'}, service.receives a request answer a' →
    a.Receives request answer a'
  -- `get_reservation`: "the current reservation detail"
  returns : ∀ {a connectionId r}, service.returns a connectionId r → a.Returns connectionId r
  -- `aggregator_proxy`: "POSTs the result (the full reservation, with a ... status)"
  posts : ∀ {a connectionId result a'}, service.posts a connectionId result a' →
    ∃ r request, a.Posts connectionId result a' r request
  -- `provision`, `release` and `terminate` of `aggregator_proxy` name the statuses; a terminate
  -- that fails, or the README's "any step able to end in FAILED" of it, is not covered
  concludes : ∀ {a connectionId result a' r request}, service.posts a connectionId result a' →
    a.Posts connectionId result a' r request → r.status ∈ request.outcomes
  -- no connection ends outside the orchestrator, though terminate allows for one that did
  moves : ∀ {a r r' a'}, service.moves a r r' a' →
    r ∈ a.reservations ∧ a.Progresses r r' ∧ a' = a.progress r r'

def Service.Reads (service : Service) (a : Aggregator) (m : Machine) (env : StepEnv) : Prop :=
  ∀ p rest s, m.process = some p → p.remaining = .reconcileConnectionState :: rest →
    m.subscription = some s → service.returns a s.vc.connectionId env.reservation

/-- The service's part in an event of a circuit. A step fails when its request is lost on the way,
or its answer on the way back. -/
inductive Service.Takes (service : Service) (a : Aggregator) (m : Machine) :
    Event → List Request → Aggregator → Prop where
  | started {workflow : Workflow} {run : ℕ} : Takes service a m (.start workflow run) [] a
  | ran {env : StepEnv} : service.Reads a m env → Takes service a m (.run env) [] a
  | sent {env : StepEnv} {request : Request} {a' : Aggregator} :
      service.receives a request env.connectionId a' → Takes service a m (.run env) [request] a'
  | unanswered {env : StepEnv} {request : Request} {answer : String} {a' : Aggregator} :
      service.receives a request answer a' →
      Takes service a m (.failAfterSending env) [request] a'
  | lost {env : StepEnv} {request : Request} :
      Takes service a m (.failAfterSending env) [request] a
  | posted {result : CallbackResult} {s : Subscription} {a' : Aggregator} :
      m.subscription = some s → service.posts a s.vc.connectionId result a' →
      Takes service a m (.callback result) [] a'
  | refired : Takes service a m .refire [] a
  | aborted : Takes service a m .abort [] a

/-! ## The list of reservations -/

/-- Connection ids and global reservation ids are distinct, and every reservation was asked for. -/
structure Listed (reservations : List AggregatorReservation) (sent : List SentReserve) : Prop where
  connections : ∀ r ∈ reservations, ∀ r' ∈ reservations, r.connectionId = r'.connectionId → r = r'
  ids : ∀ r ∈ reservations, ∀ r' ∈ reservations,
    r.globalReservationId = r'.globalReservationId → r = r'
  returned : ∀ r ∈ reservations, r.connectionId ≠ ""
  asked : ∀ r ∈ reservations, ∃ a ∈ sent, r.globalReservationId = some a.body.globalReservationId

@[simp] theorem Aggregator.working_reservations (a : Aggregator) (connectionId : String)
    (operation : Option Request) :
    (a.working connectionId operation).reservations = a.reservations := rfl

@[simp] theorem Aggregator.working_same (a : Aggregator) (connectionId : String)
    (operation : Option Request) :
    (a.working connectionId operation).operations connectionId = operation := by
  simp [working]

theorem Aggregator.working_other {a : Aggregator} {connectionId other : String}
    {operation : Option Request} (h : other ≠ connectionId) :
    (a.working connectionId operation).operations other = a.operations other := by
  simp [working, h]

theorem injective_cons {α β : Type*} {f : α → β} {a : α} {l : List α}
    (hl : ∀ x ∈ l, ∀ y ∈ l, f x = f y → x = y) (hnew : ∀ x ∈ l, f x ≠ f a) :
    ∀ x ∈ a :: l, ∀ y ∈ a :: l, f x = f y → x = y := by
  intro x hx y hy heq
  rcases List.mem_cons.mp hx with hxa | hxl <;> rcases List.mem_cons.mp hy with hya | hyl
  · exact hxa.trans hya.symm
  · exact absurd (heq.symm.trans (congrArg f hxa)) (hnew y hyl)
  · exact absurd (heq.trans (congrArg f hya)) (hnew x hxl)
  · exact hl x hxl y hyl heq

theorem Aggregator.Receives.listed {a a' : Aggregator} {request : Request} {answer : String}
    {sent sent' : List SentReserve} (h : a.Receives request answer a')
    (hlisted : Listed a.reservations sent) (hsubset : sent ⊆ sent')
    (hsent : ∀ body, request = .reserve body → ∃ b ∈ sent', b.body = body) :
    Listed a'.reservations sent' := by
  have hasked : ∀ r ∈ a.reservations,
      ∃ b ∈ sent', r.globalReservationId = some b.body.globalReservationId := by
    intro r hr
    obtain ⟨b, hb, hid⟩ := hlisted.asked r hr
    exact ⟨b, hsubset hb, hid⟩
  cases h with
  | @reserved body r hnew hreturned hid _ _ =>
      simp only [working_reservations]
      refine ⟨?_, ?_, ?_, ?_⟩
      · exact injective_cons hlisted.connections fun q hq => (hnew q hq).1
      · exact injective_cons hlisted.ids fun q hq => hid ▸ (hnew q hq).2
      · exact List.forall_mem_cons.mpr ⟨hreturned, hlisted.returned⟩
      · refine List.forall_mem_cons.mpr ⟨?_, hasked⟩
        obtain ⟨b, hb, rfl⟩ := hsent body rfl
        exact ⟨b, hb, hid⟩
  | _ => exact ⟨hlisted.connections, hlisted.ids, hlisted.returned, hasked⟩

/-- A request of a circuit concerns the reservation under its id only. -/
theorem Aggregator.Receives.frame {a a' : Aggregator} {request : Request} {answer id : String}
    {sent : List SentReserve} (h : a.Receives request answer a')
    (hlisted : Listed a.reservations sent)
    (hreserve : ∀ body, request = .reserve body → body.globalReservationId = id)
    (haddressee : ∀ c, request.addressee = some c →
      ∃ r ∈ a.reservations, r.connectionId = c ∧ r.globalReservationId = some id) :
    a.reservations ⊆ a'.reservations ∧ ∀ r ∈ a'.reservations,
      (r ∈ a.reservations ∧ a'.operations r.connectionId = a.operations r.connectionId) ∨
        r.globalReservationId = some id := by
  have hworking : ∀ {q : AggregatorReservation} {operation}, q ∈ a.reservations →
      q.globalReservationId = some id → ∀ r ∈ a.reservations,
        (r ∈ a.reservations ∧
          (a.working q.connectionId operation).operations r.connectionId =
            a.operations r.connectionId) ∨ r.globalReservationId = some id := by
    intro q operation hq hid r hr
    by_cases heq : r.connectionId = q.connectionId
    · exact .inr (hlisted.connections r hr q hq heq ▸ hid)
    · exact .inl ⟨hr, working_other heq⟩
  cases h with
  | @reserved body r hnew _ hid =>
      rw [hreserve body rfl] at hid
      refine ⟨List.subset_cons_self _ _, fun q hq => ?_⟩
      rcases List.mem_cons.mp hq with rfl | hq
      · exact .inr hid
      · exact .inl ⟨hq, working_other (hnew q hq).1⟩
  | @deduplicated body r hr hid =>
      rw [hreserve body rfl] at hid
      exact ⟨List.Subset.refl _, hworking hr hid⟩
  | addressed hto =>
      obtain ⟨q, hq, rfl, hid⟩ := haddressee _ hto
      exact ⟨List.Subset.refl _, hworking hq hid⟩
  | unaddressed => exact ⟨List.Subset.refl _, fun r hr => .inl ⟨hr, rfl⟩⟩

theorem Aggregator.Receives.answer {a a' : Aggregator} {body : ReserveBody} {answer : String}
    (h : a.Receives (.reserve body) answer a') :
    ∃ r ∈ a'.reservations, r.connectionId = answer ∧
      r.globalReservationId = some body.globalReservationId := by
  cases h with
  | reserved _ _ hid => exact ⟨_, List.mem_cons_self, rfl, hid⟩
  | deduplicated hr hid => exact ⟨_, hr, rfl, hid⟩
  | addressed hto => cases hto

theorem Aggregator.Receives.criteria {a a' : Aggregator} {body : ReserveBody} {answer : String}
    (h : a.Receives (.reserve body) answer a')
    (hbefore : ∀ r ∈ a.reservations,
      r.globalReservationId = some body.globalReservationId → r.criteria = some body.criteria) :
    ∀ r ∈ a'.reservations,
      r.globalReservationId = some body.globalReservationId →
        r.criteria = some body.criteria := by
  cases h with
  | reserved _ _ _ hcriteria => exact List.forall_mem_cons.mpr ⟨fun _ => hcriteria, hbefore⟩
  | deduplicated => exact hbefore
  | addressed hto => cases hto

theorem Aggregator.Receives.reservations_eq {a a' : Aggregator} {request : Request}
    {answer : String} (h : a.Receives request answer a')
    (hrequest : ∀ body, request ≠ .reserve body) : a'.reservations = a.reservations := by
  cases h with
  | reserved | deduplicated => exact absurd rfl (hrequest _)
  | _ => rfl

theorem Aggregator.Progresses.listed {a : Aggregator} {r r' : AggregatorReservation}
    {sent : List SentReserve} (h : a.Progresses r r') (hlisted : Listed a.reservations sent) :
    Listed (a.progress r r').reservations sent := by
  have hconnection : ∀ q, (if q = r then r' else q).connectionId = q.connectionId := by
    intro q
    split
    · next hq => rw [h.connectionId, hq]
    · rfl
  have hid : ∀ q, (if q = r then r' else q).globalReservationId = q.globalReservationId := by
    intro q
    split
    · next hq => rw [h.globalReservationId, hq]
    · rfl
  simp only [progress]
  refine ⟨?_, ?_, ?_, ?_⟩
  · simp only [List.forall_mem_map, hconnection]
    intro q hq q' hq' heq
    rw [hlisted.connections q hq q' hq' heq]
  · simp only [List.forall_mem_map, hid]
    intro q hq q' hq' heq
    rw [hlisted.ids q hq q' hq' heq]
  · simp only [List.forall_mem_map, hconnection]
    exact hlisted.returned
  · simp only [List.forall_mem_map, hid]
    exact hlisted.asked

end NsiOrchestrator.Mdp2p
