import NsiOrchestrator.Forms.Pinning
import NsiOrchestrator.Mdp2p.Reserve

/-! # Validating a circuit against the aggregator

The nightly check compares what a circuit stores with the reservation of its connection.
What a reserve sends is what it compares with, for as long as only the label changes.
-/

namespace NsiOrchestrator.Mdp2p

open Outcome Forms Vlans Transition

/-- `_PATH_HELD_STATES`. -/
def pathHeldStates : List String := [ConnectionState.reserved, ConnectionState.activated]

/-- The pairs the path of the circuit has to hold. -/
def requiredPins (vc : Vc) : Finset StpVlan :=
  if vc.state ∈ pathHeldStates then pinnedSdpVlans (vc.sdpConstraints.map SdpConstraint.toInactive)
  else ∅

/-- The criteria, without which there is nothing to validate the connection against. -/
def returnedCriteria (reservation : AggregatorReservation) : Except PyError AggregatorP2ps :=
  match reservation.criteria with
  | some criteria => .ok criteria.p2ps
  | none =>
      .error (.inconsistentData
        "Aggregator returned no criteria to validate the connection against")

def validateReservation (reservation : AggregatorReservation) (subscription : Subscription) :
    Except PyError Subscription := do
  let vc := subscription.vc
  raiseIf (reservation.status ≠ vc.state) (.inconsistentData
    s!"Aggregator status {reservation.status} does not match stored state {vc.state}")
  raiseIf (reservation.globalReservationId ≠ some vc.globalReservationId) (.inconsistentData
    ("Aggregator global reservation id " ++ reservation.globalReservationId.getD "None" ++
      " does not match stored " ++ vc.globalReservationId))
  let p2ps ← returnedCriteria reservation
  let expectedSource := sapEndpoint vc.saps.1
  let expectedDestination := sapEndpoint vc.saps.2
  raiseIf (p2ps.capacity ≠ vc.serviceSpeed) (.inconsistentData
    s!"Aggregator capacity {p2ps.capacity} does not match stored {vc.serviceSpeed}")
  raiseIf (p2ps.sourceStp ≠ expectedSource) (.inconsistentData
    s!"Aggregator source STP {p2ps.sourceStp} does not match stored {expectedSource}")
  raiseIf (p2ps.destStp ≠ expectedDestination) (.inconsistentData
    s!"Aggregator destination STP {p2ps.destStp} does not match stored {expectedDestination}")
  let held ← reservationsVlanPairs [reservation]
  let missing := byStpAndVlan.list 0 (requiredPins vc \ held)
  raiseIf (missing ≠ []) (.inconsistentData
    ("Aggregator path does not hold the pinned SDP VLAN on: " ++
      ", ".intercalate (missing.map fun pair => s!"{pair.1}?vlan={pair.2}")))
  pure subscription

/-! ## What passes -/

/-- The reservation agrees with what is compared before its path is read. -/
structure Agrees (vc : Vc) (reservation : AggregatorReservation) : Prop where
  status : reservation.status = vc.state
  globalReservationId : reservation.globalReservationId = some vc.globalReservationId
  criteria : reservation.criteria =
    some ⟨⟨vc.serviceSpeed, sapEndpoint vc.saps.1, sapEndpoint vc.saps.2⟩⟩

/-- The reservation agrees with everything the circuit stores. -/
structure Matches (vc : Vc) (reservation : AggregatorReservation) : Prop
    extends Agrees vc reservation where
  path : ∀ pair ∈ requiredPins vc, reservation.Holds pair

theorem returnedCriteria_eq_ok {reservation : AggregatorReservation} {p2ps : AggregatorP2ps} :
    returnedCriteria reservation = .ok p2ps ↔ reservation.criteria = some ⟨p2ps⟩ := by
  unfold returnedCriteria
  cases reservation.criteria with
  | none => simp
  | some c => simp [AggregatorCriteria.ext_iff]

theorem list_eq_nil {order : SetOrder StpVlan} {pairs : Finset StpVlan} :
    order.list 0 pairs = [] ↔ pairs = ∅ := by
  simp only [List.eq_nil_iff_forall_not_mem, SetOrder.mem_list, Finset.eq_empty_iff_forall_notMem]

theorem validateReservation_eq_ok {reservation : AggregatorReservation} {s t : Subscription} :
    validateReservation reservation s = .ok t ↔
      s = t ∧ Matches s.vc reservation ∧
        ∃ pairs, reservationsVlanPairs [reservation] = .ok pairs := by
  have hpath : ∀ {pairs}, reservationsVlanPairs [reservation] = .ok pairs →
      (requiredPins s.vc \ pairs = ∅ ↔ ∀ pair ∈ requiredPins s.vc, reservation.Holds pair) := by
    intro pairs hpairs
    simp only [Finset.sdiff_eq_empty_iff_subset, Finset.subset_iff,
      mem_reservationsVlanPairs hpairs, List.mem_singleton, exists_eq_left]
  simp only [validateReservation, bind_eq_ok, raiseIf_eq_ok, pure_eq_ok, returnedCriteria_eq_ok,
    ne_eq,
    not_not, list_eq_nil]
  constructor
  · rintro ⟨_, hstatus, _, hid, ⟨_, _, _⟩, hcriteria, _, rfl, _, rfl, _, rfl, pairs, hpairs, _,
      hmissing, rfl⟩
    exact ⟨rfl, ⟨⟨hstatus, hid, hcriteria⟩, (hpath hpairs).mp hmissing⟩, pairs, hpairs⟩
  · rintro ⟨rfl, ⟨⟨hstatus, hid, hcriteria⟩, hmatches⟩, pairs, hpairs⟩
    exact ⟨(), hstatus, (), hid, _, hcriteria, (), rfl, (), rfl, (), rfl, pairs, hpairs, (),
      (hpath hpairs).mpr hmatches, rfl⟩

/-- Validation raises for inconsistent data, unless it cannot read a label of a reservation that
agrees with all it compared before. -/
theorem validateReservation_eq_error {reservation : AggregatorReservation} {s : Subscription}
    {e : PyError} (h : validateReservation reservation s = .error e) :
    (∃ message, e = .inconsistentData message) ∨
      Agrees s.vc reservation ∧ reservationsVlanPairs [reservation] = .error e := by
  simp only [validateReservation, bind_eq_error, raiseIf_eq_error, raiseIf_eq_ok, pure_ne_error,
    returnedCriteria_eq_ok, ne_eq, not_not, exists_const, and_false, or_false] at h
  obtain ⟨_, rfl⟩ | ⟨hstatus, ⟨_, rfl⟩ | ⟨hid,
    hnone | ⟨⟨_, _, _⟩, hcriteria, ⟨_, rfl⟩ | ⟨rfl, ⟨_, rfl⟩ |
    ⟨rfl, ⟨_, rfl⟩ | ⟨rfl, hpairs | ⟨_, _, _, rfl⟩⟩⟩⟩⟩⟩⟩ := h
  case inr.inr.inl =>
    unfold returnedCriteria at hnone
    split at hnone
    · cases hnone
    · exact .inl ⟨_, (Except.error.inj hnone).symm⟩
  case inr.inr.inr.inr.inr.inr.inl => exact .inr ⟨⟨hstatus, hid, hcriteria⟩, hpairs⟩
  all_goals exact .inl ⟨_, rfl⟩

theorem validateReservation_disagrees {reservation : AggregatorReservation} {s : Subscription}
    (h : ¬ Agrees s.vc reservation) :
    ∃ message, validateReservation reservation s = .error (.inconsistentData message) := by
  cases hresult : validateReservation reservation s with
  | ok t => exact absurd (validateReservation_eq_ok.mp hresult).2.1.toAgrees h
  | error e =>
      obtain ⟨message, rfl⟩ | ⟨hagrees, _⟩ := validateReservation_eq_error hresult
      · exact ⟨message, rfl⟩
      · exact absurd hagrees h

theorem validateReservation_lacks {reservation : AggregatorReservation} {s : Subscription}
    (hpairs : ∃ pairs, reservationsVlanPairs [reservation] = .ok pairs)
    (h : ¬ ∀ pair ∈ requiredPins s.vc, reservation.Holds pair) :
    ∃ message, validateReservation reservation s = .error (.inconsistentData message) := by
  cases hresult : validateReservation reservation s with
  | ok t => exact absurd (validateReservation_eq_ok.mp hresult).2.1.path h
  | error e =>
      obtain ⟨message, rfl⟩ | ⟨_, herror⟩ := validateReservation_eq_error hresult
      · exact ⟨message, rfl⟩
      · obtain ⟨_, hpairs⟩ := hpairs
        cases herror.symm.trans hpairs

theorem validateReservation_unreadable {reservation : AggregatorReservation} {s : Subscription}
    (hagrees : Agrees s.vc reservation)
    (h : ¬ ∃ pairs, reservationsVlanPairs [reservation] = .ok pairs) :
    ∃ message, validateReservation reservation s = .error (.valueError message) := by
  obtain ⟨hstatus, hid, hcriteria⟩ := hagrees
  cases hpairs : reservationsVlanPairs [reservation] with
  | ok pairs => exact absurd ⟨pairs, hpairs⟩ h
  | error e =>
      obtain ⟨message, rfl⟩ := reservationsVlanPairs_onlyRaises _ _ hpairs
      refine ⟨message, ?_⟩
      simp [validateReservation, returnedCriteria, raiseIf, hstatus, hid, hcriteria, hpairs, bind,
        Except.bind]

/-! ## Echoes of a reserve -/

/-- The reservation repeats what was sent. -/
structure Echoes (body : ReserveBody) (reservation : AggregatorReservation) : Prop where
  status : reservation.status = ConnectionState.reserved
  globalReservationId : reservation.globalReservationId = some body.globalReservationId
  criteria : reservation.criteria =
    some ⟨⟨body.p2ps.capacity, body.p2ps.sourceStp, body.p2ps.destStp⟩⟩

def HoldsPins (constraints : List SdpConstraint) (reservation : AggregatorReservation) : Prop :=
  ∀ c ∈ constraints, ∀ v, c.vlan = some v →
    reservation.Holds (c.sdp.stpIds.1, v) ∧ reservation.Holds (c.sdp.stpIds.2, v)

theorem mem_requiredPins {vc : Vc} (hstate : vc.state = ConnectionState.reserved) {pair : StpVlan} :
    pair ∈ requiredPins vc ↔ ∃ c ∈ included vc, c.vlan = some pair.2 ∧
      (pair.1 = c.sdp.stpIds.1 ∨ pair.1 = c.sdp.stpIds.2) ∧ pair.1 ≠ "" := by
  have hheld : vc.state ∈ pathHeldStates := by
    rw [hstate]
    decide
  rw [requiredPins, if_pos hheld, mem_pinnedSdpVlans]
  simp [included, and_assoc]

theorem HoldsPins.path {vc : Vc} {reservation : AggregatorReservation}
    (hstate : vc.state = ConnectionState.reserved) (h : HoldsPins (included vc) reservation) :
    ∀ pair ∈ requiredPins vc, reservation.Holds pair := by
  rintro ⟨stpId, vlan⟩ hpair
  obtain ⟨c, hc, hvlan, heq, _⟩ := (mem_requiredPins hstate).mp hpair
  obtain ⟨hleft, hright⟩ := h c hc vlan hvlan
  obtain rfl | rfl := heq
  · exact hleft
  · exact hright

theorem holdsPins_of_path {vc : Vc} {reservation : AggregatorReservation}
    (hstate : vc.state = ConnectionState.reserved)
    (hids : ∀ c ∈ included vc, c.sdp.stpIds.1 ≠ "" ∧ c.sdp.stpIds.2 ≠ "")
    (h : ∀ pair ∈ requiredPins vc, reservation.Holds pair) :
    HoldsPins (included vc) reservation := by
  intro c hc v hv
  exact ⟨h _ ((mem_requiredPins hstate).mpr ⟨c, hc, hv, .inl rfl, (hids c hc).1⟩),
    h _ ((mem_requiredPins hstate).mpr ⟨c, hc, hv, .inr rfl, (hids c hc).2⟩)⟩

theorem ends_ne_empty {sdps : Dict String Sdp} (hoffered : EndsOffered sdps)
    {includeSdps : List String} {sdpVlans : SdpVlans} {constraints : List SdpConstraint}
    (h : includeConstraints sdps includeSdps sdpVlans = .ok constraints) :
    ∀ c ∈ constraints, c.sdp.stpIds.1 ≠ "" ∧ c.sdp.stpIds.2 ≠ "" := by
  intro c hc
  obtain ⟨sdpId, _, sdp, hsdp, rfl⟩ := exists_of_forall₂ (includeConstraints_forall₂ h) hc
  obtain ⟨hfirst, hsecond⟩ := hoffered sdpId sdp hsdp
  exact ⟨ne_empty_of_isMember hfirst, ne_empty_of_isMember hsecond⟩

theorem parses_sapEndpoint_iff {stpId : String} {vlan : Int} (hvlan : 1 ≤ vlan) :
    Parses (some (sapEndpoint ⟨toString vlan, stpId⟩)) ↔ ¬ label <:+: stpId.toList := by
  obtain ⟨n, rfl⟩ := Int.eq_ofNat_of_zero_le (le_trans (by decide) hvlan)
  exact parses_labelled_iff

theorem agrees_iff_echoes {vc : Vc} {ero : List String} {reservation : AggregatorReservation}
    (hstate : vc.state = ConnectionState.reserved) :
    Agrees vc reservation ↔ Echoes (reserveRequest ero vc) reservation := by
  constructor
  · rintro ⟨hstatus, hid, hcriteria⟩
    exact ⟨hstatus.trans hstate, hid, hcriteria⟩
  · rintro ⟨hstatus, hid, hcriteria⟩
    exact ⟨hstatus.trans hstate.symm, hid, hcriteria⟩

theorem Echoes.congr {body body' : ReserveBody} {reservation : AggregatorReservation}
    (hid : body'.globalReservationId = body.globalReservationId) (hp2ps : body'.p2ps = body.p2ps) :
    Echoes body' reservation ↔ Echoes body reservation := by
  constructor
  · rintro ⟨hstatus, h, hcriteria⟩
    exact ⟨hstatus, hid ▸ h, hp2ps ▸ hcriteria⟩
  · rintro ⟨hstatus, h, hcriteria⟩
    exact ⟨hstatus, hid ▸ h, hp2ps ▸ hcriteria⟩

theorem pairs_ok_iff {reservation : AggregatorReservation} {p2ps : AggregatorP2ps}
    (hcriteria : reservation.criteria = some ⟨p2ps⟩) :
    (∃ pairs, reservationsVlanPairs [reservation] = .ok pairs) ↔
      Parses (some p2ps.sourceStp) ∧ Parses (some p2ps.destStp) ∧
        ∀ segment ∈ reservation.segments.getD [],
          Parses segment.sourceStp ∧ Parses segment.destStp := by
  rw [reservationsVlanPairs_ok_iff]
  simp only [AggregatorReservation.ends, List.mem_singleton, forall_eq, hcriteria,
    Option.elim_some, List.forall_mem_append, List.forall_mem_flatMap, List.forall_mem_cons]
  exact and_comm.trans and_assoc

/-- The labels validation reads on an echo can be read: no STP id has one of its own, and those of
the segments parse. -/
structure Readable (input : ConnectionInput) (reservation : AggregatorReservation) : Prop where
  source : ¬ label <:+: input.sourceStp.toList
  destination : ¬ label <:+: input.destinationStp.toList
  segments : ∀ segment ∈ reservation.segments.getD [],
    Parses segment.sourceStp ∧ Parses segment.destStp

/-- After a confirmed reserve and any modify runs, validation raises `InconsistentDataError` on a
reservation that is no echo of the reserve. Of an echo that can be read it passes one whose path
holds every pin, and raises the same error on any other. -/
theorem reserve_validates {P : Inventory → Prop} {submission : Submission} {body : ReserveBody}
    {m m' m'' : Machine} {lastError : Option String}
    (hreach : (circuit.restrict fun _ event => FindsInventory P event).Reachable m)
    (haccepted : ∀ p, m.process = some p → p.workflow.Accepted)
    (hround : ReserveRound m m' submission body ⟨some ConnectionState.reserved, lastError⟩)
    (hmodified : Relation.ReflTransGen ModifyStep m' m'') :
    ∃ s inventory constraints, m''.subscription = some s ∧ P inventory ∧
      includeConstraints inventory.sdps submission.input.includeSdps submission.path.sdpVlans =
        .ok constraints ∧
      body.p2ps.capacity = submission.input.serviceSpeed ∧
      body.p2ps.sourceStp =
        s!"{submission.input.sourceStp}?vlan={submission.input.sourceVlan}" ∧
      body.p2ps.destStp =
        s!"{submission.input.destinationStp}?vlan={submission.input.destinationVlan}" ∧
      ∀ reservation : AggregatorReservation,
        (¬ Echoes body reservation →
          ∃ message, validateReservation reservation s = .error (.inconsistentData message)) ∧
        (Echoes body reservation → Readable submission.input reservation →
          (HoldsPins constraints reservation → validateReservation reservation s = .ok s) ∧
          (EndsOffered inventory.sdps → ¬ HoldsPins constraints reservation →
            ∃ message, validateReservation reservation s = .error (.inconsistentData message))) ∧
        (Echoes body reservation → ¬ Readable submission.input reservation →
          ∃ message, validateReservation reservation s = .error (.valueError message)) := by
  have hstoring := storing_of_reachable hreach
  obtain ⟨p, hp, hsubmission⟩ := hround.workflow
  obtain ⟨hsourceVlan, hdestinationVlan⟩ := (haccepted p hp).vlans hsubmission
  obtain ⟨s, hsettled⟩ := hround.settled hstoring
  obtain ⟨⟨t, ht, hinput, hsame⟩, _⟩ := hsettled.relabelled.run hmodified
  obtain ⟨inventory, hP, hstores⟩ := hsettled.stored
  replace hstores := hinput.stores hstores
  have hstate : t.vc.state = ConnectionState.reserved :=
    hsame.trans (hsettled.state.trans (if_pos rfl))
  have hp2ps : body.p2ps = (reserveRequest submission.path.ero t.vc).p2ps := by
    rw [hsettled.body]
    exact (hinput.p2ps _).symm
  have hechoes : ∀ reservation, Agrees t.vc reservation ↔ Echoes body reservation := by
    intro reservation
    rw [hsettled.body]
    exact (agrees_iff_echoes hstate).trans (Echoes.congr hinput.id (hinput.p2ps _))
  have hreadable : ∀ {reservation}, Echoes body reservation →
      ((∃ pairs, reservationsVlanPairs [reservation] = .ok pairs) ↔
        Readable submission.input reservation) := by
    intro reservation hecho
    rw [pairs_ok_iff ((hechoes reservation).mpr hecho).criteria, hstores.source,
      hstores.destination, parses_sapEndpoint_iff hsourceVlan,
      parses_sapEndpoint_iff hdestinationVlan]
    exact ⟨fun ⟨h, h', h''⟩ => ⟨h, h', h''⟩, fun ⟨h, h', h''⟩ => ⟨h, h', h''⟩⟩
  refine ⟨t, inventory, included t.vc, ht, hP, hstores.constraints, ?_, ?_, ?_,
    fun reservation => ⟨fun hdiffers => ?_, fun hecho hread => ⟨fun hpins => ?_, fun hoffered hlacks
      => ?_⟩, fun hecho hunread => ?_⟩⟩
  · rw [hp2ps, ← hstores.speed]
    rfl
  · rw [hp2ps]
    exact congrArg sapEndpoint hstores.source
  · rw [hp2ps]
    exact congrArg sapEndpoint hstores.destination
  · exact validateReservation_disagrees fun hagrees => hdiffers ((hechoes reservation).mp hagrees)
  · exact validateReservation_eq_ok.mpr ⟨rfl,
      ⟨(hechoes reservation).mpr hecho, hpins.path hstate⟩, (hreadable hecho).mpr hread⟩
  · refine validateReservation_lacks ((hreadable hecho).mpr hread) fun hpath => hlacks ?_
    exact holdsPins_of_path hstate (ends_ne_empty hoffered hstores.constraints) hpath
  · exact validateReservation_unreadable ((hechoes reservation).mpr hecho) fun hpairs =>
      hunread ((hreadable hecho).mp hpairs)

/-! ## The line's circuit -/

def lineAt : ℕ → Machine := createAt lineEnv lineSubmission ⟨some ConnectionState.reserved, none⟩

def lineEcho : AggregatorReservation :=
  ⟨"c", "RESERVED", some (globalReservationId "1"), none,
    some ⟨⟨10, "n:n:n:n:n:X:1?vlan=5", "n:n:n:n:n:Y:1?vlan=6"⟩⟩,
    some [⟨none, some "n:n:n:n:n:X:1?vlan=5", some "n:n:n:n:n:X:2?vlan=7"⟩,
      ⟨none, some "n:n:n:n:n:Y:2?vlan=7", some "n:n:n:n:n:Y:1?vlan=6"⟩]⟩

theorem lineRound : ReserveRound (lineAt 2) (lineAt 5) lineSubmission
    ⟨globalReservationId "1", "circuit", ⟨10, "n:n:n:n:n:X:1?vlan=5", "n:n:n:n:n:Y:1?vlan=6",
      some ["n:n:n:n:n:X:2?vlan=7"]⟩⟩ ⟨some ConnectionState.reserved, none⟩ where
  workflow := ⟨⟨0, .create lineSubmission, (lineAt 2).process.elim [] (·.remaining), .ready⟩,
    by decide +kernel, rfl⟩
  round := ⟨lineEnv, lineEnv, lineAt 3, lineAt 4, by decide +kernel, by decide +kernel,
    by decide +kernel⟩

theorem line_holds {reservation : AggregatorReservation}
    (hfirst : some "n:n:n:n:n:Y:2?vlan=7" ∈ reservation.ends)
    (hsecond : some "n:n:n:n:n:X:2?vlan=7" ∈ reservation.ends) :
    HoldsPins [⟨.include, ⟨"s", "n:n:n:n:n:Y:2", "n:n:n:n:n:X:2"⟩, some 7⟩] reservation := by
  intro c hc v hv
  obtain rfl := List.mem_singleton.mp hc
  cases hv
  exact ⟨⟨_, hfirst, "7", rfl, covers_single 7⟩, ⟨_, hsecond, "7", rfl, covers_single 7⟩⟩

theorem reserve_validates_line : ∃ s, (lineAt 5).subscription = some s ∧
    validateReservation lineEcho s = .ok s ∧
    ∃ message, validateReservation { lineEcho with status := ConnectionState.failed } s =
      .error (.inconsistentData message) := by
  have hworkflow : (lineAt 2).process.map (·.workflow) = some (.create lineSubmission) := by
    decide +kernel
  have haccepted : ∀ p, (lineAt 2).process = some p → p.workflow.Accepted := by
    intro p hp
    rw [hp, Option.map_some] at hworkflow
    exact Option.some.inj hworkflow ▸ .create lineInput_accepted
  have hsegments : ∀ segment ∈ lineEcho.segments.getD [],
      Parses segment.sourceStp ∧ Parses segment.destStp := by
    simp only [lineEcho, Option.getD_some, List.mem_cons, List.not_mem_nil, or_false,
      forall_eq_or_imp, forall_eq]
    exact ⟨⟨⟨{("n:n:n:n:n:X:1", 5)}, by decide +kernel⟩, {("n:n:n:n:n:X:2", 7)}, by decide +kernel⟩,
      ⟨{("n:n:n:n:n:Y:2", 7)}, by decide +kernel⟩, {("n:n:n:n:n:Y:1", 6)}, by decide +kernel⟩
  obtain ⟨s, _, constraints, hs, rfl, hconstraints, _, _, _, hvalidates⟩ :=
    reserve_validates (createAt_reachable (n := 2) (by decide +kernel)) haccepted lineRound .refl
  obtain rfl : [⟨.include, ⟨"s", "n:n:n:n:n:Y:2", "n:n:n:n:n:X:2"⟩, some 7⟩] = constraints :=
    Except.ok.inj ((by decide +kernel : _ = _).symm.trans hconstraints)
  refine ⟨s, hs, ((hvalidates lineEcho).2.1 ⟨rfl, rfl, by decide +kernel⟩
    ⟨by decide +kernel, by decide +kernel, hsegments⟩).1 (line_holds (by decide) (by decide)), ?_⟩
  refine (hvalidates { lineEcho with status := ConnectionState.failed }).1 fun hecho => ?_
  exact absurd hecho.status (show ConnectionState.failed ≠ _ by decide)

/-! ## Echoes that cannot be read -/

def labelledEnv : StepEnv :=
  { lineEnv with
    inventory :=
      { lineInventory with
        stps := [⟨"n:n:n:n:n:X:1?vlan=b", "x1", 100, "1-9"⟩,
          ⟨"n:n:n:n:n:Y:1", "y1", 100, "1-9"⟩] } }

def labelledSubmission : Submission where
  input := ⟨"circuit", 10, "n:n:n:n:n:X:1?vlan=b", 5, "n:n:n:n:n:Y:1", 6, false, [], []⟩
  path := ⟨[], .empty⟩

def labelledAt : ℕ → Machine :=
  createAt labelledEnv labelledSubmission ⟨some ConnectionState.reserved, none⟩

def malformedEcho (segments : List AggregatorSegment) : AggregatorReservation :=
  { lineEcho with segments := some (segments ++ [⟨none, some "n:n:n:n:n:Z:1?vlan=b", none⟩]) }

theorem malformedEcho_lacks :
    ¬ HoldsPins [⟨.include, ⟨"s", "n:n:n:n:n:Y:2", "n:n:n:n:n:X:2"⟩, some 7⟩]
      (malformedEcho []) := by
  intro hpins
  obtain ⟨⟨endpoint, hend, spec, rfl, _⟩, _⟩ := hpins _ List.mem_cons_self 7 rfl
  simp only [malformedEcho, lineEcho, AggregatorReservation.ends, List.mem_append] at hend
  simp [toString, String.ext_iff] at hend

/-- Validation cannot read the endpoint its own reserve sent for an STP id with a label, nor the
malformed label of a further segment, with and without the pins on the path. -/
theorem unreadable_echoes_raise :
    (createInput ascending labelledEnv.inventory []
        { lineFields with sourceStp := some "n:n:n:n:n:X:1?vlan=b", includeSdps := some [] }
        linePins = .ok labelledSubmission ∧
      (circuit.restrict fun _ event => FindsInventory (· = labelledEnv.inventory) event).Reachable
        (labelledAt 2) ∧
      ∃ body s reservation,
        ReserveRound (labelledAt 2) (labelledAt 5) labelledSubmission body
          ⟨some ConnectionState.reserved, none⟩ ∧
        (labelledAt 5).subscription = some s ∧ Echoes body reservation ∧
        HoldsPins s.vc.sdpConstraints reservation ∧ reservation.segments = none ∧
        validateReservation reservation s =
          .error (.valueError (.invalidLiteral "b?vlan=5"))) ∧
    ∃ body s, ReserveRound (lineAt 2) (lineAt 5) lineSubmission body
        ⟨some ConnectionState.reserved, none⟩ ∧ (lineAt 5).subscription = some s ∧
      (∃ reservation, Echoes body reservation ∧ HoldsPins s.vc.sdpConstraints reservation ∧
        validateReservation reservation s = .error (.valueError (.invalidLiteral "b"))) ∧
      ∃ reservation, Echoes body reservation ∧ ¬ HoldsPins s.vc.sdpConstraints reservation ∧
        validateReservation reservation s = .error (.valueError (.invalidLiteral "b")) := by
  constructor
  · refine ⟨by decide +kernel, createAt_reachable (by decide +kernel),
      ⟨globalReservationId "1", "circuit",
        ⟨10, "n:n:n:n:n:X:1?vlan=b?vlan=5", "n:n:n:n:n:Y:1?vlan=6", none⟩⟩,
      ⟨.provisioning, "MDP2P", ⟨"circuit", 10,
        (⟨"5", "n:n:n:n:n:X:1?vlan=b"⟩, ⟨"6", "n:n:n:n:n:Y:1"⟩), [],
        "RESERVED", globalReservationId "1", some "c", none⟩, "MDP2P circuit (RESERVED)"⟩,
      ⟨"c", "RESERVED", some (globalReservationId "1"), none,
        some ⟨⟨10, "n:n:n:n:n:X:1?vlan=b?vlan=5", "n:n:n:n:n:Y:1?vlan=6"⟩⟩, none⟩, ?_,
      by decide +kernel, ⟨rfl, rfl, rfl⟩, nofun, rfl, by decide +kernel⟩
    exact
      { workflow := ⟨⟨0, .create labelledSubmission, (labelledAt 2).process.elim [] (·.remaining),
          .ready⟩, by decide +kernel, rfl⟩
        round := ⟨labelledEnv, labelledEnv, labelledAt 3, labelledAt 4, by decide +kernel,
          by decide +kernel, by decide +kernel⟩ }
  · refine ⟨_, ⟨.provisioning, "MDP2P", ⟨"circuit", 10,
        (⟨"5", "n:n:n:n:n:X:1"⟩, ⟨"6", "n:n:n:n:n:Y:1"⟩),
        [⟨.include, ⟨"s", "n:n:n:n:n:Y:2", "n:n:n:n:n:X:2"⟩, some 7⟩],
        "RESERVED", globalReservationId "1", some "c", none⟩, "MDP2P circuit (RESERVED)"⟩,
      lineRound, by decide +kernel,
      ⟨malformedEcho (lineEcho.segments.getD []), ⟨rfl, rfl, rfl⟩,
        line_holds (by decide) (by decide), by decide +kernel⟩,
      malformedEcho [], ⟨rfl, rfl, rfl⟩, malformedEcho_lacks, by decide +kernel⟩

end NsiOrchestrator.Mdp2p
