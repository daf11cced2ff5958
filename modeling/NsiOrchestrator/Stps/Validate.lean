import NsiOrchestrator.Stps.Reconcile

/-! # Validating an STP against the DDS

Validate compares the stored attributes with the first item the DDS advertises for the
STP, and tells the operator to reconcile when they drifted. Reconcile takes them from
the last item.
-/

namespace NsiOrchestrator.Stps

open Outcome Vlans

/-! ## The steps -/

def about (stp : Stp) (problem : String) : String :=
  s!"Service termination point {stp.stpId} " ++ problem

def capacityDrifted (stp : Stp) (ddsStp : DdsStp) : String :=
  about stp ("capacity drifted: " ++ (s!"stored {stp.capacity} Mbit/s, " ++
    s!"DDS advertises {ddsStp.capacityMbits} Mbit/s; reconcile to repair"))

def rangeDrifted (stp : Stp) (ddsStp : DdsStp) : String :=
  about stp ("VLAN range drifted: " ++ (s!"stored {stp.labelGroup}, " ++
    s!"DDS advertises {ddsStp.labelGroup}; reconcile to repair"))

def moved (stp : Stp) (switchingServiceId : String) (ddsStp : DdsStp) : String :=
  about stp ("moved switching service: " ++ (s!"stored {switchingServiceId}, " ++
    s!"DDS advertises {ddsStp.switchingServiceId}"))

/-- `validate_stp_present_in_dds`, of an STP that is linked to the switching service. -/
def validateStpPresentInDds (advertised : List DdsStp) (stp : Stp) (switchingServiceId : String) :
    Except PyError Stp :=
  match advertised.find? fun ddsStp => ddsStp.id = stp.stpId with
  | none =>
      .error (.inconsistentData
        (about stp "is no longer present in the dds-proxy /service-termination-points endpoint"))
  | some ddsStp => do
      raiseIf (ddsStp.capacityMbits ≠ stp.capacity) (.inconsistentData (capacityDrifted stp ddsStp))
      raiseIf (ddsStp.labelGroup ≠ stp.labelGroup) (.inconsistentData (rangeDrifted stp ddsStp))
      raiseIf (ddsStp.switchingServiceId ≠ switchingServiceId)
        (.inconsistentData (moved stp switchingServiceId ddsStp))
      pure stp

def validateStpVlansInRange (order : SetOrder StpVlan) (circuits : List (String × VcInactive))
    (stp : Stp) : Except (StepError (Dict Int (List String))) Unit := do
  let stranded ← stepping (vlansOutside order circuits stp.stpId stp.labelGroup)
  if stranded.entries = [] then pure ()
  else
    .error (.inconsistentData
      (s!"Subscriptions use VLANs outside the range {stp.labelGroup} of {stp.stpId}:\n" ++
        strandedLines stranded)
      stranded)

/-! ## What validate finds -/

theorem about_ne {stp : Stp} {problem problem' : String} (c c' : Char) {rest rest' : String}
    (h : problem.toList.head? = some c) (h' : problem'.toList.head? = some c') (hne : c ≠ c') :
    about stp (problem ++ rest) ≠ about stp (problem' ++ rest') := by
  intro heq
  have hlist := congrArg (fun s => s.toList.head?) (String.append_right_inj _ |>.mp heq)
  simp only [String.toList_append, List.head?_append, h, h', Option.some_or, Option.some.injEq]
    at hlist
  exact hne hlist

/-- The attributes that validate takes to be advertised are those reconcile takes. -/
def Agree (advertised : List DdsStp) (stpId : String) : Prop :=
  ∀ first last, (advertised.find? fun ddsStp => ddsStp.id = stpId) = some first →
    lastAdvertised advertised stpId = some last →
    first.capacityMbits = last.capacityMbits ∧ first.labelGroup = last.labelGroup

/-- The step finds no drift that it asks to repair by a reconcile. -/
def NoDrift (advertised : List DdsStp) (stp : Stp) (switchingServiceId : String) : Prop :=
  ∀ ddsStp, validateStpPresentInDds advertised stp switchingServiceId ≠
      .error (.inconsistentData (capacityDrifted stp ddsStp)) ∧
    validateStpPresentInDds advertised stp switchingServiceId ≠
      .error (.inconsistentData (rangeDrifted stp ddsStp))

theorem validate_eq_error (stp : Stp) {advertised : List DdsStp} {first : DdsStp}
    (hfirst : (advertised.find? fun ddsStp => ddsStp.id = stp.stpId) = some first)
    (switchingServiceId : String) (e : PyError) :
    validateStpPresentInDds advertised stp switchingServiceId = .error e ↔
      first.capacityMbits ≠ stp.capacity ∧ .inconsistentData (capacityDrifted stp first) = e ∨
      first.capacityMbits = stp.capacity ∧
        (first.labelGroup ≠ stp.labelGroup ∧ .inconsistentData (rangeDrifted stp first) = e ∨
        first.labelGroup = stp.labelGroup ∧ first.switchingServiceId ≠ switchingServiceId ∧
          .inconsistentData (moved stp switchingServiceId first) = e) := by
  simp only [validateStpPresentInDds, hfirst, bind_eq_error, raiseIf_eq_error, raiseIf_eq_ok,
    pure_ne_error, ne_eq, not_not, exists_const, and_false, or_false]

theorem noDrift_iff (stp : Stp) {advertised : List DdsStp} {first : DdsStp}
    (hfirst : (advertised.find? fun ddsStp => ddsStp.id = stp.stpId) = some first)
    (switchingServiceId : String) :
    NoDrift advertised stp switchingServiceId ↔
      first.capacityMbits = stp.capacity ∧ first.labelGroup = stp.labelGroup := by
  have herror := validate_eq_error stp hfirst switchingServiceId
  constructor
  · intro hnone
    have hcapacity : first.capacityMbits = stp.capacity := by
      by_contra hne
      exact (hnone first).1 ((herror _).mpr (.inl ⟨hne, rfl⟩))
    have hrange : first.labelGroup = stp.labelGroup := by
      by_contra hne
      exact (hnone first).2 ((herror _).mpr (.inr ⟨hcapacity, .inl ⟨hne, rfl⟩⟩))
    exact ⟨hcapacity, hrange⟩
  · rintro ⟨hcapacity, hrange⟩ ddsStp
    have hcapacityText : moved stp switchingServiceId first ≠ capacityDrifted stp ddsStp :=
      about_ne 'm' 'c' rfl rfl (by decide)
    have hrangeText : moved stp switchingServiceId first ≠ rangeDrifted stp ddsStp :=
      about_ne 'm' 'V' rfl rfl (by decide)
    simp [herror, hcapacity, hrange, hcapacityText, hrangeText]

theorem validateStpVlansInRange_ok {order : SetOrder StpVlan}
    {circuits : List (String × VcInactive)} {stp : Stp} {stranded : Dict Int (List String)}
    (h : vlansOutside order circuits stp.stpId stp.labelGroup = .ok stranded)
    (hnil : stranded.entries = []) : validateStpVlansInRange order circuits stp = .ok () := by
  simp only [validateStpVlansInRange, h, stepping, bind, Except.bind, hnil, if_true]
  rfl

theorem vlansOutside_nil_order {order : SetOrder StpVlan} (order' : SetOrder StpVlan)
    {circuits : List (String × VcInactive)} {stpId labelGroup : String}
    {stranded : Dict Int (List String)}
    (h : vlansOutside order circuits stpId labelGroup = .ok stranded)
    (hnil : stranded.entries = []) :
    ∃ stranded', vlansOutside order' circuits stpId labelGroup = .ok stranded' ∧
      stranded'.entries = [] := by
  obtain ⟨stranded', h'⟩ : ∃ stranded', vlansOutside order' circuits stpId labelGroup =
      .ok stranded' := vlansOutside_ok_iff.mpr (vlansOutside_ok_iff.mp ⟨stranded, h⟩)
  exact ⟨stranded', h', (vlansOutside_entries_nil h').mpr ((vlansOutside_entries_nil h).mp hnil)⟩

/-- What reconcile promises for the STP it left: validate asks for no repair, no VLAN is
out of range and another reconcile changes nothing. -/
structure Repaired (order : SetOrder StpVlan) (circuits : List (String × VcInactive))
    (advertised : List DdsStp) (stp : Stp) (switchingServiceId : String) : Prop where
  noDrift : NoDrift advertised stp switchingServiceId
  inRange : validateStpVlansInRange order circuits stp = .ok ()
  again : reconcileDdsAttributes order circuits advertised stp = .ok stp

/-- A reconcile repairs what validate reports exactly when the first and the last item of
the STP advertise the same capacity and range. -/
theorem reconcile_repairs_iff {order : SetOrder StpVlan} (order' : SetOrder StpVlan)
    {circuits : List (String × VcInactive)} {advertised : List DdsStp} {stp stp' : Stp}
    (switchingServiceId : String)
    (h : reconcileDdsAttributes order circuits advertised stp = .ok stp')
    (hadvertised : ∃ ddsStp ∈ advertised, ddsStp.id = stp.stpId) :
    Repaired order' circuits advertised stp' switchingServiceId ↔
      Agree advertised stp.stpId := by
  obtain ⟨first, hfirst⟩ : ∃ first,
      (advertised.find? fun ddsStp => ddsStp.id = stp.stpId) = some first := by
    rw [← Option.isSome_iff_exists, List.find?_isSome]
    simpa using hadvertised
  rcases reconcileDdsAttributes_eq_ok.mp h with
    ⟨hnone, _⟩ | ⟨last, stranded, hlast, hout, hnil, rfl⟩
  · rw [stpById_get?, lastAdvertised_eq_none] at hnone
    obtain ⟨ddsStp, hin, hid⟩ := hadvertised
    exact absurd hid (hnone ddsStp hin)
  · obtain ⟨stranded', hout', hnil'⟩ := vlansOutside_nil_order order' hout hnil
    have hagree : Agree advertised stp.stpId ↔
        first.capacityMbits = last.capacityMbits ∧ first.labelGroup = last.labelGroup := by
      rw [stpById_get?] at hlast
      simp [Agree, hfirst, hlast]
    have hdrift := noDrift_iff { stp with
      capacity := last.capacityMbits, labelGroup := last.labelGroup } hfirst switchingServiceId
    rw [hagree]
    constructor
    · intro hrepaired
      exact hdrift.mp hrepaired.noDrift
    · intro hsame
      refine ⟨hdrift.mpr hsame, validateStpVlansInRange_ok hout' hnil', ?_⟩
      exact reconcileDdsAttributes_eq_ok.mpr (.inr ⟨last, stranded', hlast, hout', hnil', rfl⟩)

/-! ## An STP that is advertised twice -/

def slow : DdsStp := ⟨"X:1", "x1", 1000000, "1-9", "X:ss"⟩

def fast : DdsStp := ⟨"X:1", "x1", 2000000, "1-9", "X:ss"⟩

def subscribed (capacity : Int) : Stp := ⟨"X:1", "x1", capacity, "1-9"⟩

/-- The last item is stored, and validate compares with the first. -/
theorem advertised_twice_drifts :
    reconcileDdsAttributes byStpAndVlan [] [slow, fast] (subscribed 1) = .ok (subscribed 2) ∧
      ¬ Repaired byStpAndVlan [] [slow, fast] (subscribed 2) "X:ss" := by
  refine ⟨by decide +kernel, fun hrepaired => ?_⟩
  exact (hrepaired.noDrift slow).1 (by decide +kernel)

theorem reconcile_repairs_iff_once :
    Repaired byStpAndVlan [] [fast] (subscribed 2) "X:ss" := by
  have hreconciled : reconcileDdsAttributes byStpAndVlan [] [fast] (subscribed 1) =
      .ok (subscribed 2) := by decide +kernel
  refine (reconcile_repairs_iff byStpAndVlan "X:ss" hreconciled ?_).mpr ?_
  · exact ⟨fast, List.mem_cons_self, rfl⟩
  · rintro first last hfirst hlast
    cases hfirst
    cases hlast
    exact ⟨rfl, rfl⟩

end NsiOrchestrator.Stps
