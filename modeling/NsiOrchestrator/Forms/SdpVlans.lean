import NsiOrchestrator.Forms.Connection

/-! # VLANs on the included SDPs

The second page asks for an optional VLAN on every included SDP. From both pages
come the ERO that is sent and the constraints that are stored.
-/

namespace NsiOrchestrator.Forms

open Outcome Vlans Ero Fields

/-! ## The page -/

structure SdpVlanField where
  allowed : Finset Int
  inUse : Finset Int
  default : Option Int
  title : String
  description : String
  deriving DecidableEq

/-- The local function `field` of `sdp_vlan_form`. -/
def sdpVlanField (topology : SdpTopology) (defaults : SdpVlans) (inUseByStp : InUse)
    (sdpId : String) : Except PyError SdpVlanField := do
  let allowed ← lookup topology.vlans sdpId
  let stps ← lookup topology.stps sdpId
  let name ← lookup topology.names sdpId
  let inUse := inUseByStp.on stps.1 ∪ inUseByStp.on stps.2
  let free := freeRanges allowed inUse
  pure
    { allowed := allowed
      inUse := inUse
      default := defaults.get? sdpId
      title := s!"VLAN on {name}"
      description := s!"Optional, free: {free}; leave empty to let the PCE choose" }

def sdpVlanForm (topology : SdpTopology) (includeSdps : List String) (defaults : SdpVlans)
    (inUseByStp : InUse) : Except PyError (List SdpVlanField) :=
  includeSdps.mapM (sdpVlanField topology defaults inUseByStp)

/-- `within_sdp`. -/
def SdpVlanField.withinSdp (field : SdpVlanField) (vlan : Option Int) :
    Except PyError (Option Int) :=
  match vlan with
  | none => .ok none
  | some vlan => do
      let ranges := collapseRanges (sorted field.allowed)
      let shown := if ranges = "" then "none" else ranges
      raiseIf (vlan ∉ field.allowed)
        (.valueError s!"must be a VLAN both ends of the SDP allow ({shown})")
      raiseIf (vlan ∈ field.inUse) (.valueError "is already in use on the SDP")
      pure (some vlan)

/-- A field left untouched takes its default. -/
def SdpVlanField.validate (field : SdpVlanField) (loc : String) (submitted : Option (Option Int)) :
    Except FormError (Option Int) :=
  match submitted.getD field.default with
  | none => validator loc (field.withinSdp none)
  | some vlan => do
      let vlan ← checkVlan loc vlan
      validator loc (field.withinSdp (some vlan))

/-- The values submitted on the page, by position. -/
abbrev SdpVlanFields := ℕ → Option (Option Int)

def validateSdpVlans (fields : List SdpVlanField) (raw : SdpVlanFields) :
    Except FormError (List (Option Int)) :=
  all (fields.mapIdx fun index field => field.validate s!"sdp_vlan_{index + 1}" (raw index))

def pinnedPairs (zipped : List (String × Option Int)) : List (String × Int) :=
  zipped.filterMap fun e => e.2.map (e.1, ·)

def sdpVlanInput (topology : SdpTopology) (includeSdps : List String) (inUseByStp : InUse)
    (defaults : SdpVlans) (raw : SdpVlanFields) : Except FormError SdpVlans :=
  if includeSdps = [] then pure .empty
  else do
    let fields ← raising (sdpVlanForm topology includeSdps defaults inUseByStp)
    let vlans ← validateSdpVlans fields raw
    let zipped ← raising (zipStrict includeSdps vlans)
    pure (Dict.ofPairs (pinnedPairs zipped))

/-! ## The path -/

def pathSummary (topology : SdpTopology) (includeSdps : List String) (sdpVlans : SdpVlans) :
    Except PyError String := do
  let hops ← includeSdps.mapM fun sdpId => do
    let name ← lookup topology.names sdpId
    let vlan := (sdpVlans.get? sdpId).elim "" fun vlan => s!" (VLAN {vlan})"
    pure (name ++ vlan)
  let path := ", ".intercalate hops
  pure (if path = "" then "unconstrained" else path)

structure Path where
  ero : List String
  sdpVlans : SdpVlans
  deriving DecidableEq

/-- `path_input`. -/
def pathInput (topology : SdpTopology) (order : EroOrder) (userInput : ConnectionInput)
    (inUseByStp : InUse) (sdpVlanDefaults : SdpVlans) (raw : SdpVlanFields) :
    Except FormError Path := do
  let sdpVlans ← sdpVlanInput topology userInput.includeSdps inUseByStp sdpVlanDefaults raw
  let _ ← raising (pathSummary topology userInput.includeSdps sdpVlans)
  let ero ← raising (topology.ero order userInput.sourceStp userInput.destinationStp
    userInput.includeSdps sdpVlans)
  pure ⟨ero, sdpVlans⟩

/-- `sdp_block_for`, over the SDP blocks by subscription id. -/
def sdpBlockFor (sdps : Dict String Sdp) (subscriptionId : String) : Except PyError SdpLink :=
  match sdps.get? subscriptionId with
  | some sdp => .ok ⟨subscriptionId, sdp.stps.1.stpId, sdp.stps.2.stpId⟩
  | none => .error (.valueError s!"Subscription with id: {subscriptionId}, does not exist")

def includeConstraints (sdps : Dict String Sdp) (includeSdps : List String) (sdpVlans : SdpVlans) :
    Except PyError (List SdpConstraint) :=
  includeSdps.mapM fun sdpId => do
    let sdp ← sdpBlockFor sdps sdpId
    pure ⟨.include, sdp, sdpVlans.get? sdpId⟩

/-! ## What the page accepts -/

theorem withinSdp_eq_ok {field : SdpVlanField} {vlan vlan' : Option Int} :
    field.withinSdp vlan = .ok vlan' ↔
      vlan = vlan' ∧ ∀ v, vlan = some v → v ∈ field.allowed ∧ v ∉ field.inUse := by
  cases vlan with
  | none => simp [SdpVlanField.withinSdp]
  | some vlan =>
      simp only [SdpVlanField.withinSdp, bind_eq_ok, raiseIf_eq_ok, pure_eq_ok, exists_const,
        not_not, Option.some.injEq, forall_eq']
      tauto

theorem sdpVlanField_validate_eq_ok {field : SdpVlanField} {loc : String}
    {submitted : Option (Option Int)} {vlan : Option Int} :
    field.validate loc submitted = .ok vlan ↔ submitted.getD field.default = vlan ∧
      ∀ v, vlan = some v → 1 ≤ v ∧ v ≤ 4094 ∧ v ∈ field.allowed ∧ v ∉ field.inUse := by
  unfold SdpVlanField.validate
  split
  · next h => simp only [validator_eq_ok, withinSdp_eq_ok, h]; grind
  · next v h =>
      simp only [bind_eq_ok, checkVlan_eq_ok, validator_eq_ok, withinSdp_eq_ok, h]
      grind

theorem validateSdpVlans_eq_ok {fields : List SdpVlanField} {raw : SdpVlanFields}
    {vlans : List (Option Int)} :
    validateSdpVlans fields raw = .ok vlans ↔ fields.length = vlans.length ∧
      ∀ i field, fields[i]? = some field → ∃ vlan, vlans[i]? = some vlan ∧
        (raw i).getD field.default = vlan ∧
        ∀ v, vlan = some v → 1 ≤ v ∧ v ≤ 4094 ∧ v ∈ field.allowed ∧ v ∉ field.inUse := by
  simp only [validateSdpVlans, all_eq_ok, List.forall₂_iff_get, List.length_mapIdx,
    List.get_eq_getElem,
    List.getElem_mapIdx, sdpVlanField_validate_eq_ok]
  refine and_congr_right fun hlength => ⟨fun h i field hfield => ?_, fun h i hi hi' => ?_⟩
  · obtain ⟨hi, rfl⟩ := List.getElem?_eq_some_iff.mp hfield
    have hi' : i < vlans.length := hlength ▸ hi
    exact ⟨vlans[i], List.getElem?_eq_getElem hi', h i hi hi'⟩
  · obtain ⟨vlan, hvlan, hraw⟩ := h i fields[i] (List.getElem?_eq_getElem hi)
    obtain ⟨_, rfl⟩ := List.getElem?_eq_some_iff.mp hvlan
    exact hraw

theorem mem_pinnedPairs {zipped : List (String × Option Int)} {sdpId : String} {vlan : Int} :
    (sdpId, vlan) ∈ pinnedPairs zipped ↔ (sdpId, some vlan) ∈ zipped := by
  simp only [pinnedPairs, List.mem_filterMap, Option.map_eq_some_iff, Prod.mk.injEq]
  constructor
  · rintro ⟨⟨_, _⟩, he, _, rfl, rfl, rfl⟩
    exact he
  · exact fun he => ⟨_, he, vlan, rfl, rfl, rfl⟩

theorem pinnedPairs_keys_sublist (zipped : List (String × Option Int)) :
    ((pinnedPairs zipped).map Prod.fst).Sublist (zipped.map Prod.fst) := by
  induction zipped with
  | nil => simp [pinnedPairs]
  | cons e zipped ih =>
      obtain ⟨sdpId, _ | vlan⟩ := e
      · exact ih.cons sdpId
      · exact ih.cons_cons sdpId

theorem pinned_get? {includeSdps : List String} {vlans : List (Option Int)}
    (hnodup : includeSdps.Nodup)
    (hlength : includeSdps.length = vlans.length) {i : ℕ} {sdpId : String} {vlan : Option Int}
    (hsdp : includeSdps[i]? = some sdpId) (hvlan : vlans[i]? = some vlan) :
    (Dict.ofPairs (pinnedPairs (includeSdps.zip vlans))).get? sdpId = vlan := by
  have hkeys : ((includeSdps.zip vlans).map Prod.fst).Nodup := by
    rwa [List.map_fst_zip hlength.le]
  have hzip : (sdpId, vlan) ∈ includeSdps.zip vlans := by
    apply List.mem_of_getElem? (i := i)
    rw [List.getElem?_zip_eq_some]
    exact ⟨hsdp, hvlan⟩
  have hget : ∀ v, (Dict.ofPairs (pinnedPairs (includeSdps.zip vlans))).get? sdpId = some v ↔
      vlan = some v := fun v => by
    rw [Dict.get?_ofPairs ((pinnedPairs_keys_sublist _).nodup hkeys), mem_pinnedPairs]
    constructor
    · intro hin
      exact congrArg Prod.snd (List.inj_on_of_nodup_map hkeys hzip hin rfl)
    · rintro rfl
      exact hzip
  exact Option.ext hget

theorem mem_of_pinned_get? {includeSdps : List String} {vlans : List (Option Int)} {sdpId : String}
    {vlan : Int} (h : (Dict.ofPairs (pinnedPairs (includeSdps.zip vlans))).get? sdpId = some vlan) :
    sdpId ∈ includeSdps := by
  have hin := Dict.mem_of_mem_ofPairs (Dict.get?_eq_some.mp h)
  exact (List.of_mem_zip (mem_pinnedPairs.mp hin)).1

structure PageAccepts (topology : SdpTopology) (inUseByStp : InUse) (defaults : SdpVlans)
    (raw : SdpVlanFields) (includeSdps : List String) (vlans : List (Option Int)) : Prop where
  length : includeSdps.length = vlans.length
  field : ∀ i sdpId, includeSdps[i]? = some sdpId → ∃ field vlan,
    sdpVlanField topology defaults inUseByStp sdpId = .ok field ∧ vlans[i]? = some vlan ∧
      (raw i).getD field.default = vlan ∧
      ∀ v, vlan = some v → 1 ≤ v ∧ v ≤ 4094 ∧ v ∈ field.allowed ∧ v ∉ field.inUse

theorem PageAccepts.entered {topology : SdpTopology} {inUseByStp : InUse} {defaults : SdpVlans}
    {raw : SdpVlanFields} {includeSdps : List String} {vlans : List (Option Int)}
    (h : PageAccepts topology inUseByStp defaults raw includeSdps vlans) {i : ℕ} {sdpId : String}
    (hsdp : includeSdps[i]? = some sdpId) :
    vlans[i]? = some ((raw i).getD (defaults.get? sdpId)) := by
  obtain ⟨field, vlan, hfield, hvlan, rfl, _⟩ := h.field i sdpId hsdp
  simp only [sdpVlanField, bind_eq_ok, lookup_eq_ok, pure_eq_ok] at hfield
  obtain ⟨_, _, _, _, _, _, rfl⟩ := hfield
  exact hvlan

theorem pageAccepts_iff {topology : SdpTopology} {includeSdps : List String} {inUseByStp : InUse}
    {defaults : SdpVlans} {raw : SdpVlanFields} {vlans : List (Option Int)} :
    PageAccepts topology inUseByStp defaults raw includeSdps vlans ↔
      ∃ fields, sdpVlanForm topology includeSdps defaults inUseByStp = .ok fields ∧
        validateSdpVlans fields raw = .ok vlans := by
  constructor
  · intro haccepts
    have hfield : ∀ sdpId ∈ includeSdps, ∃ field,
        sdpVlanField topology defaults inUseByStp sdpId = .ok field := fun sdpId hin => by
      obtain ⟨i, hi⟩ := List.mem_iff_getElem?.mp hin
      obtain ⟨field, _, hfield, _⟩ := haccepts.field i sdpId hi
      exact ⟨field, hfield⟩
    obtain ⟨fields, hfields⟩ := exists_mapM hfield
    have hforall := mapM_eq_ok.mp hfields
    refine ⟨fields, hfields, validateSdpVlans_eq_ok.mpr ⟨?_, fun i field hi => ?_⟩⟩
    · rw [← hforall.length_eq, haccepts.length]
    · obtain ⟨hi', rfl⟩ := List.getElem?_eq_some_iff.mp hi
      have hi : i < includeSdps.length := hforall.length_eq ▸ hi'
      obtain ⟨field, vlan, hfield, hvlan, haccepted⟩ :=
        haccepts.field i includeSdps[i] (List.getElem?_eq_getElem hi)
      have heq : field = fields[i] := Except.ok.inj (hfield.symm.trans (hforall.get hi hi'))
      exact ⟨vlan, hvlan, heq ▸ haccepted⟩
  · rintro ⟨fields, hfields, hvlans⟩
    rw [sdpVlanForm, mapM_eq_ok] at hfields
    rw [validateSdpVlans_eq_ok] at hvlans
    refine ⟨hfields.length_eq.trans hvlans.1, fun i sdpId hsdp => ?_⟩
    obtain ⟨hi, rfl⟩ := List.getElem?_eq_some_iff.mp hsdp
    have hi' : i < fields.length := hfields.length_eq ▸ hi
    obtain ⟨vlan, hvlan, haccepted⟩ := hvlans.2 i fields[i] (List.getElem?_eq_getElem hi')
    exact ⟨fields[i], vlan, hfields.get hi hi', hvlan, haccepted⟩

theorem sdpVlanInput_eq_ok {topology : SdpTopology} {includeSdps : List String} {inUseByStp : InUse}
    {defaults : SdpVlans} {raw : SdpVlanFields} {sdpVlans : SdpVlans} :
    sdpVlanInput topology includeSdps inUseByStp defaults raw = .ok sdpVlans ↔
      ∃ vlans, PageAccepts topology inUseByStp defaults raw includeSdps vlans ∧
        sdpVlans = Dict.ofPairs (pinnedPairs (includeSdps.zip vlans)) := by
  unfold sdpVlanInput
  split
  · next hnil =>
      subst hnil
      rw [pure_eq_ok]
      constructor
      · rintro rfl
        exact ⟨[], ⟨rfl, by simp⟩, rfl⟩
      · rintro ⟨vlans, _, rfl⟩
        rfl
  · simp only [bind_eq_ok, raising_eq_ok, pure_eq_ok]
    constructor
    · rintro ⟨fields, hfields, vlans, hvlans, zipped, hzipped, rfl⟩
      have haccepts := pageAccepts_iff.mpr ⟨fields, hfields, hvlans⟩
      rw [zipStrict_of_length haccepts.length] at hzipped
      cases hzipped
      exact ⟨vlans, haccepts, rfl⟩
    · rintro ⟨vlans, haccepts, rfl⟩
      obtain ⟨fields, hfields, hvlans⟩ := pageAccepts_iff.mp haccepts
      exact ⟨fields, hfields, vlans, hvlans, _, zipStrict_of_length haccepts.length, rfl⟩

theorem pathInput_eq_ok {topology : SdpTopology} {order : EroOrder} {input : ConnectionInput}
    {inUse : InUse} {defaults : SdpVlans} {raw : SdpVlanFields} {path : Path} :
    pathInput topology order input inUse defaults raw = .ok path ↔
      sdpVlanInput topology input.includeSdps inUse defaults raw = .ok path.sdpVlans ∧
      (∃ summary, pathSummary topology input.includeSdps path.sdpVlans = .ok summary) ∧
      topology.ero order input.sourceStp input.destinationStp input.includeSdps path.sdpVlans =
        .ok path.ero := by
  simp only [pathInput, bind_eq_ok, raising_eq_ok, pure_eq_ok]
  constructor
  · rintro ⟨sdpVlans, hvlans, summary, hsummary, ero, hero, rfl⟩
    exact ⟨hvlans, ⟨summary, hsummary⟩, hero⟩
  · rintro ⟨hvlans, ⟨summary, hsummary⟩, hero⟩
    exact ⟨_, hvlans, summary, hsummary, _, hero, rfl⟩

end NsiOrchestrator.Forms
