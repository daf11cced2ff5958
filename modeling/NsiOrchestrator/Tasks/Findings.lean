import NsiOrchestrator.Tasks.Upas
import NsiOrchestrator.Vlans.Codec

/-! # What the findings name

A section is reported with one finding for each STP and holder. The findings are grouped
after a sort on the STP and two of the ids of the holder. Two holders with the same such
ids are told apart by the grouping and not by the sort, so their VLANs can overwrite each
other, as the iteration of the sets has it.
-/

namespace NsiOrchestrator.Tasks

open Outcome Vlans Text

def Finding.holder (finding : Finding) : Holder :=
  ⟨finding.side, finding.connectionId, finding.childConnectionId, finding.globalReservationId⟩

/-- A pair on the STP that the holder holds is to be reported. -/
def Listed (holders : Dict StpVlan (Finset Holder)) (pairs : Finset StpVlan) (stpId : String)
    (holder : Holder) (vlan : Int) : Prop :=
  (stpId, vlan) ∈ pairs ∧ holder ∈ (holders.get? (stpId, vlan)).getD ∅

/-- One finding for each STP and holder, whose text names exactly the VLANs to be reported. -/
structure LosesNothing (holders : Dict StpVlan (Finset Holder)) (pairs : Finset StpVlan)
    (found : List Finding) : Prop where
  once : (found.map fun finding => (finding.stpId, finding.holder)).Nodup
  reported : ∀ stpId holder, (∃ finding ∈ found, finding.stpId = stpId ∧ finding.holder = holder) ↔
    ∃ vlan, Listed holders pairs stpId holder vlan
  vlans : ∀ finding ∈ found, ∃ vlans, vlanSet finding.vlans = .ok vlans ∧
    ∀ vlan, vlan ∈ vlans ↔ Listed holders pairs finding.stpId finding.holder vlan

/-- Two holders that the sort key of the findings does not tell apart. -/
def Confused (holder holder' : Holder) : Prop :=
  holder ≠ holder' ∧ holder.connectionId = holder'.connectionId ∧
    holder.childConnectionId.getD "" = holder'.childConnectionId.getD ""

/-- No VLAN is negative, and a holder that shares an STP with one it is confused with
holds a single VLAN there. -/
structure Reportable (holders : Dict StpVlan (Finset Holder)) (pairs : Finset StpVlan) : Prop where
  nonneg : ∀ stpId holder vlan, Listed holders pairs stpId holder vlan → 0 ≤ vlan
  single : ∀ stpId holder holder' vlan vlan' vlan'', Confused holder holder' →
    Listed holders pairs stpId holder vlan → Listed holders pairs stpId holder vlan' →
    Listed holders pairs stpId holder' vlan'' → vlan = vlan'

/-! ## The triples that are grouped -/

/-- The triples of a section, in the order they are visited. -/
def triples (orders : ReportOrders) (holders : Dict StpVlan (Finset Holder)) (title : String)
    (pairs : Finset StpVlan) : List ((String × Holder) × Int) :=
  ((orders.pairs title).list 0 pairs).flatMap fun pair =>
    ((orders.holders pair).list 0 ((holders.get? pair).getD ∅)).map fun holder =>
      ((pair.1, holder), pair.2)

def findingOf (subscriptions : Dict String String) (e : (String × Holder) × Finset Int) :
    Finding where
  stpId := e.1.1
  vlans := collapseRanges (sorted e.2)
  side := e.1.2.side
  connectionId := e.1.2.connectionId
  childConnectionId := e.1.2.childConnectionId
  globalReservationId := e.1.2.globalReservationId
  subscriptionId := subscriptions.get? e.1.2.connectionId

section Triples

variable {holders : Dict StpVlan (Finset Holder)} {pairs : Finset StpVlan}
  (orders : ReportOrders) (title : String)

theorem findings_eq (repr : StpVlan → String) (subscriptions : Dict String String)
    (h : ∀ pair ∈ pairs, pair ∈ holders.keys) :
    findings orders repr holders subscriptions title pairs =
      .ok ((groupPairs findingKey (triples orders holders title pairs)).entries.map
        (findingOf subscriptions)) := by
  have hblock : ∀ pair ∈ (orders.pairs title).list 0 pairs,
      ∃ found, holders.get? pair = some found := by
    intro pair hpair
    rw [SetOrder.mem_list] at hpair
    exact Option.isSome_iff_exists.mp (Dict.get?_isSome.mpr (h pair hpair))
  refine bind_eq_ok.mpr ⟨_, mapM_eq_map (g := fun pair : StpVlan =>
    ((orders.holders pair).list 0 ((holders.get? pair).getD ∅)).map fun holder =>
      ((pair.1, holder), pair.2)) fun pair hpair => ?_, rfl⟩
  obtain ⟨found, hfound⟩ := hblock pair hpair
  simp [hfound]

theorem mem_triples {stpId : String} {holder : Holder} {vlan : Int} :
    ((stpId, holder), vlan) ∈ triples orders holders title pairs ↔
      Listed holders pairs stpId holder vlan := by
  simp only [triples, List.mem_flatMap, List.mem_map, SetOrder.mem_list, Prod.mk.injEq, Listed]
  constructor
  · rintro ⟨pair, hpair, holder', hholder, ⟨rfl, rfl⟩, rfl⟩
    exact ⟨hpair, hholder⟩
  · rintro ⟨hpair, hholder⟩
    exact ⟨_, hpair, holder, hholder, ⟨rfl, rfl⟩, rfl⟩

theorem triples_nodup : (triples orders holders title pairs).Nodup := by
  rw [triples, List.nodup_flatMap]
  refine ⟨fun pair _ => ?_, ?_⟩
  · refine ((orders.holders pair).nodup 0 _).map fun holder holder' h => ?_
    exact congrArg (fun e => e.1.2) h
  · refine ((orders.pairs title).nodup 0 pairs).imp fun hne => ?_
    refine List.disjoint_left.mpr fun e he he' => ?_
    obtain ⟨holder, _, rfl⟩ := List.mem_map.mp he
    obtain ⟨holder', _, heq⟩ := List.mem_map.mp he'
    have hstp := congrArg (fun e => e.1.1) heq
    have hvlan := congrArg (fun e => e.2) heq
    exact hne (Prod.ext hstp.symm hvlan.symm)

end Triples

/-! ## When nothing is lost -/

theorem findingKey_eq {stpId stpId' : String} {holder holder' : Holder}
    (h : findingKey (stpId, holder) = findingKey (stpId', holder')) (hne : holder ≠ holder') :
    stpId = stpId' ∧ Confused holder holder' := by
  have h := toLex.injective h
  rw [Prod.mk.injEq] at h
  have hids := toLex.injective h.2
  rw [Prod.mk.injEq] at hids
  exact ⟨h.1, hne, hids⟩

section Exact

variable {holders : Dict StpVlan (Finset Holder)} {pairs : Finset StpVlan}

/-- Sorted, only ties can stand between two triples of one STP and holder. -/
theorem sorted_adjacent (h : Reportable holders pairs) (orders : ReportOrders) (title : String) :
    Adjacent ((triples orders holders title pairs).insertionSort fun a b =>
      findingKey a.1 ≤ findingKey b.1) := by
  have : IsTrans ((String × Holder) × Int) fun a b => findingKey a.1 ≤ findingKey b.1 :=
    ⟨fun _ _ _ h h' => le_trans h h'⟩
  have : Std.Total fun a b : (String × Holder) × Int => findingKey a.1 ≤ findingKey b.1 :=
    ⟨fun a b => le_total _ _⟩
  intro a b c hsub hkey
  have hsorted := (List.pairwise_insertionSort (fun a b => findingKey a.1 ≤ findingKey b.1)
    (triples orders holders title pairs)).sublist hsub
  have hnodup : [a, b, c].Nodup := by
    refine List.Nodup.sublist hsub ?_
    exact (List.perm_insertionSort _ _).nodup_iff.mpr (triples_nodup orders title)
  have hlisted : ∀ e ∈ [a, b, c], Listed holders pairs e.1.1 e.1.2 e.2 := by
    intro e he
    have hin := hsub.subset he
    rw [List.mem_insertionSort] at hin
    exact (mem_triples orders title).mp hin
  simp only [List.pairwise_cons, List.mem_cons, List.not_mem_nil, or_false, forall_eq_or_imp,
    forall_eq] at hsorted hlisted
  obtain ⟨⟨hab, _⟩, hbc, _⟩ := hsorted
  have htie : findingKey a.1 = findingKey b.1 := le_antisymm hab (hkey ▸ hbc)
  by_contra hne
  have hstp : a.1.1 = b.1.1 := (Prod.mk.inj (toLex.injective htie)).1
  have hholder : a.1.2 ≠ b.1.2 := fun hholder => hne (Prod.ext hstp hholder).symm
  have hvlan : a.2 = c.2 := by
    refine h.single a.1.1 a.1.2 b.1.2 a.2 c.2 b.2 (findingKey_eq htie hholder).2 hlisted.1 ?_ ?_
    · rw [hkey]
      exact hlisted.2.2
    · rw [hstp]
      exact hlisted.2.1
  have hac : a = c := Prod.ext hkey hvlan
  simp [hac] at hnodup

theorem losesNothing_of_reportable (h : Reportable holders pairs) (orders : ReportOrders)
    (subscriptions : Dict String String) (title : String) :
    LosesNothing holders pairs
      ((groupPairs findingKey (triples orders holders title pairs)).entries.map
        (findingOf subscriptions)) := by
  have hgroup : ∀ {key : String × Holder} {vlans : Finset Int},
      (key, vlans) ∈ (groupPairs findingKey (triples orders holders title pairs)).entries ↔
        key ∈ (triples orders holders title pairs).map Prod.fst ∧
          ∀ vlan, vlan ∈ vlans ↔ (key, vlan) ∈ triples orders holders title pairs :=
    mem_groupPairs_of_nodup (groupRuns_nodup (sorted_adjacent h orders title))
  constructor
  · rw [List.map_map]
    exact (groupPairs findingKey (triples orders holders title pairs)).nodup
  · intro stpId holder
    have hkeys : (∃ vlan, Listed holders pairs stpId holder vlan) ↔
        (stpId, holder) ∈ (groupPairs findingKey (triples orders holders title pairs)).keys := by
      rw [mem_keys_groupPairs, List.mem_map]
      constructor
      · rintro ⟨vlan, hlisted⟩
        exact ⟨_, (mem_triples orders title).mpr hlisted, rfl⟩
      · rintro ⟨⟨_, vlan⟩, hin, rfl⟩
        exact ⟨vlan, (mem_triples orders title).mp hin⟩
    rw [hkeys, Dict.keys, List.mem_map]
    constructor
    · rintro ⟨finding, hfinding, rfl, rfl⟩
      obtain ⟨e, he, rfl⟩ := List.mem_map.mp hfinding
      exact ⟨e, he, rfl⟩
    · rintro ⟨e, he, hkey⟩
      exact ⟨_, List.mem_map_of_mem he, congrArg Prod.fst hkey, congrArg Prod.snd hkey⟩
  · intro finding hfinding
    obtain ⟨e, he, rfl⟩ := List.mem_map.mp hfinding
    have hvlans : ∀ vlan, vlan ∈ e.2 ↔ Listed holders pairs e.1.1 e.1.2 vlan := fun vlan =>
      ((hgroup.mp he).2 vlan).trans (mem_triples orders title)
    refine ⟨e.2, vlanSet_collapseRanges fun vlan hvlan => ?_, hvlans⟩
    exact h.nonneg _ _ vlan ((hvlans vlan).mp hvlan)

/-- No holder of several pairs of a section on an STP ties there with another in the sort. -/
def Untied (held : StpVlan → Holder → Prop) (pairs : Finset StpVlan) : Prop :=
  ∀ stpId holder holder' vlan vlan' vlan'', Confused holder holder' →
    (stpId, vlan) ∈ pairs → held (stpId, vlan) holder →
    (stpId, vlan') ∈ pairs → held (stpId, vlan') holder →
    (stpId, vlan'') ∈ pairs → held (stpId, vlan'') holder' → vlan = vlan'

def named (found : List Finding) : Set StpVlan :=
  {pair | ∃ finding ∈ found, finding.stpId = pair.1 ∧ Covers finding.vlans pair.2}

def Details.named (details : Details) (title : String) : Set StpVlan :=
  {pair | ∃ entry ∈ details, entry.1 = title ∧ pair ∈ Tasks.named entry.2}

/-! ## When something is lost -/

theorem listed_of_mem_group {orders : ReportOrders} {title : String} {key : String × Holder}
    {vlans : Finset Int}
    (h : (key, vlans) ∈ (groupPairs findingKey (triples orders holders title pairs)).entries)
    {vlan : Int} (hvlan : vlan ∈ vlans) : Listed holders pairs key.1 key.2 vlan := by
  obtain ⟨group, hgroup, heq⟩ := List.mem_map.mp (Dict.mem_of_mem_ofPairs h)
  cases heq
  rw [List.mem_toFinset] at hvlan
  have hin := mem_groupRuns.mpr ⟨group, hgroup, rfl, hvlan⟩
  rw [List.mem_insertionSort] at hin
  exact (mem_triples orders title).mp hin

/-- A triple that stands before a tie with another holder and a further VLAN is lost. -/
theorem not_losesNothing {orders : ReportOrders} (subscriptions : Dict String String)
    {title stpId : String} {holder holder' : Holder} {vlan vlan' vlan'' : Int}
    (hnonneg : ∀ stpId holder vlan, Listed holders pairs stpId holder vlan → 0 ≤ vlan)
    (hconfused : Confused holder holder')
    (hsub : [((stpId, holder), vlan), ((stpId, holder'), vlan''), ((stpId, holder), vlan')].Sublist
      (triples orders holders title pairs)) :
    ¬ LosesNothing holders pairs
      ((groupPairs findingKey (triples orders holders title pairs)).entries.map
        (findingOf subscriptions)) := by
  intro hloses
  have hkey : findingKey (stpId, holder) = findingKey (stpId, holder') := by
    simp only [findingKey, hconfused.2.1, hconfused.2.2]
  -- The sort is stable, so the three stay in this order.
  have hsorted := List.sublist_insertionSort (r := fun a b : (String × Holder) × Int =>
    findingKey a.1 ≤ findingKey b.1) (by simp [hkey]) hsub
  have htriples : (triples orders holders title pairs).Nodup := triples_nodup orders title
  have hnodup := (List.perm_insertionSort (fun a b : (String × Holder) × Int =>
    findingKey a.1 ≤ findingKey b.1) _).nodup_iff.mpr htriples
  have hlisted : Listed holders pairs stpId holder vlan :=
    (mem_triples orders title).mp (hsub.subset List.mem_cons_self)
  obtain ⟨finding, hfinding, rfl, rfl⟩ := (hloses.reported stpId holder).mpr ⟨vlan, hlisted⟩
  obtain ⟨vlans, hvlans, hall⟩ := hloses.vlans finding hfinding
  obtain ⟨e, he, rfl⟩ := List.mem_map.mp hfinding
  have hread : vlanSet (findingOf subscriptions e).vlans = .ok e.2 :=
    vlanSet_collapseRanges fun vlan hvlan => hnonneg _ _ vlan (listed_of_mem_group he hvlan)
  cases hvlans.symm.trans hread
  have hin : vlan ∈ e.2 := (hall vlan).mpr hlisted
  have hget := Dict.get?_eq_some.mpr he
  rw [get?_groupPairs] at hget
  obtain ⟨values, hlast, hvalues⟩ := Option.map_eq_some_iff.mp hget
  have hne : (e.1.1, holder') ≠ e.1 := fun heq => hconfused.1 (congrArg Prod.snd heq).symm
  refine not_mem_lastRun hnodup hne hsorted hlast ?_
  rw [← List.mem_toFinset, hvalues]
  exact hin

/-- An iteration of the sets that puts the holder `holder'` between two VLANs of `holder`. -/
theorem exists_interleaving (title : String) {stpId : String} {holder holder' : Holder}
    {vlan vlan' vlan'' : Int} (hne : vlan ≠ vlan') (hne' : vlan'' ≠ vlan')
    (hholders : holder ≠ holder')
    (h : Listed holders pairs stpId holder vlan) (h' : Listed holders pairs stpId holder vlan')
    (h'' : Listed holders pairs stpId holder' vlan'') :
    ∃ orders : ReportOrders, [((stpId, holder), vlan), ((stpId, holder'), vlan''),
      ((stpId, holder), vlan')].Sublist (triples orders holders title pairs) := by
  have hfront : [holder, holder'].Nodup := by simp [hholders]
  let byHolder : SetOrder Holder := SetOrder.arbitrary.starting [holder, holder'] hfront
  let block : StpVlan → List ((String × Holder) × Int) := fun pair =>
    (byHolder.list 0 ((holders.get? pair).getD ∅)).map fun holder => ((pair.1, holder), pair.2)
  have hblock : ∀ {holder vlan}, Listed holders pairs stpId holder vlan →
      [((stpId, holder), vlan)].Sublist (block (stpId, vlan)) := by
    intro holder vlan hlisted
    rw [List.singleton_sublist]
    exact List.mem_map_of_mem (f := fun holder => ((stpId, holder), vlan))
      ((SetOrder.mem_list _ _ _ _).mpr hlisted.2)
  have hvisit : ∀ front : List StpVlan, front.Nodup → (∀ pair ∈ front, pair ∈ pairs) →
      ∃ orders : ReportOrders,
        (front.flatMap block).Sublist (triples orders holders title pairs) := by
    intro front hnodup hin
    exact ⟨⟨SetOrder.arbitrary, fun _ => SetOrder.arbitrary.starting front hnodup,
      fun _ => byHolder⟩, (SetOrder.starting_list _ hnodup hin).flatMap block⟩
  by_cases hsame : vlan'' = vlan
  · subst hsame
    obtain ⟨orders, horders⟩ := hvisit [(stpId, vlan''), (stpId, vlan')] (by simp [hne])
      (by simp [h.1, h'.1])
    have hboth : [((stpId, holder), vlan''), ((stpId, holder'), vlan'')].Sublist
        (block (stpId, vlan'')) :=
      (SetOrder.starting_list SetOrder.arbitrary hfront (by simp [h.2, h''.2])).map
        fun holder => ((stpId, holder), vlan'')
    refine ⟨orders, List.Sublist.trans ?_ horders⟩
    simpa using hboth.append (hblock h')
  · obtain ⟨orders, horders⟩ := hvisit [(stpId, vlan), (stpId, vlan''), (stpId, vlan')]
      (by simp [hne, hne', Ne.symm hsame]) (by simp [h.1, h'.1, h''.1])
    refine ⟨orders, List.Sublist.trans ?_ horders⟩
    simpa using (hblock h).append ((hblock h'').append (hblock h'))

/-- The findings lose nothing, however the sets are iterated, exactly when no holder of
several VLANs on an STP shares it with one it is confused with. -/
theorem findings_exact_iff (repr : StpVlan → String) (subscriptions : Dict String String)
    (title : String) (hkeys : ∀ pair ∈ pairs, pair ∈ holders.keys) :
    (∀ orders, ∃ found, findings orders repr holders subscriptions title pairs = .ok found ∧
      LosesNothing holders pairs found) ↔ Reportable holders pairs := by
  constructor
  · intro h
    have hloses : ∀ orders, LosesNothing holders pairs
        ((groupPairs findingKey (triples orders holders title pairs)).entries.map
          (findingOf subscriptions)) := by
      intro orders
      obtain ⟨found, hfound, hloses⟩ := h orders
      rw [findings_eq orders title repr subscriptions hkeys] at hfound
      cases hfound
      exact hloses
    have hnonneg : ∀ stpId holder vlan, Listed holders pairs stpId holder vlan → 0 ≤ vlan := by
      intro stpId holder vlan hlisted
      have hexact := hloses ascendingOrders
      obtain ⟨finding, hfinding, rfl, rfl⟩ := (hexact.reported stpId holder).mpr ⟨vlan, hlisted⟩
      obtain ⟨vlans, hvlans, hall⟩ := hexact.vlans finding hfinding
      exact vlanSet_nonneg hvlans vlan ((hall vlan).mpr hlisted)
    refine ⟨hnonneg, ?_⟩
    intro stpId holder holder' vlan vlan' vlan'' hconfused hlisted hlisted' hlisted''
    by_contra hne
    by_cases hvlan : vlan'' = vlan'
    · obtain ⟨orders, hsub⟩ := exists_interleaving title (Ne.symm hne)
        (fun heq => hne (heq.symm.trans hvlan)) hconfused.1 hlisted' hlisted hlisted''
      exact not_losesNothing subscriptions hnonneg hconfused hsub (hloses orders)
    · obtain ⟨orders, hsub⟩ := exists_interleaving title hne hvlan hconfused.1
        hlisted hlisted' hlisted''
      exact not_losesNothing subscriptions hnonneg hconfused hsub (hloses orders)
  · intro h orders
    exact ⟨_, findings_eq orders title repr subscriptions hkeys,
      losesNothing_of_reportable h orders subscriptions title⟩

end Exact

/-! ## Two sides with one connection id -/

def heldByAggregator : Holder := ⟨.aggregator, "c", none, none⟩

def heldByUpa : Holder := ⟨.uPA, "c", none, none⟩

def sharedPairs : Finset StpVlan := {("X", 1), ("X", 2)}

def sharedHolders : Dict StpVlan (Finset Holder) :=
  ⟨[(("X", 1), {heldByAggregator, heldByUpa}), (("X", 2), {heldByAggregator, heldByUpa})],
    by decide⟩

/-- Both findings name VLAN 2 only. -/
theorem shared_id_lost : ∃ found,
    findings ascendingOrders (reprPair fun _ => false) sharedHolders .empty "" sharedPairs =
        .ok found ∧
      ¬ LosesNothing sharedHolders sharedPairs found := by
  refine ⟨[⟨"X", "2", .aggregator, "c", none, none, none⟩, ⟨"X", "2", .uPA, "c", none, none, none⟩],
    by decide +kernel, fun hloses => ?_⟩
  obtain ⟨vlans, hvlans, hall⟩ := hloses.vlans _ List.mem_cons_self
  rw [show vlanSet "2" = .ok {2} from vlanSet_single 2] at hvlans
  cases hvlans
  have hlisted : Listed sharedHolders sharedPairs "X" heldByAggregator 1 :=
    ⟨by decide, by decide⟩
  exact absurd ((hall 1).mpr hlisted) (by decide)

def separateHolders : Dict StpVlan (Finset Holder) :=
  ⟨[(("X", 1), {heldByAggregator}), (("X", 2), {heldByUpa})], by decide⟩

/-- Each side on a VLAN of its own is reported in full. -/
theorem findings_exact_iff_separate : ∃ found,
    findings ascendingOrders (reprPair fun _ => false) separateHolders .empty "" sharedPairs =
        .ok found ∧
      LosesNothing separateHolders sharedPairs found := by
  have hlisted : ∀ {stpId holder vlan}, Listed separateHolders sharedPairs stpId holder vlan →
      vlan = 1 ∧ holder = heldByAggregator ∨ vlan = 2 ∧ holder = heldByUpa := by
    rintro stpId holder vlan ⟨hpair, hholder⟩
    simp only [sharedPairs, Finset.mem_insert, Finset.mem_singleton, Prod.mk.injEq] at hpair
    rcases hpair with ⟨rfl, rfl⟩ | ⟨rfl, rfl⟩
    · exact .inl ⟨rfl, Finset.mem_singleton.mp hholder⟩
    · exact .inr ⟨rfl, Finset.mem_singleton.mp hholder⟩
  have hne : heldByAggregator ≠ heldByUpa := by decide
  have hreportable : Reportable separateHolders sharedPairs := by
    constructor
    · intro stpId holder vlan h
      rcases hlisted h with ⟨rfl, _⟩ | ⟨rfl, _⟩ <;> decide
    · intro stpId holder holder' vlan vlan' vlan'' _ h h' _
      rcases hlisted h with ⟨rfl, rfl⟩ | ⟨rfl, rfl⟩
      · rcases hlisted h' with ⟨rfl, _⟩ | ⟨_, heq⟩
        · rfl
        · exact absurd heq hne
      · rcases hlisted h' with ⟨_, heq⟩ | ⟨rfl, _⟩
        · exact absurd heq.symm hne
        · rfl
  exact (findings_exact_iff (reprPair fun _ => false) .empty "" (by decide)).mpr hreportable
    ascendingOrders

end NsiOrchestrator.Tasks
