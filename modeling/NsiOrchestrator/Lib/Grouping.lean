import NsiOrchestrator.Lib.Dict

/-! # When grouping loses values

A comprehension over the runs of a list keeps only the last run of a key. Nothing is
lost where equal keys are adjacent. Where another key stands between two entries of a
key, the earlier value is.
-/

namespace NsiOrchestrator

variable {κ β : Type*} [DecidableEq κ]

/-- No other key stands between two entries of one key. -/
def Adjacent (l : List (κ × β)) : Prop :=
  ∀ a b c, [a, b, c].Sublist l → a.1 = c.1 → b.1 = a.1

theorem groupRuns_cons (e : κ × β) (l : List (κ × β)) :
    ∃ values groups, groupRuns (e :: l) = (e.1, values) :: groups := by
  unfold groupRuns
  split
  · exact ⟨_, _, rfl⟩
  · next k' vs groups _ =>
      by_cases hk : k' = e.1
      · simp only [hk, if_true]
        exact ⟨_, _, rfl⟩
      · simp only [hk, if_false]
        exact ⟨_, _, rfl⟩

/-- The first run of a longer list either takes in the entry or follows it. -/
theorem groupRuns_cons_of_groupRuns {l : List (κ × β)} {k : κ} {values : List β}
    {groups : List (κ × List β)} (h : groupRuns l = (k, values) :: groups) (e : κ × β) :
    groupRuns (e :: l) =
      if k = e.1 then (e.1, e.2 :: values) :: groups
      else (e.1, [e.2]) :: (k, values) :: groups := by
  rw [groupRuns, h]

theorem groupRuns_nodup {l : List (κ × β)} (h : Adjacent l) :
    ((groupRuns l).map Prod.fst).Nodup := by
  induction l with
  | nil => simp [groupRuns]
  | cons e l ih =>
      have ih := ih fun a b c hsub => h a b c (hsub.cons e)
      cases l with
      | nil => simp [groupRuns]
      | cons e' l =>
          obtain ⟨values, groups, hgroups⟩ := groupRuns_cons e' l
          have hkeys : ∀ k, k ∈ e'.1 :: groups.map Prod.fst ↔ k ∈ (e' :: l).map Prod.fst := by
            intro k
            rw [← mem_keys_groupRuns, hgroups, List.map_cons]
          rw [groupRuns_cons_of_groupRuns hgroups]
          rw [hgroups, List.map_cons] at ih
          by_cases hk : e'.1 = e.1
          · simpa [hk] using ih
          · rw [if_neg hk, List.map_cons, List.map_cons, List.nodup_cons]
            refine ⟨fun hin => ?_, ih⟩
            obtain ⟨c, hc, hkey⟩ := List.mem_map.mp ((hkeys e.1).mp hin)
            rcases List.mem_cons.mp hc with rfl | hc
            · exact hk hkey
            · have hsub : [e, e', c].Sublist (e :: e' :: l) :=
                ((List.singleton_sublist.mpr hc).cons_cons e').cons_cons e
              exact hk (h e e' c hsub hkey.symm)

/-! ## Values that are lost -/

def lastRun (k : κ) (groups : List (κ × List β)) : Option (List β) :=
  (groups.reverse.find? fun group => group.1 = k).map Prod.snd

theorem lastRun_cons_of_mem {k : κ} {group : κ × List β} {groups : List (κ × List β)}
    (h : k ∈ groups.map Prod.fst) : lastRun k (group :: groups) = lastRun k groups := by
  obtain ⟨group', hgroup', hkey⟩ := List.mem_map.mp h
  have hsome : (groups.reverse.find? fun group => group.1 = k).isSome := by
    rw [List.find?_isSome]
    exact ⟨group', List.mem_reverse.mpr hgroup', by simp [hkey]⟩
  rw [lastRun, lastRun, List.reverse_cons, List.find?_append, Option.or_of_isSome hsome]

theorem mem_of_lastRun {k : κ} {values : List β} {groups : List (κ × List β)}
    (h : lastRun k groups = some values) : (k, values) ∈ groups := by
  obtain ⟨group, hfind, rfl⟩ := Option.map_eq_some_iff.mp h
  have hkey : group.1 = k := by simpa using List.find?_some hfind
  rw [← hkey]
  exact List.mem_reverse.mp (List.mem_of_find?_eq_some hfind)

theorem mem_tail_groupRuns {l : List (κ × β)} {k k' : κ} {y z : β} (hne : k' ≠ k)
    (h : [(k', y), (k, z)].Sublist l) : k ∈ (groupRuns l).tail.map Prod.fst := by
  induction l with
  | nil => cases h
  | cons e l ih =>
      cases l with
      | nil => simpa using h.length_le
      | cons e' l =>
          obtain ⟨values, groups, hgroups⟩ := groupRuns_cons e' l
          rw [groupRuns_cons_of_groupRuns hgroups]
          rw [hgroups, List.tail_cons] at ih
          by_cases hmerge : e'.1 = e.1
          · rw [if_pos hmerge, List.tail_cons]
            cases h with
            | cons _ h => exact ih h
            | cons_cons _ h =>
                have hin : k ∈ (groupRuns (e' :: l)).map Prod.fst :=
                  mem_keys_groupRuns.mpr (List.mem_map_of_mem (List.singleton_sublist.mp h))
                rw [hgroups, List.map_cons, List.mem_cons] at hin
                exact hin.resolve_left fun heq => hne (heq.trans hmerge).symm
          · rw [if_neg hmerge, List.tail_cons, List.map_cons]
            have hz : (k, z) ∈ e' :: l := by
              cases h with
              | cons _ h => exact h.subset (List.mem_pair.mpr (.inr rfl))
              | cons_cons _ h => exact List.singleton_sublist.mp h
            have hin : k ∈ (groupRuns (e' :: l)).map Prod.fst :=
              mem_keys_groupRuns.mpr (List.mem_map_of_mem hz)
            rwa [hgroups, List.map_cons] at hin

/-- A value is not in the last run of its key when another key stands between it and
a later value. -/
theorem not_mem_lastRun {l : List (κ × β)} {k k' : κ} {x y z : β} (hnodup : l.Nodup)
    (hne : k' ≠ k) (h : [(k, x), (k', y), (k, z)].Sublist l) {values : List β}
    (hlast : lastRun k (groupRuns l) = some values) : x ∉ values := by
  induction l with
  | nil => cases h
  | cons e l ih =>
      rw [List.nodup_cons] at hnodup
      cases l with
      | nil => simpa using h.length_le
      | cons e' l =>
          obtain ⟨first, groups, hgroups⟩ := groupRuns_cons e' l
          have htail : k ∈ groups.map Prod.fst := by
            have hsub : [(k', y), (k, z)].Sublist (e' :: l) := by
              cases h with
              | cons _ h => exact (List.sublist_cons_self _ _).trans h
              | cons_cons _ h => exact h
            simpa [hgroups] using mem_tail_groupRuns hne hsub
          have hrest : lastRun k (groupRuns (e :: e' :: l)) = lastRun k groups := by
            rw [groupRuns_cons_of_groupRuns hgroups]
            by_cases hmerge : e'.1 = e.1
            · rw [if_pos hmerge, lastRun_cons_of_mem htail]
            · rw [if_neg hmerge, lastRun_cons_of_mem (List.mem_cons_of_mem _ htail),
                lastRun_cons_of_mem htail]
          rw [hrest] at hlast
          cases h with
          | cons _ h =>
              refine ih hnodup.2 h ?_
              rw [hgroups, lastRun_cons_of_mem htail, hlast]
          | cons_cons _ h =>
              intro hx
              have hin : (k, x) ∈ e' :: l := by
                rw [mem_groupRuns, hgroups]
                exact ⟨(k, values), List.mem_cons_of_mem _ (mem_of_lastRun hlast), rfl, hx⟩
              exact hnodup.1 hin

end NsiOrchestrator
