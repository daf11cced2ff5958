import Mathlib.Data.Finset.Dedup
import Mathlib.Data.List.Induction
import Mathlib.Data.List.Nodup
import Mathlib.Data.List.Sort

/-! # Insertion-ordered maps

A map keeps its keys in the order they were first inserted. A comprehension over
pairs keeps the last value of a repeated key. Runs of equal adjacent keys are what
a comprehension over sorted pairs groups its values by.
-/

namespace NsiOrchestrator

variable {κ β : Type*} [DecidableEq κ]

/-- A map as its entries, each key once. -/
structure Dict (κ β : Type*) where
  entries : List (κ × β)
  nodup : (entries.map Prod.fst).Nodup
  deriving DecidableEq

namespace Dict

def keys (d : Dict κ β) : List κ := d.entries.map Prod.fst

def get? (d : Dict κ β) (k : κ) : Option β := (d.entries.find? fun e => e.1 = k).map Prod.snd

theorem get?_eq_some {d : Dict κ β} {k : κ} {v : β} : d.get? k = some v ↔ (k, v) ∈ d.entries := by
  unfold get?
  constructor
  · intro h
    obtain ⟨⟨k', v'⟩, hfind, rfl⟩ := Option.map_eq_some_iff.mp h
    obtain rfl : k' = k := by simpa using List.find?_some hfind
    exact List.mem_of_find?_eq_some hfind
  · intro h
    cases hfind : d.entries.find? fun e => e.1 = k with
    | none => exact absurd (List.find?_eq_none.mp hfind (k, v) h) (by simp)
    | some e =>
        have hkey : e.1 = k := by simpa using List.find?_some hfind
        rw [List.inj_on_of_nodup_map d.nodup (List.mem_of_find?_eq_some hfind) h hkey,
          Option.map_some]

theorem get?_isSome {d : Dict κ β} {k : κ} : (d.get? k).isSome ↔ k ∈ d.keys := by
  rw [Option.isSome_iff_exists]
  simp only [get?_eq_some, keys, List.mem_map, Prod.exists, exists_and_right, exists_eq_right]

omit [DecidableEq κ] in
theorem ext_of_ascending {ι : Type*} [LinearOrder ι] {key : κ → ι} {d d' : Dict κ β}
    (hd : d.keys.Pairwise fun k k' => key k < key k')
    (hd' : d'.keys.Pairwise fun k k' => key k < key k')
    (h : ∀ e, e ∈ d.entries ↔ e ∈ d'.entries) : d = d' := by
  have hnodup : ∀ d : Dict κ β, d.entries.Nodup := fun d => d.nodup.of_map _
  have hperm : d.entries.Perm d'.entries :=
    (List.perm_ext_iff_of_nodup (hnodup d) (hnodup d')).mpr h
  rw [keys, List.pairwise_map] at hd hd'
  have hentries : d.entries = d'.entries := by
    refine hperm.eq_of_pairwise ?_ hd hd'
    intro e e' _ _ hlt hgt
    exact absurd hlt hgt.asymm
  cases d
  cases d'
  congr

def mapValues {γ : Type*} (f : β → γ) (d : Dict κ β) : Dict κ γ :=
  ⟨d.entries.map fun e => (e.1, f e.2), by simpa [Function.comp_def] using d.nodup⟩

theorem get?_mapValues {γ : Type*} {f : β → γ} {d : Dict κ β} {k : κ} :
    (d.mapValues f).get? k = (d.get? k).map f := by
  refine Option.ext fun v => ?_
  rw [get?_eq_some, Option.map_eq_some_iff]
  simp only [mapValues, List.mem_map, Prod.mk.injEq, get?_eq_some]
  constructor
  · rintro ⟨e, he, rfl, rfl⟩
    exact ⟨e.2, he, rfl⟩
  · rintro ⟨b, hb, rfl⟩
    exact ⟨_, hb, rfl, rfl⟩

def restrict (p : κ → Bool) (d : Dict κ β) : Dict κ β :=
  ⟨d.entries.filter fun e => p e.1,
    d.nodup.sublist ((d.entries.filter_sublist (p := fun e => p e.1)).map Prod.fst)⟩

theorem get?_restrict {p : κ → Bool} {d : Dict κ β} {k : κ} :
    (d.restrict p).get? k = if p k then d.get? k else none := by
  refine Option.ext fun v => ?_
  rw [get?_eq_some, restrict, List.mem_filter]
  split
  · next h => simp [get?_eq_some, h]
  · next h => simp [h]

/-! ## Insertion and comprehensions -/

def insertEntries (k : κ) (v : β) : List (κ × β) → List (κ × β)
  | [] => [(k, v)]
  | e :: rest => if e.1 = k then (k, v) :: rest else e :: insertEntries k v rest

theorem mem_keys_insertEntries {k k' : κ} {v : β} {entries : List (κ × β)} :
    k' ∈ (insertEntries k v entries).map Prod.fst ↔ k' = k ∨ k' ∈ entries.map Prod.fst := by
  induction entries with
  | nil => simp [insertEntries]
  | cons e rest ih =>
      unfold insertEntries
      split
      · next h => simp [h]
      · rw [List.map_cons, List.mem_cons, ih, List.map_cons, List.mem_cons]
        tauto

theorem nodup_insertEntries (k : κ) (v : β) {entries : List (κ × β)}
    (h : (entries.map Prod.fst).Nodup) : ((insertEntries k v entries).map Prod.fst).Nodup := by
  induction entries with
  | nil => simp [insertEntries]
  | cons e rest ih =>
      rw [List.map_cons, List.nodup_cons] at h
      unfold insertEntries
      split
      · next hk => simpa [← hk] using h
      · next hk =>
          rw [List.map_cons, List.nodup_cons, mem_keys_insertEntries]
          exact ⟨not_or.mpr ⟨hk, h.1⟩, ih h.2⟩

theorem insertEntries_of_notMem {k : κ} {v : β} {entries : List (κ × β)}
    (h : k ∉ entries.map Prod.fst) : insertEntries k v entries = entries ++ [(k, v)] := by
  induction entries with
  | nil => rfl
  | cons e rest ih =>
      rw [List.map_cons, List.mem_cons, not_or] at h
      rw [insertEntries, if_neg (Ne.symm h.1), ih h.2, List.cons_append]

theorem mem_insertEntries {k k' : κ} {v v' : β} {entries : List (κ × β)}
    (h : (k', v') ∈ insertEntries k v entries) : (k', v') = (k, v) ∨ (k', v') ∈ entries := by
  induction entries with
  | nil => simpa [insertEntries] using h
  | cons e rest ih =>
      unfold insertEntries at h
      split at h
      · rcases List.mem_cons.mp h with h | h
        · exact .inl h
        · exact .inr (List.mem_cons_of_mem e h)
      · rcases List.mem_cons.mp h with h | h
        · exact .inr (h ▸ List.mem_cons_self)
        · exact (ih h).imp_right (List.mem_cons_of_mem e)

def empty : Dict κ β := ⟨[], by simp⟩

def insert (d : Dict κ β) (k : κ) (v : β) : Dict κ β :=
  ⟨insertEntries k v d.entries, nodup_insertEntries k v d.nodup⟩

theorem find?_insertEntries {k k' : κ} {v : β} {entries : List (κ × β)} :
    (insertEntries k v entries).find? (fun e => e.1 = k') =
      if k = k' then some (k, v) else entries.find? fun e => e.1 = k' := by
  induction entries with
  | nil => simp [insertEntries, List.find?_cons]; split <;> simp_all
  | cons e rest ih =>
      unfold insertEntries
      by_cases he : e.1 = k
      · rw [if_pos he, List.find?_cons, List.find?_cons]
        by_cases hk : k = k'
        · simp [hk]
        · simp [hk, he]
      · rw [if_neg he, List.find?_cons, List.find?_cons, ih]
        by_cases hk : k = k'
        · subst hk
          simp [he]
        · simp [hk]

theorem get?_insert {d : Dict κ β} {k k' : κ} {v : β} :
    (d.insert k v).get? k' = if k = k' then some v else d.get? k' := by
  rw [get?, insert, find?_insertEntries]
  by_cases hk : k = k'
  · simp [hk]
  · simp [hk, get?]

/-- `{k: v for k, v in pairs}`. -/
def ofPairs (pairs : List (κ × β)) : Dict κ β := pairs.foldl (fun d e => d.insert e.1 e.2) empty

theorem mem_keys_foldl {d : Dict κ β} {pairs : List (κ × β)} {k : κ} :
    k ∈ (pairs.foldl (fun d e => d.insert e.1 e.2) d).keys ↔
      k ∈ d.keys ∨ k ∈ pairs.map Prod.fst := by
  induction pairs generalizing d with
  | nil => simp
  | cons e pairs ih =>
      rw [List.foldl_cons, ih, List.map_cons, List.mem_cons]
      have : k ∈ (d.insert e.1 e.2).keys ↔ k = e.1 ∨ k ∈ d.keys := mem_keys_insertEntries
      tauto

theorem mem_keys_ofPairs {pairs : List (κ × β)} {k : κ} :
    k ∈ (ofPairs pairs).keys ↔ k ∈ pairs.map Prod.fst := by
  rw [ofPairs, mem_keys_foldl]
  simp [keys, empty]

/-- Of a key that is given more than once, the last value counts. -/
theorem get?_ofPairs_last (pairs : List (κ × β)) (k : κ) :
    (ofPairs pairs).get? k = (pairs.reverse.find? fun e => e.1 = k).map Prod.snd := by
  induction pairs using List.reverseRecOn with
  | nil => rfl
  | append_singleton pairs e ih =>
      rw [ofPairs, List.foldl_append, List.foldl_cons, List.foldl_nil, get?_insert,
        List.reverse_append, List.reverse_singleton, List.singleton_append, List.find?_cons]
      by_cases hk : e.1 = k
      · simp [hk]
      · simpa [hk, ofPairs] using ih

theorem get?_ofPairs_map {ι : Type*} (key : ι → κ) (value : ι → β) (items : List ι) (k : κ) :
    (ofPairs (items.map fun i => (key i, value i))).get? k =
      (items.reverse.find? fun i => key i = k).map value := by
  rw [get?_ofPairs_last, ← List.map_reverse, List.find?_map]
  simp [Function.comp_def]

theorem mem_foldl {d : Dict κ β} {pairs : List (κ × β)} {e : κ × β}
    (h : e ∈ (pairs.foldl (fun d e => d.insert e.1 e.2) d).entries) :
    e ∈ d.entries ∨ e ∈ pairs := by
  induction pairs generalizing d with
  | nil => exact .inl h
  | cons e' pairs ih =>
      rcases ih h with h | h
      · rcases mem_insertEntries h with (rfl : e = e') | h
        · exact .inr List.mem_cons_self
        · exact .inl h
      · exact .inr (List.mem_cons_of_mem e' h)

theorem mem_of_mem_ofPairs {pairs : List (κ × β)} {e : κ × β} (h : e ∈ (ofPairs pairs).entries) :
    e ∈ pairs := by
  rcases mem_foldl h with h | h
  · cases h
  · exact h

theorem entries_foldl {d : Dict κ β} {pairs : List (κ × β)}
    (h : ((d.entries ++ pairs).map Prod.fst).Nodup) :
    (pairs.foldl (fun d e => d.insert e.1 e.2) d).entries = d.entries ++ pairs := by
  induction pairs generalizing d with
  | nil => simp
  | cons e pairs ih =>
      have hnew : e.1 ∉ d.entries.map Prod.fst := by
        rw [List.map_append, List.nodup_append] at h
        exact fun hin => h.2.2 e.1 hin e.1 (by simp) rfl
      have hinsert : (d.insert e.1 e.2).entries = d.entries ++ [e] := insertEntries_of_notMem hnew
      rw [List.foldl_cons, ih (by simpa [hinsert] using h), hinsert, List.append_assoc,
        List.singleton_append]

theorem entries_ofPairs {pairs : List (κ × β)} (h : (pairs.map Prod.fst).Nodup) :
    (ofPairs pairs).entries = pairs :=
  entries_foldl (d := empty) h

theorem get?_ofPairs {pairs : List (κ × β)} (h : (pairs.map Prod.fst).Nodup) {k : κ} {v : β} :
    (ofPairs pairs).get? k = some v ↔ (k, v) ∈ pairs := by
  rw [get?_eq_some, entries_ofPairs h]

end Dict

/-! ## Runs of equal keys -/

/-- `groupby` on the keys: adjacent pairs with one key, as the key and its values. -/
def groupRuns : List (κ × β) → List (κ × List β)
  | [] => []
  | (k, v) :: rest =>
      match groupRuns rest with
      | [] => [(k, [v])]
      | (k', vs) :: groups =>
          if k' = k then (k, v :: vs) :: groups else (k, [v]) :: (k', vs) :: groups

theorem groupRuns_flatten (l : List (κ × β)) :
    (groupRuns l).flatMap (fun group => group.2.map (group.1, ·)) = l := by
  induction l with
  | nil => rfl
  | cons e l ih =>
      unfold groupRuns
      split
      · next h => simpa [h] using ih
      · next k' vs groups h =>
          rw [h] at ih
          split
          · next hk =>
              subst hk
              rw [← ih]
              rfl
          · rw [← ih]
            rfl

theorem groupRuns_ne_nil {l : List (κ × β)} {group : κ × List β} (h : group ∈ groupRuns l) :
    group.2 ≠ [] := by
  induction l with
  | nil => cases h
  | cons e l ih =>
      unfold groupRuns at h
      split at h
      · simp_all
      · next k' vs groups hgroups =>
          rw [hgroups] at ih
          split at h
          · rcases List.mem_cons.mp h with rfl | h
            · simp
            · exact ih (by simp [h])
          · rcases List.mem_cons.mp h with rfl | h
            · simp
            · exact ih h

theorem mem_groupRuns {l : List (κ × β)} {k : κ} {v : β} :
    (k, v) ∈ l ↔ ∃ group ∈ groupRuns l, group.1 = k ∧ v ∈ group.2 := by
  conv_lhs => rw [← groupRuns_flatten l]
  simp only [List.mem_flatMap, List.mem_map, Prod.mk.injEq]
  constructor
  · rintro ⟨group, hgroup, v', hv, rfl, rfl⟩
    exact ⟨group, hgroup, rfl, hv⟩
  · rintro ⟨group, hgroup, rfl, hv⟩
    exact ⟨group, hgroup, v, hv, rfl, rfl⟩

theorem mem_keys_groupRuns {l : List (κ × β)} {k : κ} :
    k ∈ (groupRuns l).map Prod.fst ↔ k ∈ l.map Prod.fst := by
  constructor
  · intro h
    obtain ⟨group, hgroup, rfl⟩ := List.mem_map.mp h
    obtain ⟨v, hv⟩ := List.exists_mem_of_ne_nil group.2 (groupRuns_ne_nil hgroup)
    exact List.mem_map.mpr ⟨(group.1, v), mem_groupRuns.mpr ⟨group, hgroup, rfl, hv⟩, rfl⟩
  · intro h
    obtain ⟨⟨k, v⟩, he, rfl⟩ := List.mem_map.mp h
    obtain ⟨group, hgroup, hkey, _⟩ := mem_groupRuns.mp he
    exact List.mem_map.mpr ⟨group, hgroup, hkey⟩

/-- Runs of sorted pairs have strictly ascending keys when the sort key tells the
keys apart. -/
theorem groupRuns_ascending {ι : Type*} [LinearOrder ι] {key : κ → ι} {l : List (κ × β)}
    (hsorted : l.Pairwise fun a b => key a.1 ≤ key b.1)
    (hinj : ∀ a ∈ l, ∀ b ∈ l, key a.1 = key b.1 → a.1 = b.1) :
    ((groupRuns l).map Prod.fst).Pairwise fun k k' => key k < key k' := by
  induction l with
  | nil => simp [groupRuns]
  | cons e l ih =>
      rw [List.pairwise_cons] at hsorted
      have ih := ih hsorted.2 fun a ha b hb => hinj a (by simp [ha]) b (by simp [hb])
      have hkeys : ∀ k ∈ (groupRuns l).map Prod.fst, ∃ b ∈ l, b.1 = k := fun k hk => by
        simpa using mem_keys_groupRuns.mp hk
      unfold groupRuns
      split
      · simp
      · next k' vs groups h =>
          rw [h] at ih hkeys
          split
          · next hk => simpa [← hk] using ih
          · next hk =>
              rw [List.map_cons, List.pairwise_cons]
              refine ⟨fun k hk' => ?_, ih⟩
              have hle : key e.1 ≤ key k' := by
                obtain ⟨b, hb, rfl⟩ := hkeys k' (by simp)
                exact hsorted.1 b hb
              have hlt : key e.1 < key k' := by
                obtain ⟨b, hb, rfl⟩ := hkeys k' (by simp)
                exact lt_of_le_of_ne hle fun heq => hk (hinj e (by simp) b (by simp [hb]) heq).symm
              rcases List.mem_cons.mp hk' with rfl | hk'
              · exact hlt
              · rw [List.map_cons, List.pairwise_cons] at ih
                exact hlt.trans (ih.1 k hk')

end NsiOrchestrator
