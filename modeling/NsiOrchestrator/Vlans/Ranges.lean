import NsiOrchestrator.Lib.Dict
import NsiOrchestrator.Lib.Outcome
import NsiOrchestrator.Lib.Text
import NsiOrchestrator.Py
import Mathlib.Data.Finset.Union
import Mathlib.Data.Int.Range

/-! # VLAN ranges

A VLAN spec is a comma-separated list of single VLANs and ranges, as in the label
group of an STP or the label of a reserved one.
-/

namespace NsiOrchestrator.Vlans

open Text Outcome

abbrev StpVlan := String × Int

/-- `int(text)`. -/
def int (text : Chars) : Except PyError Int :=
  match readInt text with
  | some n => .ok n
  | none => .error (.valueError (.invalidLiteral (String.ofList text)))

/-- The local function of `vlan_ranges`. -/
def bounds (part : Chars) : Except PyError (Int × Int) := do
  let (low, high) := partition ['-'] part
  let low' ← int low
  let high' ← int (if high = [] then low else high)
  pure (low', high')

def vlanRanges (spec : String) : Except PyError (List (Int × Int)) :=
  (((spec.toList.splitOn ',').map strip).filter (· ≠ [])).mapM bounds

def vlanSet (spec : String) : Except PyError (Finset Int) := do
  let ranges ← vlanRanges spec
  pure (ranges.flatMap fun range => Int.range range.1 (range.2 + 1)).toFinset

/-- `"{run[0]}"` or `"{run[0]}-{run[-1]}"`. -/
def showRun : List Int → String
  | [] => ""
  | first :: rest =>
      let last := rest.getLastD first
      if first = last then toString first else s!"{first}-{last}"

/-- Runs of consecutive values share the difference of a value and its index. -/
def collapseRanges (values : List Int) : String :=
  ",".intercalate ((groupRuns (values.mapIdx fun index value => (value - (index : Int), value))).map
    fun run => showRun run.2)

def vlanInLabelGroup (vlan : Int) (labelGroup : String) : Except PyError Bool := do
  let ranges ← vlanRanges labelGroup
  pure (ranges.any fun range => decide (range.1 ≤ vlan ∧ vlan ≤ range.2))

/-- The VLAN is one the spec covers. A spec that does not parse covers none. -/
def Covers (spec : String) (vlan : Int) : Prop := ∃ vlans, vlanSet spec = .ok vlans ∧ vlan ∈ vlans

theorem covers_iff {spec : String} {vlan : Int} :
    Covers spec vlan ↔
      ∃ ranges, vlanRanges spec = .ok ranges ∧ ∃ range ∈ ranges, range.1 ≤ vlan ∧
        vlan ≤ range.2 := by
  simp only [Covers, vlanSet, bind_eq_ok, pure_eq_ok]
  constructor
  · rintro ⟨_, ⟨ranges, hranges, rfl⟩, hmem⟩
    simpa [hranges, Int.mem_range_iff, Int.lt_add_one_iff] using hmem
  · rintro ⟨ranges, hranges, h⟩
    exact ⟨_, ⟨ranges, hranges, rfl⟩, by simpa [Int.mem_range_iff, Int.lt_add_one_iff] using h⟩

theorem vlanSet_covers {spec : String} {vlans : Finset Int} (h : vlanSet spec = .ok vlans)
    (vlan : Int) : vlan ∈ vlans ↔ Covers spec vlan := by
  simp [Covers, h]

theorem vlanInLabelGroup_iff {vlan : Int} {labelGroup : String} :
    vlanInLabelGroup vlan labelGroup = .ok true ↔ Covers labelGroup vlan := by
  simp [vlanInLabelGroup, map_eq_ok, covers_iff]

instance (spec : String) (vlan : Int) : Decidable (Covers spec vlan) :=
  decidable_of_iff _ vlanInLabelGroup_iff

/-! ## A spec that does not parse -/

theorem int_onlyRaises (text : Chars) : OnlyRaises PyError.IsValueError (int text) := by
  intro e h
  unfold int at h
  split at h
  · nomatch h
  · cases h
    exact ⟨_, rfl⟩

theorem vlanSet_onlyRaises (spec : String) : OnlyRaises PyError.IsValueError (vlanSet spec) := by
  have hbounds : ∀ part, OnlyRaises PyError.IsValueError (bounds part) := fun part =>
    (int_onlyRaises _).bind fun _ => (int_onlyRaises _).bind fun _ => .pure _
  exact (OnlyRaises.mapM hbounds _).bind fun _ => .pure _

theorem mem_of_vlanSet {spec : String} {vlans : Finset Int} (h : vlanSet spec = .ok vlans)
    {c : Char} (hc : c ∈ spec.toList) :
    c ∈ [',', '-', '+', '_'] ∨ isSpace c ∨ (digitValue c).isSome := by
  obtain ⟨ranges, hranges, _⟩ := bind_eq_ok.mp h
  have hint : ∀ {text : Chars} {n : Int}, int text = .ok n → c ∈ text →
      c ∈ [',', '-', '+', '_'] ∨ isSpace c ∨ (digitValue c).isSome := by
    intro text n hint hin
    unfold int at hint
    split at hint
    · next hread =>
        rcases mem_of_readInt hread hin with h | h | h
        · exact .inr (.inl (isSpace_of_isIntSpace h))
        · exact .inl (List.mem_cons_of_mem _ h)
        · exact .inr (.inr h)
    · cases hint
  have hjoin : [','].intercalate (spec.toList.splitOn ',') = spec.toList :=
    List.intercalate_splitOn ','
  rw [← hjoin] at hc
  rcases mem_of_mem_intercalate hc with hc | ⟨part, hpart, hc⟩
  · obtain rfl := List.mem_singleton.mp hc
    exact .inl (by decide)
  rcases mem_stripBy isSpace hc with hspace | hc
  · exact .inr (.inl hspace)
  change c ∈ strip part at hc
  have hin : strip part ∈ ((spec.toList.splitOn ',').map strip).filter (· ≠ []) :=
    List.mem_filter.mpr ⟨List.mem_map_of_mem hpart, by simpa using List.ne_nil_of_mem hc⟩
  obtain ⟨range, _, hbounds⟩ := exists_of_mapM hranges hin
  simp only [bounds, bind_eq_ok] at hbounds
  obtain ⟨low, hlow, high, hhigh, _⟩ := hbounds
  rcases mem_partition ['-'] hc with hc | hc | hc
  · exact hint hlow hc
  · obtain rfl := List.mem_singleton.mp hc
    exact .inl (by decide)
  · rw [if_neg (List.ne_nil_of_mem hc)] at hhigh
    exact hint hhigh hc

theorem question_notMem_of_vlanSet {spec : String} {vlans : Finset Int}
    (h : vlanSet spec = .ok vlans) : '?' ∉ spec.toList := by
  intro hin
  have hread := mem_of_vlanSet h hin
  revert hread
  decide

/-! ## A single VLAN -/

theorem int_toString (n : Int) : int (toString n).toList = .ok n := by
  have h : readInt (toString n).toList = some n := readInt_showInt n
  rw [int, h]

theorem bounds_toDigits (n : ℕ) : bounds (Nat.toDigits 10 n) = .ok (n, n) := by
  have hdash : '-' ∉ Nat.toDigits 10 n := fun h => by
    simpa using isDigit_of_mem_toDigits h
  simp only [bounds, partition_eq_self (not_infix_of_not_mem hdash), if_true, int,
    readInt_toDigits]
  rfl

theorem vlanRanges_single (n : ℕ) : vlanRanges (toString (n : Int)) =
    .ok [((n : Int), (n : Int))] := by
  have htext : (toString (n : Int)).toList = Nat.toDigits 10 n := showInt_natCast n
  have hcomma : ',' ∉ Nat.toDigits 10 n := fun h => by simpa using isDigit_of_mem_toDigits h
  have hstrip : strip (Nat.toDigits 10 n) = Nat.toDigits 10 n :=
    stripBy_eq_self fun c hc => not_isSpace_of_isDigit (isDigit_of_mem_toDigits hc)
  rw [vlanRanges, htext, List.splitOn_eq_singleton hcomma]
  simp only [List.map_cons, List.map_nil, hstrip, ne_eq, Nat.toDigits_ne_nil, not_false_eq_true,
    decide_true, List.filter_cons_of_pos, List.filter_nil, List.mapM_cons, List.mapM_nil,
    bounds_toDigits]
  rfl

theorem vlanSet_single (n : ℕ) : vlanSet (toString (n : Int)) = .ok {(n : Int)} := by
  have hrange : (Int.range n (n + 1)).toFinset = {(n : Int)} := by
    ext vlan
    rw [List.mem_toFinset, Int.mem_range_iff, Finset.mem_singleton]
    omega
  simp only [vlanSet, vlanRanges_single, bind, Except.bind]
  simp [pure, Except.pure, hrange]

theorem covers_single (n : ℕ) : Covers (toString (n : Int)) n :=
  ⟨_, vlanSet_single n, Finset.mem_singleton_self _⟩

theorem vlanSet_empty : vlanSet "" = .ok ∅ := by decide

theorem not_covers_empty (vlan : Int) : ¬ Covers "" vlan := by
  simp [Covers, vlanSet_empty]

end NsiOrchestrator.Vlans
