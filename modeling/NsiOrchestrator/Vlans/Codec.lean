import NsiOrchestrator.Lib.Runs
import NsiOrchestrator.Lib.SetOrder
import NsiOrchestrator.Vlans.Ranges

/-! # VLAN specs as a codec

Collapsing the VLANs of a spec writes it in a canonical form: ascending ranges with a
gap between each two. Reading that form gives back the VLANs it was written from.
-/

namespace NsiOrchestrator.Vlans

open Text Outcome

/-! ## Writing -/

def showRange (range : Int × Int) : String :=
  if range.1 = range.2 then toString range.1 else s!"{range.1}-{range.2}"

theorem showRun_eq (run : List Int) : showRun run =
    (run.head?.map fun first => showRange (first, run.getLast?.getD first)).getD "" := by
  cases run with
  | nil => rfl
  | cons first rest => simp [showRun, showRange, List.getLast?_cons, List.getLastD_eq_getLast?]

theorem collapseRanges_eq (values : List Int) :
    collapseRanges values = ",".intercalate ((spans values).map showRange) := by
  have h := congrArg (List.map fun ends : Option Int × Option Int =>
    (ends.1.map fun first => showRange (first, ends.2.getD first)).getD "")
    (groupRuns_differences 0 values)
  simp only [List.map_map, Function.comp_def, Option.map_some, Option.getD_some] at h
  simp only [collapseRanges, mapIdx_eq_differences, showRun_eq, h]

/-! ## Reading what was written -/

theorem toList_toString_natCast (n : ℕ) : (toString (n : Int)).toList = Nat.toDigits 10 n :=
  showInt_natCast n

theorem toList_showRange (n m : ℕ) : (showRange (n, m)).toList =
    if n = m then Nat.toDigits 10 n else Nat.toDigits 10 n ++ '-' :: Nat.toDigits 10 m := by
  by_cases h : n = m
  · simp only [showRange, h, if_true, toList_toString_natCast]
  · have hne : ¬ (n : Int) = m := by omega
    simp only [showRange, h, hne, if_false]
    rw [show s!"{(n : Int)}-{(m : Int)}" = toString (n : Int) ++ "-" ++ toString (m : Int) from rfl,
      String.toList_append, String.toList_append, toList_toString_natCast,
      toList_toString_natCast, List.append_assoc]
    rfl

theorem mem_toList_showRange {n m : ℕ} {c : Char} (h : c ∈ (showRange (n, m)).toList) :
    c = '-' ∨ c.isDigit := by
  rw [toList_showRange] at h
  split at h
  · exact .inr (isDigit_of_mem_toDigits h)
  · rw [List.mem_append, List.mem_cons] at h
    rcases h with h | h | h
    · exact .inr (isDigit_of_mem_toDigits h)
    · exact .inl h
    · exact .inr (isDigit_of_mem_toDigits h)

theorem bounds_showRange (n m : ℕ) : bounds (showRange (n, m)).toList = .ok (n, m) := by
  rw [toList_showRange]
  by_cases h : n = m
  · rw [if_pos h, bounds_toDigits, h]
  · have hdash : '-' ∉ Nat.toDigits 10 n := (numeral_toDigits n).not_mem (by decide)
    rw [if_neg h]
    simp only [bounds, partition_char hdash, Nat.toDigits_ne_nil, if_false, int, readInt_toDigits]
    rfl

theorem strip_showRange (n m : ℕ) :
    strip (showRange (n, m)).toList = (showRange (n, m)).toList := by
  refine stripBy_eq_self fun c hc => ?_
  rcases mem_toList_showRange hc with rfl | hdigit
  · decide
  · exact not_isSpace_of_isDigit hdigit

theorem showRange_ne_nil (n m : ℕ) : (showRange (n, m)).toList ≠ [] := by
  rw [toList_showRange]
  split
  · exact Nat.toDigits_ne_nil
  · simp

theorem vlanRanges_show {ranges : List (Int × Int)}
    (h : ∀ range ∈ ranges, 0 ≤ range.1 ∧ 0 ≤ range.2) :
    vlanRanges (",".intercalate (ranges.map showRange)) = .ok ranges := by
  have hnat : ∀ range ∈ ranges, ∃ n m : ℕ, range = ((n : Int), (m : Int)) := by
    intro range hrange
    obtain ⟨hlow, hhigh⟩ := h range hrange
    exact ⟨range.1.toNat, range.2.toNat, by ext <;> simp [hlow, hhigh]⟩
  have hcomma : ∀ text ∈ ranges.map fun range => (showRange range).toList, ',' ∉ text := by
    intro text htext hin
    obtain ⟨range, hrange, rfl⟩ := List.mem_map.mp htext
    obtain ⟨n, m, rfl⟩ := hnat range hrange
    rcases mem_toList_showRange hin with hc | hc
    · exact absurd hc (by decide)
    · exact absurd hc (by decide)
  have hparts : (((ranges.map fun range => (showRange range).toList).map strip).filter (· ≠ [])) =
      ranges.map fun range => (showRange range).toList := by
    have hstrip : (ranges.map fun range => (showRange range).toList).map strip =
        ranges.map fun range => (showRange range).toList := by
      rw [List.map_map]
      refine List.map_congr_left fun range hrange => ?_
      obtain ⟨n, m, rfl⟩ := hnat range hrange
      exact strip_showRange n m
    rw [hstrip, List.filter_eq_self]
    intro text htext
    obtain ⟨range, hrange, rfl⟩ := List.mem_map.mp htext
    obtain ⟨n, m, rfl⟩ := hnat range hrange
    exact decide_eq_true (showRange_ne_nil n m)
  have hbounds : (ranges.map fun range => (showRange range).toList).mapM bounds = .ok ranges := by
    rw [mapM_eq_ok, List.forall₂_map_left_iff, List.forall₂_same]
    intro range hrange
    obtain ⟨n, m, rfl⟩ := hnat range hrange
    exact bounds_showRange n m
  by_cases hnil : ranges = []
  · subst hnil
    rfl
  · have hsplit : (",".intercalate (ranges.map showRange)).toList.splitOn ',' =
        ranges.map fun range => (showRange range).toList := by
      rw [String.toList_intercalate, List.map_map]
      exact List.splitOn_intercalate ',' hcomma (by simpa using hnil)
    rw [vlanRanges, hsplit, hparts, hbounds]

theorem vlanRanges_collapseRanges {values : List Int} (hascending : values.Pairwise (· < ·))
    (hnonneg : ∀ value ∈ values, 0 ≤ value) :
    vlanRanges (collapseRanges values) = .ok (spans values) := by
  rw [collapseRanges_eq]
  refine vlanRanges_show fun range hrange => ?_
  have hle := (spans_separated hascending).nonempty range hrange
  have hlow : 0 ≤ range.1 :=
    hnonneg _ ((mem_spans hascending _).mpr ⟨range, hrange, le_refl _, hle⟩)
  exact ⟨hlow, hlow.trans hle⟩

theorem vlanSet_collapseRanges {vlans : Finset Int} (hnonneg : ∀ vlan ∈ vlans, 0 ≤ vlan) :
    vlanSet (collapseRanges (sorted vlans)) = .ok vlans := by
  have hranges := vlanRanges_collapseRanges (sorted_ascending vlans) fun vlan hvlan =>
    hnonneg vlan (mem_sorted.mp hvlan)
  simp only [vlanSet, bind_eq_ok, pure_eq_ok]
  refine ⟨_, hranges, ?_⟩
  ext vlan
  rw [← mem_sorted (s := vlans), mem_spans (sorted_ascending vlans)]
  simp only [List.mem_toFinset, List.mem_flatMap, Int.mem_range_iff, Int.lt_add_one_iff,
    Prod.exists]

/-! ## Reading any spec -/

/-- The low end of a range is the text before the first dash, so it has no sign. -/
theorem bounds_nonneg {part : Chars} {range : Int × Int} (h : bounds part = .ok range) :
    0 ≤ range.1 := by
  obtain ⟨low, hlow, h⟩ := bind_eq_ok.mp h
  obtain ⟨high, _, h⟩ := bind_eq_ok.mp h
  cases pure_eq_ok.mp h
  unfold int at hlow
  split at hlow
  · next n hread =>
      cases hlow
      exact readInt_nonneg hread (not_mem_partition_char '-' part)
  · cases hlow

theorem covers_nonneg {spec : String} {vlan : Int} (h : Covers spec vlan) : 0 ≤ vlan := by
  obtain ⟨ranges, hranges, range, hin, hlow, _⟩ := covers_iff.mp h
  obtain ⟨part, _, hpart⟩ := exists_of_mem_mapM hranges hin
  exact (bounds_nonneg hpart).trans hlow

theorem vlanSet_nonneg {spec : String} {vlans : Finset Int} (h : vlanSet spec = .ok vlans) :
    ∀ vlan ∈ vlans, 0 ≤ vlan :=
  fun vlan hvlan => covers_nonneg ((vlanSet_covers h vlan).mp hvlan)

def Blanks (text : Chars) : Prop := ∀ c ∈ text, isIntSpace c

/-- A part of a spec: nothing, a VLAN or a range, with blanks anywhere but inside a numeral. -/
inductive WellFormedPart : Chars → Prop
  | empty {blanks : Chars} : Blanks blanks → WellFormedPart blanks
  | single {before vlan after : Chars} :
      Blanks before → Numeral vlan → Blanks after → WellFormedPart (before ++ vlan ++ after)
  | range {before low left right high after : Chars} :
      Blanks before → Numeral low → Blanks left → Blanks right → Numeral high → Blanks after →
        WellFormedPart (before ++ (low ++ (left ++ '-' :: (right ++ high))) ++ after)

def WellFormed (spec : String) : Prop := ∀ part ∈ spec.toList.splitOn ',', WellFormedPart part

theorem blanks_nil : Blanks [] := fun _ hc => absurd hc List.not_mem_nil

theorem int_numeral {before vlan after : Chars} (hbefore : Blanks before) (h : Numeral vlan)
    (hafter : Blanks after) :
    int (before ++ vlan ++ after) = .ok (Nat.ofDigitChars 10 vlan 0 : Int) := by
  rw [int, h.readInt hbefore hafter]

theorem WellFormedPart.bounds {part : Chars} (h : WellFormedPart part) :
    strip part = [] ∨ ∃ range, bounds (strip part) = .ok range := by
  cases h with
  | empty hblanks => exact .inl (stripBy_eq_nil fun c hc => isSpace_of_isIntSpace (hblanks c hc))
  | @single before vlan after hbefore hvlan hafter =>
      have hstrip : strip (before ++ vlan ++ after) = vlan :=
        stripBy_append (fun c hc => isSpace_of_isIntSpace (hbefore c hc))
          (fun c hc => isSpace_of_isIntSpace (hafter c hc)) hvlan.ne_nil hvlan.not_isSpace_head
          hvlan.not_isSpace_getLast
      have hdash : '-' ∉ vlan := hvlan.not_mem (by decide)
      have hint := int_numeral blanks_nil hvlan blanks_nil
      rw [List.nil_append, List.append_nil] at hint
      rw [hstrip]
      simp only [Vlans.bounds, partition_eq_self (not_infix_of_not_mem hdash), if_true, hint]
      exact .inr ⟨_, rfl⟩
  | @range before low left right high after hbefore hlow hleft hright hhigh hafter =>
      have hne : low ++ (left ++ '-' :: (right ++ high)) ≠ [] := by simp
      have hhead : isSpace ((low ++ (left ++ '-' :: (right ++ high))).head hne) = false := by
        rw [List.head_append_of_ne_nil hlow.ne_nil]
        exact hlow.not_isSpace_head
      have hlast : isSpace ((low ++ (left ++ '-' :: (right ++ high))).getLast hne) = false := by
        have hne' : right ++ high ≠ [] := by simp [hhigh.ne_nil]
        rw [List.getLast_append_of_ne_nil _ (by simp),
          List.getLast_append_of_ne_nil _ (List.cons_ne_nil _ _), List.getLast_cons hne',
          List.getLast_append_of_ne_nil _ hhigh.ne_nil]
        exact hhigh.not_isSpace_getLast
      have hstrip := stripBy_append (fun c hc => isSpace_of_isIntSpace (hbefore c hc))
        (fun c hc => isSpace_of_isIntSpace (hafter c hc)) hne hhead hlast
      have hdash : '-' ∉ low ++ left := by
        intro hin
        rcases List.mem_append.mp hin with hin | hin
        · exact hlow.not_mem (by decide) hin
        · exact absurd (hleft _ hin) (by decide)
      have hlow' := int_numeral blanks_nil hlow hleft
      have hhigh' := int_numeral hright hhigh blanks_nil
      rw [List.nil_append] at hlow'
      rw [List.append_nil] at hhigh'
      rw [strip, hstrip, ← List.append_assoc]
      simp only [Vlans.bounds, partition_char hdash, List.append_eq_nil_iff, hhigh.ne_nil,
        and_false, if_false, hlow', hhigh']
      exact .inr ⟨_, rfl⟩

theorem WellFormed.vlanSet {spec : String} (h : WellFormed spec) :
    ∃ vlans, vlanSet spec = .ok vlans := by
  obtain ⟨ranges, hranges⟩ : ∃ ranges, vlanRanges spec = .ok ranges := by
    refine exists_mapM fun text htext => ?_
    rw [List.mem_filter, List.mem_map, decide_eq_true_eq] at htext
    obtain ⟨⟨part, hpart, rfl⟩, hne⟩ := htext
    exact (h part hpart).bounds.resolve_left hne
  exact ⟨_, bind_eq_ok.mpr ⟨ranges, hranges, rfl⟩⟩

theorem wellFormed_range (low high : Chars) (hlow : Numeral low) (hhigh : Numeral high) :
    WellFormed (String.ofList (low ++ '-' :: high)) := by
  have hcomma : ',' ∉ low ++ '-' :: high := by
    have hlow' : ',' ∉ low := hlow.not_mem (by decide)
    have hhigh' : ',' ∉ high := hhigh.not_mem (by decide)
    simp [hlow', hhigh']
  intro part hpart
  rw [String.toList_ofList, List.splitOn_eq_singleton hcomma, List.mem_singleton] at hpart
  have hrange := WellFormedPart.range blanks_nil hlow blanks_nil blanks_nil hhigh blanks_nil
  simpa [hpart] using hrange

/-! ## The canonical form -/

/-- The VLANs of a spec, collapsed. -/
def canonical (spec : String) : Except PyError String := do
  let vlans ← vlanSet spec
  pure (collapseRanges (sorted vlans))

theorem canonical_eq_ok {spec text : String} :
    canonical spec = .ok text ↔
      ∃ vlans, vlanSet spec = .ok vlans ∧ collapseRanges (sorted vlans) = text := by
  simp only [canonical, bind_eq_ok, pure_eq_ok]

theorem vlanSet_canonical {spec text : String} (h : canonical spec = .ok text) :
    vlanSet text = vlanSet spec := by
  obtain ⟨vlans, hvlans, rfl⟩ := canonical_eq_ok.mp h
  rw [vlanSet_collapseRanges (vlanSet_nonneg hvlans), hvlans]

theorem canonical_idempotent {spec text : String} (h : canonical spec = .ok text) :
    canonical text = .ok text := by
  rw [← h, canonical, canonical, vlanSet_canonical h]

theorem canonical_eq_iff {spec spec' text text' : String} (h : canonical spec = .ok text)
    (h' : canonical spec' = .ok text') : text = text' ↔ vlanSet spec = vlanSet spec' := by
  constructor
  · rintro rfl
    rw [← vlanSet_canonical h, vlanSet_canonical h']
  · intro heq
    have hcanonical : canonical spec = canonical spec' := by simp only [canonical, heq]
    rw [h, h'] at hcanonical
    exact Except.ok.inj hcanonical

theorem natCast_nonneg_of_mem {vlans : Finset ℕ} :
    ∀ vlan ∈ vlans.image (Nat.cast : ℕ → Int), 0 ≤ vlan := by
  intro vlan hvlan
  obtain ⟨n, _, rfl⟩ := Finset.mem_image.mp hvlan
  exact Int.natCast_nonneg n

/-- Collapsing and reading are inverse up to the order and overlap of the ranges:
every set of VLANs is read back from its text, whose ranges are its maximal runs, and
a well-formed spec has one canonical form for the VLANs it covers. -/
theorem collapseRanges_codec (vlans : Finset ℕ) {spec spec' : String} (h : WellFormed spec)
    (h' : WellFormed spec') :
    (vlanSet (collapseRanges (sorted (vlans.image (Nat.cast : ℕ → Int)))) =
        .ok (vlans.image Nat.cast) ∧
      ∃ ranges, vlanRanges (collapseRanges (sorted (vlans.image (Nat.cast : ℕ → Int)))) =
        .ok ranges ∧ Separated ranges) ∧
    ∃ text text', canonical spec = .ok text ∧ canonical spec' = .ok text' ∧
      (text = text' ↔ vlanSet spec = vlanSet spec') ∧ canonical text = .ok text := by
  obtain ⟨read, hread⟩ := h.vlanSet
  obtain ⟨read', hread'⟩ := h'.vlanSet
  have htext := canonical_eq_ok.mpr ⟨read, hread, rfl⟩
  have htext' := canonical_eq_ok.mpr ⟨read', hread', rfl⟩
  have hranges := vlanRanges_collapseRanges (sorted_ascending (vlans.image (Nat.cast : ℕ → Int)))
    fun vlan hvlan => natCast_nonneg_of_mem vlan (mem_sorted.mp hvlan)
  exact ⟨⟨vlanSet_collapseRanges natCast_nonneg_of_mem, _, hranges,
    spans_separated (sorted_ascending _)⟩, _, _, htext, htext', canonical_eq_iff htext htext',
    canonical_idempotent htext⟩

/-- A range and its two VLANs have one canonical form. -/
theorem collapseRanges_codec_range :
    ∃ text, canonical "100-101" = .ok text ∧ canonical "100, 101" = .ok text := by
  have hblank : Blanks [' '] := by simp [Blanks, isIntSpace, isSpace, spaceCodes]
  have hlow : Numeral "100".toList := numeral_toDigits 100
  have hhigh : Numeral "101".toList := numeral_toDigits 101
  have h : WellFormed "100-101" := wellFormed_range "100".toList "101".toList hlow hhigh
  have h' : WellFormed "100, 101" := by
    intro part hpart
    rw [show "100, 101".toList.splitOn ',' = ["100".toList, " 101".toList] by decide,
      List.mem_pair] at hpart
    rcases hpart with rfl | rfl
    · exact WellFormedPart.single blanks_nil hlow blanks_nil
    · exact WellFormedPart.single hblank hhigh blanks_nil
  obtain ⟨text, text', htext, htext', hiff, _⟩ := (collapseRanges_codec {1, 2, 3, 5} h h').2
  have heq : text = text' := hiff.mpr rfl
  exact ⟨text, htext, heq ▸ htext'⟩

end NsiOrchestrator.Vlans
