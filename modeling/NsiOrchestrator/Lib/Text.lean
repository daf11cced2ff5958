import Mathlib.Data.List.DropRight
import Mathlib.Data.List.Infix

/-! # Character-list text operations

The built-in string operations of the modelled program, on lists of code points:
splitting on a character, partitioning on a separator, stripping blanks, and
reading and writing decimal integers. Reading accepts every decimal digit of
Unicode 15.1, single underscores between digits, a sign and surrounding blanks;
the interpreter's configurable limit on the number of digits is left out.
-/

namespace NsiOrchestrator.Text

abbrev Chars := List Char

/-! ## Blanks -/

/-- The code points `str.isspace` accepts. -/
def spaceCodes : List Nat :=
  [0x9, 0xa, 0xb, 0xc, 0xd, 0x1c, 0x1d, 0x1e, 0x1f, 0x20, 0x85, 0xa0, 0x1680, 0x2000, 0x2001,
    0x2002, 0x2003, 0x2004, 0x2005, 0x2006, 0x2007, 0x2008, 0x2009, 0x200a, 0x2028, 0x2029, 0x202f,
    0x205f, 0x3000]

def isSpace (c : Char) : Bool := spaceCodes.contains c.toNat

/-- `int()` does not skip the four ASCII information separators. -/
def isIntSpace (c : Char) : Bool := isSpace c && !(0x1c ≤ c.toNat && c.toNat ≤ 0x1f)

def stripBy (blank : Char → Bool) (s : Chars) : Chars := (s.dropWhile blank).rdropWhile blank

def strip (s : Chars) : Chars := stripBy isSpace s

theorem stripBy_eq_self {blank : Char → Bool} {s : Chars} (h : ∀ c ∈ s, blank c = false) :
    stripBy blank s = s := by
  unfold stripBy
  have hdrop : s.dropWhile blank = s := by
    cases s with
    | nil => rfl
    | cons c s => simp [h c (by simp)]
  rw [hdrop, List.rdropWhile_eq_self_iff]
  intro hs
  simp [h _ (List.getLast_mem hs)]

theorem stripBy_eq_nil {blank : Char → Bool} {s : Chars} (h : ∀ c ∈ s, blank c) :
    stripBy blank s = [] := by
  have hdrop : s.dropWhile blank = [] := List.dropWhile_eq_nil_iff.mpr h
  simp [stripBy, hdrop]

theorem stripBy_append {blank : Char → Bool} {before s after : Chars}
    (hbefore : ∀ c ∈ before, blank c) (hafter : ∀ c ∈ after, blank c) (hs : s ≠ [])
    (hhead : blank (s.head hs) = false) (hlast : blank (s.getLast hs) = false) :
    stripBy blank (before ++ s ++ after) = s := by
  have hdrop : (before ++ s ++ after).dropWhile blank = s ++ after := by
    rw [List.append_assoc, List.dropWhile_append_of_pos hbefore]
    cases s with
    | nil => exact absurd rfl hs
    | cons c s => simp [show blank c = false from hhead]
  rw [stripBy, hdrop, List.rdropWhile, List.reverse_append,
    List.dropWhile_append_of_pos fun c hc => hafter c (List.mem_reverse.mp hc)]
  change List.rdropWhile blank s = s
  rw [List.rdropWhile_eq_self_iff]
  intro _
  simp [hlast]

theorem mem_dropWhile (blank : Char → Bool) {s : Chars} {c : Char} (h : c ∈ s) :
    blank c ∨ c ∈ s.dropWhile blank := by
  rw [← List.takeWhile_append_dropWhile (p := blank) (l := s), List.mem_append] at h
  exact h.imp_left List.mem_takeWhile_imp

theorem mem_stripBy (blank : Char → Bool) {s : Chars} {c : Char} (h : c ∈ s) :
    blank c ∨ c ∈ stripBy blank s := by
  rcases mem_dropWhile blank h with h | h
  · exact .inl h
  · rw [stripBy, List.rdropWhile, List.mem_reverse]
    exact mem_dropWhile blank (List.mem_reverse.mpr h)

/-! ## Partition -/

/-- The text before and after the first occurrence of `sep`; the whole text and
nothing when it does not occur. The separator itself is not returned. -/
def partition (sep : Chars) : Chars → Chars × Chars
  | [] => ([], [])
  | c :: s =>
      if sep.isPrefixOf (c :: s) then ([], (c :: s).drop sep.length)
      else (c :: (partition sep s).1, (partition sep s).2)

theorem partition_eq_self {sep s : Chars} (h : ¬ sep <:+: s) : partition sep s = (s, []) := by
  induction s with
  | nil => rfl
  | cons c s ih =>
      have hp : ¬ sep.isPrefixOf (c :: s) = true := fun hp =>
        h (List.IsPrefix.isInfix (List.isPrefixOf_iff_prefix.mp hp))
      have hs : ¬ sep <:+: s := fun hs => h (hs.trans (List.suffix_cons c s).isInfix)
      simp [partition, hp, ih hs]

/-- No separator starts inside `s` and runs over its end when its first
character occurs only at its front. -/
theorem not_prefix_of_straddle {x : Char} {rest s t : Chars} (hx : x ∉ rest)
    (hs : ¬ (x :: rest) <:+: s) (hne : s ≠ []) : ¬ (x :: rest) <+: s ++ ((x :: rest) ++ t) := by
  intro hp
  by_cases hlen : (x :: rest).length ≤ s.length
  · exact hs (List.prefix_of_prefix_length_le hp (List.prefix_append _ _) hlen).isInfix
  · obtain ⟨u, hu⟩ := List.prefix_of_prefix_length_le (List.prefix_append s _) hp (by omega)
    rw [← hu, List.prefix_append_right_inj] at hp
    cases s with
    | nil => exact hne rfl
    | cons y s =>
        cases u with
        | nil => simp [← hu] at hlen
        | cons z u =>
            have hz : z = y := by
              obtain ⟨w, hw⟩ := hp
              simp only [List.cons_append, List.cons.injEq] at hw
              exact hw.1
            simp only [List.cons_append, List.cons.injEq] at hu
            exact hx (by rw [← hu.2, ← hu.1, hz]; simp)

theorem partition_append {x : Char} {rest s t : Chars} (hx : x ∉ rest)
    (hs : ¬ (x :: rest) <:+: s) : partition (x :: rest) (s ++ ((x :: rest) ++ t)) = (s, t) := by
  induction s with
  | nil => simp [partition]
  | cons y s ih =>
      have hp : ¬ (x :: rest).isPrefixOf (y :: (s ++ ((x :: rest) ++ t))) = true := fun hp =>
        not_prefix_of_straddle hx hs (by simp) (List.isPrefixOf_iff_prefix.mp hp)
      have hs' : ¬ (x :: rest) <:+: s := fun h => hs (h.trans (List.suffix_cons y s).isInfix)
      rw [List.cons_append, partition, if_neg hp, ih hs']

theorem suffix_partition {sep s : Chars} (h : sep <:+: s) (t : Chars) :
    t <:+ (partition sep (s ++ t)).2 := by
  induction s with
  | nil =>
      obtain rfl := List.infix_nil.mp h
      cases t <;> simp [partition]
  | cons c s ih =>
      rw [List.cons_append, partition]
      split
      · next hp =>
          have hlen : sep.length ≤ (c :: s).length := h.length_le
          rw [← List.cons_append, List.drop_append_of_le_length hlen]
          exact List.suffix_append _ _
      · next hp =>
          refine ih ((List.infix_cons_iff.mp h).resolve_left fun hfirst => hp ?_)
          exact List.isPrefixOf_iff_prefix.mpr (hfirst.trans (List.prefix_append (c :: s) t))

/-- Around an occurrence of the separator the two parts make up the text. -/
theorem append_partition {sep s : Chars} (h : sep <:+: s) :
    (partition sep s).1 ++ (sep ++ (partition sep s).2) = s := by
  induction s with
  | nil =>
      obtain rfl := List.infix_nil.mp h
      rfl
  | cons c s ih =>
      rw [partition]
      split
      · next hp =>
          obtain ⟨t, ht⟩ := List.isPrefixOf_iff_prefix.mp hp
          rw [← ht, List.drop_left, List.nil_append]
      · next hp =>
          have hs : sep <:+: s := (List.infix_cons_iff.mp h).resolve_left fun hfirst =>
            hp (List.isPrefixOf_iff_prefix.mpr hfirst)
          rw [List.cons_append, ih hs]

theorem append_cons_inj {x : Char} {s s' t t' : Chars} (ht : x ∉ t) (ht' : x ∉ t')
    (h : s ++ x :: t = s' ++ x :: t') : s = s' ∧ t = t' := by
  have hnil : ∀ {u v w : Chars}, x ∉ v → x :: v = u ++ x :: w → u = [] := by
    intro u v w hv heq
    cases u with
    | nil => rfl
    | cons y u =>
        have htail : v = u ++ x :: w := (List.cons.inj heq).2
        exact absurd (htail ▸ List.mem_append_right u List.mem_cons_self) hv
  rcases List.append_eq_append_iff.mp h with ⟨u, rfl, hu⟩ | ⟨u, rfl, hu⟩
  · obtain rfl := hnil ht hu
    exact ⟨(List.append_nil s).symm, (List.cons.inj hu).2⟩
  · obtain rfl := hnil ht' hu
    exact ⟨List.append_nil s', (List.cons.inj hu).2.symm⟩

theorem mem_partition (sep : Chars) {s : Chars} {c : Char} (h : c ∈ s) :
    c ∈ (partition sep s).1 ∨ c ∈ sep ∨ c ∈ (partition sep s).2 := by
  induction s with
  | nil => cases h
  | cons d s ih =>
      rw [partition]
      split
      · next hp =>
          obtain ⟨t, ht⟩ := List.isPrefixOf_iff_prefix.mp hp
          rw [← ht, List.drop_left]
          rw [← ht, List.mem_append] at h
          exact .inr h
      · rcases List.mem_cons.mp h with rfl | h
        · exact .inl List.mem_cons_self
        · exact (ih h).imp_left (List.mem_cons_of_mem d)

theorem partition_char {x : Char} {s t : Chars} (hs : x ∉ s) :
    partition [x] (s ++ x :: t) = (s, t) :=
  partition_append (by simp) fun h => hs (h.subset (by simp))

theorem not_mem_partition_char (x : Char) (s : Chars) : x ∉ (partition [x] s).1 := by
  induction s with
  | nil => simp [partition]
  | cons c s ih =>
      unfold partition
      split
      · simp
      · next hp =>
          have hne : x ≠ c := by
            rintro rfl
            simp at hp
          simp [hne, ih]

theorem not_infix_of_not_mem {x : Char} {rest s : Chars} (h : x ∉ s) : ¬ (x :: rest) <:+: s :=
  fun hi => h (hi.subset (by simp))

/-! ## Split -/

theorem headD_splitOn_append (x : Char) (s t : Chars) :
    ((s ++ x :: t).splitOn x).headD [] = (s.splitOn x).headD [] := by
  rw [List.splitOn_append_cons_self]
  cases h : s.splitOn x with
  | nil => exact absurd h (List.splitOn_ne_nil x s)
  | cons part parts => rfl

theorem not_mem_of_mem_splitOn {x : Char} {s part : Chars} (h : part ∈ s.splitOn x) :
    x ∉ part := by
  induction s generalizing part with
  | nil =>
      rw [List.splitOn_nil, List.mem_singleton] at h
      simp [h]
  | cons c s ih =>
      rw [List.splitOn_cons_eq_if_modifyHead] at h
      split at h
      · rcases List.mem_cons.mp h with rfl | h
        · simp
        · exact ih h
      · next hc =>
          obtain ⟨first, parts, hparts⟩ := List.exists_cons_of_ne_nil (List.splitOn_ne_nil x s)
          rw [hparts] at ih h
          rcases List.mem_cons.mp h with rfl | h
          · have hne : x ≠ c := by
              rintro rfl
              simp at hc
            simpa [hne] using ih List.mem_cons_self
          · exact ih (List.mem_cons_of_mem _ h)

theorem mem_of_mem_intercalate {sep : Chars} {parts : List Chars} {c : Char}
    (h : c ∈ sep.intercalate parts) : c ∈ sep ∨ ∃ part ∈ parts, c ∈ part := by
  induction parts with
  | nil => cases h
  | cons part parts ih =>
      cases parts with
      | nil =>
          rw [List.intercalate_singleton] at h
          exact .inr ⟨part, List.mem_cons_self, h⟩
      | cons part' parts =>
          rw [List.intercalate_cons_cons, List.mem_append, List.mem_append] at h
          rcases h with (h | h) | h
          · exact .inr ⟨part, List.mem_cons_self, h⟩
          · exact .inl h
          · rcases ih h with h | ⟨part'', hin, h⟩
            · exact .inl h
            · exact .inr ⟨part'', List.mem_cons_of_mem _ hin, h⟩

theorem subset_intercalate {sep part : Chars} {parts : List Chars} (h : part ∈ parts) :
    part ⊆ sep.intercalate parts := by
  induction parts with
  | nil => cases h
  | cons part' parts ih =>
      cases parts with
      | nil =>
          rw [List.intercalate_singleton, List.mem_singleton.mp h]
          exact List.Subset.refl _
      | cons part'' parts =>
          rw [List.intercalate_cons_cons]
          rcases List.mem_cons.mp h with rfl | h
          · intro c hc
            simp [hc]
          · intro c hc
            simp [ih h hc]

theorem subset_of_mem_splitOn {x : Char} {s part : Chars} (h : part ∈ s.splitOn x) :
    part ⊆ s := by
  have hsub : part ⊆ [x].intercalate (s.splitOn x) := subset_intercalate h
  rwa [List.intercalate_splitOn] at hsub

/-! ## Decimal integers -/

/-- The code points of the digits zero in Unicode 15.1; the other nine digits follow each. -/
def zeroCodes : List Nat :=
  [0x30, 0x660, 0x6f0, 0x7c0, 0x966, 0x9e6, 0xa66, 0xae6, 0xb66, 0xbe6, 0xc66, 0xce6, 0xd66, 0xde6,
    0xe50, 0xed0, 0xf20, 0x1040, 0x1090, 0x17e0, 0x1810, 0x1946, 0x19d0, 0x1a80, 0x1a90, 0x1b50,
    0x1bb0, 0x1c40, 0x1c50, 0xa620, 0xa8d0, 0xa900, 0xa9d0, 0xa9f0, 0xaa50, 0xabf0, 0xff10, 0x104a0,
    0x10d30, 0x11066, 0x110f0, 0x11136, 0x111d0, 0x112f0, 0x11450, 0x114d0, 0x11650, 0x116c0,
    0x11730, 0x118e0, 0x11950, 0x11c50, 0x11d50, 0x11da0, 0x11f50, 0x16a60, 0x16ac0, 0x16b50,
    0x1d7ce, 0x1d7d8, 0x1d7e2, 0x1d7ec, 0x1d7f6, 0x1e140, 0x1e2f0, 0x1e4f0, 0x1e950, 0x1fbf0]

def digitValue (c : Char) : Option Nat :=
  (zeroCodes.find? fun base => base ≤ c.toNat && c.toNat < base + 10).map fun base => c.toNat - base

def readDigits (s : Chars) : Option Nat :=
  let groups := s.splitOn '_'
  if groups.any List.isEmpty then none
  else groups.flatten.foldlM (fun value c => (digitValue c).map (10 * value + ·)) 0

/-- `int(s)`, with `none` for a `ValueError`. -/
def readInt (s : Chars) : Option Int :=
  match stripBy isIntSpace s with
  | '-' :: digits => (readDigits digits).map fun n => -(n : Int)
  | '+' :: digits => (readDigits digits).map fun n => (n : Int)
  | digits => (readDigits digits).map fun n => (n : Int)

/-- `str(n)`. -/
def showInt (n : Int) : Chars := (toString n).toList

theorem showInt_natCast (n : Nat) : showInt n = Nat.toDigits 10 n := by
  show (toString (n : Int)).toList = _
  rw [show toString (n : Int) = n.repr from rfl, Nat.toList_repr]

theorem digit_range {c : Char} (h : c.isDigit) : 48 ≤ c.toNat ∧ c.toNat ≤ 57 := by
  simp only [Char.isDigit, Bool.and_eq_true, decide_eq_true_eq, ge_iff_le, UInt32.le_iff_toNat_le]
    at h
  exact h

theorem digitValue_of_isDigit {c : Char} (h : c.isDigit) : digitValue c = some (c.toNat - 48) := by
  obtain ⟨hlo, hhi⟩ := digit_range h
  have hfirst : zeroCodes.find? (fun base => base ≤ c.toNat && c.toNat < base + 10) =
      some 0x30 := by
    rw [zeroCodes, List.find?_cons_of_pos]
    simp only [Bool.and_eq_true, decide_eq_true_eq]
    omega
  simp [digitValue, hfirst]

theorem not_isSpace_of_isDigit {c : Char} (h : c.isDigit) : isSpace c = false := by
  obtain ⟨hlo, hhi⟩ := digit_range h
  simp only [isSpace, spaceCodes, List.contains_eq_mem, decide_eq_false_iff_not, List.mem_cons,
    List.not_mem_nil, or_false]
  omega

theorem isDigit_of_mem_toDigits {n : Nat} {c : Char} (h : c ∈ Nat.toDigits 10 n) : c.isDigit :=
  Nat.isDigit_of_mem_toDigits (by decide) (by decide) h

theorem foldlM_digits (s : Chars) (h : ∀ c ∈ s, c.isDigit) (value : Nat) :
    s.foldlM (fun value c => (digitValue c).map (10 * value + ·)) value =
      some (Nat.ofDigitChars 10 s value) := by
  induction s generalizing value with
  | nil => rfl
  | cons c s ih =>
      rw [List.foldlM_cons, digitValue_of_isDigit (h c (by simp)), Nat.ofDigitChars_cons]
      exact ih (fun d hd => h d (by simp [hd])) _

structure Numeral (s : Chars) : Prop where
  ne_nil : s ≠ []
  digits : ∀ c ∈ s, c.isDigit

theorem numeral_toDigits (n : Nat) : Numeral (Nat.toDigits 10 n) :=
  ⟨Nat.toDigits_ne_nil, fun _ hc => isDigit_of_mem_toDigits hc⟩

theorem Numeral.not_mem {s : Chars} (h : Numeral s) {c : Char} (hc : c.isDigit = false) : c ∉ s :=
  fun hin => by simpa [hc] using h.digits c hin

theorem Numeral.not_isSpace_head {s : Chars} (h : Numeral s) :
    isSpace (s.head h.ne_nil) = false :=
  not_isSpace_of_isDigit (h.digits _ (List.head_mem _))

theorem Numeral.not_isSpace_getLast {s : Chars} (h : Numeral s) :
    isSpace (s.getLast h.ne_nil) = false :=
  not_isSpace_of_isDigit (h.digits _ (List.getLast_mem _))

theorem Numeral.readDigits {s : Chars} (h : Numeral s) :
    readDigits s = some (Nat.ofDigitChars 10 s 0) := by
  have hsplit : s.splitOn '_' = [s] := List.splitOn_eq_singleton (h.not_mem (by decide))
  simp only [Text.readDigits, hsplit, List.any_cons, List.any_nil, Bool.or_false,
    List.isEmpty_iff, h.ne_nil, if_false, List.flatten_cons, List.flatten_nil, List.append_nil]
  exact foldlM_digits s h.digits 0

theorem readDigits_toDigits (n : Nat) : readDigits (Nat.toDigits 10 n) = some n := by
  rw [(numeral_toDigits n).readDigits, Nat.ofDigitChars_toDigits (by decide) (by decide)]

theorem isSpace_of_isIntSpace {c : Char} (h : isIntSpace c) : isSpace c := by
  simp only [isIntSpace, Bool.and_eq_true] at h
  exact h.1

theorem not_isIntSpace_of_isDigit {c : Char} (h : c.isDigit) : isIntSpace c = false := by
  simp [isIntSpace, not_isSpace_of_isDigit h]

/-- A numeral between blanks reads as the number its digits stand for. -/
theorem Numeral.readInt {s before after : Chars} (h : Numeral s)
    (hbefore : ∀ c ∈ before, isIntSpace c) (hafter : ∀ c ∈ after, isIntSpace c) :
    readInt (before ++ s ++ after) = some (Nat.ofDigitChars 10 s 0 : Int) := by
  have hstrip : stripBy isIntSpace (before ++ s ++ after) = s :=
    stripBy_append hbefore hafter h.ne_nil
      (not_isIntSpace_of_isDigit (h.digits _ (List.head_mem h.ne_nil)))
      (not_isIntSpace_of_isDigit (h.digits _ (List.getLast_mem h.ne_nil)))
  rw [Text.readInt, hstrip]
  split
  · exact absurd List.mem_cons_self (h.not_mem (by decide))
  · exact absurd List.mem_cons_self (h.not_mem (by decide))
  · rw [h.readDigits]
    rfl

theorem readInt_toDigits (n : Nat) : readInt (Nat.toDigits 10 n) = some (n : Int) := by
  have hnone : ∀ c ∈ ([] : Chars), isIntSpace c := by simp
  have h := (numeral_toDigits n).readInt hnone hnone
  rw [List.nil_append, List.append_nil,
    Nat.ofDigitChars_toDigits (by decide) (by decide)] at h
  exact h

theorem readInt_nonneg {s : Chars} {n : Int} (h : readInt s = some n) (hs : '-' ∉ s) : 0 ≤ n := by
  unfold readInt at h
  split at h
  · next hstrip =>
      have hin : '-' ∈ stripBy isIntSpace s := by simp [hstrip]
      exact absurd ((List.dropWhile_suffix _).subset ((List.rdropWhile_prefix _ _).subset hin)) hs
  · next digits _ =>
      cases hdigits : readDigits digits with
      | none => simp [hdigits] at h
      | some m =>
          simp only [hdigits, Option.pure_def, Option.bind_some, Option.bind_eq_bind,
            Option.map_some, Option.some.injEq] at h
          omega
  · cases hdigits : readDigits (stripBy isIntSpace s) with
    | none => simp [hdigits] at h
    | some m =>
        simp only [hdigits, Option.pure_def, Option.bind_some, Option.bind_eq_bind,
          Option.map_some, Option.some.injEq] at h
        omega

theorem mem_of_readDigits {s : Chars} {n : Nat} (h : readDigits s = some n) {c : Char}
    (hc : c ∈ s) : c = '_' ∨ (digitValue c).isSome := by
  have hdigits : ∀ (digits : Chars) (value : Nat),
      digits.foldlM (fun value c => (digitValue c).map (10 * value + ·)) value = some n →
        ∀ c ∈ digits, (digitValue c).isSome := by
    intro digits
    induction digits with
    | nil => simp
    | cons d digits ih =>
        intro value h
        rw [List.foldlM_cons] at h
        obtain ⟨value', hd, h⟩ := Option.bind_eq_some_iff.mp h
        obtain ⟨_, hvalue, _⟩ := Option.map_eq_some_iff.mp hd
        exact List.forall_mem_cons.mpr ⟨by rw [hvalue, Option.isSome_some], ih value' h⟩
  simp only [readDigits] at h
  split at h
  · cases h
  · have hjoin : ['_'].intercalate (s.splitOn '_') = s := List.intercalate_splitOn '_'
    rw [← hjoin] at hc
    rcases mem_of_mem_intercalate hc with hc | ⟨part, hpart, hc⟩
    · exact .inl (List.mem_singleton.mp hc)
    · exact .inr (hdigits _ 0 h c (List.mem_flatten.mpr ⟨part, hpart, hc⟩))

theorem mem_of_readInt {s : Chars} {n : Int} (h : readInt s = some n) {c : Char} (hc : c ∈ s) :
    isIntSpace c ∨ c ∈ ['-', '+', '_'] ∨ (digitValue c).isSome := by
  rcases mem_stripBy isIntSpace hc with hspace | hc
  · exact .inl hspace
  right
  have hrest : ∀ {digits : Chars}, readDigits digits ≠ none → c ∈ digits →
      c ∈ ['-', '+', '_'] ∨ (digitValue c).isSome := by
    intro digits hread hin
    obtain ⟨m, hread⟩ := Option.ne_none_iff_exists'.mp hread
    exact (mem_of_readDigits hread hin).imp_left (by rintro rfl; decide)
  have hsigned : ∀ {sign : Char} {digits : Chars}, sign ∈ ['-', '+', '_'] →
      readDigits digits ≠ none → c ∈ sign :: digits →
        c ∈ ['-', '+', '_'] ∨ (digitValue c).isSome := by
    intro sign digits hsign hread hin
    rcases List.mem_cons.mp hin with rfl | hin
    · exact .inl hsign
    · exact hrest hread hin
  unfold readInt at h
  split at h
  · next hstrip => exact hsigned (by decide) (by rintro hnone; simp [hnone] at h) (hstrip ▸ hc)
  · next hstrip => exact hsigned (by decide) (by rintro hnone; simp [hnone] at h) (hstrip ▸ hc)
  · exact hrest (by rintro hnone; simp [hnone] at h) hc

theorem showInt_negSucc (n : Nat) : showInt (Int.negSucc n) = '-' :: Nat.toDigits 10 (n + 1) := by
  show (toString (Int.negSucc n)).toList = _
  rw [show toString (Int.negSucc n) = "-" ++ (n + 1).repr from rfl, String.toList_append,
    Nat.toList_repr]
  rfl

theorem readInt_showInt (n : Int) : readInt (showInt n) = some n := by
  cases n with
  | ofNat n => rw [Int.ofNat_eq_natCast, showInt_natCast, readInt_toDigits]
  | negSucc n =>
      have hspace : ∀ c ∈ '-' :: Nat.toDigits 10 (n + 1), isIntSpace c = false := fun c hc => by
        rcases List.mem_cons.mp hc with rfl | hc
        · decide
        · exact not_isIntSpace_of_isDigit (isDigit_of_mem_toDigits hc)
      rw [showInt_negSucc, readInt, stripBy_eq_self hspace]
      simp only [readDigits_toDigits]
      rfl

theorem showInt_injective : Function.Injective showInt := fun n m h =>
  Option.some.inj (by rw [← readInt_showInt n, h, readInt_showInt])

theorem mem_showInt {n : Int} {c : Char} (h : c ∈ showInt n) : c = '-' ∨ c.isDigit := by
  cases n with
  | ofNat n =>
      rw [Int.ofNat_eq_natCast, showInt_natCast] at h
      exact .inr (isDigit_of_mem_toDigits h)
  | negSucc n =>
      rw [showInt_negSucc] at h
      exact (List.mem_cons.mp h).imp_right isDigit_of_mem_toDigits

end NsiOrchestrator.Text
