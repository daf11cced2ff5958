import NsiOrchestrator.Lib.Text
import Mathlib.Algebra.Group.Nat.Defs

/-! # The text of a value

`repr` of a text, of a pair of a text and an integer and of a list of texts. A text is
put in quotes, its quotes, backslashes and unprintable characters escaped. The escapes
are a prefix code, so that no two values have the same text, whatever characters beyond
ASCII `str.isprintable` accepts.
-/

namespace NsiOrchestrator.Text

def apostrophe : Char := Char.ofNat 0x27

def quotationMark : Char := Char.ofNat 0x22

def backslash : Char := Char.ofNat 0x5c

def quoteOf (s : Chars) : Char :=
  if apostrophe ∈ s ∧ quotationMark ∉ s then quotationMark else apostrophe

/-- A number in hexadecimal, with as many digits as the width. -/
def hexDigits : Nat → Nat → Chars
  | 0, _ => []
  | width + 1, n => hexDigits width (n / 16) ++ [Nat.digitChar (n % 16)]

def escape (printable : Char → Bool) (quote c : Char) : Chars :=
  if c = quote ∨ c = backslash then [backslash, c]
  else if c.toNat = 0x9 then [backslash, 't']
  else if c.toNat = 0xa then [backslash, 'n']
  else if c.toNat = 0xd then [backslash, 'r']
  else if c.toNat < 0x20 ∨ c.toNat = 0x7f then backslash :: 'x' :: hexDigits 2 c.toNat
  else if c.toNat < 0x7f ∨ printable c then [c]
  else if c.toNat ≤ 0xff then backslash :: 'x' :: hexDigits 2 c.toNat
  else if c.toNat ≤ 0xffff then backslash :: 'u' :: hexDigits 4 c.toNat
  else backslash :: 'U' :: hexDigits 8 c.toNat

def reprStr (printable : Char → Bool) (s : Chars) : Chars :=
  quoteOf s :: s.flatMap (escape printable (quoteOf s)) ++ [quoteOf s]

/-- `repr` of a pair of a text and an integer. -/
def reprPair (printable : Char → Bool) (pair : String × Int) : String :=
  String.ofList ('(' :: reprStr printable pair.1.toList ++
    (',' :: ' ' :: showInt pair.2) ++ [')'])

def reprRest (printable : Char → Bool) : List String → Chars
  | [] => [']']
  | s :: rest => ',' :: ' ' :: (reprStr printable s.toList ++ reprRest printable rest)

def reprList (printable : Char → Bool) : List String → Chars
  | [] => ['[', ']']
  | s :: rest => '[' :: (reprStr printable s.toList ++ reprRest printable rest)

/-! ## Hexadecimal digits -/

theorem length_hexDigits (width n : Nat) : (hexDigits width n).length = width := by
  induction width generalizing n with
  | zero => rfl
  | succ width ih => simp [hexDigits, ih]

theorem digitChar_injective : ∀ d < 16, ∀ d' < 16, Nat.digitChar d = Nat.digitChar d' → d = d' := by
  decide

theorem hexDigits_injective {width n m : Nat} (hn : n < 16 ^ width) (hm : m < 16 ^ width)
    (h : hexDigits width n = hexDigits width m) : n = m := by
  induction width generalizing n m with
  | zero => omega
  | succ width ih =>
      obtain ⟨hinit, hlast⟩ := List.append_inj' h rfl
      have hmod : n % 16 = m % 16 :=
        digitChar_injective _ (by omega) _ (by omega) (List.singleton_inj.mp hlast)
      have hdiv : n / 16 = m / 16 := by
        apply ih _ _ hinit
        · rw [Nat.pow_succ] at hn
          omega
        · rw [Nat.pow_succ] at hm
          omega
      omega

/-! ## Escapes -/

def quotes : List Char := [apostrophe, quotationMark]

def shortEscapes (quote : Char) : List (Char × Char) :=
  [(quote, quote), (backslash, backslash), (Char.ofNat 0x9, 't'), (Char.ofNat 0xa, 'n'),
    (Char.ofNat 0xd, 'r')]

def hexEscapes : List (Char × Nat) := [('x', 2), ('u', 4), ('U', 8)]

inductive Escaped (quote c : Char) : Chars → Prop where
  | plain : c ≠ backslash → c ≠ quote → Escaped quote c [c]
  | short {code : Char} : (c, code) ∈ shortEscapes quote → Escaped quote c [backslash, code]
  | hex {code : Char} {width : Nat} : (code, width) ∈ hexEscapes → c.toNat < 16 ^ width →
      Escaped quote c (backslash :: code :: hexDigits width c.toNat)

theorem escaped_escape (printable : Char → Bool) (quote c : Char) :
    Escaped quote c (escape printable quote c) := by
  have hshort : ∀ {n code}, c.toNat = n → (Char.ofNat n, code) ∈ shortEscapes quote →
      Escaped quote c [backslash, code] := by
    intro n code hn hin
    apply Escaped.short
    rwa [← hn, Char.ofNat_toNat] at hin
  have hsize : c.toNat < 16 ^ 8 := by
    have := c.toNat_val ▸ c.val.toNat_lt
    omega
  unfold escape
  split_ifs with hquote htab hnewline hreturn hcontrol hprintable hbyte hword
  · cases hquote with
    | inl h => exact .short (by simp [shortEscapes, h])
    | inr h => exact .short (by simp [shortEscapes, h])
  · exact hshort htab (by simp [shortEscapes])
  · exact hshort hnewline (by simp [shortEscapes])
  · exact hshort hreturn (by simp [shortEscapes])
  · exact .hex (by simp [hexEscapes]) (by omega)
  · rw [not_or] at hquote
    exact .plain hquote.2 hquote.1
  · exact .hex (by simp [hexEscapes]) (by omega)
  · exact .hex (by simp [hexEscapes]) (by omega)
  · exact .hex (by simp [hexEscapes]) hsize

theorem shortEscapes_injective : ∀ quote ∈ quotes, ∀ e ∈ shortEscapes quote,
    ∀ e' ∈ shortEscapes quote, e.2 = e'.2 → e.1 = e'.1 := by
  -- A bounded quantifier over characters may be decided by going through all of them.
  have hall : (quotes.all fun quote => (shortEscapes quote).all fun e =>
      (shortEscapes quote).all fun e' => decide (e.2 = e'.2 → e.1 = e'.1)) = true := by
    decide
  simpa only [List.all_eq_true, decide_eq_true_eq] using hall

theorem shortEscapes_ne_hexEscapes : ∀ quote ∈ quotes, ∀ e ∈ shortEscapes quote,
    ∀ e' ∈ hexEscapes, e.2 ≠ e'.1 := by
  have hall : (quotes.all fun quote => (shortEscapes quote).all fun e =>
      hexEscapes.all fun e' => decide (e.2 ≠ e'.1)) = true := by
    decide
  simpa only [List.all_eq_true, decide_eq_true_eq] using hall

theorem hexEscapes_functional : ∀ e ∈ hexEscapes, ∀ e' ∈ hexEscapes, e.1 = e'.1 → e.2 = e'.2 := by
  decide

/-- The escapes are a prefix code. -/
theorem Escaped.append_inj {quote c c' : Char} {u u' s s' : Chars} (hquote : quote ∈ quotes)
    (hu : Escaped quote c u) (hu' : Escaped quote c' u') (h : u ++ s = u' ++ s') :
    c = c' ∧ s = s' := by
  cases hu with
  | plain hc _ =>
      cases hu' with
      | plain => exact List.cons_eq_cons.mp h
      | short => exact absurd (List.cons_eq_cons.mp h).1 hc
      | hex => exact absurd (List.cons_eq_cons.mp h).1 hc
  | short hin =>
      cases hu' with
      | plain hc' _ => exact absurd (List.cons_eq_cons.mp h).1.symm hc'
      | short hin' =>
          simp only [List.cons_append, List.nil_append, List.cons.injEq, true_and] at h
          exact ⟨shortEscapes_injective quote hquote _ hin _ hin' h.1, h.2⟩
      | hex hin' =>
          simp only [List.cons_append, List.nil_append, List.cons.injEq, true_and] at h
          exact absurd h.1 (shortEscapes_ne_hexEscapes quote hquote _ hin _ hin')
  | hex hin hsize =>
      cases hu' with
      | plain hc' _ => exact absurd (List.cons_eq_cons.mp h).1.symm hc'
      | short hin' =>
          simp only [List.cons_append, List.nil_append, List.cons.injEq, true_and] at h
          exact absurd h.1.symm (shortEscapes_ne_hexEscapes quote hquote _ hin' _ hin)
      | hex hin' hsize' =>
          simp only [List.cons_append, List.cons.injEq, true_and] at h
          obtain rfl := hexEscapes_functional _ hin _ hin' h.1
          obtain ⟨hdigits, hrest⟩ := List.append_inj h.2 (by simp only [length_hexDigits])
          have hcode := hexDigits_injective hsize hsize' hdigits
          exact ⟨Char.toNat_inj.mp hcode, hrest⟩

theorem Escaped.ne_quote {quote c : Char} {u s t : Chars} (hquote : quote ∈ quotes)
    (hu : Escaped quote c u) : u ++ s ≠ quote :: t := by
  have hall : (quotes.all fun quote => decide (backslash ≠ quote)) = true := by decide
  have hslash : ∀ quote ∈ quotes, backslash ≠ quote := by
    simpa only [List.all_eq_true, decide_eq_true_eq] using hall
  intro h
  cases hu with
  | plain _ hc => exact hc (List.cons_eq_cons.mp h).1
  | short => exact hslash quote hquote (List.cons_eq_cons.mp h).1
  | hex => exact hslash quote hquote (List.cons_eq_cons.mp h).1

/-! ## Quoted texts -/

theorem escapes_append_inj {printable : Char → Bool} {quote : Char} (hquote : quote ∈ quotes)
    {s s' t t' : Chars}
    (h : s.flatMap (escape printable quote) ++ quote :: t =
      s'.flatMap (escape printable quote) ++ quote :: t') : s = s' ∧ t = t' := by
  induction s generalizing s' with
  | nil =>
      cases s' with
      | nil => exact ⟨rfl, (List.cons_eq_cons.mp h).2⟩
      | cons c' s' =>
          rw [List.flatMap_cons, List.append_assoc] at h
          exact absurd h.symm ((escaped_escape printable quote c').ne_quote hquote)
  | cons c s ih =>
      rw [List.flatMap_cons, List.append_assoc] at h
      cases s' with
      | nil => exact absurd h ((escaped_escape printable quote c).ne_quote hquote)
      | cons c' s' =>
          rw [List.flatMap_cons, List.append_assoc] at h
          obtain ⟨rfl, hrest⟩ := (escaped_escape printable quote c).append_inj hquote
            (escaped_escape printable quote c') h
          obtain ⟨rfl, htail⟩ := ih hrest
          exact ⟨rfl, htail⟩

theorem quoteOf_mem (s : Chars) : quoteOf s ∈ quotes := by
  unfold quoteOf
  split <;> simp [quotes]

theorem reprStr_append_inj {printable : Char → Bool} {s s' t t' : Chars}
    (h : reprStr printable s ++ t = reprStr printable s' ++ t') : s = s' ∧ t = t' := by
  simp only [reprStr, List.cons_append, List.append_assoc, List.nil_append, List.cons.injEq] at h
  obtain ⟨hquote, h⟩ := h
  rw [← hquote] at h
  exact escapes_append_inj (quoteOf_mem s) h

theorem reprPair_injective (printable : Char → Bool) : Function.Injective (reprPair printable) := by
  intro pair pair' h
  have hchars := congrArg String.toList h
  simp only [reprPair, String.toList_ofList, List.cons_append, List.append_assoc,
    List.cons.injEq, true_and] at hchars
  obtain ⟨hstr, hrest⟩ := reprStr_append_inj hchars
  simp only [List.cons.injEq, true_and] at hrest
  have hint := showInt_injective (List.append_inj_left' hrest rfl)
  exact Prod.ext (String.toList_inj.mp hstr) hint

theorem reprRest_append_inj {printable : Char → Bool} {l l' : List String} {t t' : Chars}
    (h : reprRest printable l ++ t = reprRest printable l' ++ t') : l = l' ∧ t = t' := by
  induction l generalizing l' with
  | nil =>
      cases l' with
      | nil => exact ⟨rfl, (List.cons_eq_cons.mp h).2⟩
      | cons s' rest' => exact absurd (List.cons_eq_cons.mp h).1 (by decide)
  | cons s rest ih =>
      cases l' with
      | nil => exact absurd (List.cons_eq_cons.mp h).1 (by decide)
      | cons s' rest' =>
          simp only [reprRest, List.cons_append, List.append_assoc, List.cons.injEq,
            true_and] at h
          obtain ⟨hstr, hrest⟩ := reprStr_append_inj h
          obtain ⟨rfl, htail⟩ := ih hrest
          exact ⟨congrArg (· :: rest) (String.toList_inj.mp hstr), htail⟩

/-- The text of a list ends where the list does, and no other list has it. -/
theorem reprList_append_inj {printable : Char → Bool} {l l' : List String} {t t' : Chars}
    (h : reprList printable l ++ t = reprList printable l' ++ t') : l = l' ∧ t = t' := by
  have hbracket : ∀ s : Chars, ∀ u u' : Chars, reprStr printable s ++ u ≠ ']' :: u' := by
    intro s u u' heq
    have hquote : quoteOf s = ']' := (List.cons_eq_cons.mp heq).1
    have hmem := quoteOf_mem s
    rw [hquote] at hmem
    exact absurd hmem (by decide)
  cases l with
  | nil =>
      cases l' with
      | nil => exact ⟨rfl, (List.cons_eq_cons.mp (List.cons_eq_cons.mp h).2).2⟩
      | cons s' rest' =>
          simp only [reprList, List.cons_append, List.append_assoc, List.nil_append,
            List.cons.injEq, true_and] at h
          exact absurd h.symm (hbracket _ _ _)
  | cons s rest =>
      cases l' with
      | nil =>
          simp only [reprList, List.cons_append, List.append_assoc, List.nil_append,
            List.cons.injEq, true_and] at h
          exact absurd h (hbracket _ _ _)
      | cons s' rest' =>
          simp only [reprList, List.cons_append, List.append_assoc, List.cons.injEq,
            true_and] at h
          obtain ⟨hstr, hrest⟩ := reprStr_append_inj h
          obtain ⟨rfl, htail⟩ := reprRest_append_inj hrest
          exact ⟨congrArg (· :: rest) (String.toList_inj.mp hstr), htail⟩

example : reprPair (fun _ => false) ("X:1", 5) = String.ofList
    ['(', apostrophe, 'X', ':', '1', apostrophe, ',', ' ', '5', ')'] := by
  decide

end NsiOrchestrator.Text
