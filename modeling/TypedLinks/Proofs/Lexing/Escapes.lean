import Mathlib.Data.Nat.Digits.Lemmas
import TypedLinks.Proofs.Lexing.Blanks
import TypedLinks.Proofs.Lexing.Literals

/-!
# Escapes

The body of a quoted literal is a row of items. At each place the forms of an item are tried in
order, and of the first form that fits the longest item is taken; so every body is scanned in one
way. An item stands for a text or is bad. The literal stands for the texts of its items one behind
the other, unless one of them is bad. A long bracket stands for what it holds, without the line end
that may follow its opening.
-/

namespace TypedLinks.Luau.StringLiteral

open Lexeme

/-! ## Items -/

/-- An item of the body of a quoted literal. -/
inductive Item where
  /-- A backslash, `z` and blanks. -/
  | blanks (cs : List Char)
  /-- A backslash, `x` and two hexadecimal digits. -/
  | hexadecimal (a b : Char)
  /-- A backslash, `u` and hexadecimal digits between braces. -/
  | braced (digits : List Char)
  /-- A backslash and one to three decimal digits. -/
  | decimal (digits : List Char)
  /-- A backslash and any character. -/
  | escaped (c : Char)
  /-- Any character. -/
  | plain (c : Char)

namespace Item

/-- The place of an item's form in the order in which the forms are tried. -/
def rank : Item → Nat
  | blanks _ => 0
  | hexadecimal _ _ => 1
  | braced _ => 2
  | decimal _ => 3
  | escaped _ => 4
  | plain _ => 5

/-- The characters of an item. -/
def text : Item → List Char
  | blanks cs => '\\' :: 'z' :: cs
  | hexadecimal a b => ['\\', 'x', a, b]
  | braced digits => '\\' :: 'u' :: '\x7b' :: (digits ++ ['\x7d'])
  | decimal digits => '\\' :: digits
  | escaped c => ['\\', c]
  | plain c => [c]

/-- Whether an item is made of the characters that its form asks for. -/
def IsFormed : Item → Prop
  | blanks cs => ∀ c ∈ cs, CodePoint.isBlank c = true
  | hexadecimal a b => isHexDigit a = true ∧ isHexDigit b = true
  | braced digits => digits ≠ [] ∧ ∀ d ∈ digits, isHexDigit d = true
  | decimal digits => digits ≠ [] ∧ digits.length ≤ 3 ∧ ∀ d ∈ digits, isDigit d = true
  | escaped _ | plain _ => True

/-- Whether an item stands at the start of a text. -/
def Fits (i : Item) (cs : List Char) : Prop := i.IsFormed ∧ i.text <+: cs

/-- The item that is taken at the start of a text: no earlier form fits, and no longer item of the
same form. -/
structure Taken (i : Item) (cs : List Char) : Prop where
  fits : i.Fits cs
  first : ∀ j : Item, j.Fits cs → i.rank ≤ j.rank
  longest : ∀ j : Item, j.Fits cs → j.rank = i.rank → j.text.length ≤ i.text.length

end Item

/-- The body of a literal is scanned from left to right as a row of items. -/
inductive Scanned : List Char → List Item → Prop where
  | nil : Scanned [] []
  | cons {i : Item} {rest : List Char} {is : List Item} (taken : i.Taken (i.text ++ rest))
      (others : Scanned rest is) : Scanned (i.text ++ rest) (i :: is)

/-! ## Values -/

/-- The digits in order of their values. -/
def digitsInOrder : List Char := "0123456789abcdef".toList

/-- The value of a digit, of either case. -/
def digitValue (d : Char) : Nat := digitsInOrder.idxOf d.toLower

/-- The number that digits write in a base. -/
def number (base : Nat) (digits : List Char) : Nat :=
  Nat.ofDigits base (digits.reverse.map digitValue)

/-- The letters that stand for control characters behind a backslash. -/
def controls : List (Char × Char) :=
  [('a', '\x07'), ('b', '\x08'), ('f', '\x0c'), ('n', '\n'), ('r', '\r'), ('t', '\t'),
    ('v', '\x0b')]

/-! ## Numbers -/

theorem number_concat (base : Nat) (ds : List Char) (d : Char) :
    number base (ds ++ [d]) = base * number base ds + digitValue d := by
  rw [number, List.reverse_append, List.reverse_singleton, List.singleton_append, List.map_cons,
    Nat.ofDigits_cons, Nat.add_comm]
  rfl

theorem number_lt {base : Nat} {ds : List Char} (hbase : 1 < base)
    (h : ∀ d ∈ ds, digitValue d < base) : number base ds < base ^ ds.length := by
  have hlt := Nat.ofDigits_lt_base_pow_length (l := ds.reverse.map digitValue) hbase
    (by simpa using h)
  rwa [List.length_map, List.length_reverse] at hlt

theorem digits_checked : ∀ n < 128, isHexDigit (Char.ofNat n) = true →
    hexValue (Char.ofNat n) = digitValue (Char.ofNat n) ∧
      digitValue (Char.ofNat n) < if isDigit (Char.ofNat n) then 10 else 16 := by
  decide

theorem isHexDigit_of_isDigit {c : Char} (h : isDigit c = true) : isHexDigit c = true := by
  rw [isHexDigit, h, Bool.true_or, Bool.true_or]

/-- The reader knows the value of a digit. -/
theorem hexValue_eq {c : Char} (h : isHexDigit c = true) :
    hexValue c = digitValue c ∧ digitValue c < if isDigit c then 10 else 16 := by
  have hlt : c.toNat < 128 := by
    have hle {d : Char} (hd : d.toNat < 128) (h : c ≤ d) : c.toNat < 128 := Nat.lt_of_le_of_lt h hd
    simp only [isHexDigit, isDigit, Bool.or_eq_true, Bool.and_eq_true, decide_eq_true_eq] at h
    rcases h with (⟨-, h⟩ | ⟨-, h⟩) | ⟨-, h⟩ <;> exact hle (by decide) h
  have hchecked := digits_checked c.toNat hlt
  rw [Char.ofNat_toNat] at hchecked
  exact hchecked h

theorem digitValue_lt_sixteen {c : Char} (h : isHexDigit c = true) : digitValue c < 16 := by
  have hlt := (hexValue_eq h).2
  split at hlt <;> omega

theorem digitValue_lt_ten {c : Char} (h : isDigit c = true) : digitValue c < 10 := by
  have hlt := (hexValue_eq (isHexDigit_of_isDigit h)).2
  rwa [if_pos h] at hlt

theorem foldl_hexValue {base : Nat} {ds : List Char} (h : ∀ d ∈ ds, isHexDigit d = true) :
    ds.foldl (fun n d => base * n + hexValue d) 0 = number base ds := by
  induction ds using List.reverseRecOn with
  | nil => rfl
  | append_singleton ds d ih =>
    obtain ⟨hds, hd⟩ := List.forall_mem_append.1 h
    rw [List.foldl_append, ih hds, number_concat, ← (hexValue_eq (hd d (by simp))).1]
    rfl

/-! ## What items stand for -/

namespace Item

/-- The text that an item stands for. A decimal digit of another script stands for the code point of
its value. -/
inductive Stands : Item → Text → Prop where
  | blanks (cs : List Char) : Stands (blanks cs) []
  | hexadecimal {a b : Char} {p : CodePoint} (value : p.val = number 16 [a, b]) :
      Stands (hexadecimal a b) [p]
  | braced {digits : List Char} {p : CodePoint} (value : p.val = number 16 digits) :
      Stands (braced digits) [p]
  | decimal {digits : List Char} {p : CodePoint} (value : p.val = number 10 digits) :
      Stands (decimal digits) [p]
  | digit {c : Char} {p : CodePoint} (value : CodePoint.decimalValue? c = some p.val) :
      Stands (escaped c) [p]
  | control {c d : Char} (letter : (c, d) ∈ controls) : Stands (escaped c) [CodePoint.ofChar d]
  | itself {c : Char} (uncontrolled : ∀ d, (c, d) ∉ controls) (letter : c ≠ 'x' ∧ c ≠ 'u')
      (undigited : CodePoint.decimalValue? c = none ∧ CodePoint.isOtherDigit c = false) :
      Stands (escaped c) [CodePoint.ofChar c]
  | plain (c : Char) : Stands (plain c) [CodePoint.ofChar c]

/-- The items that stand for nothing: `x` or `u` without their digits, a number beyond the last code
point, and a digit that is no decimal digit. -/
inductive IsBad : Item → Prop where
  | unnumbered {c : Char} (letter : c = 'x' ∨ c = 'u') : IsBad (escaped c)
  | beyond {digits : List Char} (value : 0x10FFFF < number 16 digits) : IsBad (braced digits)
  | digit {c : Char} (other : CodePoint.isOtherDigit c = true) : IsBad (escaped c)

/-! ## One item -/

variable {i j : Item} {c : Char} {cs rest : List Char}

theorem text_ne_nil (i : Item) : i.text ≠ [] := by
  cases i <;> nofun

theorem eq_of_text_eq (hrank : i.rank = j.rank) (htext : i.text = j.text) : i = j := by
  cases i <;> cases j <;> simp_all [rank, text]

theorem Fits.length_le (h : i.Fits cs) : i.text.length ≤ cs.length := h.2.length_le

/-- Two items that are taken at one place are the same. -/
theorem Taken.unique (hi : i.Taken cs) (hj : j.Taken cs) : i = j := by
  have hrank : i.rank = j.rank := Nat.le_antisymm (hi.first j hj.fits) (hj.first i hi.fits)
  have hlength : i.text.length = j.text.length :=
    Nat.le_antisymm (hj.longest i hi.fits hrank) (hi.longest j hj.fits hrank.symm)
  refine eq_of_text_eq hrank ?_
  rw [List.prefix_iff_eq_take.1 hi.fits.2, List.prefix_iff_eq_take.1 hj.fits.2, hlength]

/-- Some item is taken at every place before the end. -/
theorem exists_taken (c : Char) (cs : List Char) : ∃ i : Item, i.Taken (c :: cs) := by
  -- Items are tried by their form, and longer ones before shorter ones of the same form.
  have hwf := InvImage.wf (fun i : Item => (i.rank, (c :: cs).length - i.text.length))
    (Prod.lex Nat.lt_wfRel Nat.lt_wfRel).wf
  obtain ⟨i, hi, hmin⟩ := hwf.has_min {i : Item | i.Fits (c :: cs)}
    ⟨plain c, trivial, List.prefix_append [c] cs⟩
  refine ⟨i, hi, fun j hj => ?_, fun j hj hrank => ?_⟩
  · by_contra hlt
    exact hmin j hj (.left _ _ (Nat.lt_of_not_le hlt))
  · have hle := Fits.length_le hj
    by_contra hlt
    refine hmin j hj ?_
    simp only [InvImage, hrank]
    exact .right _ (by change _ - _ < _ - _; omega)

/-- What the reader of literals makes of an item. -/
def reading : Item → Except Fault Text
  | blanks _ => .ok []
  | hexadecimal a b => codePoint (hexNumber [a, b])
  | braced digits => codePoint (hexNumber digits)
  | decimal digits => codePoint (decimalNumber digits)
  | escaped c => if c = 'x' ∨ c = 'u' then .error .badNumber else singleEscape c
  | plain c => .ok [CodePoint.ofChar c]

/-- Blanks are taken up to the first other character. -/
theorem Taken.run_blanks {bs : List Char} (h : (blanks bs).Taken ((blanks bs).text ++ rest)) :
    run (CodePoint.isBlank ·) (bs ++ rest) = bs.length := by
  refine run_append_eq_length_iff.2 ⟨h.fits.1, fun c hc => ?_⟩
  by_contra hblank
  obtain ⟨rest', rfl⟩ := List.head?_eq_some_iff.1 hc
  have hfits : (blanks (bs ++ [c])).Fits ((blanks bs).text ++ c :: rest') := by
    refine ⟨List.forall_mem_append.2 ⟨h.fits.1, by simpa using hblank⟩, ?_⟩
    simp [text]
  have hlength := h.longest _ hfits rfl
  simp [text] at hlength

/-- Decimal digits are taken up to the third one or the first other character. -/
theorem Taken.takeWhile_decimal {d : Char} {ds : List Char}
    (h : (decimal (d :: ds)).Taken ((decimal (d :: ds)).text ++ rest)) :
    ((ds ++ rest).take 2).takeWhile isDigit = ds := by
  obtain ⟨-, hthree, hdigits⟩ := h.fits.1
  rw [List.forall_mem_cons] at hdigits
  rw [List.length_cons] at hthree
  rw [List.take_append, List.take_of_length_le (by omega),
    List.takeWhile_append_of_pos hdigits.2]
  refine (congrArg (ds ++ ·) ?_).trans (List.append_nil ds)
  by_cases hroom : ds.length < 2
  · cases rest with
    | nil => rw [List.take_nil, List.takeWhile_nil]
    | cons c rest' =>
      have hc : isDigit c ≠ true := by
        intro hc
        have hfits : (decimal (d :: (ds ++ [c]))).Fits
            ((decimal (d :: ds)).text ++ c :: rest') := by
          refine ⟨⟨nofun, by simp; omega, ?_⟩, by simp [text]⟩
          exact List.forall_mem_cons.2
            ⟨hdigits.1, List.forall_mem_append.2 ⟨hdigits.2, by simpa using hc⟩⟩
        have hlength := h.longest _ hfits rfl
        simp [text] at hlength
      obtain ⟨k, hk⟩ := Nat.exists_eq_succ_of_ne_zero (Nat.sub_ne_zero_of_lt hroom)
      rw [hk, List.take_succ_cons, List.takeWhile_cons_of_neg hc]
  · rw [Nat.sub_eq_zero_of_le (Nat.le_of_not_lt hroom)]
    rfl

theorem braced_of_closed (h : cs.head? = some '\x7b' ∧ (cs.drop 1).takeWhile isHexDigit ≠ [] ∧
    (cs.drop (((cs.drop 1).takeWhile isHexDigit).length + 1)).head? = some '\x7d') :
    ∃ digits : List Char, digits ≠ [] ∧ (∀ d ∈ digits, isHexDigit d = true) ∧
      ∃ rest, cs = '\x7b' :: (digits ++ '\x7d' :: rest) := by
  obtain ⟨hopen, hne, hclosed⟩ := h
  obtain ⟨inner, rfl⟩ := List.head?_eq_some_iff.1 hopen
  simp only [List.drop_succ_cons, List.drop_zero] at hne hclosed
  obtain ⟨rest, hrest⟩ := List.head?_eq_some_iff.1 hclosed
  refine ⟨inner.takeWhile isHexDigit, hne, List.all_eq_true.1 List.all_takeWhile, rest, ?_⟩
  have hdigits := List.prefix_iff_eq_take.1 (List.takeWhile_prefix (l := inner) isHexDigit)
  have hinner := List.take_append_drop (inner.takeWhile isHexDigit).length inner
  rw [← hdigits, hrest] at hinner
  rw [hinner]

theorem Taken.escape_escaped (h : (escaped c).Taken ((escaped c).text ++ rest)) :
    escape c rest = (0, (escaped c).reading) := by
  have hfirst {j : Item} (hj : j.rank < 4) : ¬j.Fits ((escaped c).text ++ rest) :=
    fun hfits => absurd (h.first j hfits) (Nat.not_le_of_lt hj)
  have hz : c ≠ 'z' := by
    rintro rfl
    exact hfirst (j := blanks []) (by decide) ⟨nofun, List.prefix_append _ rest⟩
  have hdigit : isDigit c ≠ true := fun hc =>
    hfirst (j := decimal [c]) (by simp [rank])
      ⟨⟨nofun, by simp, by simpa using hc⟩, List.prefix_append _ rest⟩
  unfold escape
  rw [if_neg hz]
  by_cases hx : c = 'x'
  · subst hx
    rw [if_pos rfl]
    split
    · rename_i a b rest'
      split
      · rename_i hhex
        rw [Bool.and_eq_true] at hhex
        exact absurd ⟨hhex, List.prefix_append ['\\', 'x', a, b] rest'⟩
          (hfirst (j := hexadecimal a b) (by simp [rank]))
      · rfl
    · rfl
  by_cases hu : c = 'u'
  · subst hu
    rw [if_neg hx, if_pos rfl]
    dsimp only
    split
    · rename_i hbraced
      obtain ⟨digits, hne, hhex, rest', rfl⟩ := braced_of_closed hbraced
      exact absurd ⟨⟨hne, hhex⟩, by simp [text]⟩ (hfirst (j := braced digits) (by simp [rank]))
    · rfl
  · rw [if_neg hx, if_neg hu, if_neg hdigit, reading, if_neg (not_or.2 ⟨hx, hu⟩)]

theorem Taken.item_plain (h : (plain c).Taken ((plain c).text ++ rest)) :
    item c rest = (0, (plain c).reading) := by
  unfold item
  split
  · rename_i e rest'
    exact absurd (h.first (escaped e) ⟨trivial, List.prefix_append ['\\', e] rest'⟩)
      (by simp [rank])
  · rfl

/-- The reader finds the item that is taken, and its end. -/
theorem Taken.item_eq (h : i.Taken (i.text ++ rest)) :
    ∃ c cs, i.text ++ rest = c :: cs ∧ item c cs = (i.text.length - 1, i.reading) := by
  cases i with
  | blanks bs =>
    refine ⟨_, _, rfl, ?_⟩
    simp [item, escape, h.run_blanks, text, reading]
  | hexadecimal a b =>
    refine ⟨_, _, rfl, ?_⟩
    obtain ⟨ha, hb⟩ := h.fits.1
    simp [item, escape, ha, hb, text, reading]
  | braced digits =>
    refine ⟨_, _, rfl, ?_⟩
    obtain ⟨hne, hdigits⟩ := h.fits.1
    have hrun : (digits ++ '\x7d' :: rest).takeWhile isHexDigit = digits := by
      rw [List.takeWhile_append_of_pos hdigits, List.takeWhile_cons_of_neg (by decide),
        List.append_nil]
    simp [item, escape, hrun, hne, text, reading]
  | decimal digits =>
    obtain ⟨hne, -, hdigits⟩ := h.fits.1
    obtain ⟨d, ds, rfl⟩ := List.exists_cons_of_ne_nil hne
    refine ⟨_, _, rfl, ?_⟩
    have hd := hdigits d List.mem_cons_self
    have hletters : d ≠ 'z' ∧ d ≠ 'x' ∧ d ≠ 'u' := by
      refine ⟨?_, ?_, ?_⟩ <;> rintro rfl <;> contradiction
    simp [item, escape, hletters, hd, h.takeWhile_decimal, text, reading]
  | escaped c =>
    refine ⟨_, _, rfl, ?_⟩
    simp [item, h.escape_escaped, text]
  | plain c => exact ⟨_, _, rfl, h.item_plain⟩

/-! ## The value of an item -/

theorem codePoint_eq_ok_iff {n : Nat} {t : Text} :
    codePoint n = .ok t ↔ ∃ p : CodePoint, p.val = n ∧ t = [p] := by
  unfold codePoint
  split
  · rename_i hn
    rw [Except.ok.injEq]
    constructor
    · rintro rfl
      exact ⟨⟨n, hn⟩, rfl, rfl⟩
    · rintro ⟨p, rfl, rfl⟩
      rfl
  · rename_i hn
    constructor
    · intro h
      split at h <;> contradiction
    · rintro ⟨p, rfl, -⟩
      exact absurd p.isLt hn

theorem codePoint_eq_error_iff {n : Nat} :
    (∃ fault, codePoint n = .error fault) ↔ 0x10FFFF < n := by
  unfold codePoint
  split
  · rename_i hn
    constructor
    · rintro ⟨fault, h⟩
      contradiction
    · intro h
      omega
  · rename_i hn
    refine ⟨fun _ => by omega, fun _ => ?_⟩
    split <;> exact ⟨_, rfl⟩

theorem letters_checked :
    CodePoint.decimalValue? 'x' = none ∧ CodePoint.decimalValue? 'u' = none := by
  decide

theorem controls_checked : ∀ q ∈ controls, simpleEscape q.1 = q.2 ∧ q.1 ∉ ['x', 'u'] ∧
    CodePoint.decimalValue? q.1 = none ∧ CodePoint.isOtherDigit q.1 = false := by
  decide

theorem simpleEscape_cases (c : Char) : (c, simpleEscape c) ∈ controls ∨ simpleEscape c = c := by
  unfold simpleEscape
  split <;> first | exact .inl (by decide) | exact .inr rfl

theorem digits_apart_checked : ∀ r ∈ CodePoint.otherDigits, ∀ z ∈ CodePoint.decimalZeros,
    r.2 < z ∨ z + 10 ≤ r.1 := by
  decide

/-- The other digits are no decimal digits. -/
theorem decimalValue?_of_isOtherDigit {p : CodePoint} (h : p.isOtherDigit = true) :
    p.decimalValue? = none := by
  obtain ⟨r, hr, hin⟩ := List.any_eq_true.1 h
  rw [CodePoint.decimalValue?, Option.map_eq_none_iff, List.find?_eq_none]
  intro z hz
  have hapart := digits_apart_checked r hr z hz
  simp only [Bool.and_eq_true, decide_eq_true_eq] at hin ⊢
  omega

theorem exists_decimalValue {p : CodePoint} {n : Nat} (h : p.decimalValue? = some n) :
    ∃ q : CodePoint, q.val = n := by
  obtain ⟨z, -, rfl⟩ := Option.map_eq_some_iff.1 h
  exact ⟨⟨p.val - z, Nat.lt_of_le_of_lt (Nat.sub_le _ _) p.isLt⟩, rfl⟩

theorem reading_escaped (h : c ∉ ['x', 'u']) : (escaped c).reading = singleEscape c := by
  rw [reading, if_neg (by simpa using h)]

theorem hexNumber_eq {ds : List Char} (h : ∀ d ∈ ds, isHexDigit d = true) :
    hexNumber ds = number 16 ds :=
  foldl_hexValue h

theorem decimalNumber_eq {ds : List Char} (h : ∀ d ∈ ds, isDigit d = true) :
    decimalNumber ds = number 10 ds :=
  foldl_hexValue fun d hd => isHexDigit_of_isDigit (h d hd)

/-- The reader finds the text that an item stands for. -/
theorem Stands.reading_eq {t : Text} (h : i.Stands t) (hi : i.IsFormed) : i.reading = .ok t := by
  cases h with
  | blanks | plain => rfl
  | hexadecimal hvalue =>
    have hnumber := hexNumber_eq (List.forall_mem_cons.2 ⟨hi.1, List.forall_mem_singleton.2 hi.2⟩)
    exact codePoint_eq_ok_iff.2 ⟨_, hvalue.trans hnumber.symm, rfl⟩
  | braced hvalue => exact codePoint_eq_ok_iff.2 ⟨_, hvalue.trans (hexNumber_eq hi.2).symm, rfl⟩
  | decimal hvalue =>
    exact codePoint_eq_ok_iff.2 ⟨_, hvalue.trans (decimalNumber_eq hi.2.2).symm, rfl⟩
  | digit hvalue =>
    rw [reading_escaped, singleEscape, hvalue]
    · exact codePoint_eq_ok_iff.2 ⟨_, rfl, rfl⟩
    · intro hletter
      rcases List.mem_pair.1 hletter with rfl | rfl
      · exact nomatch letters_checked.1.symm.trans hvalue
      · exact nomatch letters_checked.2.symm.trans hvalue
  | control hcontrol =>
    obtain ⟨hescape, hletter, hdecimal, hother⟩ := controls_checked _ hcontrol
    rw [reading_escaped hletter, singleEscape]
    simp [hdecimal, hother, hescape]
  | itself huncontrolled hletter hdigit =>
    have hescape := (simpleEscape_cases _).resolve_left (huncontrolled _)
    rw [reading_escaped (by simpa using hletter), singleEscape]
    simp [hdigit, hescape]

/-- The reader refuses a bad item. -/
theorem IsBad.reading_eq (h : i.IsBad) (hi : i.IsFormed) : ∃ fault, i.reading = .error fault := by
  cases h with
  | unnumbered hletter => exact ⟨.badNumber, if_pos hletter⟩
  | beyond hvalue => exact codePoint_eq_error_iff.2 (by rwa [hexNumber_eq hi.2])
  | digit hother =>
    refine ⟨.badNumber, ?_⟩
    rw [reading, singleEscape]
    simp [decimalValue?_of_isOtherDigit hother, hother]

/-- An item stands for a text, or it is bad. -/
theorem stands_or_isBad (hi : i.IsFormed) : (∃ t, i.Stands t) ∨ i.IsBad := by
  cases i with
  | blanks bs => exact .inl ⟨[], .blanks bs⟩
  | hexadecimal a b =>
    have hlt : number 16 [a, b] < 16 ^ 2 := number_lt (by decide) fun d hd =>
      digitValue_lt_sixteen (by rcases List.mem_pair.1 hd with rfl | rfl; exacts [hi.1, hi.2])
    exact .inl ⟨_, .hexadecimal (p := ⟨_, hlt.trans (by decide)⟩) rfl⟩
  | braced digits =>
    rcases Nat.lt_or_ge 0x10FFFF (number 16 digits) with hbeyond | hvalue
    · exact .inr (.beyond hbeyond)
    · exact .inl ⟨_, .braced (p := ⟨_, Nat.lt_succ_of_le hvalue⟩) rfl⟩
  | decimal digits =>
    have hlt : number 10 digits < 10 ^ digits.length :=
      number_lt (by decide) fun d hd => digitValue_lt_ten (hi.2.2 d hd)
    have hle : 10 ^ digits.length ≤ 10 ^ 3 := Nat.pow_le_pow_right (by decide) hi.2.1
    exact .inl ⟨_, .decimal (p := ⟨_, (hlt.trans_le hle).trans (by decide)⟩) rfl⟩
  | escaped c =>
    by_cases hletter : c = 'x' ∨ c = 'u'
    · exact .inr (.unnumbered hletter)
    cases hdecimal : CodePoint.decimalValue? c with
    | some n =>
      obtain ⟨q, rfl⟩ := exists_decimalValue hdecimal
      exact .inl ⟨_, .digit hdecimal⟩
    | none =>
      by_cases hother : CodePoint.isOtherDigit c = true
      · exact .inr (.digit hother)
      by_cases hcontrol : ∃ d, (c, d) ∈ controls
      · obtain ⟨d, hd⟩ := hcontrol
        exact .inl ⟨_, .control hd⟩
      · exact .inl ⟨_, .itself (not_exists.1 hcontrol) (not_or.1 hletter)
          ⟨hdecimal, Bool.eq_false_iff.2 hother⟩⟩
  | plain c => exact .inl ⟨_, .plain c⟩

theorem reading_eq_ok_iff (hi : i.IsFormed) {t : Text} : i.reading = .ok t ↔ i.Stands t := by
  refine ⟨fun h => ?_, fun h => h.reading_eq hi⟩
  rcases stands_or_isBad hi with ⟨t', ht'⟩ | hbad
  · obtain rfl := Except.ok.inj (h.symm.trans (ht'.reading_eq hi))
    exact ht'
  · obtain ⟨fault, hfault⟩ := hbad.reading_eq hi
    cases h.symm.trans hfault

theorem reading_eq_error_iff (hi : i.IsFormed) :
    (∃ fault, i.reading = .error fault) ↔ i.IsBad := by
  refine ⟨fun ⟨fault, hfault⟩ => ?_, fun h => h.reading_eq hi⟩
  refine (stands_or_isBad hi).resolve_left fun ⟨t, ht⟩ => ?_
  cases hfault.symm.trans (ht.reading_eq hi)

end Item

/-! ## Rows of items -/

section Rows

variable {body : List Char} {is : List Item}

theorem items_eq_items_drop (n : Nat) (cs : List Char) : items n cs = items 0 (cs.drop n) := by
  induction n generalizing cs with
  | zero => rfl
  | succ n ih =>
    cases cs with
    | nil => rfl
    | cons c cs => rw [items, ih, List.drop_succ_cons]

theorem Item.Taken.items_eq {i : Item} {rest : List Char} (h : i.Taken (i.text ++ rest)) :
    items 0 (i.text ++ rest) = do
      let first ← i.reading
      let others ← items 0 rest
      return first ++ others := by
  obtain ⟨c, cs, htext, hitem⟩ := h.item_eq
  have hdrop : cs.drop (i.text.length - 1) = rest := by
    have hpos := List.length_pos_iff.2 i.text_ne_nil
    rw [← List.drop_succ_cons (a := c), ← htext, Nat.sub_add_cancel hpos, List.drop_left]
  rw [htext, items, hitem]
  dsimp only
  rw [items_eq_items_drop, hdrop]

/-- Every body is scanned. -/
theorem exists_scanned (body : List Char) : ∃ is, Scanned body is := by
  induction hlength : body.length using Nat.strongRecOn generalizing body with
  | _ n ih =>
    cases body with
    | nil => exact ⟨[], .nil⟩
    | cons c cs =>
      obtain ⟨i, hi⟩ := Item.exists_taken c cs
      obtain ⟨rest, hrest⟩ := hi.fits.2
      rw [← hrest] at hi hlength ⊢
      have hpos := List.length_pos_iff.2 i.text_ne_nil
      rw [List.length_append] at hlength
      obtain ⟨is, his⟩ := ih rest.length (by omega) rest rfl
      exact ⟨i :: is, .cons hi his⟩

/-- A body is scanned in one way. -/
theorem Scanned.unique {is' : List Item} (h : Scanned body is) (h' : Scanned body is') :
    is = is' := by
  induction h generalizing is' with
  | nil =>
    generalize hbody : [] = body at h'
    cases h' with
    | nil => rfl
    | cons => exact absurd (List.append_eq_nil_iff.1 hbody.symm).1 (Item.text_ne_nil _)
  | @cons i rest is htaken _ ih =>
    generalize hbody : i.text ++ rest = body at h'
    cases h' with
    | nil => exact absurd (List.append_eq_nil_iff.1 hbody).1 i.text_ne_nil
    | cons htaken' hothers' =>
      rw [hbody] at htaken
      obtain rfl := htaken.unique htaken'
      obtain rfl := List.append_cancel_left hbody
      rw [ih hothers']

/-- A body stands for the texts of its items one behind the other. -/
theorem Scanned.items_eq_ok_iff (h : Scanned body is) {t : Text} :
    items 0 body = .ok t ↔ ∃ ts, List.Forall₂ Item.Stands is ts ∧ t = ts.flatten := by
  induction h generalizing t with
  | nil => simp [items, eq_comm]
  | @cons i rest is htaken _ ih =>
    rw [htaken.items_eq]
    constructor
    · intro hitems
      cases hfirst : i.reading with
      | error fault =>
        rw [hfirst] at hitems
        contradiction
      | ok first =>
        cases hothers : items 0 rest with
        | error fault =>
          rw [hfirst, hothers] at hitems
          contradiction
        | ok others =>
          rw [hfirst, hothers] at hitems
          obtain ⟨ts, hts, rfl⟩ := ih.1 hothers
          have hstands := (Item.reading_eq_ok_iff htaken.fits.1).1 hfirst
          exact ⟨first :: ts, .cons hstands hts, (Except.ok.inj hitems).symm⟩
    · rintro ⟨_, hts, rfl⟩
      cases hts with
      | cons hstands hts =>
        rw [hstands.reading_eq htaken.fits.1, ih.2 ⟨_, hts, rfl⟩]
        rfl

/-- A body is refused exactly if one of its items is bad. -/
theorem Scanned.items_eq_error_iff (h : Scanned body is) :
    (∃ fault, items 0 body = .error fault) ↔ ∃ i ∈ is, i.IsBad := by
  induction h with
  | nil => simp [items]
  | @cons i rest is htaken _ ih =>
    simp only [List.mem_cons, exists_eq_or_imp]
    rw [htaken.items_eq, ← ih, ← Item.reading_eq_error_iff htaken.fits.1]
    cases i.reading with
    | error fault => simp [bind, Except.bind]
    | ok first => cases items 0 rest <;> simp [bind, Except.bind, pure, Except.pure]

end Rows

/-! ## Literals -/

theorem decode_longBracket (level : Nat) (s : List Char) :
    decode (opener level ++ s ++ closer level) = .ok (Text.ofChars (dropFirstLineEnd s)) := by
  have hlevel : longLevel? (opener level ++ s ++ closer level) = some level :=
    longLevel?_eq_some_iff_opener.2 ⟨s ++ closer level, List.append_assoc _ _ _⟩
  have hopener : (opener level).length = level + 2 := by simp [opener]
  have hinside : inside (level + 2) (opener level ++ s ++ closer level) = s := by
    have hlength : (opener level ++ s ++ closer level).length - 2 * (level + 2) = s.length := by
      rw [List.length_append, List.length_append, hopener, length_closer]
      omega
    rw [inside, hlength, List.append_assoc, ← hopener, List.drop_left, List.take_left]
  rw [decode, hlevel]
  dsimp only
  rw [hinside]

theorem dropFirstLineEnd_eq_self {s : List Char} (hfeed : ¬['\n'] <+: s)
    (hpair : ¬['\r', '\n'] <+: s) : dropFirstLineEnd s = s := by
  unfold dropFirstLineEnd
  split
  · exact absurd (List.prefix_append ['\r', '\n'] _) hpair
  · exact absurd (List.prefix_append ['\n'] _) hfeed
  · rfl

/-- A quoted literal has one row of items. It stands for their texts one behind the other, and it is
refused exactly if one of them is bad. A long bracket of any level stands for what it holds, apart
from a line end right behind its opening. -/
theorem decode_literals :
    (∀ quote ∈ ['"', '\''], ∀ (close : Char) (body : List Char), ∃ is,
      (∀ is', Scanned body is' ↔ is' = is) ∧
      (∀ t, decode (quote :: (body ++ [close])) = .ok t ↔
        ∃ ts, List.Forall₂ Item.Stands is ts ∧ t = ts.flatten) ∧
      ((∃ fault, decode (quote :: (body ++ [close])) = .error fault) ↔ ∃ i ∈ is, i.IsBad)) ∧
    ∀ (level : Nat) (s : List Char),
      (∀ lineEnd ∈ [['\n'], ['\r', '\n']],
        decode (opener level ++ (lineEnd ++ s) ++ closer level) = .ok (Text.ofChars s)) ∧
      (¬['\n'] <+: s → ¬['\r', '\n'] <+: s →
        decode (opener level ++ s ++ closer level) = .ok (Text.ofChars s)) := by
  constructor
  · intro quote hquote close body
    obtain ⟨is, his⟩ := exists_scanned body
    refine ⟨is, fun is' => ⟨fun h => h.unique his, ?_⟩, fun t => ?_, ?_⟩
    · rintro rfl
      exact his
    · rw [decode_quoted hquote, his.items_eq_ok_iff]
    · rw [decode_quoted hquote, his.items_eq_error_iff]
  · intro level s
    constructor
    · intro lineEnd hlineEnd
      rw [decode_longBracket]
      rcases List.mem_pair.1 hlineEnd with rfl | rfl <;> rfl
    · intro hfeed hpair
      rw [decode_longBracket, dropFirstLineEnd_eq_self hfeed hpair]

/-- Blanks end at the first other character, a number ends at its third digit, and a carriage return
alone is no line end. -/
theorem decode_literals_mixed :
    ('\'' ∈ ['"', '\''] ∧ ∃ is, Scanned "\\x41\\z \n\\0677\\q\\\\n".toList is ∧
      (∃ ts, List.Forall₂ Item.Stands is ts ∧ "AC7q\\n" = ts.flatten) ∧ ¬∃ i ∈ is, i.IsBad) ∧
    decode (opener 2 ++ "\r\na]]\\n".toList ++ closer 2) = .ok "a]]\\n" ∧
    ¬['\n'] <+: "\ra".toList ∧ ¬['\r', '\n'] <+: "\ra".toList ∧
      decode (opener 0 ++ "\ra".toList ++ closer 0) = .ok "\ra" := by
  have hdecode :
      decode ('\'' :: ("\\x41\\z \n\\0677\\q\\\\n".toList ++ ['\''])) = .ok "AC7q\\n" := by
    decide
  have hquote : '\'' ∈ ['"', '\''] := by decide
  have hfeed : ¬['\n'] <+: "\ra".toList := by decide
  have hpair : ¬['\r', '\n'] <+: "\ra".toList := by decide
  obtain ⟨hquoted, hbracket⟩ := decode_literals
  obtain ⟨is, hscanned, hstands, hbad⟩ :=
    hquoted '\'' hquote '\'' "\\x41\\z \n\\0677\\q\\\\n".toList
  refine ⟨⟨hquote, is, (hscanned is).2 rfl, (hstands _).1 hdecode, ?_⟩, ?_, hfeed, hpair, ?_⟩
  · rw [← hbad, hdecode]
    nofun
  · exact (hbracket 2 "a]]\\n".toList).1 ['\r', '\n'] (by decide)
  · exact (hbracket 0 "\ra".toList).2 hfeed hpair

end TypedLinks.Luau.StringLiteral
