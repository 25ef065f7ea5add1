import Mathlib.Data.List.Forall2
import TypedLinks.Diagnostic.Report
import TypedLinks.Proofs.Diagnostic.Location
import TypedLinks.Proofs.Disk.Usable

/-!
# Color

Color adds nothing but color: what is rendered with it holds style sequences besides the text that
is rendered without it, and every style that is switched on is switched off again before the next
one, and before the end. This is said about the characters of the two texts: a text is cut into
style sequences and single characters, the sequences are left out, and a pen follows them. It holds
of any problem, and of any report, whose texts do not hold the escape character themselves.

Each piece of a line is read alike in front of any text, so what holds of pieces holds of the lines,
diagnostics and reports that they are put together to.
-/

namespace TypedLinks

/-! ## Style sequences in a text -/

namespace CodePoint

/-- The character that a style sequence begins with. -/
def escape : CodePoint := ofChar '\x1b'

/-- Whether a code point is one of the digits from 0 to 9. -/
def isAsciiDigit (p : CodePoint) : Bool := decide (48 ≤ p.val ∧ p.val ≤ 57)

end CodePoint

open CodePoint (escape isAsciiDigit)

/-- What a terminal takes in at once: a style sequence, by its number, or any other code point. -/
inductive Sign where
  | point (p : CodePoint)
  | sequence (number : Text)
  deriving DecidableEq

/-- The code point that a sign shows; a style sequence shows none. -/
def Sign.shown? : Sign → Option CodePoint
  | point p => some p
  | sequence _ => none

/-- The state of the pen that a terminal writes with. -/
inductive Pen where
  /-- No style is on. -/
  | plain
  /-- A style has been switched on, by one sequence or more, and nothing has been written since. -/
  | opened
  /-- Something has been written in a style that is still on. -/
  | styled
  deriving DecidableEq

/-- The pen after a sign. It has none if a style begins where another one has not ended, or if one
ends where none is on. -/
def Pen.next? : Pen → Sign → Option Pen
  | plain, .point _ => some plain
  | plain, .sequence number => if number = "0" then none else some opened
  | opened, .point _ => some styled
  | opened, .sequence number => if number = "0" then some plain else some opened
  | styled, .point _ => some styled
  | styled, .sequence number => if number = "0" then some plain else none

namespace Text

/-- A number of a style sequence: one digit or more. -/
def IsStyleNumber (t : Text) : Prop := t ≠ [] ∧ t.all isAsciiDigit

instance (t : Text) : Decidable t.IsStyleNumber := inferInstanceAs (Decidable (_ ∧ _))

/-- The style sequence with a number: escape, a bracket, the number and the letter `m`. -/
def styleSequence (number : Text) : Text := escape :: CodePoint.ofChar '[' :: (number ++ "m")

/-- The number of the style sequence that a text begins with, and what stands behind it. -/
def styleSequence? : Text → Option (Text × Text)
  | e :: bracket :: t =>
    match t.dropWhile isAsciiDigit with
    | m :: rest =>
      if e = escape ∧ bracket = CodePoint.ofChar '[' ∧ m = CodePoint.ofChar 'm' ∧
          t.takeWhile isAsciiDigit ≠ [] then
        some (t.takeWhile isAsciiDigit, rest)
      else none
    | [] => none
  | _ => none

theorem length_of_styleSequence? {t number rest : Text}
    (h : t.styleSequence? = some (number, rest)) : rest.length < t.length := by
  unfold styleSequence? at h
  split at h
  · rename_i t
    split at h
    · rename_i hdrop
      split at h
      · cases h
        have hlength := (List.dropWhile_suffix isAsciiDigit (l := t)).length_le
        rw [hdrop, List.length_cons] at hlength
        rw [List.length_cons, List.length_cons]
        omega
      · cases h
    · cases h
  · cases h

/-- The signs of a text, from left to right. -/
def signs (t : Text) : List Sign :=
  match t with
  | [] => []
  | p :: t =>
    match h : styleSequence? (p :: t) with
    | some (number, rest) =>
      have := length_of_styleSequence? h
      .sequence number :: signs rest
    | none => .point p :: signs t
termination_by t.length
decreasing_by
  · assumption
  · exact Nat.lt_succ_self t.length

/-- The text without its style sequences. -/
def withoutStyles (t : Text) : Text := t.signs.filterMap Sign.shown?

/-- Every style of a text is switched off before the next one is switched on, and before the end. -/
def ClosesStyles (t : Text) : Prop := t.signs.foldlM Pen.next? .plain = some .plain

instance (t : Text) : Decidable t.ClosesStyles := inferInstanceAs (Decidable (_ = _))

theorem styleSequence?_of_ne {p : CodePoint} (h : p ≠ escape) (t : Text) :
    styleSequence? (p :: t) = none := by
  unfold styleSequence?
  split
  · rename_i heq
    cases heq
    split
    · exact if_neg fun hall => h hall.1
    · rfl
  · rfl

theorem styleSequence?_styleSequence {number : Text} (h : number.IsStyleNumber) (t : Text) :
    styleSequence? (styleSequence number ++ t) = some (number, t) := by
  obtain ⟨hne, hall⟩ := h
  have hdigits := List.all_eq_true.1 hall
  have hm : isAsciiDigit (CodePoint.ofChar 'm') = false := by decide
  have hrest : ("m" : Text) ++ t = CodePoint.ofChar 'm' :: t := rfl
  have htake : (number ++ ("m" ++ t)).takeWhile isAsciiDigit = number := by
    rw [List.takeWhile_append_of_pos hdigits, hrest, List.takeWhile_cons_of_neg (by simp [hm]),
      List.append_nil]
  have hdrop : (number ++ ("m" ++ t)).dropWhile isAsciiDigit = CodePoint.ofChar 'm' :: t := by
    rw [List.dropWhile_append_of_pos hdigits, hrest, List.dropWhile_cons_of_neg (by simp [hm])]
  unfold styleSequence styleSequence?
  rw [List.cons_append, List.cons_append, List.append_assoc]
  dsimp only
  rw [hdrop, htake]
  exact if_pos ⟨rfl, rfl, rfl, hne⟩

theorem signs_nil : signs [] = [] := by rw [signs]

theorem signs_cons_of_ne {p : CodePoint} (h : p ≠ escape) (t : Text) :
    signs (p :: t) = .point p :: signs t := by
  rw [signs]
  split
  · rename_i heq
    rw [styleSequence?_of_ne h] at heq
    cases heq
  · rfl

theorem signs_styleSequence_append {number : Text} (h : number.IsStyleNumber) (t : Text) :
    signs (styleSequence number ++ t) = .sequence number :: signs t := by
  have hsequence := styleSequence?_styleSequence h t
  rw [styleSequence, List.cons_append] at hsequence ⊢
  rw [signs]
  split
  · rename_i heq
    rw [hsequence] at heq
    cases heq
    rfl
  · rename_i heq
    rw [hsequence] at heq
    cases heq

theorem signs_append_of_notMem {t : Text} (h : escape ∉ t) (u : Text) :
    signs (t ++ u) = t.map Sign.point ++ signs u := by
  induction t with
  | nil => rfl
  | cons p t ih =>
    obtain ⟨hp, ht⟩ := List.ne_and_not_mem_of_not_mem_cons h
    rw [List.cons_append, signs_cons_of_ne hp.symm, ih ht, List.map_cons, List.cons_append]

theorem signs_flatMap_append {numbers : List Text} (h : ∀ n ∈ numbers, n.IsStyleNumber) (u : Text) :
    signs (numbers.flatMap styleSequence ++ u) = numbers.map Sign.sequence ++ signs u := by
  induction numbers with
  | nil => rfl
  | cons n numbers ih =>
    obtain ⟨hn, hnumbers⟩ := List.forall_mem_cons.1 h
    rw [List.flatMap_cons, List.append_assoc, signs_styleSequence_append hn, ih hnumbers,
      List.map_cons, List.cons_append]

end Text

/-! ## Texts with and without color -/

/-- A line of which no piece holds the escape character. -/
def StyledLine.Unescaped (line : StyledLine) : Prop := ∀ p ∈ line, escape ∉ p.text

theorem StyledLine.unescaped_single {p : Piece} (h : escape ∉ p.text) : Unescaped [p] :=
  List.forall_mem_singleton.2 h

theorem StyledLine.unescaped_pair {p q : Piece} (hp : escape ∉ p.text) (hq : escape ∉ q.text) :
    Unescaped [p, q] :=
  List.forall_mem_cons.2 ⟨hp, unescaped_single hq⟩

/-- A text with color differs from the text without color by style sequences only, and ends with the
pen that it begins with. It is cut into its signs in front of any text. -/
structure Colors (colored plain : Text) : Prop where
  signs_eq : ∃ signs : List Sign, (∀ t, Text.signs (colored ++ t) = signs ++ Text.signs t) ∧
    signs.filterMap Sign.shown? = plain ∧ signs.foldlM Pen.next? .plain = some .plain
  notMem : escape ∉ plain

namespace Colors

variable {colored colored' plain plain' t : Text}

theorem deleted_and_closed (h : Colors colored plain) :
    colored.withoutStyles = plain ∧ colored.ClosesStyles := by
  obtain ⟨signs, hsigns, hshown, hpen⟩ := h.signs_eq
  have hall := hsigns []
  rw [List.append_nil, Text.signs_nil, List.append_nil] at hall
  rw [Text.withoutStyles, Text.ClosesStyles, hall]
  exact ⟨hshown, hpen⟩

theorem nil : Colors [] [] := ⟨⟨[], fun _ => rfl, rfl, rfl⟩, List.not_mem_nil⟩

theorem append (h : Colors colored plain) (h' : Colors colored' plain') :
    Colors (colored ++ colored') (plain ++ plain') := by
  obtain ⟨signs, hsigns, hshown, hpen⟩ := h.signs_eq
  obtain ⟨signs', hsigns', hshown', hpen'⟩ := h'.signs_eq
  refine ⟨⟨signs ++ signs', fun t => ?_, ?_, ?_⟩, List.not_mem_append h.notMem h'.notMem⟩
  · rw [List.append_assoc, hsigns, hsigns', List.append_assoc]
  · rw [List.filterMap_append, hshown, hshown']
  · rw [List.foldlM_append, hpen]
    exact hpen'

/-! ### Pieces -/

theorem filterMap_shown?_points (t : Text) : (t.map Sign.point).filterMap Sign.shown? = t := by
  induction t with
  | nil => rfl
  | cons p t ih => exact congrArg (p :: ·) ih

/-- Writing leaves a style on or off as it was. -/
theorem foldlM_points {pen : Pen} (hpen : ∀ p, pen.next? (.point p) = some pen) (t : Text) :
    (t.map Sign.point).foldlM Pen.next? pen = some pen := by
  induction t with
  | nil => rfl
  | cons p t ih =>
    rw [List.map_cons, List.foldlM_cons, hpen]
    exact ih

theorem of_notMem (h : escape ∉ t) : Colors t t :=
  ⟨⟨t.map Sign.point, Text.signs_append_of_notMem h, filterMap_shown?_points t,
    foldlM_points (fun _ => rfl) t⟩, h⟩

/-- An emphasis is switched on by sequences of which none is the one that ends it. -/
theorem codes_eq (e : Emphasis) : ∃ number numbers,
    (∀ n ∈ number :: numbers, Text.IsStyleNumber n ∧ n ≠ "0") ∧
      e.codes = (number :: numbers).flatMap Text.styleSequence := by
  cases e with
  | alarm => exact ⟨"1", ["31"], by decide, by decide⟩
  | strong => exact ⟨"1", [], by decide, by decide⟩
  | frame => exact ⟨"1", ["34"], by decide, by decide⟩
  | remark => exact ⟨"1", ["36"], by decide, by decide⟩

/-- A row of sequences switches one style on. -/
theorem foldlM_opening {numbers : List Text} (h : ∀ n ∈ numbers, n ≠ "0") :
    (numbers.map Sign.sequence).foldlM Pen.next? .opened = some .opened := by
  induction numbers with
  | nil => rfl
  | cons n numbers ih =>
    obtain ⟨hn, hnumbers⟩ := List.forall_mem_cons.1 h
    rw [List.map_cons, List.foldlM_cons, Pen.next?, if_neg hn]
    exact ih hnumbers

/-- What is written in a style ends with the sequence that ends the style. -/
theorem foldlM_closing (t : Text) :
    (t.map Sign.point ++ [Sign.sequence "0"]).foldlM Pen.next? .opened = some .plain := by
  cases t with
  | nil => rfl
  | cons p t =>
    rw [List.map_cons, List.cons_append, List.foldlM_cons, Pen.next?]
    change (t.map Sign.point ++ [Sign.sequence "0"]).foldlM Pen.next? .styled = some .plain
    rw [List.foldlM_append, foldlM_points fun _ => rfl]
    rfl

theorem styled (e : Emphasis) (h : escape ∉ t) : Colors (e.codes ++ t ++ Emphasis.reset) t := by
  obtain ⟨number, numbers, hnumbers, hcodes⟩ := codes_eq e
  have hzero : Text.IsStyleNumber "0" := by decide
  have hreset (u : Text) : Text.signs (Emphasis.reset ++ u) = .sequence "0" :: u.signs :=
    Text.signs_styleSequence_append hzero u
  refine ⟨⟨(number :: numbers).map Sign.sequence ++ (t.map Sign.point ++ [.sequence "0"]),
    fun u => ?_, ?_, ?_⟩, h⟩
  · rw [hcodes, List.append_assoc, List.append_assoc,
      Text.signs_flatMap_append fun n hn => (hnumbers n hn).1,
      Text.signs_append_of_notMem h, hreset]
    simp only [List.append_assoc, List.singleton_append]
  · have hhidden : ((number :: numbers).map Sign.sequence).filterMap Sign.shown? = [] := by
      rw [List.filterMap_eq_nil_iff]
      exact List.forall_mem_map.2 fun _ _ => rfl
    rw [List.filterMap_append, List.filterMap_append, hhidden, filterMap_shown?_points]
    exact List.append_nil t
  · obtain ⟨hfirst, hothers⟩ := List.forall_mem_cons.1 hnumbers
    rw [List.foldlM_append, List.map_cons, List.foldlM_cons, Pen.next?, if_neg hfirst.2]
    change (((numbers.map Sign.sequence).foldlM Pen.next? .opened).bind _) = _
    rw [foldlM_opening fun n hn => (hothers n hn).2]
    exact foldlM_closing t

theorem paint {p : Piece} (h : escape ∉ p.text) : Colors (p.paint true) (p.paint false) := by
  obtain ⟨emphasis, text⟩ := p
  cases emphasis with
  | none => exact of_notMem h
  | some e => exact styled e h

/-! ### Lines -/

theorem flatMap_paint {line : StyledLine} (h : line.Unescaped) :
    Colors (line.flatMap (Piece.paint true)) (line.flatMap (Piece.paint false)) := by
  induction line with
  | nil => exact nil
  | cons p line ih =>
    obtain ⟨hp, hline⟩ := List.forall_mem_cons.1 h
    exact (paint hp).append (ih hline)

/-- Texts with color that are put together with a separator differ from those without color by what
they differ in themselves. -/
theorem join {separator : Text} (hseparator : escape ∉ separator) {cs ps : List Text}
    (h : List.Forall₂ Colors cs ps) : Colors (Text.join separator cs) (Text.join separator ps) := by
  induction h with
  | nil => exact nil
  | cons hc hcs ih =>
    cases hcs with
    | nil => simpa only [Text.join, List.intercalate_singleton] using hc
    | cons =>
      simp only [Text.join, List.intercalate_cons_cons]
      exact (hc.append (of_notMem hseparator)).append ih

theorem paintLines {lines : List StyledLine} (h : ∀ line ∈ lines, line.Unescaped) :
    Colors (paintLines true lines) (paintLines false lines) := by
  refine join (by decide) ?_
  rw [List.forall₂_map_left_iff, List.forall₂_map_right_iff, List.forall₂_same]
  exact fun line hline => flatMap_paint (h line hline)

end Colors

/-! ## Texts without the escape character -/

/-- A problem whose texts do not hold the escape character. -/
structure Problem.Unescaped (p : Problem) : Prop where
  message : escape ∉ p.message
  file : ∀ l ∈ p.location, escape ∉ l.file
  source : ∀ t ∈ p.source, escape ∉ t
  help : ∀ t ∈ p.help, escape ∉ t
  note : ∀ t ∈ p.note, escape ∉ t
  label : ∀ t ∈ p.label, escape ∉ t

/-- A diagnostic whose texts do not hold the escape character. -/
structure Diagnostic.Unescaped (d : Diagnostic) : Prop where
  code : ∀ t ∈ d.code, escape ∉ t
  message : escape ∉ d.message
  file : ∀ l ∈ d.location, escape ∉ l.file
  help : ∀ t ∈ d.help, escape ∉ t
  note : ∀ t ∈ d.note, escape ∉ t
  label : ∀ t ∈ d.label, escape ∉ t

/-- Source texts that do not hold the escape character. -/
def Sources.Unescaped (sources : Sources) : Prop := ∀ x ∈ sources, escape ∉ x.2

/-- A report whose texts do not hold the escape character. -/
structure Report.Unescaped (r : Report) : Prop where
  sources : r.sources.Unescaped
  diagnostics : ∀ d ∈ r.diagnostics, d.Unescaped

theorem Text.escape_notMem_ofNat (n : Nat) : escape ∉ Text.ofNat n := by
  intro h
  have hdigit := Nat.isDigit_of_mem_toDigits (by decide) (by decide) (Text.mem_ofChars.1 h)
  exact absurd hdigit (by decide)

theorem Text.escape_notMem_ofInt (n : Int) : escape ∉ Text.ofInt n := by
  cases n with
  | ofNat n => exact escape_notMem_ofNat n
  | negSucc n => exact List.not_mem_append (by decide) (escape_notMem_ofNat (n + 1))

theorem Text.dropTrailingReturns_subset (t : Text) : t.dropTrailingReturns ⊆ t := by
  intro p hp
  have hmem := (List.dropWhile_suffix _).subset (List.mem_reverse.1 hp)
  exact List.mem_reverse.1 hmem

theorem Location.escape_notMem_describe {l : Location} (h : escape ∉ l.file) :
    escape ∉ l.describe := by
  have hline := List.not_mem_append (List.not_mem_append h (by decide : escape ∉ (":" : Text)))
    (Text.escape_notMem_ofInt l.line)
  exact List.not_mem_append (List.not_mem_append hline (by decide))
    (Text.escape_notMem_ofInt l.column)

namespace Diagnostic

variable {d : Diagnostic} {sources : Sources}

theorem escape_notMem_replicate {p : CodePoint} (hp : p ≠ escape) (n : Nat) :
    escape ∉ List.replicate n p :=
  fun h => hp (List.eq_of_mem_replicate h).symm

/-- A frame is made of spaces and a mark. -/
theorem escape_notMem_frame (n : Nat) {mark : Text} (h : escape ∉ mark) :
    escape ∉ spaces n ++ mark :=
  List.not_mem_append (escape_notMem_replicate (by decide) n) h

theorem mem_of_mem_nonempty? {o : Option Text} {t : Text} (h : t ∈ nonempty? o) : t ∈ o := by
  unfold nonempty? at h
  split at h
  · cases h
  · exact h

/-- What is shown of a text that may be missing. -/
theorem escape_notMem_elim {o : Option Text} (h : ∀ t ∈ o, escape ∉ t) {f : Text → Text}
    (hf : ∀ t, escape ∉ t → escape ∉ f t) : escape ∉ (nonempty? o).elim ([] : Text) f := by
  cases ho : nonempty? o with
  | none => exact List.not_mem_nil
  | some t => exact hf t (h t (mem_of_mem_nonempty? ho))

/-- What is shown of a source stands in it, whatever the line is. -/
theorem sourceLine_subset (source : Text) (line : Int) : sourceLine source line ⊆ source := by
  unfold sourceLine
  split
  · cases hline : source.lines[(line - 1).toNat]? with
    | none => exact List.nil_subset source
    | some t =>
      exact List.Subset.trans t.dropTrailingReturns_subset
        (Text.subset_of_mem_splitOn (List.mem_of_getElem? hline))
  · exact List.nil_subset source

namespace Unescaped

theorem header (h : d.Unescaped) : d.header.Unescaped := by
  have hcode := escape_notMem_elim h.code (f := ("[" ++ · ++ "]")) fun t ht =>
    List.not_mem_append (List.not_mem_append (by decide) ht) (by decide)
  exact StyledLine.unescaped_pair (List.not_mem_append (by decide) hcode)
    (List.not_mem_append (by decide) h.message)

theorem remark (gutter : Nat) {title text : Text} (htitle : escape ∉ title)
    (htext : escape ∉ text) : (Diagnostic.remark gutter title text).Unescaped := by
  have hmark := escape_notMem_frame (gutter + 1) (by decide : escape ∉ ("= " : Text))
  have hlabel := List.not_mem_append htitle (by decide : escape ∉ (": " : Text))
  exact List.forall_mem_cons.2 ⟨hmark, StyledLine.unescaped_pair hlabel htext⟩

theorem remarks (h : d.Unescaped) (gutter : Nat) : ∀ line ∈ d.remarks gutter, line.Unescaped := by
  have hremark (title : Text) (htitle : escape ∉ title) {o : Option Text}
      (ho : ∀ t ∈ o, escape ∉ t) :
      ∀ line ∈ ((nonempty? o).map (Diagnostic.remark gutter title)).toList, line.Unescaped := by
    intro line hline
    obtain ⟨t, ht, rfl⟩ := Option.map_eq_some_iff.1 (Option.mem_toList.1 hline)
    exact remark gutter htitle (ho t (mem_of_mem_nonempty? ht))
  have hlines := List.forall_mem_append.2
    ⟨hremark "help" (by decide) h.help, hremark "note" (by decide) h.note⟩
  unfold Diagnostic.remarks
  dsimp only
  split
  · exact List.forall_mem_nil _
  · split
    · have hbar := escape_notMem_frame (gutter + 1) (by decide : escape ∉ ("|" : Text))
      exact List.forall_mem_cons.2 ⟨StyledLine.unescaped_single hbar, hlines⟩
    · exact hlines

theorem snippet (h : d.Unescaped) {l : Location} (hl : d.location = some l) {source : Text}
    (hsource : escape ∉ source) : ∀ line ∈ d.snippet l source, line.Unescaped := by
  have hplace := Location.escape_notMem_describe (h.file l hl)
  have hline : escape ∉ sourceLine source l.line := fun hmem =>
    hsource (sourceLine_subset source l.line hmem)
  have hlabel := escape_notMem_elim h.label (f := (" " ++ ·)) fun t ht =>
    List.not_mem_append (by decide) ht
  have hcarets (n : Nat) : escape ∉ List.replicate n (CodePoint.ofChar '^') :=
    escape_notMem_replicate (by decide) n
  unfold Diagnostic.snippet
  refine List.forall_mem_append.2 ⟨?_, h.remarks _⟩
  refine List.forall_mem_cons.2 ⟨?arrow, List.forall_mem_cons.2 ⟨?bar, List.forall_mem_cons.2
    ⟨?line, List.forall_mem_singleton.2 ?underline⟩⟩⟩
  case arrow => exact StyledLine.unescaped_pair (escape_notMem_frame _ (by decide)) hplace
  case bar => exact StyledLine.unescaped_single (escape_notMem_frame _ (by decide))
  case line =>
    have hnumber := List.not_mem_append (Text.escape_notMem_ofInt l.line)
      (by decide : escape ∉ (" | " : Text))
    exact StyledLine.unescaped_pair hnumber hline
  case underline =>
    exact StyledLine.unescaped_pair (escape_notMem_frame _ (by decide))
      (List.not_mem_append (escape_notMem_frame _ (hcarets _)) hlabel)

theorem lines (h : d.Unescaped) (hsources : sources.Unescaped) :
    ∀ line ∈ d.lines sources, line.Unescaped := by
  unfold Diagnostic.lines
  cases hl : d.location with
  | none => exact List.forall_mem_cons.2 ⟨h.header, h.remarks 1⟩
  | some l =>
    dsimp only
    cases hsource : sources.lookup l.file with
    | none =>
      have hplace := Location.escape_notMem_describe (h.file l hl)
      have harrow : StyledLine.Unescaped [.styled .frame " --> ", .plain l.describe] :=
        StyledLine.unescaped_pair (by decide) hplace
      exact List.forall_mem_cons.2 ⟨h.header, List.forall_mem_cons.2 ⟨harrow, h.remarks 1⟩⟩
    | some source =>
      obtain ⟨before, after, rfl, -⟩ := List.lookup_eq_some_iff.1 hsource
      have hmem := hsources (l.file, source) (List.mem_append_right before List.mem_cons_self)
      exact List.forall_mem_cons.2 ⟨h.header, h.snippet hl hmem⟩

end Unescaped

end Diagnostic

/-! ## What is rendered -/

theorem Problem.Unescaped.diagnostic {p : Problem} (h : p.Unescaped) : p.diagnostic.Unescaped where
  code t ht := by
    have hcode : escape ∉ p.kind.code := by cases p.kind <;> decide
    exact Option.some.inj ht ▸ hcode
  message := h.message
  file := h.file
  help := h.help
  note := h.note
  label := h.label

theorem Problem.Unescaped.sources {p : Problem} (h : p.Unescaped) : p.sources.Unescaped := by
  unfold Problem.sources
  split
  · rename_i source _ hsource
    exact List.forall_mem_singleton.2 (h.source source hsource)
  · exact List.forall_mem_nil _

namespace Report

variable {r : Report}

theorem Unescaped.add (h : r.Unescaped) {p : Problem} (hp : p.Unescaped) : (r.add p).Unescaped where
  sources := List.forall_mem_append.2 ⟨hp.sources, h.sources⟩
  diagnostics := List.forall_mem_append.2
    ⟨h.diagnostics, List.forall_mem_singleton.2 hp.diagnostic⟩

/-- A report stays without the escape character as problems without it are added. -/
theorem Unescaped.foldl_add (h : r.Unescaped) {ps : List Problem} (hps : ∀ p ∈ ps, p.Unescaped) :
    (ps.foldl Report.add r).Unescaped := by
  induction ps generalizing r with
  | nil => exact h
  | cons p ps ih =>
    obtain ⟨hp, hrest⟩ := List.forall_mem_cons.1 hps
    exact ih (h.add hp) hrest

theorem unescaped_summaryLine (r : Report) : r.summaryLine.Unescaped := by
  have hfiles : escape ∉
      (if r.diagnostics.length = 1 then " link file" else " link files" : Text) := by
    split <;> decide
  have hcount := List.not_mem_append (by decide : escape ∉ (": " : Text))
    (Text.escape_notMem_ofNat r.diagnostics.length)
  exact StyledLine.unescaped_pair (by decide)
    (List.not_mem_append (List.not_mem_append hcount hfiles) (by decide))

end Report

/-! ### With color -/

/-- What begins with an emphasis is rendered with the sequences of the emphasis in front. -/
theorem codes_prefix_paintLines (e : Emphasis) (t : Text) (line : StyledLine)
    (lines : List StyledLine) : e.codes <+: paintLines true ((.styled e t :: line) :: lines) := by
  refine List.IsPrefix.trans ?_ (Text.prefix_join _ _ _)
  change e.codes <+: e.codes ++ t ++ Emphasis.reset ++ line.flatMap (Piece.paint true)
  rw [List.append_assoc, List.append_assoc]
  exact List.prefix_append _ _

theorem Diagnostic.codes_prefix_render (d : Diagnostic) (sources : Sources) :
    Emphasis.alarm.codes <+: d.render sources true := by
  have hlines : ∃ rest, d.lines sources = d.header :: rest := by
    unfold Diagnostic.lines
    split
    · exact ⟨_, rfl⟩
    · split <;> exact ⟨_, rfl⟩
  obtain ⟨rest, hlines⟩ := hlines
  rw [render, hlines]
  exact codes_prefix_paintLines _ _ _ _

theorem Report.codes_prefix_render (r : Report) : Emphasis.alarm.codes <+: r.render true := by
  unfold render
  cases r.diagnostics with
  | nil =>
    have hsummary : Emphasis.alarm.codes <+: r.summary true := codes_prefix_paintLines _ _ _ _
    exact hsummary.trans (Text.prefix_join _ _ _)
  | cons d ds =>
    exact (d.codes_prefix_render r.sources).trans (Text.prefix_join _ _ _)

/-! ### With and without color -/

/-- What is rendered with color begins with an emphasis, and it is what is rendered without color
with style sequences in between. Each style is ended before the next one begins and before the end.
Without color there is no sequence. -/
structure AddsStyles (render : Bool → Text) : Prop where
  emphasised : Emphasis.alarm.codes <+: render true
  deleted : (render true).withoutStyles = render false
  closed : (render true).ClosesStyles
  notMem : escape ∉ render false

theorem Colors.addsStyles {render : Bool → Text} (h : Colors (render true) (render false))
    (hcodes : Emphasis.alarm.codes <+: render true) : AddsStyles render :=
  ⟨hcodes, h.deleted_and_closed.1, h.deleted_and_closed.2, h.notMem⟩

theorem Diagnostic.Unescaped.colors_render {d : Diagnostic} {sources : Sources} (h : d.Unescaped)
    (hsources : sources.Unescaped) : Colors (d.render sources true) (d.render sources false) :=
  .paintLines (h.lines hsources)

theorem Diagnostic.Unescaped.addsStyles {d : Diagnostic} {sources : Sources} (h : d.Unescaped)
    (hsources : sources.Unescaped) : AddsStyles (d.render sources) :=
  (h.colors_render hsources).addsStyles (d.codes_prefix_render sources)

theorem Report.colors_summary (r : Report) : Colors (r.summary true) (r.summary false) :=
  .paintLines (List.forall_mem_singleton.2 r.unescaped_summaryLine)

theorem Report.Unescaped.colors_render {r : Report} (h : r.Unescaped) :
    Colors (r.render true) (r.render false) := by
  refine .join (by decide) (List.rel_append ?_ (.cons r.colors_summary .nil))
  rw [List.forall₂_map_left_iff, List.forall₂_map_right_iff, List.forall₂_same]
  exact fun d hd => (h.diagnostics d hd).colors_render h.sources

/-- Color adds nothing but styles to problems whose texts do not hold the escape character: to each
problem that is shown by itself, and to each one, the summary and the whole of a report that they
are added to. -/
theorem color_adds_styles {r : Report} {ps : List Problem} (hr : r.Unescaped)
    (hps : ∀ p ∈ ps, p.Unescaped) :
    (∀ p ∈ ps, AddsStyles p.render) ∧
      let report := ps.foldl Report.add r
      (∀ d ∈ report.diagnostics, AddsStyles (d.render report.sources)) ∧
        AddsStyles report.summary ∧ AddsStyles report.render := by
  have hreport := hr.foldl_add hps
  refine ⟨fun p hp => ?_, fun d hd => ?_, ?_, ?_⟩
  · exact (hps p hp).diagnostic.addsStyles (hps p hp).sources
  · exact (hreport.diagnostics d hd).addsStyles hreport.sources
  · exact (Report.colors_summary _).addsStyles (codes_prefix_paintLines _ _ _ _)
  · exact hreport.colors_render.addsStyles (Report.codes_prefix_render _)

/-- A report that has a diagnostic without a code. -/
def uncodedReport : Report where
  sources := [("f", "return x\n")]
  diagnostics := [⟨none, "m", some ⟨"f", 1, -2, 0, 0, 0, 0⟩, some "", none, some "l"⟩]

/-- A problem behind the end of its source, with all remarks, and one without a place. -/
def scatteredProblems : List Problem :=
  [{ kind := .link, message := "m", location := some ⟨"f", 7, 0, 0, 0, 7, 3⟩, source := some "x\r"
     help := some "h", note := some "[0m", label := some "l" },
    { kind := .fatal, message := "" }]

theorem color_adds_styles_scattered :
    (uncodedReport.Unescaped ∧ ∀ p ∈ scatteredProblems, p.Unescaped) ∧
      (∀ p ∈ scatteredProblems, AddsStyles p.render) ∧
      let report := scatteredProblems.foldl Report.add uncodedReport
      (∀ d ∈ report.diagnostics, AddsStyles (d.render report.sources)) ∧
        AddsStyles report.summary ∧ AddsStyles report.render := by
  have hreport : uncodedReport.Unescaped :=
    ⟨List.forall_mem_singleton.2 (by decide), List.forall_mem_singleton.2
      ⟨by decide, by decide, by decide, by decide, by decide, by decide⟩⟩
  have hproblems : ∀ p ∈ scatteredProblems, p.Unescaped :=
    List.forall_mem_cons.2 ⟨⟨by decide, by decide, by decide, by decide, by decide, by decide⟩,
      List.forall_mem_singleton.2
        ⟨by decide, by decide, by decide, by decide, by decide, by decide⟩⟩
  exact ⟨⟨hreport, hproblems⟩, color_adds_styles hreport hproblems⟩

end TypedLinks
