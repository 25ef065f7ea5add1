/-!
# Text

Messages, names and decoded string literals are lists of code points. Unlike a `String`, such a
text may hold lone surrogates: a string literal or a JSON string can spell one with an escape, and
it must survive until it is reported.

Source code never holds a surrogate, so it is a `List Char`; `Text.ofChars` embeds it.
-/

namespace TypedLinks

/-- A code point; the surrogates are included. -/
abbrev CodePoint := Fin 0x110000

/-- A text is a list of code points. -/
abbrev Text := List CodePoint

namespace CodePoint

/-- A character is a code point. -/
def ofChar (c : Char) : CodePoint :=
  ⟨c.toNat, by
    have h := c.valid
    simp only [UInt32.isValidChar, Nat.isValidChar] at h
    change c.val.toNat < _
    omega⟩

/-- The code points from U+D800 to U+DFFF, which are no characters. -/
def isSurrogate (p : CodePoint) : Bool :=
  decide (0xD800 ≤ p.val ∧ p.val ≤ 0xDFFF)

/-- The character of a code point; a surrogate has none. -/
def toChar? (p : CodePoint) : Option Char :=
  if p.isSurrogate then none else some (Char.ofNat p.val)

end CodePoint

instance : Coe Char CodePoint := ⟨CodePoint.ofChar⟩

namespace Text

/-- The text of a list of characters. -/
def ofChars (cs : List Char) : Text := cs.map CodePoint.ofChar

/-- The text of a string. -/
def ofString (s : String) : Text := ofChars s.toList

/-- The characters of a text, if it holds no surrogate. -/
def toChars? (t : Text) : Option (List Char) := t.mapM CodePoint.toChar?

/-- The decimal digits of a natural number. -/
def ofNat (n : Nat) : Text := ofChars (Nat.toDigits 10 n)

/-- The decimal digits of an integer, after a minus sign if it is negative. -/
def ofInt : Int → Text
  | .ofNat n => ofNat n
  | .negSucc n => ofString "-" ++ ofNat (n + 1)

/-- The lower-case hexadecimal digits of a number, with leading zeros up to `width` digits. -/
def hexadecimal (width n : Nat) : Text :=
  let digits := Nat.toDigits 16 n
  ofChars (List.replicate (width - digits.length) '0' ++ digits)

/-- The texts of a list with a separator between neighbours. -/
abbrev join (separator : Text) (ts : List Text) : Text := separator.intercalate ts

@[simp] theorem ofChars_nil : ofChars [] = [] := rfl

@[simp] theorem ofChars_cons (c : Char) (cs : List Char) :
    ofChars (c :: cs) = CodePoint.ofChar c :: ofChars cs := rfl

@[simp] theorem ofChars_append (cs ds : List Char) :
    ofChars (cs ++ ds) = ofChars cs ++ ofChars ds := by
  simp [ofChars]

@[simp] theorem length_ofChars (cs : List Char) : (ofChars cs).length = cs.length := by
  simp [ofChars]

theorem prefix_join (separator t : Text) (ts : List Text) : t <+: join separator (t :: ts) := by
  cases ts with
  | nil => simp only [join, List.intercalate_singleton, List.prefix_refl]
  | cons u ts =>
    rw [join, List.intercalate_cons_cons, List.append_assoc]
    exact List.prefix_append t _

theorem suffix_join (separator t : Text) (ts : List Text) :
    join separator ts <:+ join separator (t :: ts) := by
  cases ts with
  | nil => exact List.nil_suffix
  | cons u ts =>
    rw [join, join, List.intercalate_cons_cons]
    exact List.suffix_append _ _

theorem subset_join {separator t : Text} {ts : List Text} (h : t ∈ ts) : t ⊆ join separator ts := by
  induction ts with
  | nil => cases h
  | cons u ts ih =>
    rcases List.mem_cons.1 h with rfl | h
    · exact (prefix_join separator t ts).subset
    · exact fun _ hp => (suffix_join separator u ts).subset (ih h hp)

/-- The pieces of a text stand in it. -/
theorem subset_of_mem_splitOn {separator : CodePoint} {t u : Text} (h : u ∈ t.splitOn separator) :
    u ⊆ t := by
  have hsubset : u ⊆ join [separator] (t.splitOn separator) := subset_join h
  rwa [join, List.intercalate_splitOn] at hsubset

end Text

instance : Coe String Text := ⟨Text.ofString⟩

end TypedLinks
