/-!
# Blank characters, trimming and case folding

Status labels, switch values and media types are read leniently: surrounding blanks are ignored and
ASCII letters compare without case. Blank means the Unicode property `White_Space`, which is wider
than `Char.isWhitespace`; the fold touches ASCII letters only.
-/

namespace ScenarioResults.Text

/-- Whether the character has the Unicode property `White_Space`. -/
def isBlank (c : Char) : Bool :=
  let n := c.toNat
  (0x09 ≤ n && n ≤ 0x0d) || n == 0x20 || n == 0x85 || n == 0xa0 || n == 0x1680 ||
    (0x2000 ≤ n && n ≤ 0x200a) || n == 0x2028 || n == 0x2029 || n == 0x202f || n == 0x205f ||
    n == 0x3000

/-- Remove the characters satisfying `p` from both ends of a list. -/
def strip (p : Char → Bool) (cs : List Char) : List Char :=
  ((cs.dropWhile p).reverse.dropWhile p).reverse

/-- Remove blanks from both ends. -/
def trim (s : String) : String :=
  String.ofList (strip isBlank s.toList)

/-- Whether the text holds nothing but blanks. -/
def isBlankText (s : String) : Bool :=
  s.toList.all isBlank

/-- Trim, then lower the ASCII letters: the form in which labels are compared. -/
def folded (s : String) : String :=
  (trim s).map Char.toLower

/-! ## Laws of stripping -/

/-- A list that neither begins nor ends with a character of `p` is left alone. -/
theorem strip_eq_self {p : Char → Bool} {cs : List Char} (hd : ∀ c ∈ cs.head?, p c = false)
    (last : ∀ c ∈ cs.getLast?, p c = false) : strip p cs = cs := by
  have front : cs.dropWhile p = cs := by
    cases cs with
    | nil => rfl
    | cons c cs => simp [hd c (by simp)]
  have back : cs.reverse.dropWhile p = cs.reverse := by
    have last' : ∀ c ∈ cs.reverse.head?, p c = false := by simpa using last
    cases h : cs.reverse with
    | nil => rfl
    | cons c r => simp [last' c (by simp [h])]
  rw [strip, front, back, List.reverse_reverse]

end ScenarioResults.Text
