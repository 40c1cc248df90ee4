/-!
# Blank text

The characters of the Unicode property `White_Space`, and the texts made of nothing else.
-/

namespace Evergreen.Text

/-- The property `White_Space`: tab to carriage return, space, next line, no-break space,
and the separators of other scripts. -/
def isSpace (c : Char) : Bool :=
  let n := c.toNat
  (0x09 ≤ n && n ≤ 0x0d) || n == 0x20 || n == 0x85 || n == 0xa0 || n == 0x1680 ||
    (0x2000 ≤ n && n ≤ 0x200a) || n == 0x2028 || n == 0x2029 || n == 0x202f ||
    n == 0x205f || n == 0x3000

/-- Whether a text holds no character besides spaces; the empty text is blank. -/
def isBlank (s : String) : Bool := s.toList.all isSpace

/-- A text is not blank iff one of its characters is not a space. -/
theorem isBlank_eq_false_iff {s : String} :
    isBlank s = false ↔ ∃ c ∈ s.toList, isSpace c = false := by
  simp [isBlank, List.all_eq_false]

end Evergreen.Text
