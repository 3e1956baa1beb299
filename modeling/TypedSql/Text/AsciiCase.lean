/-!
# ASCII case

Names are compared without regard to the case of ASCII letters; every other character has to
agree exactly.
-/

namespace TypedSql.Text

/-- ASCII letters in upper case, all else unchanged. -/
def upper (s : List Char) : List Char := s.map Char.toUpper

/-- Equality up to the case of ASCII letters. -/
def sameIgnoringCase (a b : List Char) : Bool := upper a == upper b

/-- Equality of names up to the case of ASCII letters. -/
def sameName (a b : String) : Bool := sameIgnoringCase a.toList b.toList

/-- The text after `head`, if the text starts with it up to ASCII case. -/
def dropIgnoringCase (head s : List Char) : Option (List Char) :=
  if sameIgnoringCase (s.take head.length) head then some (s.drop head.length) else none

/-- Every text agrees with itself. -/
theorem sameIgnoringCase_refl (a : List Char) : sameIgnoringCase a a = true := by
  simp [sameIgnoringCase]

/-- Agreement does not depend on the order of the two texts. -/
theorem sameIgnoringCase_symm {a b : List Char} (h : sameIgnoringCase a b = true) :
    sameIgnoringCase b a = true := by
  simp only [sameIgnoringCase, beq_iff_eq] at h ⊢
  exact h.symm

/-- Two texts that agree with a third agree with each other. -/
theorem sameIgnoringCase_trans {a b c : List Char} (hab : sameIgnoringCase a b = true)
    (hbc : sameIgnoringCase b c = true) : sameIgnoringCase a c = true := by
  simp only [sameIgnoringCase, beq_iff_eq] at *
  exact hab.trans hbc

/-- Every name agrees with itself. -/
theorem sameName_refl (a : String) : sameName a a = true := sameIgnoringCase_refl _

end TypedSql.Text
