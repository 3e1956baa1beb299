import Mathlib.Data.Option.Basic
import TypedSql.Proofs.StoreType.Rereading

/-!
# Facets behind a base name

Facets are written in parentheses behind a base name. What is written is read back as the name and
the facets, whatever they are. Read facets can stand in a spelling of their own, with blanks, plus
signs and leading zeros; behind the name that is read with them they are written the usual way.
-/

namespace TypedSql.StoreType

open Text Numeral

variable {base s : List Char} {p : UInt32} {scale : Option UInt32}

/-! ## Numbers -/

/-- The digits of a number are characters of identifiers. -/
theorem identifier_of_mem_decimal {n : Nat} :
    ∀ c ∈ decimal n, (c.isAlphanum || c == '_') = true := by
  intro c hc
  have hdigit : c.isDigit = true := Nat.isDigit_of_mem_toDigits (by decide) (by decide) hc
  unfold Char.isAlphanum
  rw [hdigit, Bool.or_true, Bool.true_or]

/-- The digits of a number are no blanks and mean nothing to a scan. -/
theorem plain_of_mem_decimal {n : Nat} : ∀ c ∈ decimal n, isBlank c = false ∧
    ((c ≠ '<' ∧ c ≠ '>' ∧ c ≠ backtick) ∧ c ≠ '(' ∧ c ≠ ')' ∧ c ≠ ',') ∧ c ≠ '\\' :=
  fun c hc => identifier_char (identifier_of_mem_decimal c hc)

/-- A run of digits adds to a number read so far what it is in decimal. -/
theorem foldlM_digits {s : List Char} (h : ∀ c ∈ s, c.isDigit = true) (n : Nat) :
    s.foldlM (fun n c => (digitValue? c).map (n * 10 + ·)) n = some (Nat.ofDigitChars 10 s n) := by
  induction s generalizing n with
  | nil => rfl
  | cons c rest ih =>
    rw [List.forall_mem_cons] at h
    rw [List.foldlM_cons, digitValue?, if_pos h.1, Nat.ofDigitChars_cons, Nat.mul_comm 10]
    exact ih h.2 _

/-- A run of digits is read as what it is in decimal. -/
theorem natural?_of_digits {s : List Char} (hne : s ≠ []) (h : ∀ c ∈ s, c.isDigit = true) :
    natural? s = some (Nat.ofDigitChars 10 s 0) := by
  cases s with
  | nil => exact absurd rfl hne
  | cons c rest => exact foldlM_digits h 0

/-- The digits of a number are read back as the number. -/
theorem natural?_decimal (n : Nat) : natural? (decimal n) = some n := by
  rw [decimal, natural?_of_digits Nat.toDigits_ne_nil fun c hc =>
    Nat.isDigit_of_mem_toDigits (by decide) (by decide) hc, Nat.ofDigitChars_ten_toDigits]

/-- The digits of a number have no sign. -/
theorem dropPlus_decimal (n : Nat) : dropPlus (decimal n) = decimal n := by
  unfold dropPlus
  split
  next rest hcons =>
    have hdigit := identifier_of_mem_decimal (n := n) '+' (by simp [hcons])
    exact absurd hdigit (by decide)
  next => rfl

/-- The digits of a 32-bit count are trimmed, and read back as the count. -/
theorem count32?_decimal (n : UInt32) : count32? (trim (decimal n.toNat)) = some n := by
  have htrim : trim (decimal n.toNat) = decimal n.toNat :=
    trim_of_forall fun c hc => (plain_of_mem_decimal c hc).1
  simp [htrim, count32?, dropPlus_decimal, natural?_decimal, n.toNat_lt]

/-! ## Facets between the parentheses -/

/-- The facets as they are written. -/
def facetText (p : UInt32) : Option UInt32 → List Char
  | some scale => decimal p.toNat ++ ',' :: ' ' :: decimal scale.toNat
  | none => decimal p.toNat

/-- The facets that a text between parentheses stands for. -/
def facetsIn? (inner : List Char) : Option (UInt32 × Option UInt32) :=
  match splitFirst (· == ',') inner with
  | some (first, second) => do
    let p ← count32? (trim first)
    let scale ← count32? (trim second)
    return (p, some scale)
  | none => do
    let p ← count32? (trim inner)
    return (p, none)

/-- Written facets are read back. -/
theorem facetsIn?_facetText (p : UInt32) (scale : Option UInt32) :
    facetsIn? (facetText p scale) = some (p, scale) := by
  have hcomma : ∀ c ∈ decimal p.toNat, (c == ',') = false := fun c hc => by
    simp [(plain_of_mem_decimal c hc).2.1.2.2.2]
  cases scale with
  | none =>
    rw [facetText, facetsIn?, splitFirst_eq_none.mpr hcomma]
    simp [count32?_decimal]
  | some scale =>
    rw [facetText, facetsIn?, splitFirst_append hcomma rfl]
    simp [count32?_decimal, trim_cons_blank (show isBlank ' ' = true from rfl)]

/-- A precision is written behind the name in parentheses, with a scale if there is one. -/
theorem withFacets_some : withFacets base (some p) scale =
    base ++ '(' :: (facetText p scale ++ [')']) := by
  cases scale <;> simp [withFacets, facetText]

/-- Facets stand between the first opening parenthesis and a closing one at the end. -/
theorem facets?_of_split {name suffix : List Char} (hcomposite : isComposite (trim s) = false)
    (hsplit : splitFirst (· == '(') (trim s) = some (name, suffix)) :
    facets? s = (dropClosing? suffix).bind facetsIn? := by
  rw [facets?]
  simp only [hcomposite, hsplit]
  rfl

/-- Facets that are read stand behind a name in a scalar type. -/
theorem exists_split_of_facets? {facets : UInt32 × Option UInt32} (h : facets? s = some facets) :
    isComposite (trim s) = false ∧
      ∃ name suffix, splitFirst (· == '(') (trim s) = some (name, suffix) := by
  rw [facets?] at h
  cases hcomposite : isComposite (trim s) with
  | true => simp [hcomposite] at h
  | false =>
    refine ⟨rfl, ?_⟩
    cases hsplit : splitFirst (· == '(') (trim s) with
    | none => simp [hsplit] at h
    | some parts => exact ⟨parts.1, parts.2, rfl⟩

/-! ## Base names -/

/-- A name that facets can be written behind: without an opening parenthesis, without blanks at its
ends, and not starting as an array or a struct in any case. -/
structure IsBaseName (base : List Char) : Prop where
  opening : '(' ∉ base
  trimmed : trim base = base
  notArray : dropIgnoringCase arrayHead base = none
  notStruct : dropIgnoringCase structHead base = none

namespace IsBaseName

/-- Nothing is split off a base name. -/
theorem not_opening (h : IsBaseName base) : ∀ c ∈ base, (c == '(') = false := by
  intro c hc
  simpa using fun e : c = '(' => h.opening (e ▸ hc)

/-- A base name with facets has no blanks at its ends. -/
theorem trim_withFacets (h : IsBaseName base) (precision scale : Option UInt32) :
    trim (withFacets base precision scale) = withFacets base precision scale := by
  cases precision with
  | none => exact h.trimmed
  | some p =>
    rw [withFacets_some]
    cases base with
    | nil => exact trim_cons_append (by decide) (by simp) (by decide)
    | cons c rest =>
      have hc : isBlank c = false := isBlank_of_trimStart (trimStart_of_trim h.trimmed)
      simpa using trim_cons_append (s := rest ++ '(' :: facetText p scale) (t := [')']) hc
        (by simp) (by decide)

/-- A base name with facets is neither an array nor a struct. -/
theorem isComposite_withFacets (h : IsBaseName base) (precision scale : Option UInt32) :
    isComposite (withFacets base precision scale) = false := by
  rw [isComposite, trimStart_of_trim (h.trim_withFacets precision scale)]
  cases precision with
  | none =>
    rw [show withFacets base none scale = base from rfl, h.notArray, h.notStruct]
    rfl
  | some p =>
    rw [withFacets_some, dropIgnoringCase_append_cons (by decide) h.notStruct,
      dropIgnoringCase_append_cons (by decide) h.notArray]
    rfl

/-- A base name with facets is split behind the name. -/
theorem splitFirst_withFacets (h : IsBaseName base) (p : UInt32) (scale : Option UInt32) :
    splitFirst (· == '(') (withFacets base (some p) scale) =
      some (base, facetText p scale ++ [')']) := by
  rw [withFacets_some]
  exact splitFirst_append h.not_opening rfl

/-- Without its facets a base name with facets is the name. -/
theorem baseName_withFacets (h : IsBaseName base) (precision scale : Option UInt32) :
    baseName (withFacets base precision scale) = base := by
  rw [baseName, h.trim_withFacets, h.isComposite_withFacets]
  cases precision with
  | none => simp [withFacets, splitFirst_eq_none.mpr h.not_opening]
  | some p => simp [h.splitFirst_withFacets, trimEnd_of_trim h.trimmed]

/-- A base name alone has no facets. -/
theorem facets?_eq_none (h : IsBaseName base) : facets? base = none := by
  rw [facets?, h.trimmed]
  simp [splitFirst_eq_none.mpr h.not_opening]

/-- The facets of a base name are read as they were written. -/
theorem facets?_withFacets (h : IsBaseName base) (p : UInt32) (scale : Option UInt32) :
    facets? (withFacets base (some p) scale) = some (p, scale) := by
  have htrim := h.trim_withFacets (some p) scale
  have hcomposite : isComposite (trim (withFacets base (some p) scale)) = false := by
    rw [htrim, h.isComposite_withFacets]
  have hsplit : splitFirst (· == '(') (trim (withFacets base (some p) scale)) =
      some (base, facetText p scale ++ [')']) := by
    rw [htrim, h.splitFirst_withFacets]
  rw [facets?_of_split hcomposite hsplit, dropClosing?, List.getLast?_concat, if_pos rfl,
    List.dropLast_concat, Option.bind_some, facetsIn?_facetText]

end IsBaseName

/-- What stands in front of the facets that are read is a base name. -/
theorem isBaseName_of_facets? {facets : UInt32 × Option UInt32} (h : facets? s = some facets) :
    IsBaseName (baseName s) := by
  obtain ⟨hcomposite, name, suffix, hsplit⟩ := exists_split_of_facets? h
  have hbase : baseName s = trimEnd name := by
    rw [baseName]
    simp [hcomposite, hsplit]
  obtain ⟨c, -, hname, htrim⟩ := splitFirst_eq_some_iff.mp hsplit
  have hstart : trimEnd name <+: trim s :=
    (isPrefix_trimEnd name).trans (htrim ▸ List.prefix_append ..)
  rw [isComposite, trimStart_of_trim (trim_trim s), Bool.or_eq_false_iff] at hcomposite
  rw [hbase]
  exact
    { opening := fun hmem => by simpa using hname '(' ((isPrefix_trimEnd name).subset hmem)
      trimmed := trim_trimEnd_of_isPrefix (trim_trim s) (htrim ▸ List.prefix_append ..)
      notArray := dropIgnoringCase_eq_none_of_isPrefix hstart (by simpa using hcomposite.2)
      notStruct := dropIgnoringCase_eq_none_of_isPrefix hstart (by simpa using hcomposite.1) }

/-! ## Facets that are written and read -/

/-- Facets written behind a base name are read back as they were, and so is the name. Facets that
are read in any spelling are read again when they are written behind the name they were read
with. -/
theorem facets?_written :
    (∀ base, IsBaseName base → ∀ p scale,
      facets? (withFacets base (some p) scale) = some (p, scale) ∧
      baseName (withFacets base (some p) scale) = base) ∧
    ∀ s p scale, facets? s = some (p, scale) →
      facets? (withFacets (baseName s) (some p) scale) = some (p, scale) ∧
      baseName (withFacets (baseName s) (some p) scale) = baseName s := by
  have hwritten (base : List Char) (h : IsBaseName base) (p : UInt32) (scale : Option UInt32) :=
    And.intro (h.facets?_withFacets p scale) (h.baseName_withFacets (some p) scale)
  exact ⟨hwritten, fun s p scale h => hwritten _ (isBaseName_of_facets? h) p scale⟩

/-- The largest precision behind a name with a blank, and a spelling with blanks, a plus sign and
leading zeros. -/
theorem facets?_written_spaced :
    (IsBaseName "BIG NUMERIC".toList ∧
      facets? (withFacets "BIG NUMERIC".toList (some 4294967295) (some 38)) =
        some (4294967295, some 38) ∧
      baseName (withFacets "BIG NUMERIC".toList (some 4294967295) (some 38)) =
        "BIG NUMERIC".toList) ∧
    facets? " numeric ( +010 ,002 ) ".toList = some (10, some 2) ∧
      facets? (withFacets (baseName " numeric ( +010 ,002 ) ".toList) (some 10) (some 2)) =
        some (10, some 2) ∧
      baseName (withFacets (baseName " numeric ( +010 ,002 ) ".toList) (some 10) (some 2)) =
        baseName " numeric ( +010 ,002 ) ".toList := by
  have hbase : IsBaseName "BIG NUMERIC".toList :=
    ⟨by decide, by decide, by decide, by decide⟩
  have hread : facets? " numeric ( +010 ,002 ) ".toList = some (10, some 2) := by decide
  exact ⟨⟨hbase, facets?_written.1 _ hbase 4294967295 (some 38)⟩, hread,
    facets?_written.2 _ 10 (some 2) hread⟩

end TypedSql.StoreType
