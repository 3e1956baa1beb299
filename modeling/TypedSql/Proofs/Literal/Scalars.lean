import TypedSql.Literal.Basic
import TypedSql.Proofs.Result
import TypedSql.Proofs.StoreType.TableName
import TypedSql.Proofs.StoreType.Unfaceted

/-!
# Scalar literals are closed

What is written for a scalar is neutral to a lexer. Numbers have no marks but minus signs, each in
front of a digit; text from strings and documents is escaped between quotes; decimals, bytes, dates
and times stand between quotes that none of their characters ends.
-/

namespace TypedSql

open Numeral Result Sql Sql.Lexer StoreType Text

-- A condition on all characters of a text is decided character by character.
attribute [local instance (high)] List.decidableBAll

/-! ## Numbers -/

/-- Digits are no marks. -/
theorem markless_decimal (n : Nat) : Markless (decimal n) :=
  fun c hc => not_mem_marks_of_identifier (identifier_of_mem_decimal c hc)

/-- Zeros are no marks. -/
theorem markless_zeros (n : Nat) : Markless (List.replicate n '0') := by
  intro c hc
  obtain rfl := List.eq_of_mem_replicate hc
  decide

/-- Digits with zeros in front are no marks. -/
theorem markless_padded (width n : Nat) : Markless (padded width n) :=
  markless_append.mpr ⟨markless_zeros _, markless_decimal n⟩

/-- Digits are neutral whatever stands in front. -/
theorem guarded_decimal (n : Nat) : Guarded (decimal n) :=
  .of_markless Nat.toDigits_ne_nil (markless_decimal n)

/-- An integer is neutral. -/
theorem neutral_signed (i : Int) : Neutral (signed i) := (guarded_decimal i.natAbs).sign _

/-- The digits of a float are neutral whatever stands in front, laid out with or without an
exponent. -/
theorem guarded_arrange (layout : FloatLayout) (d : Nat) (k : Int) :
    Guarded (layout.arrange d k) := by
  have hdigits : Markless (decimal d) := markless_decimal d
  have hpoint : '.' ∉ marks := by decide
  have hzero : '0' ∉ marks := by decide
  simp only [FloatLayout.arrange]
  split
  · have hfirst : Guarded ((decimal d).take 1) := by
      refine .of_markless ?_ (hdigits.of_subset (List.take_subset ..))
      simp [decimal, Nat.toDigits_ne_nil]
    have hfraction : Neutral
        (if (decimal d).tail.isEmpty then [] else '.' :: (decimal d).tail) := by
      refine .of_markless ?_
      split
      · exact markless_nil
      · exact markless_cons.mpr ⟨hpoint, hdigits.of_subset (List.tail_subset _)⟩
    have hplus (plus : Bool) : Neutral ('e' :: if plus then ['+'] else []) :=
      .of_markless (by cases plus <;> decide)
    exact (hfirst.append hfraction).append ((hplus _).append (neutral_signed _))
  · refine .of_markless ?_ ?_
    · split
      · simp
      · split <;> simp
    · split
      · simp only [markless_cons, markless_append]
        exact ⟨hzero, hpoint, markless_zeros _, hdigits⟩
      · split
        · simp only [markless_cons, markless_append]
          exact ⟨⟨hdigits, markless_zeros _⟩, hpoint, hzero, markless_nil⟩
        · simp only [markless_cons, markless_append]
          exact ⟨hdigits.of_subset (List.take_subset ..), hpoint,
            hdigits.of_subset (List.drop_subset ..)⟩

/-- The text of a float is neutral. -/
theorem neutral_floatText (layout : FloatLayout) (f : FloatFormat) (parts : FloatClass) :
    Neutral (layout.text f parts) := by
  have hinfinity : Guarded "inf".toList := .of_markless (by decide) (by decide)
  cases parts with
  | nan =>
    have hnan : Guarded "NaN".toList := .of_markless (by decide) (by decide)
    exact hnan.neutral
  | infinite negative =>
    have hsigned := hinfinity.sign (negative = true)
    cases negative <;> exact hsigned
  | finite negative significand power =>
    have hmagnitude : Guarded (if significand = 0 then "0.0".toList
        else layout.arrange (shortest f layout.tie significand power).1
          (shortest f layout.tie significand power).2) := by
      split
      · exact .of_markless (by decide) (by decide)
      · exact guarded_arrange layout _ _
    exact hmagnitude.sign (negative = true)

/-! ## Text between quotes -/

/-- A text that has nothing to escape between single quotes. -/
def Verbatim (s : List Char) : Prop := ∀ c ∈ s, c ≠ '\'' ∧ c ≠ '\\'

instance : DecidablePred Verbatim := fun s =>
  inferInstanceAs (Decidable (∀ c ∈ s, c ≠ '\'' ∧ c ≠ '\\'))

@[simp]
theorem verbatim_cons {c : Char} {s : List Char} :
    Verbatim (c :: s) ↔ (c ≠ '\'' ∧ c ≠ '\\') ∧ Verbatim s :=
  List.forall_mem_cons

@[simp]
theorem verbatim_append {s t : List Char} : Verbatim (s ++ t) ↔ Verbatim s ∧ Verbatim t :=
  List.forall_mem_append

/-- Quotes around such a text are neutral. -/
theorem Verbatim.neutral {s : List Char} (h : Verbatim s) : Neutral ('\'' :: (s ++ ['\''])) :=
  .quotes (.inl rfl) (.of_forall h)

/-- A text without marks has nothing to escape. -/
theorem Sql.Lexer.Markless.verbatim {s : List Char} (h : Markless s) : Verbatim s := by
  intro c hc
  have hmarks := h c hc
  simp only [marks, List.mem_cons, not_or] at hmarks
  exact ⟨hmarks.1, hmarks.2.2.1⟩

/-- A minus sign needs no escape. -/
theorem Verbatim.sign {s : List Char} (h : Verbatim s) (negative : Prop) [Decidable negative] :
    Verbatim (if negative then '-' :: s else s) := by
  split
  · exact verbatim_cons.mpr ⟨by decide, h⟩
  · exact h

@[simp]
theorem verbatim_padded (width n : Nat) : Verbatim (padded width n) :=
  (markless_padded width n).verbatim

/-- The text of an integer has nothing to escape. -/
theorem verbatim_signed (i : Int) : Verbatim (signed i) := (markless_decimal _).verbatim.sign _

/-- The text of a decimal has nothing to escape. -/
theorem verbatim_scaledText (d : Scaled) : Verbatim d.text := by
  have hmagnitude : Markless (if d.scale < 0
      then decimal d.mantissa.natAbs ++ List.replicate d.scale.natAbs '0'
      else if d.scale = 0 then decimal d.mantissa.natAbs
      else Scaled.pointed d.scale.natAbs d.mantissa.natAbs) := by
    split
    · exact markless_append.mpr ⟨markless_decimal _, markless_zeros _⟩
    · split
      · exact markless_decimal _
      · have hpadded := markless_padded (d.scale.natAbs + 1) d.mantissa.natAbs
        simp only [Scaled.pointed, markless_append, markless_cons]
        exact ⟨hpadded.of_subset (List.take_subset ..), by decide,
          hpadded.of_subset (List.drop_subset ..)⟩
  rw [Scaled.text]
  exact hmagnitude.verbatim.sign _

/-! ## Scalars -/

namespace Literal

/-- A date has nothing to escape. -/
theorem verbatim_dateText (d : Calendar.Date) : Verbatim (dateText d) := by
  have hyear : Verbatim (yearText d.year) := by
    unfold yearText
    split <;> simp
  simp [dateText, hyear]

/-- A time of day has nothing to escape. -/
theorem verbatim_timeText (t : Calendar.Time) : Verbatim (timeText t) := by simp [timeText]

/-- A date and a time of day have nothing to escape. -/
theorem verbatim_dateTimeText (t : Calendar.DateTime) : Verbatim (dateTimeText t) := by
  simp [dateTimeText, verbatim_dateText, verbatim_timeText]

/-- An instant has nothing to escape. -/
theorem verbatim_instantText (t : Calendar.Instant) : Verbatim (instantText t) :=
  verbatim_append.mpr ⟨verbatim_dateTimeText _, by decide⟩

/-- An instant at its offset has nothing to escape. -/
theorem verbatim_zonedText (z : Calendar.Zoned) : Verbatim (zonedText z) := by
  have hoffset : Verbatim (offsetText z.offset) := by
    unfold offsetText
    split <;> simp
  exact verbatim_append.mpr ⟨verbatim_dateTimeText _, hoffset⟩

/-- A keyword is neutral in front of text that has nothing to escape. -/
theorem neutral_keyworded (keyword : String) (hkeyword : Markless keyword.toList)
    {body : List Char} (h : Verbatim body) : Neutral (keyworded keyword body) := by
  have hblank : Neutral [' '] := .of_markless (by decide)
  exact (Neutral.of_markless hkeyword).append (hblank.append h.neutral)

/-- Bytes are neutral, each behind a backslash. -/
theorem neutral_bytesLiteral (bytes : List UInt8) : Neutral (bytesLiteral bytes) := by
  have hdigit : ∀ d, hexDigit d ≠ '\'' ∧ hexDigit d ≠ '\\' := by decide
  have hbytes : Inside '\'' (bytes.flatMap fun b => '\\' :: 'x' :: hexByte b) := by
    induction bytes with
    | nil => exact .nil
    | cons b rest ih =>
      have hbyte : Inside '\'' (hexByte b) := .of_forall (by simp [hexByte, hdigit])
      exact ((Inside.escape '\'' 'x').append hbyte).append ih
  have hkeyword : Neutral ['B'] := .of_markless (by decide)
  exact hkeyword.append (.quotes (.inl rfl) hbytes)

/-- A float is neutral, written in digits or cast from its name. -/
theorem neutral_floatLiteral (x : Binary64) : Neutral (floatLiteral x) := by
  have hcast (name : String) (h : Verbatim name.toList) : Neutral ("CAST".toList ++ '(' ::
      ('\'' :: (name.toList ++ ['\'']) ++ " AS FLOAT64".toList ++ [')'])) := by
    have htype : Neutral " AS FLOAT64".toList := .of_markless (by decide)
    exact (Neutral.of_markless (by decide)).append ((h.neutral.append htype).brackets rfl)
  unfold floatLiteral
  split
  · exact neutral_floatText _ _ _
  · exact hcast "NaN" (by decide)
  · exact hcast "-inf" (by decide)
  · exact hcast "inf" (by decide)

/-- The digits of a decimal value have nothing to escape. -/
theorem verbatim_decimalDigits? {v : Value} {digits : List Char}
    (h : decimalDigits? v = some digits) : Verbatim digits := by
  unfold decimalDigits? at h
  split at h
  · exact Option.some.inj h ▸ verbatim_scaledText _
  · exact Option.some.inj h ▸ verbatim_scaledText _
  · exact Option.some.inj h ▸ (markless_decimal _).verbatim
  · obtain ⟨n, -, rfl⟩ := Option.map_eq_some_iff.mp h
    exact verbatim_signed n.toInt

/-- A stored scalar is written as a neutral text. -/
theorem neutral_scalarLiteral {m : Mapping} {kind : ScalarKind} {v : Value} {text : List Char}
    (h : scalarLiteral m kind v = .ok text) : Neutral text := by
  unfold scalarLiteral at h
  split at h
  next b =>
    cases h
    cases b <;> exact .of_markless (by decide)
  next => exact Except.ok.inj h ▸ neutral_signed _
  next =>
    split at h
    · exact Except.ok.inj h ▸ neutral_signed _
    · cases h
  next => exact Except.ok.inj h ▸ neutral_floatLiteral _
  next =>
    cases h
    split
    · exact neutral_floatText _ _ _
    · exact neutral_floatLiteral _
  next =>
    split at h
    · exact Except.ok.inj h ▸ neutral_floatText _ _ _
    · cases h
  next =>
    split at h
    next digits hdigits =>
      cases h
      refine neutral_keyworded _ ?_ (verbatim_decimalDigits? hdigits)
      split <;> decide
    next => cases h
  next => exact Except.ok.inj h ▸ .quotedLiteral _
  next => exact Except.ok.inj h ▸ .quotedLiteral _
  next => exact Except.ok.inj h ▸ .quotedLiteral _
  next => exact Except.ok.inj h ▸ neutral_bytesLiteral _
  next =>
    obtain ⟨bytes, -, rfl⟩ := map_eq_ok.mp h
    exact neutral_bytesLiteral bytes
  next => exact Except.ok.inj h ▸ neutral_keyworded "DATE" (by decide) (verbatim_dateText _)
  next => exact Except.ok.inj h ▸ neutral_keyworded "TIME" (by decide) (verbatim_timeText _)
  next =>
    exact Except.ok.inj h ▸ neutral_keyworded "DATETIME" (by decide) (verbatim_dateTimeText _)
  next =>
    exact Except.ok.inj h ▸ neutral_keyworded "TIMESTAMP" (by decide) (verbatim_instantText _)
  next => exact Except.ok.inj h ▸ neutral_keyworded "TIMESTAMP" (by decide) (verbatim_zonedText _)
  next =>
    cases h
    exact (Neutral.of_markless (by decide)).append (.quotedLiteral _)
  next wkt =>
    cases h
    have hcall : Neutral "ST_GEOGFROMTEXT".toList := .of_markless (by decide)
    exact hcall.append ((Neutral.quotedLiteral wkt.toList).brackets rfl)
  next => cases h

end Literal

end TypedSql
