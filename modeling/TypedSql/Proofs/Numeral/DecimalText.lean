import Mathlib.Data.List.TakeWhile
import TypedSql.Proofs.Numeral.ShortestText
import TypedSql.Proofs.Text.Fields

/-!
# Decimal text of floats

A reader of float literals: digits with a decimal point and an exponent, either of which may be
missing, for the nearest float. Digits that are laid out are read back as the same number, in
positional and in exponent notation. As the shortest digits lie in the cell of their float, the text
of a finite float is read back as the float.
-/

namespace TypedSql.Numeral

open Reader StoreType

-- Powers are those of the core library, whatever else is imported.
attribute [local instance (high)] instPowNat

/-! ## Reading -/

/-- An integer with an optional sign. -/
def integer? (s : List Char) : Option Int :=
  if s.head? = some '-' then (natural? s.tail).map fun n : Nat => -(n : Int)
  else (natural? (dropPlus s)).map fun n : Nat => (n : Int)

/-- Digits with an optional point as a whole number, and its power of ten. -/
def mantissa? (s : List Char) : Option (Nat × Int) :=
  let whole := s.takeWhile (· != '.')
  let fraction := s.drop (whole.length + 1)
  (natural? (whole ++ fraction)).map fun n => (n, -(fraction.length : Int))

/-- A decimal as a whole number and its power of ten, with an optional exponent. -/
def decimalText? (s : List Char) : Option (Nat × Int) :=
  let mantissa := s.takeWhile (· != 'e')
  (mantissa? mantissa).bind fun d =>
    if mantissa.length < s.length then
      (integer? (s.drop (mantissa.length + 1))).map fun e => (d.1, d.2 + e)
    else some d

/-- The float nearest to a decimal. -/
def Binary64.ofDecimal (negative : Bool) (n : Nat) (k : Int) : Binary64 :=
  if k < 0 then .ofRatio negative n (10 ^ k.natAbs) else .ofRatio negative (n * 10 ^ k.natAbs) 1

/-- The float that a literal of digits stands for. -/
def Binary64.ofText? (s : List Char) : Option Binary64 :=
  if s.head? = some '-' then (decimalText? s.tail).map fun d => .ofDecimal true d.1 d.2
  else (decimalText? s).map fun d => .ofDecimal false d.1 d.2

example : Binary64.ofText? "-2.5e1".toList = some ⟨0xc039000000000000⟩ := by cbv

/-! ## Digits laid out -/

variable {whole fraction rest : List Char}

/-- A text that lacks a character is not cut at it. -/
theorem takeWhile_eq_self {s : List Char} {c : Char} (h : c ∉ s) : s.takeWhile (· != c) = s :=
  List.takeWhile_eq_self_iff.mpr fun _ hd => bne_iff_ne.mpr (ne_of_mem_of_not_mem hd h)

/-- Digits without a point are a whole number. -/
theorem mantissa?_whole (hwhole : Digits whole) (hne : whole ≠ []) :
    mantissa? whole = some (Nat.ofDigitChars 10 whole 0, 0) := by
  have hdrop : whole.drop (whole.length + 1) = [] := List.drop_of_length_le (by omega)
  rw [mantissa?, takeWhile_eq_self (hwhole.not_mem rfl), hdrop, List.append_nil,
    natural?_of_digits hne hwhole]
  rfl

/-- Digits with a point have as many places as stand behind it. -/
theorem mantissa?_point (hwhole : Digits whole) (hfraction : Digits fraction) (hne : whole ≠ []) :
    mantissa? (whole ++ '.' :: fraction) =
      some (Nat.ofDigitChars 10 (whole ++ fraction) 0, -(fraction.length : Int)) := by
  have hnatural := natural?_of_digits (List.append_ne_nil_of_left_ne_nil hne fraction)
    (hwhole.append hfraction)
  have hdrop : (whole ++ '.' :: fraction).drop (whole.length + 1) = fraction := by simp
  rw [mantissa?, takeWhile_of_not_mem (hwhole.not_mem rfl), hdrop, hnatural]
  rfl

/-- A decimal without an exponent. -/
theorem decimalText?_mantissa {s : List Char} (h : 'e' ∉ s) : decimalText? s = mantissa? s := by
  rw [decimalText?, takeWhile_eq_self h]
  simp

/-- A decimal with an exponent. -/
theorem decimalText?_exponent {s : List Char} (h : 'e' ∉ s) {e : Int}
    (he : integer? rest = some e) :
    decimalText? (s ++ 'e' :: rest) = (mantissa? s).map fun d => (d.1, d.2 + e) := by
  have hdrop : (s ++ 'e' :: rest).drop (s.length + 1) = rest := by simp
  rw [decimalText?, takeWhile_of_not_mem h, hdrop, he]
  cases mantissa? s <;> simp

/-- An integer is read back, with a plus sign or without. -/
theorem integer?_signed (i : Int) (plus : Bool) :
    integer? ((if plus && decide (0 ≤ i) then ['+'] else []) ++ signed i) = some i := by
  by_cases hnegative : i < 0
  · have hplus : ¬(plus && decide (0 ≤ i)) = true := by simp [hnegative]
    rw [if_neg hplus, signed, if_pos hnegative, List.nil_append, integer?, List.head?_cons,
      if_pos rfl, List.tail_cons, natural?_decimal, Option.map_some]
    congr 1
    omega
  · have hvalue : some ((i.natAbs : Nat) : Int) = some i := by
      congr 1
      omega
    have hdigits : integer? (decimal i.natAbs) = some i := by
      rw [integer?, if_neg ((digits_decimal _).head?_ne rfl), dropPlus_decimal, natural?_decimal]
      exact hvalue
    rw [signed, if_neg hnegative]
    split
    · rw [integer?, List.singleton_append, List.head?_cons, if_neg (by decide), dropPlus,
        natural?_decimal]
      exact hvalue
    · exact hdigits

/-- Digits with a point and no exponent. -/
theorem decimalText?_point (hwhole : Digits whole) (hfraction : Digits fraction)
    (hne : whole ≠ []) : decimalText? (whole ++ '.' :: fraction) =
      some (Nat.ofDigitChars 10 (whole ++ fraction) 0, -(fraction.length : Int)) := by
  rw [decimalText?_mantissa, mantissa?_point hwhole hfraction hne]
  simp [hwhole.not_mem (c := 'e') rfl, hfraction.not_mem (c := 'e') rfl]

/-- The first digit, the others behind a point if there are any, and an exponent. -/
theorem decimalText?_scientific {s : List Char} (hdigits : Digits s) (hne : s ≠ []) {e : Int}
    (he : integer? rest = some e) :
    decimalText? (s.take 1 ++ (if s.tail.isEmpty then [] else '.' :: s.tail) ++ 'e' :: rest) =
      some (Nat.ofDigitChars 10 s 0, e - (s.length - 1 : Nat)) := by
  obtain ⟨c, tail, rfl⟩ := List.exists_cons_of_ne_nil hne
  have htail : Digits tail := fun d hd => hdigits d (List.mem_cons_of_mem _ hd)
  have hfirst : Digits [c] := fun d hd => hdigits d (List.mem_singleton.mp hd ▸ List.mem_cons_self)
  have hmantissa : mantissa? ([c] ++ if tail.isEmpty then [] else '.' :: tail) =
      some (Nat.ofDigitChars 10 (c :: tail) 0, -(tail.length : Int)) := by
    cases tail with
    | nil => exact mantissa?_whole hfirst (List.cons_ne_nil _ _)
    | cons d tail => exact mantissa?_point hfirst htail (List.cons_ne_nil _ _)
  have hnone : 'e' ∉ [c] ++ if tail.isEmpty then [] else '.' :: tail := by
    rw [List.mem_append, not_or]
    refine ⟨hfirst.not_mem rfl, ?_⟩
    split
    · exact List.not_mem_nil
    · simp [htail.not_mem (c := 'e') rfl]
  change decimalText? (([c] ++ if tail.isEmpty then [] else '.' :: tail) ++ 'e' :: rest) = _
  rw [decimalText?_exponent hnone he, hmantissa, Option.map_some, List.length_cons,
    Nat.add_sub_cancel]
  congr 2
  omega

/-- Digits that are laid out are read back as the same number. -/
theorem decimalText?_arrange (layout : FloatLayout) (d : Nat) (k : Int) :
    ∃ n e, decimalText? (layout.arrange d k) = some (n, e) ∧
      (n : ℚ) * 10 ^ e = d * 10 ^ k := by
  have hdigits := digits_decimal d
  have hvalue : Nat.ofDigitChars 10 (decimal d) 0 = d := Nat.ofDigitChars_ten_toDigits
  have hlength : 0 < (decimal d).length := Nat.length_toDigits_pos
  have hne : decimal d ≠ [] := Nat.toDigits_ne_nil
  unfold FloatLayout.arrange
  extract_lets digits exponent fraction whole
  have hexponent : exponent = k + ((decimal d).length - 1 : Nat) := rfl
  have hcount : digits.length = (decimal d).length := rfl
  have hwhole : whole = exponent.natAbs + 1 := rfl
  split
  next =>
    refine ⟨d, k, ?_, rfl⟩
    rw [decimalText?_scientific hdigits hne (integer?_signed exponent _), hvalue]
    congr 2
    omega
  next =>
    split
    next hnegative =>
      refine ⟨d, k, ?_, rfl⟩
      have hzeros := digits_zeros (exponent.natAbs - 1)
      have hread := decimalText?_point (digits_zeros 1) (hzeros.append hdigits) (by simp)
      rw [Nat.ofDigitChars_append, Nat.ofDigitChars_append, Nat.ofDigitChars_replicate_zero,
        Nat.ofDigitChars_replicate_zero, Nat.mul_zero, hvalue] at hread
      refine hread.trans ?_
      rw [List.length_append, List.length_replicate]
      congr 2
      omega
    next hpositive =>
      split
      next hshort =>
        obtain ⟨z, hz, hk⟩ : ∃ z : Nat, whole - digits.length = z ∧ k = z :=
          ⟨whole - digits.length, rfl, by omega⟩
        refine ⟨10 ^ 1 * (10 ^ z * d), -1, ?_, ?_⟩
        · have hread := decimalText?_point (hdigits.append (digits_zeros z)) (digits_zeros 1)
            (List.append_ne_nil_of_left_ne_nil hne _)
          rw [Nat.ofDigitChars_append, Nat.ofDigitChars_append, hvalue,
            Nat.ofDigitChars_replicate_zero, Nat.ofDigitChars_replicate_zero] at hread
          rw [hz]
          exact hread
        · rw [hk, zpow_neg_one, zpow_natCast]
          push_cast
          field_simp
      next hlong =>
        refine ⟨d, k, ?_, rfl⟩
        have htake : Digits (digits.take whole) := fun c hc => hdigits c (List.mem_of_mem_take hc)
        have hdrop : Digits (digits.drop whole) := fun c hc => hdigits c (List.mem_of_mem_drop hc)
        have htakene : digits.take whole ≠ [] := by
          rw [← List.length_pos_iff, List.length_take]
          omega
        rw [decimalText?_point htake hdrop htakene, List.take_append_drop, hvalue,
          List.length_drop]
        congr 2
        omega

/-! ## Text of floats -/

namespace Binary64

open FloatFormat (wide)

variable {negative : Bool} {significand n : Nat} {power k : Int}

/-- A positive number times a power of a base is rounded to the float in whose cell it lies. -/
theorem ofScaled_eq_iff {base : Nat} (hbase : 0 < base) (hn : 0 < n)
    (hfills : wide.Fills significand power)
    (hfinite : wide.pack significand power < wide.infinity) :
    (if k < 0 then ofRatio negative n (base ^ k.natAbs)
      else ofRatio negative (n * base ^ k.natAbs) 1) =
        ofMagnitude negative (wide.pack significand power) ↔
      wide.Cell significand power (n * base ^ k) := by
  have hpower : 0 < base ^ k.natAbs := Nat.pow_pos hbase
  split
  next hneg =>
    obtain ⟨j, rfl⟩ : ∃ j : Nat, k = -j := ⟨k.natAbs, by omega⟩
    rw [ofRatio_eq_iff hn hpower hfills hfinite, Int.natAbs_neg, Int.natAbs_natCast, zpow_neg,
      zpow_natCast, ← div_eq_mul_inv]
    push_cast
    rfl
  next hnonneg =>
    obtain ⟨j, rfl⟩ : ∃ j : Nat, k = j := ⟨k.natAbs, by omega⟩
    rw [ofRatio_eq_iff (Nat.mul_pos hn hpower) Nat.one_pos hfills hfinite, Int.natAbs_natCast,
      zpow_natCast]
    push_cast
    rw [div_one]

/-- No decimal starts with a sign. -/
theorem decimalText?_minus (s : List Char) : decimalText? ('-' :: s) = none := rfl

/-- A sign in front of a decimal is that of the float. -/
theorem ofText?_signed (negative : Bool) {s : List Char} {n : Nat} {e : Int}
    (h : decimalText? s = some (n, e)) :
    ofText? (if negative then '-' :: s else s) = some (ofDecimal negative n e) := by
  have hhead : s.head? ≠ some '-' := by
    intro hminus
    obtain ⟨rest, rfl⟩ := List.head?_eq_some_iff.mp hminus
    cases (decimalText?_minus rest).symm.trans h
  cases negative
  · rw [if_neg Bool.false_ne_true, ofText?, if_neg hhead, h, Option.map_some]
  · rw [if_pos rfl, ofText?, List.head?_cons, if_pos rfl, List.tail_cons, h, Option.map_some]

/-- The text of a positive float is read as the float in whose cell its digits lie. -/
theorem ofText?_finite_iff (layout : FloatLayout) (f : FloatFormat) {significand' : Nat}
    {power' : Int} (hpos : 0 < significand') (hsmall : significand' < 2 ^ 53)
    (hfills : wide.Fills significand power)
    (hfinite : wide.pack significand power < wide.infinity) :
    ofText? (layout.text f (.finite negative significand' power')) =
        some (ofMagnitude negative (wide.pack significand power)) ↔
      wide.Cell significand power ((shortest f layout.tie significand' power').1 *
        10 ^ (shortest f layout.tie significand' power').2) := by
  have hcell := f.cell_shortest layout.tie hpos hsmall power'
  have hvalue := hcell.pos hpos
  obtain ⟨n, e, hread, hsame⟩ := decimalText?_arrange layout
    (shortest f layout.tie significand' power').1 (shortest f layout.tie significand' power').2
  have hn : 0 < n := by
    refine Nat.pos_of_ne_zero fun hzero => ?_
    rw [← hsame, hzero, Nat.cast_zero, zero_mul] at hvalue
    exact hvalue.false
  rw [FloatLayout.text]
  simp only [if_neg hpos.ne']
  rw [ofText?_signed negative hread, Option.some_inj, ← hsame]
  exact ofScaled_eq_iff (by decide) hn hfills hfinite

/-- The text of a zero is read as the zero of its sign. -/
theorem ofText?_zero (layout : FloatLayout) (f : FloatFormat) (negative : Bool) (power : Int) :
    ofText? (layout.text f (.finite negative 0 power)) = some (ofMagnitude negative 0) := by
  cases negative <;> rfl

/-- The text of a finite float is read back as the float. -/
theorem ofText?_text {x : Binary64} (h : x.isFinite = true) : ofText? x.text = some x := by
  rw [isFinite] at h
  split at h
  next negative significand power hparts =>
    have hfills : wide.Fills significand power := FloatFormat.fills_of_classify hparts
    obtain ⟨hfinite, hx⟩ := eq_ofMagnitude hparts
    rw [text, hparts]
    rcases Nat.eq_zero_or_pos significand with rfl | hpos
    · have hpack : wide.pack 0 power = 0 := by
        rw [hfills.filled.resolve_left (by decide)]
        rfl
      rw [ofText?_zero, hx, hpack]
    · rw [hx]
      exact (ofText?_finite_iff _ wide hpos hfills.lt hfills hfinite).mpr
        (FloatFormat.cell_shortest _ hpos hfills.lt power)
  next => cases h

end Binary64

end TypedSql.Numeral
