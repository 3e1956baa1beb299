import Mathlib.Data.List.Forall2
import TypedSql.Proofs.StoreType.TableName
import TypedSql.Proofs.StoreType.Unfaceted

/-!
# The removal of facets

Removing the facets from a store type that was put together from its parts leaves the type put
together in the same way without any, at every depth and whatever the fields are called. Removing
them once more changes nothing, for any text at all.
-/

namespace TypedSql.StoreType

open Text Numeral

-- A condition on all characters of a text is decided character by character.
attribute [local instance (high)] List.decidableBAll

/-! ## What is left of a text -/

/-- The removal of facets passes over a text outside quotes and keeps another text of it. -/
def StripsTo (s t : List Char) : Prop :=
  ∀ kept rest, stripFrom .plain 0 kept (s ++ rest) = stripFrom .plain 0 (t.reverse ++ kept) rest

/-- A text that is kept is what is left of itself. -/
theorem Kept.stripsTo {s : List Char} (h : Kept s) : StripsTo s s := h

namespace StripsTo

variable {s t : List Char}

/-- What is left of a whole text is its form without facets. -/
theorem stripFacets (h : StripsTo s t) : stripFacets s = t := by
  have hs := h [] []
  rw [List.append_nil, List.append_nil] at hs
  rw [StoreType.stripFacets, hs, stripFrom, List.reverse_reverse]

/-- Of two texts in a row is left what is left of each. -/
theorem append {s' t' : List Char} (hs : StripsTo s t) (hs' : StripsTo s' t') :
    StripsTo (s ++ s') (t ++ t') := by
  intro kept rest
  rw [List.append_assoc, hs, hs', List.reverse_append, List.append_assoc]

/-- Of an array type is left the array type of what is left of its element type. -/
theorem arrayOf (h : StripsTo s t) : StripsTo (arrayOf s) (arrayOf t) := by
  have hhead : Kept arrayHead := .of_forall (by decide)
  have hclose : Kept ['>'] := .char (by decide) (by decide)
  exact (hhead.stripsTo.append h).append hclose.stripsTo

/-- Of a field is left the field with what is left of its type. -/
theorem fieldText (name : List Char) (h : StripsTo s t) :
    StripsTo (fieldText name s) (fieldText name t) := by
  rw [StoreType.fieldText, StoreType.fieldText]
  split
  · exact h
  · have hblank : Kept [' '] := .char (by decide) (by decide)
    exact (Unfaceted.fieldName name).kept.stripsTo.append (hblank.stripsTo.append h)

/-- Of texts with commas between them is left what is left of each. -/
theorem commaSeparated {texts left : List (List Char)} (h : List.Forall₂ StripsTo texts left) :
    StripsTo (commaSeparated texts) (commaSeparated left) := by
  induction h with
  | nil => exact Kept.nil.stripsTo
  | @cons text kept texts left hfirst hrest ih =>
    have hseparator : Kept ", ".toList := .of_forall (by decide)
    cases hrest with
    | nil => simpa [StoreType.commaSeparated, List.intercalate] using hfirst
    | cons hsecond hothers =>
      have htexts := hfirst.append (hseparator.stripsTo.append ih)
      simpa [StoreType.commaSeparated, List.intercalate] using htexts

/-- Of a struct type is left the struct type of the same names with what is left of the types. -/
theorem structOf {fields left : List (List Char × List Char)}
    (h : List.Forall₂ (fun f g => f.1 = g.1 ∧ StripsTo f.2 g.2) fields left) :
    StripsTo (structOf fields) (structOf left) := by
  have htexts : List.Forall₂ StripsTo (fields.map fun f => StoreType.fieldText f.1 f.2)
      (left.map fun f => StoreType.fieldText f.1 f.2) := by
    rw [List.forall₂_map_left_iff, List.forall₂_map_right_iff]
    refine h.imp fun f g hfg => ?_
    rw [← hfg.1]
    exact fieldText f.1 hfg.2
  have hhead : Kept structHead := .of_forall (by decide)
  have hclose : Kept ['>'] := .char (by decide) (by decide)
  exact (hhead.stripsTo.append (commaSeparated htexts)).append hclose.stripsTo

end StripsTo

/-! ## Types put together -/

/-- A name that facets can follow: it does not end in a blank, and neither facets nor a quoted name
begin in it. -/
structure BaseName where
  text : List Char
  ne_nil : text ≠ []
  plain : ∀ c ∈ text, c ≠ '(' ∧ c ≠ ')' ∧ c ≠ backtick
  shown : ∀ c, text.getLast? = some c → isBlank c = false

/-- A store type put together from its parts. -/
inductive TypeTree where
  | scalar (base : BaseName) (precision scale : Option UInt32)
  | array (element : TypeTree)
  | struct (fields : List (List Char × TypeTree))

namespace BaseName

/-- A base name is kept. -/
theorem kept (base : BaseName) : Kept base.text :=
  .of_forall fun c hc => ⟨(base.plain c hc).1, (base.plain c hc).2.2⟩

/-- No blanks are dropped behind a base name. -/
theorem dropWhile_reverse (base : BaseName) (kept : List Char) :
    (base.text.reverse ++ kept).dropWhile isBlank = base.text.reverse ++ kept := by
  obtain ⟨start, c, htext⟩ := (List.eq_nil_or_concat base.text).resolve_left base.ne_nil
  have hc : isBlank c = false := base.shown c (by simp [htext])
  rw [htext, List.concat_eq_append, List.reverse_append, List.reverse_singleton,
    List.singleton_append, List.cons_append, List.dropWhile_cons_of_neg (by simp [hc])]

end BaseName

/-- Everything up to the closing parenthesis is left out. -/
theorem stripFrom_parenthesized {inner : List Char} (h : ∀ c ∈ inner, c ≠ '(' ∧ c ≠ ')')
    (kept rest : List Char) :
    stripFrom .plain 1 kept (inner ++ ')' :: rest) = stripFrom .plain 0 kept rest := by
  induction inner with
  | nil => rfl
  | cons c r ih =>
    obtain ⟨⟨hopen, hclose⟩, hr⟩ := List.forall_mem_cons.mp h
    rw [List.cons_append, stripFrom, if_neg hopen, if_neg hclose, ih hr]

/-- Of a base name with facets is left the base name. -/
theorem stripsTo_withFacets (base : BaseName) (precision scale : Option UInt32) :
    StripsTo (withFacets base.text precision scale) base.text := by
  have hfacets {inner : List Char} (h : ∀ c ∈ inner, c ≠ '(' ∧ c ≠ ')') :
      StripsTo (base.text ++ ('(' :: inner ++ [')'])) base.text := by
    intro kept rest
    have happend : base.text ++ ('(' :: inner ++ [')']) ++ rest =
        base.text ++ '(' :: (inner ++ ')' :: rest) := by simp
    rw [happend, base.kept, stripFrom, if_pos rfl, base.dropWhile_reverse,
      stripFrom_parenthesized h]
  have hdigits (n : Nat) : ∀ c ∈ decimal n, c ≠ '(' ∧ c ≠ ')' := fun c hc =>
    ⟨(plain_of_mem_decimal c hc).2.1.2.1, (plain_of_mem_decimal c hc).2.1.2.2.1⟩
  cases precision with
  | none => exact base.kept.stripsTo
  | some p =>
    cases scale with
    | none => simpa [withFacets] using hfacets (hdigits p.toNat)
    | some s =>
      have hpair : ∀ c ∈ decimal p.toNat ++ ',' :: ' ' :: decimal s.toNat, c ≠ '(' ∧ c ≠ ')' := by
        simp only [List.forall_mem_append, List.forall_mem_cons]
        exact ⟨hdigits p.toNat, by decide, by decide, hdigits s.toNat⟩
      simpa [withFacets] using hfacets hpair

namespace TypeTree

mutual

/-- The text of a store type. -/
def text : TypeTree → List Char
  | .scalar base precision scale => withFacets base.text precision scale
  | .array element => arrayOf element.text
  | .struct fields => structOf (fieldTexts fields)

/-- The names and the texts of the types of fields. -/
def fieldTexts : List (List Char × TypeTree) → List (List Char × List Char)
  | [] => []
  | (name, type) :: rest => (name, type.text) :: fieldTexts rest

end

mutual

/-- The store type with every facet left out. -/
def bare : TypeTree → TypeTree
  | .scalar base _ _ => .scalar base none none
  | .array element => .array element.bare
  | .struct fields => .struct (bareFields fields)

/-- Fields with every facet left out of their types. -/
def bareFields : List (List Char × TypeTree) → List (List Char × TypeTree)
  | [] => []
  | (name, type) :: rest => (name, type.bare) :: bareFields rest

end

mutual

/-- Of the text of a type is left the text of the type without facets. -/
theorem stripsTo_text : (t : TypeTree) → StripsTo t.text t.bare.text
  | .scalar base precision scale => stripsTo_withFacets base precision scale
  | .array element => (stripsTo_text element).arrayOf
  | .struct fields => .structOf (stripsTo_fieldTexts fields)

/-- The same for each field of a struct type. -/
theorem stripsTo_fieldTexts : (fields : List (List Char × TypeTree)) →
    List.Forall₂ (fun f g => f.1 = g.1 ∧ StripsTo f.2 g.2)
      (fieldTexts fields) (fieldTexts (bareFields fields))
  | [] => .nil
  | (_, type) :: rest => .cons ⟨rfl, stripsTo_text type⟩ (stripsTo_fieldTexts rest)

end

end TypeTree

/-! ## Once more -/

/-- `Settled scan kept`: a scan over what has been kept so far, last character first, finds no
facets and ends in the given state. -/
inductive Settled : Scan → List Char → Prop
  | nil : Settled .plain []
  | cons {scan : Scan} {kept : List Char} {c : Char} (h : Settled scan kept)
      (hc : scan = .plain → c ≠ '(') : Settled (scan.next c) (c :: kept)

namespace Settled

variable {scan : Scan} {kept : List Char} {c : Char}

/-- A scan over kept text comes to where it stood when the text had been kept. -/
theorem stripFrom_reverse (h : Settled scan kept) (rest : List Char) :
    stripFrom .plain 0 [] (kept.reverse ++ rest) = stripFrom scan 0 kept rest := by
  induction h generalizing rest with
  | nil => rfl
  | @cons scan kept c _ hc ih =>
    rw [List.reverse_cons, List.append_assoc, List.singleton_append, ih]
    cases scan with
    | plain => rw [stripFrom, if_neg (hc rfl)]
    | quoted => simp [stripFrom]
    | escaped => simp [stripFrom]

/-- The last character is what led to the state. -/
theorem cons_iff : Settled scan (c :: kept) ↔
    ∃ before : Scan, before.next c = scan ∧ Settled before kept ∧ (before = .plain → c ≠ '(') := by
  constructor
  · intro h
    cases h with
    | cons hkept hc => exact ⟨_, rfl, hkept, hc⟩
  · rintro ⟨before, rfl, hkept, hc⟩
    exact .cons hkept hc

/-- A blank outside quotes can be dropped again. -/
theorem of_blank (h : Settled .plain (c :: kept)) (hc : isBlank c = true) :
    Settled .plain kept := by
  have hquote : c ≠ backtick := by
    rintro rfl
    exact absurd hc (by decide)
  obtain ⟨before, hnext, hkept, -⟩ := cons_iff.mp h
  -- only a backtick leads out of a quoted name
  cases before with
  | plain => exact hkept
  | quoted => by_cases hescape : c = '\\' <;> simp [Scan.next, hescape, hquote] at hnext
  | escaped => simp [Scan.next] at hnext

/-- All blanks at the end can be dropped again. -/
theorem dropWhile (h : Settled .plain kept) : Settled .plain (kept.dropWhile isBlank) := by
  induction kept with
  | nil => exact h
  | cons c rest ih =>
    cases hc : isBlank c with
    | true =>
      rw [List.dropWhile_cons_of_pos hc]
      exact ih (h.of_blank hc)
    | false =>
      rw [List.dropWhile_cons_of_neg (by simp [hc])]
      exact h

end Settled

/-- What the removal of facets yields is settled. -/
theorem settled_stripFrom {scan : Scan} {kept : List Char} (depth : Nat) (s : List Char)
    (h : Settled scan kept) : ∃ last, Settled last (stripFrom scan depth kept s).reverse := by
  induction s generalizing scan depth kept with
  | nil => exact ⟨scan, by simpa [stripFrom] using h⟩
  | cons c rest ih =>
    cases scan with
    | plain =>
      cases depth with
      | zero =>
        rw [stripFrom]
        split
        next => exact ih 1 h.dropWhile
        next hc => exact ih 0 (h.cons fun _ => hc)
      | succ depth =>
        rw [stripFrom]
        split
        next => exact ih (depth + 2) h
        next =>
          split
          next => exact ih depth h
          next => exact ih (depth + 1) h
    | quoted => simpa [stripFrom] using ih depth (h.cons (by simp))
    | escaped => simpa [stripFrom] using ih depth (h.cons (by simp))

/-- To remove facets again changes nothing. -/
theorem stripFacets_stripFacets (s : List Char) :
    stripFacets (stripFacets s) = stripFacets s := by
  obtain ⟨last, hlast⟩ := settled_stripFrom 0 s .nil
  have hagain := hlast.stripFrom_reverse []
  rw [List.append_nil, List.reverse_reverse, stripFrom, List.reverse_reverse] at hagain
  exact hagain

/-- The removal of facets goes with the making of types: what is left of a type that was put
together from its parts is the type put together without facets, and to remove facets again changes
nothing. -/
theorem stripFacets_homomorphic :
    (∀ t : TypeTree, stripFacets t.text = t.bare.text) ∧
      ∀ s, stripFacets (stripFacets s) = stripFacets s :=
  ⟨fun t => t.stripsTo_text.stripFacets, stripFacets_stripFacets⟩

/-- A name in quotes keeps its parentheses, and types at every depth lose theirs. -/
example :
    let numeric : BaseName := ⟨"NUMERIC".toList, by decide, by decide, by simp; decide⟩
    let string : BaseName := ⟨"STRING".toList, by decide, by decide, by simp; decide⟩
    let t : TypeTree := .struct [("net (EUR)".toList, .scalar numeric (some 10) (some 2)),
      ([], .array (.scalar string (some 5) none))]
    t.text = "STRUCT<`net (EUR)` NUMERIC(10, 2), ARRAY<STRING(5)>>".toList ∧
      t.bare.text = "STRUCT<`net (EUR)` NUMERIC, ARRAY<STRING>>".toList ∧
      stripFacets t.text = t.bare.text :=
  ⟨rfl, rfl, rfl⟩

end TypedSql.StoreType
