import Mathlib.Data.List.Forall2
import TypedSql.Proofs.Result
import TypedSql.Proofs.StoreType.Parts
import TypedSql.Proofs.StoreType.TableName

/-!
# The composite types that are accepted

A text is taken for an array or a struct exactly when it begins like one, the bracket opened there
is closed by its last character, and, for a struct, the content splits into fields. The main
statement says so without the scans, for every text. A struct type that is accepted stands for one
type wherever it is put.
-/

namespace TypedSql.StoreType

open Text

-- A condition on all characters of a text is decided character by character.
attribute [local instance (high)] List.decidableBAll

/-! ## Fields -/

/-- A field that is read from a piece of the text between the brackets of a struct. -/
inductive ReadAs (piece : List Char) : FieldToken → Prop
  | quoted {name after : List Char} (h : trim piece = backtick :: name ++ backtick :: after)
      (hname : QuotedBody name) (hafter : trim after ≠ []) : ReadAs piece ⟨name, trim after⟩
  | alone (hne : trim piece ≠ []) (hquote : (trim piece).head? ≠ some backtick)
      (h : isComposite (trim piece) = true ∨ ∀ c ∈ trim piece, isBlank c = false) :
      ReadAs piece ⟨[], trim piece⟩
  | named {name type : List Char} {c : Char} (h : trim piece = name ++ c :: type)
      (hquote : (trim piece).head? ≠ some backtick) (hscalar : isComposite (trim piece) = false)
      (hname : ∀ d ∈ name, isBlank d = false) (hc : isBlank c = true) :
      ReadAs piece ⟨name, trim type⟩

/-- A piece is not blank, and one with a quoted name has a type behind the name. -/
structure Readable (piece : List Char) : Prop where
  ne_nil : trim piece ≠ []
  quoted : ∀ rest, trim piece = backtick :: rest →
    ∃ name after, rest = name ++ backtick :: after ∧ QuotedBody name ∧ trim after ≠ []

section Fields

variable {piece : List Char}

/-- The field that is read from a piece. -/
theorem fieldToken?_eq_some_iff {token : FieldToken} :
    fieldToken? piece = some token ↔ ReadAs piece token := by
  constructor
  · intro h
    unfold fieldToken? at h
    split at h
    next => cases h
    next c rest hpiece =>
      split at h
      next hquote =>
        subst hquote
        split at h
        next => cases h
        next name after hclose =>
          obtain ⟨rfl, hname⟩ := closeQuote?_eq_some_iff.mp hclose
          split at h
          next => cases h
          next hafter =>
            cases h
            exact .quoted hpiece hname (by simpa using hafter)
      next hquote =>
        have hhead : (trim piece).head? ≠ some backtick := by simpa [hpiece] using hquote
        have hne : trim piece ≠ [] := by simp [hpiece]
        rw [← hpiece] at h
        split at h
        next hcomposite =>
          cases h
          exact .alone hne hhead (Or.inl hcomposite)
        next hscalar =>
          split at h
          next name type hsplit =>
            cases h
            obtain ⟨d, hd, hname, heq⟩ := splitFirst_eq_some_iff.mp hsplit
            exact .named heq hhead (by simpa using hscalar) hname hd
          next hsplit =>
            cases h
            exact .alone hne hhead (Or.inr (splitFirst_eq_none.mp hsplit))
  · intro h
    cases h with
    | quoted hpiece hname hafter =>
      unfold fieldToken?
      rw [hpiece]
      simp [closeQuote?_body hname, hafter]
    | alone hne hquote h =>
      obtain ⟨c, rest, hpiece⟩ := List.exists_cons_of_ne_nil hne
      have hc : c ≠ backtick := by simpa [hpiece] using hquote
      rw [hpiece] at h ⊢
      unfold fieldToken?
      rw [hpiece]
      simp only [if_neg hc]
      rcases h with hcomposite | hblank
      · rw [if_pos hcomposite]
      · rw [splitFirst_eq_none.mpr hblank]
        split <;> rfl
    | @named name type d heq hquote hscalar hname hd =>
      have hsplit : splitFirst isBlank (trim piece) = some (name, type) :=
        splitFirst_eq_some_iff.mpr ⟨d, hd, hname, heq⟩
      have hne : trim piece ≠ [] := by simp [heq]
      obtain ⟨c, rest, hpiece⟩ := List.exists_cons_of_ne_nil hne
      have hc : c ≠ backtick := by simpa [hpiece] using hquote
      rw [hpiece] at hscalar hsplit
      unfold fieldToken?
      rw [hpiece]
      simp [if_neg hc, hscalar, hsplit]

/-- A field is read from a piece exactly when the piece is readable. -/
theorem exists_readAs_iff : (∃ token, ReadAs piece token) ↔ Readable piece := by
  constructor
  · rintro ⟨token, h⟩
    cases h with
    | @quoted name after h hname hafter =>
      refine ⟨by simp [h], fun rest hrest => ⟨name, after, ?_, hname, hafter⟩⟩
      exact (List.cons.inj (hrest.symm.trans h)).2
    | alone hne hquote => exact ⟨hne, fun rest hrest => absurd (by simp [hrest]) hquote⟩
    | named h hquote => exact ⟨by simp [h], fun rest hrest => absurd (by simp [hrest]) hquote⟩
  · rintro ⟨hne, hquoted⟩
    by_cases hquote : (trim piece).head? = some backtick
    · obtain ⟨rest, hrest⟩ := List.head?_eq_some_iff.mp hquote
      obtain ⟨name, after, rfl, hname, hafter⟩ := hquoted rest hrest
      exact ⟨_, .quoted hrest hname hafter⟩
    · by_cases hscalar : isComposite (trim piece) = true
      · exact ⟨_, .alone hne hquote (Or.inl hscalar)⟩
      · rw [Bool.not_eq_true] at hscalar
        cases hsplit : splitFirst isBlank (trim piece) with
        | none => exact ⟨_, .alone hne hquote (Or.inr (splitFirst_eq_none.mp hsplit))⟩
        | some parts =>
          obtain ⟨d, hd, hname, heq⟩ := splitFirst_eq_some_iff.mp hsplit
          exact ⟨_, .named heq hquote hscalar hname hd⟩

/-- Fields are read from pieces one by one. -/
theorem mapM_fieldToken?_eq_some_iff {pieces : List (List Char)} {fields : List FieldToken} :
    pieces.mapM fieldToken? = some fields ↔ List.Forall₂ ReadAs pieces fields := by
  induction pieces generalizing fields with
  | nil => simp [List.forall₂_nil_left_iff, eq_comm]
  | cons piece rest ih =>
    simp only [List.mapM_cons, Option.bind_eq_bind, Option.bind_eq_some_iff, Option.pure_def,
      Option.some.injEq, fieldToken?_eq_some_iff, ih, List.forall₂_cons_left_iff]
    constructor
    · rintro ⟨token, htoken, others, hothers, rfl⟩
      exact ⟨token, others, htoken, hothers, rfl⟩
    · rintro ⟨token, others, htoken, hothers, rfl⟩
      exact ⟨token, htoken, others, hothers, rfl⟩

/-- A text from whose pieces fields are read is not blank. -/
theorem trim_ne_nil_of_pieces {inner : List Char} {pieces : List (List Char)}
    (h : Pieces .plain 0 inner pieces) (hpieces : ∀ p ∈ pieces, Readable p) : trim inner ≠ [] := by
  cases h with
  | last => exact (hpieces inner (List.mem_singleton_self _)).ne_nil
  | cut =>
    intro hblank
    have hcomma := trim_eq_nil_iff.mp hblank ',' (by simp)
    exact absurd hcomma (by decide)

/-- Every piece from which a field is read is readable. -/
theorem readable_of_forall₂ {pieces : List (List Char)} {fields : List FieldToken}
    (h : List.Forall₂ ReadAs pieces fields) : ∀ p ∈ pieces, Readable p := by
  intro p hp
  obtain ⟨token, -, hread⟩ := Result.exists_mem_of_forall₂ h hp
  exact exists_readAs_iff.mp ⟨token, hread⟩

/-- A field is read from every readable piece. -/
theorem exists_forall₂_of_readable {pieces : List (List Char)} (h : ∀ p ∈ pieces, Readable p) :
    ∃ fields, List.Forall₂ ReadAs pieces fields := by
  induction pieces with
  | nil => exact ⟨[], .nil⟩
  | cons piece rest ih =>
    obtain ⟨hpiece, hrest⟩ := List.forall_mem_cons.mp h
    obtain ⟨token, htoken⟩ := exists_readAs_iff.mpr hpiece
    obtain ⟨others, hothers⟩ := ih hrest
    exact ⟨token :: others, .cons htoken hothers⟩

/-- The fields of a content whose quoted names end. -/
theorem fields?_eq_some_iff {inner : List Char} (hinner : Ended .plain inner)
    {fields : List FieldToken} : fields? inner = some fields ↔
      trim inner = [] ∧ fields = [] ∨
        ∃ pieces, Pieces .plain 0 inner pieces ∧ List.Forall₂ ReadAs pieces fields := by
  have hpieces {pieces} (h : Pieces .plain 0 inner pieces ∧ List.Forall₂ ReadAs pieces fields) :
      trim inner ≠ [] := trim_ne_nil_of_pieces h.1 (readable_of_forall₂ h.2)
  simp only [fields?, List.isEmpty_iff]
  split
  next hblank =>
    simp only [Option.some.injEq, hblank, true_and, eq_comm]
    refine ⟨Or.inl, ?_⟩
    rintro (h | ⟨pieces, h⟩)
    · exact h
    · exact absurd hblank (hpieces h)
  next hblank =>
    simp only [hblank, false_and, false_or, Option.bind_eq_some_iff,
      pieces?_eq_some_iff hinner, mapM_fieldToken?_eq_some_iff]

end Fields

/-! ## Whole types -/

/-- A text begins like a type, and the bracket opened there is closed by its last character: angle
brackets are balanced in between. -/
def Encloses (head t inner : List Char) : Prop :=
  ∃ start, t = start ++ inner ++ ['>'] ∧ sameIgnoringCase start head = true ∧
    Balanced angleRole inner

/-- The content of a struct type: blank, or its brackets are balanced and a field is read from every
piece between the commas outside of them. -/
def StructContent (inner : List Char) : Prop :=
  trim inner = [] ∨
    Balanced nestingRole inner ∧ ∀ pieces, Pieces .plain 0 inner pieces → ∀ p ∈ pieces, Readable p

section Whole

variable {head t inner : List Char}

/-- A text starts with another in any case exactly when it is some form of it with a rest. -/
theorem dropIgnoringCase_eq_some_iff {rest : List Char} : dropIgnoringCase head t = some rest ↔
    ∃ start, t = start ++ rest ∧ sameIgnoringCase start head = true := by
  unfold dropIgnoringCase
  constructor
  · intro h
    split at h
    next hsame =>
      cases h
      exact ⟨t.take head.length, (List.take_append_drop ..).symm, hsame⟩
    next => cases h
  · rintro ⟨start, rfl, hsame⟩
    have hlength : start.length = head.length := by
      simpa [upper] using congrArg List.length (beq_iff_eq.mp hsame)
    rw [← hlength, List.take_left, List.drop_left, if_pos hsame]

/-- The content between a head and the bracket that closes it. -/
theorem content?_eq_some_iff : content? head t = some inner ↔ Encloses head t inner := by
  unfold content?
  constructor
  · intro h
    split at h
    next => cases h
    next rest hdrop =>
      obtain ⟨start, rfl, hstart⟩ := dropIgnoringCase_eq_some_iff.mp hdrop
      split at h
      next hclose =>
        cases h
        obtain ⟨rfl, hinner⟩ := closeBracket?_eq_some_iff.mp hclose
        exact ⟨start, by simp, hstart, hinner⟩
      next => cases h
  · rintro ⟨start, rfl, hstart, hinner⟩
    have hdrop : dropIgnoringCase head (start ++ (inner ++ ['>'])) = some (inner ++ ['>']) :=
      dropIgnoringCase_eq_some_iff.mpr ⟨start, rfl, hstart⟩
    have hclose : closeBracket? .plain 0 (inner ++ ['>']) = some (inner, []) :=
      closeBracket?_eq_some_iff.mpr ⟨rfl, hinner⟩
    simp [hdrop, hclose]

/-- A type starts with the first letter of its head. -/
theorem Encloses.head? {c : Char} (h : Encloses head t inner) (hc : head.head? = some c) :
    t.head?.map Char.toUpper = some c.toUpper := by
  obtain ⟨start, rfl, hstart, -⟩ := h
  have hfirst : start.head?.map Char.toUpper = head.head?.map Char.toUpper := by
    simpa [upper] using congrArg List.head? (beq_iff_eq.mp hstart)
  rw [hc] at hfirst
  cases start with
  | nil => cases hfirst
  | cons d rest => simpa using hfirst

/-- No text begins as a struct and as an array. -/
theorem Encloses.not_array {other : List Char} (h : Encloses structHead t inner) :
    ¬ Encloses arrayHead t other := by
  intro harray
  have hletters := (h.head? (c := 'S') rfl).symm.trans (harray.head? (c := 'A') rfl)
  exact absurd hletters (by decide)

/-- The quoted names in the content of a type end. -/
theorem Encloses.ended (h : Encloses head t inner) : Ended .plain inner := by
  obtain ⟨-, -, -, v, hv, -⟩ := h
  exact ⟨v, hv⟩

/-- A content is that of a struct type exactly when its fields can be read. -/
theorem structContent_iff (h : Ended .plain inner) :
    StructContent inner ↔ ∃ fields, fields? inner = some fields := by
  simp only [StructContent, fields?_eq_some_iff h]
  constructor
  · rintro (hblank | ⟨hbalanced, hpieces⟩)
    · exact ⟨[], Or.inl ⟨hblank, rfl⟩⟩
    · obtain ⟨pieces, hsplit⟩ := Option.isSome_iff_exists.mp ((isSome_pieces?_iff h).mpr hbalanced)
      have hcut := (pieces?_eq_some_iff h).mp hsplit
      obtain ⟨fields, hfields⟩ := exists_forall₂_of_readable (hpieces pieces hcut)
      exact ⟨fields, Or.inr ⟨pieces, hcut, hfields⟩⟩
  · rintro ⟨fields, ⟨hblank, -⟩ | ⟨pieces, hcut, hfields⟩⟩
    · exact Or.inl hblank
    · have hsplit := (pieces?_eq_some_iff h).mpr hcut
      refine Or.inr ⟨(isSome_pieces?_iff h).mp (by simp [hsplit]), fun others hothers => ?_⟩
      -- the pieces are determined by the content
      have hsame := hsplit.symm.trans ((pieces?_eq_some_iff h).mpr hothers)
      rw [← Option.some.inj hsame]
      exact readable_of_forall₂ hfields

/-- The texts that are taken for arrays. -/
theorem parse?_eq_array_iff {s element : List Char} : parse? s = some (.array element) ↔
    ∃ inner, Encloses arrayHead (trim s) inner ∧ element = trim inner ∧ element ≠ [] := by
  simp only [← content?_eq_some_iff]
  unfold parse?
  split
  next inner hstruct =>
    constructor
    · intro h
      obtain ⟨_, _, he⟩ := Option.map_eq_some_iff.mp h
      cases he
    · rintro ⟨other, harray, -⟩
      exact absurd (content?_eq_some_iff.mp harray) (content?_eq_some_iff.mp hstruct).not_array
  next =>
    split
    next inner harray =>
      simp only [harray, List.isEmpty_iff]
      split
      next hblank => simp +contextual [hblank]
      next hblank => grind
    next harray => simp [harray]

/-- The texts that are taken for structs. -/
theorem parse?_eq_struct_iff {s : List Char} {fields : List FieldToken} :
    parse? s = some (.struct fields) ↔
      ∃ inner, Encloses structHead (trim s) inner ∧ fields? inner = some fields := by
  simp only [← content?_eq_some_iff]
  unfold parse?
  split
  next inner hstruct => simp [hstruct]
  next hstruct =>
    split
    next inner _ => split <;> simp [hstruct]
    next => simp [hstruct]

/-- Composite types are taken apart exactly when they are balanced: an array type encloses an
element type that is not blank, a struct type encloses fields, one for each piece between its outer
commas, and nothing else is taken for a composite type. -/
theorem parse?_accepts (s : List Char) :
    (∀ element, parse? s = some (.array element) ↔
      ∃ inner, Encloses arrayHead (trim s) inner ∧ element = trim inner ∧ element ≠ []) ∧
    (∀ fields, parse? s = some (.struct fields) ↔
      ∃ inner, Encloses structHead (trim s) inner ∧
        (trim inner = [] ∧ fields = [] ∨
          ∃ pieces, Pieces .plain 0 inner pieces ∧ List.Forall₂ ReadAs pieces fields)) ∧
    ((∃ fields, parse? s = some (.struct fields)) ↔
      ∃ inner, Encloses structHead (trim s) inner ∧ StructContent inner) ∧
    (parse? s = none ↔
      (∀ inner, Encloses arrayHead (trim s) inner → trim inner = []) ∧
        ∀ inner, Encloses structHead (trim s) inner → ¬ StructContent inner) := by
  have hstruct : (∃ fields, parse? s = some (.struct fields)) ↔
      ∃ inner, Encloses structHead (trim s) inner ∧ StructContent inner := by
    simp only [parse?_eq_struct_iff]
    constructor
    · rintro ⟨fields, inner, hinner, hfields⟩
      exact ⟨inner, hinner, (structContent_iff hinner.ended).mpr ⟨fields, hfields⟩⟩
    · rintro ⟨inner, hinner, hcontent⟩
      obtain ⟨fields, hfields⟩ := (structContent_iff hinner.ended).mp hcontent
      exact ⟨fields, inner, hinner, hfields⟩
  refine ⟨fun element => parse?_eq_array_iff, fun fields => ?_, hstruct, ?_⟩
  · rw [parse?_eq_struct_iff]
    refine exists_congr fun inner => and_congr_right fun hinner => ?_
    exact fields?_eq_some_iff hinner.ended
  · constructor
    · intro hnone
      refine ⟨fun inner hinner => ?_, fun inner hinner hcontent => ?_⟩
      · by_contra hblank
        have harray := parse?_eq_array_iff.mpr ⟨inner, hinner, rfl, hblank⟩
        rw [hnone] at harray
        cases harray
      · obtain ⟨fields, hfields⟩ := hstruct.mpr ⟨inner, hinner, hcontent⟩
        rw [hnone] at hfields
        cases hfields
    · rintro ⟨harray, hcontent⟩
      cases h : parse? s with
      | none => rfl
      | some composite =>
        cases composite with
        | array element =>
          obtain ⟨inner, hinner, rfl, hne⟩ := parse?_eq_array_iff.mp h
          exact absurd (harray inner hinner) hne
        | struct fields =>
          obtain ⟨inner, hinner, hstructContent⟩ := hstruct.mp ⟨fields, h⟩
          exact absurd hstructContent (hcontent inner hinner)

/-! ## Accepted types inside others -/

/-- Brackets around a balanced content leave it balanced. -/
theorem Balanced.brackets {role within : Char → Role} (h : Balanced role inner)
    (hopen : within '<' = .opening) (hclose : within '>' = .closing)
    (hwithin : ∀ d, within d = role d ∨ role d = .other ∧ within d = .inner) :
    Balanced within ('<' :: inner ++ ['>']) := by
  obtain ⟨v, hv, hbalances⟩ := h
  have hunquoted : Unquoted ('<' :: inner ++ ['>']) ('<' :: v ++ ['>']) :=
    .char (by decide) (hv.append (.char (by decide) .nil))
  exact ⟨_, hunquoted, (Balances.opening_iff hopen).mpr (hbalances.closed hclose hwithin)⟩

/-- The brackets in the content of a struct type are balanced. -/
theorem StructContent.balanced (h : StructContent inner) : Balanced nestingRole inner := by
  rcases h with hblank | h
  · have hother : ∀ c ∈ inner, c ≠ backtick ∧ nestingRole c = .other := by
      intro c hc
      have hc := trim_eq_nil_iff.mp hblank c hc
      have hne {d : Char} (hd : isBlank d = false) : c ≠ d := by
        rintro rfl
        simp [hd] at hc
      refine ⟨hne rfl, ?_⟩
      simp [nestingRole, hne (d := '<') rfl, hne (d := '>') rfl, hne (d := '(') rfl,
        hne (d := ')') rfl]
    exact ⟨inner, .of_forall fun c hc => (hother c hc).1, .of_forall fun c hc => (hother c hc).2⟩
  · exact h.1

/-- The start of a type in any case is a word with an opening bracket behind it. -/
theorem exists_word_of_sameIgnoringCase {start : List Char} (word : List Char)
    (hword : ∀ c ∈ word, c.toUpper.isAlphanum = true)
    (h : sameIgnoringCase start (word ++ ['<']) = true) :
    ∃ letters, start = letters ++ ['<'] ∧ ∀ c ∈ letters, c.isAlphanum = true := by
  have hupper : start.map Char.toUpper = word.map Char.toUpper ++ ['<'] := by
    simpa [upper] using beq_iff_eq.mp h
  obtain ⟨letters, last, rfl, hletters, hlast⟩ := List.map_eq_append_iff.mp hupper
  obtain ⟨c, rfl⟩ : ∃ c, last = [c] :=
    List.length_eq_one_iff.mp (by simpa using congrArg List.length hlast)
  obtain rfl : c = '<' := by
    by_contra hc
    exact toUpper_ne_open hc (by simpa using hlast)
  refine ⟨letters, rfl, fun c hc => isAlphanum_of_toUpper ?_⟩
  have hmem : c.toUpper ∈ word.map Char.toUpper := hletters ▸ List.mem_map_of_mem hc
  obtain ⟨d, hd, heq⟩ := List.mem_map.mp hmem
  exact heq ▸ hword d hd

/-- A struct type that is taken apart can stand inside any other type. -/
theorem selfContained_of_parse?_struct {s : List Char} {fields : List FieldToken}
    (h : parse? s = some (.struct fields)) : SelfContained (trim s) := by
  obtain ⟨inner, hinner, hfields⟩ := parse?_eq_struct_iff.mp h
  have hcontent := (structContent_iff hinner.ended).mpr ⟨fields, hfields⟩
  obtain ⟨start, htext, hstart, hangle⟩ := hinner
  obtain ⟨letters, rfl, hletters⟩ :=
    exists_word_of_sameIgnoringCase "STRUCT".toList (by decide) hstart
  have hword : Passes 0 letters := .of_forall fun c hc =>
    (identifier_char (by rw [hletters c hc, Bool.true_or])).2.1
  have hbrackets : Passes 0 ('<' :: inner ++ ['>']) :=
    .of_balanced (hangle.brackets rfl rfl fun d => Or.inl rfl)
      (hcontent.balanced.brackets rfl rfl fun d => by
        by_cases hcomma : pieceRole d = .inner
        · exact Or.inr ⟨by rw [nestingRole_eq, if_pos hcomma], hcomma⟩
        · exact Or.inl (by rw [nestingRole_eq, if_neg hcomma]))
  refine ⟨?_, by simp [htext], trim_trim s⟩
  rw [htext]
  simpa using hword.append hbrackets

/-! ## Parts are substrings -/

/-- A piece is a part of the text that it was cut from. -/
theorem Pieces.isInfix {pieces : List (List Char)} {scan : Scan} {opened : Nat}
    (h : Pieces scan opened inner pieces) : ∀ p ∈ pieces, p <:+: inner := by
  induction h with
  | last => exact List.forall_mem_singleton.mpr List.infix_rfl
  | @cut _ _ s rest _ _ _ ih =>
    refine List.forall_mem_cons.mpr ⟨(List.prefix_append s _).isInfix, fun p hp => ?_⟩
    have hrest : rest <:+ s ++ ',' :: rest := (List.suffix_cons _ _).trans (List.suffix_append ..)
    exact (ih p hp).trans hrest.isInfix

/-- The type of a field is a part of the piece that it was read from. -/
theorem ReadAs.isInfix {piece : List Char} {token : FieldToken} (h : ReadAs piece token) :
    token.type <:+: piece := by
  have hpiece := isInfix_trim piece
  cases h with
  | @quoted name after heq =>
    have hafter : after <:+ trim piece := heq ▸ (List.suffix_cons _ _).trans (List.suffix_append ..)
    exact (isInfix_trim after).trans (hafter.isInfix.trans hpiece)
  | alone => exact hpiece
  | @named name type c heq =>
    have htype : type <:+ trim piece := heq ▸ (List.suffix_cons _ _).trans (List.suffix_append ..)
    exact (isInfix_trim type).trans (htype.isInfix.trans hpiece)

/-- The content of a type is a part of it. -/
theorem Encloses.isInfix (h : Encloses head t inner) : inner <:+: t := by
  obtain ⟨start, rfl, -⟩ := h
  exact List.infix_append start inner ['>']

/-- The types that a composite type is taken apart into are parts of its text. -/
theorem isInfix_of_parse? {s : List Char} {composite : Composite} (h : parse? s = some composite) :
    ∀ t ∈ composite.types, t <:+: s := by
  have hwhole := isInfix_trim s
  cases composite with
  | array element =>
    obtain ⟨inner, hinner, rfl, -⟩ := parse?_eq_array_iff.mp h
    exact List.forall_mem_singleton.mpr
      ((isInfix_trim inner).trans (hinner.isInfix.trans hwhole))
  | struct fields =>
    obtain ⟨inner, hinner, hfields⟩ := parse?_eq_struct_iff.mp h
    rw [Composite.types, List.forall_mem_map]
    rcases (fields?_eq_some_iff hinner.ended).mp hfields with ⟨-, rfl⟩ | ⟨pieces, hcut, hread⟩
    · exact List.forall_mem_nil _
    · intro token htoken
      obtain ⟨piece, hpiece, hread⟩ := Result.exists_mem_of_forall₂ hread.flip htoken
      exact hread.isInfix.trans ((hcut.isInfix piece hpiece).trans (hinner.isInfix.trans hwhole))

end Whole

end TypedSql.StoreType
