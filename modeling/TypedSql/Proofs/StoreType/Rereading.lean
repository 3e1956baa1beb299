import TypedSql.Proofs.StoreType.TypeText

/-!
# Written types are read back

Arrays and structs that were written from type texts are taken apart into just these texts. The
name of a field comes back as it was when it needs no quotes, and with its escapes otherwise.
-/

namespace TypedSql.StoreType

open Text

/-! ## Identifiers -/

/-- The codes of letters, digits and the underscore. -/
theorem identifier_range {c : Char} (h : (c.isAlphanum || c == '_') = true) :
    48 ≤ c.toNat ∧ c.toNat ≤ 57 ∨ 65 ≤ c.toNat ∧ c.toNat ≤ 90 ∨ c.toNat = 95 ∨
      97 ≤ c.toNat ∧ c.toNat ≤ 122 := by
  unfold Char.isAlphanum Char.isAlpha Char.isUpper Char.isLower Char.isDigit at h
  simp only [Bool.or_eq_true, Bool.and_eq_true, decide_eq_true_eq, beq_iff_eq, ge_iff_le,
    UInt32.le_iff_toNat_le] at h
  rcases h with ((h | h) | h) | rfl
  · simp at h
    omega
  · simp at h
    omega
  · simp at h
    omega
  · decide

/-- The characters of identifiers are no blanks and mean nothing to a scan. -/
theorem identifier_char {c : Char} (h : (c.isAlphanum || c == '_') = true) :
    isBlank c = false ∧ ((c ≠ '<' ∧ c ≠ '>' ∧ c ≠ backtick) ∧ c ≠ '(' ∧ c ≠ ')' ∧ c ≠ ',') ∧
      c ≠ '\\' := by
  have hrange := identifier_range h
  have hblank : isBlank c = false := by
    simp only [isBlank, Bool.or_eq_false_iff, Bool.and_eq_false_iff, decide_eq_false_iff_not,
      beq_eq_false_iff_ne]
    omega
  have hne {d : Char} (hd : c.toNat ≠ d.toNat) : c ≠ d := fun e => hd (congrArg Char.toNat e)
  refine ⟨hblank, ⟨⟨hne ?_, hne ?_, hne ?_⟩, hne ?_, hne ?_, hne ?_⟩, hne ?_⟩
  all_goals
    simp [backtick]
    omega

/-- An identifier has a first character, and all its characters are letters, digits or
underscores. -/
theorem chars_of_isPlainIdentifier {name : List Char} (h : isPlainIdentifier name = true) :
    name ≠ [] ∧ ∀ c ∈ name, (c.isAlphanum || c == '_') = true := by
  cases name with
  | nil => exact absurd h Bool.false_ne_true
  | cons c rest =>
    rw [isPlainIdentifier, Bool.and_eq_true, List.all_eq_true] at h
    refine ⟨List.cons_ne_nil c rest, List.forall_mem_cons.mpr ⟨?_, h.2⟩⟩
    have hfirst := h.1
    unfold Char.isAlphanum
    simp only [Bool.or_eq_true] at hfirst ⊢
    exact hfirst.imp_left Or.inl

/-- No letter is an angle bracket in upper case. -/
theorem toUpper_ne_open {c : Char} (h : c ≠ '<') : c.toUpper ≠ '<' := by
  unfold Char.toUpper
  split
  next hlower =>
    intro he
    have hcode := congrArg (fun d : Char => d.val.toNat) he
    simp [UInt32.le_iff_toNat_le] at hcode hlower
    omega
  next => exact h

/-- Text without an angle bracket does not start as an array or a struct does. -/
theorem dropIgnoringCase_eq_none_of_not_mem {head s : List Char} (hopen : '<' ∈ upper head)
    (h : '<' ∉ s) : dropIgnoringCase head s = none := by
  rw [dropIgnoringCase, if_neg]
  intro hsame
  have hsame : upper (s.take head.length) = upper head := eq_of_beq hsame
  rw [← hsame] at hopen
  obtain ⟨c, hc, hupper⟩ := List.mem_map.mp hopen
  exact toUpper_ne_open (fun e => h (e ▸ List.mem_of_mem_take hc)) hupper

/-- Text that starts as no array or struct does not either when it goes on with a character that
they do not start with. -/
theorem dropIgnoringCase_append_cons {head s rest : List Char} {mark : Char}
    (hmark : mark.toUpper ∉ upper head) (h : dropIgnoringCase head s = none) :
    dropIgnoringCase head (s ++ mark :: rest) = none := by
  rw [dropIgnoringCase, if_neg]
  intro hsame
  have hupper : upper ((s ++ mark :: rest).take head.length) = upper head := eq_of_beq hsame
  -- either the mark stands where the head goes on, or the text has all of the head
  rcases Nat.lt_or_ge s.length head.length with hlt | hle
  · obtain ⟨k, hk⟩ := Nat.exists_eq_add_of_lt hlt
    have hdrop : s.length + k + 1 - s.length = k + 1 := by omega
    apply hmark
    rw [← hupper, hk, List.take_append, hdrop, List.take_succ_cons, upper, List.map_append,
      List.map_cons]
    exact List.mem_append_right _ (List.mem_cons_self ..)
  · rw [List.take_append_of_le_length hle] at hsame
    simp [dropIgnoringCase, hsame] at h

/-- The start of a text that starts as no array or struct does not either. -/
theorem dropIgnoringCase_eq_none_of_isPrefix {head s t : List Char} (hst : s <+: t)
    (h : dropIgnoringCase head t = none) : dropIgnoringCase head s = none := by
  obtain ⟨rest, rfl⟩ := hst
  rw [dropIgnoringCase, if_neg]
  intro hsame
  have hlength : (upper (s.take head.length)).length = (upper head).length :=
    congrArg List.length (eq_of_beq hsame)
  have hle : head.length ≤ s.length := by
    simp only [upper, List.length_map, List.length_take] at hlength
    omega
  simp [dropIgnoringCase, List.take_append_of_le_length hle, hsame] at h

/-- A name and a blank do not start as an array or a struct does. -/
theorem dropIgnoringCase_eq_none {head name rest : List Char} (hblank : ' ' ∉ upper head)
    (hopen : '<' ∈ upper head) (hname : '<' ∉ name) :
    dropIgnoringCase head (name ++ ' ' :: rest) = none :=
  dropIgnoringCase_append_cons hblank (dropIgnoringCase_eq_none_of_not_mem hopen hname)

/-- The start of a type is found where it was written. -/
theorem dropIgnoringCase_append (head rest : List Char) :
    dropIgnoringCase head (head ++ rest) = some rest := by
  simp [dropIgnoringCase, sameIgnoringCase_refl]

/-! ## Fields -/

/-- The name by which a written field is read: the name itself when it needs no quotes, and
otherwise the name with a backslash in front of each backtick and each backslash. -/
def readName (name : List Char) : List Char :=
  if isPlainIdentifier name && !isReserved name then name
  else name.flatMap fun c => if c = backtick ∨ c = '\\' then ['\\', c] else [c]

/-- The field read from a written name and type. -/
def readField (f : List Char × List Char) : FieldToken := ⟨readName f.1, f.2⟩

/-- Names are escaped by a backslash in front of each backtick and each backslash. -/
theorem escapeWith_nameCode (name : List Char) : escapeWith nameCode name =
    name.flatMap fun c => if c = backtick ∨ c = '\\' then ['\\', c] else [c] := by
  induction name with
  | nil => rfl
  | cons c rest ih =>
    by_cases hc : c = backtick ∨ c = '\\'
    · simp [escapeWith, nameCode, hc, ih]
    · simp [escapeWith, nameCode, hc, ih]

/-- Every scan passes through a field whose type it passes through. -/
theorem Passes.fieldText {name type : List Char} (h : Passes 0 type) :
    Passes 0 (fieldText name type) := by
  rw [StoreType.fieldText]
  split
  · exact h
  · have hblank : Passes 0 [' '] := char (by decide) (by decide)
    have hname : Passes 0 (fieldName name) := by
      rw [fieldName]
      split
      next hplain =>
        rw [Bool.and_eq_true] at hplain
        have hchars := (chars_of_isPlainIdentifier hplain.1).2
        exact of_forall fun c hc => (identifier_char (hchars c hc)).2.1
      next => exact quotedName name
    exact hname.append (hblank.append h)

/-- A field with a name that needs no quotes is read back. -/
theorem fieldToken?_plain {name type : List Char} (hname : isPlainIdentifier name = true)
    (h : SelfContained type) : fieldToken? (name ++ ' ' :: type) = some ⟨name, type⟩ := by
  obtain ⟨hne, hchars⟩ := chars_of_isPlainIdentifier hname
  obtain ⟨c, rest, rfl⟩ := List.exists_cons_of_ne_nil hne
  obtain ⟨hblank, ⟨⟨-, -, hquote⟩, -⟩, -⟩ := identifier_char (hchars c (List.mem_cons_self ..))
  have htrim : trim (c :: rest ++ ' ' :: type) = c :: rest ++ ' ' :: type := by
    have := trim_cons_append (s := rest ++ [' ']) hblank h.ne_nil h.trimmed
    simpa using this
  have hopen : '<' ∉ c :: rest := fun hmem => (identifier_char (hchars '<' hmem)).2.1.1.1 rfl
  have hcomposite : isComposite (c :: rest ++ ' ' :: type) = false := by
    rw [isComposite, List.cons_append, trimStart_cons hblank, ← List.cons_append,
      dropIgnoringCase_eq_none (by decide) (by decide) hopen,
      dropIgnoringCase_eq_none (by decide) (by decide) hopen]
    rfl
  have hsplit : splitFirst isBlank (c :: rest ++ ' ' :: type) = some (c :: rest, type) :=
    splitFirst_append (fun d hd => (identifier_char (hchars d hd)).1) rfl
  rw [fieldToken?, htrim]
  simp only [List.cons_append] at hcomposite hsplit ⊢
  rw [if_neg hquote, if_neg (by simp [hcomposite]), hsplit]
  simp [h.trimmed]

/-- A field with a quoted name is read back with the escapes of its name. -/
theorem fieldToken?_quoted (name : List Char) {type : List Char} (h : SelfContained type) :
    fieldToken? (quotedName name ++ ' ' :: type) = some ⟨escapeWith nameCode name, type⟩ := by
  have htrim : trim (quotedName name ++ ' ' :: type) = quotedName name ++ ' ' :: type := by
    have hblank : isBlank backtick = false := rfl
    have := trim_cons_append (s := escapeWith nameCode name ++ [backtick, ' ']) hblank h.ne_nil
      h.trimmed
    simpa [quotedName] using this
  have htype : trim (' ' :: type) = type := (trim_cons_blank rfl).trans h.trimmed
  rw [fieldToken?, htrim, quotedName, List.cons_append, List.append_assoc, List.singleton_append]
  simp only [if_pos, closeQuote?_body (QuotedBody.escapeWith name), htype]
  rw [if_neg (by simpa using h.ne_nil)]

/-- A field with a name is read back. -/
theorem fieldToken?_named {name type : List Char} (hname : name ≠ []) (h : SelfContained type) :
    fieldToken? (fieldText name type) = some (readField (name, type)) := by
  rw [fieldText, if_neg (by simpa using hname), fieldName, readField, readName]
  split
  next hplain =>
    rw [Bool.and_eq_true] at hplain
    exact fieldToken?_plain hplain.1 h
  next => rw [fieldToken?_quoted name h, escapeWith_nameCode]

/-- A self-contained text that is read as a type when no name stands in front of it. -/
structure Nameless (t : List Char) : Prop extends SelfContained t where
  unquoted : t.head? ≠ some backtick
  unsplit : isComposite t = true ∨ ∀ c ∈ t, isBlank c = false

/-- A field without a name is read back. -/
theorem fieldToken?_nameless {type : List Char} (h : Nameless type) :
    fieldToken? type = some ⟨[], type⟩ := by
  obtain ⟨c, rest, rfl⟩ := List.exists_cons_of_ne_nil h.ne_nil
  have hquote : c ≠ backtick := fun hc => h.unquoted (by rw [hc]; rfl)
  rw [fieldToken?, h.trimmed]
  simp only [if_neg hquote]
  split
  next => rfl
  next hcomposite =>
    have hblanks := h.unsplit.resolve_left hcomposite
    rw [splitFirst_eq_none.mpr hblanks]

/-- A field with or without a name is read back. -/
theorem fieldToken?_fieldText (name : List Char) {type : List Char} (h : Nameless type) :
    fieldToken? (fieldText name type) = some (readField (name, type)) := by
  by_cases hname : name = []
  · subst hname
    exact fieldToken?_nameless h
  · exact fieldToken?_named hname h.toSelfContained

/-- Text without characters that have an escape code is written as it is. -/
theorem escapeWith_eq_self {code : Char → Option Char} {s : List Char}
    (h : ∀ c ∈ s, code c = none) : escapeWith code s = s := by
  induction s with
  | nil => rfl
  | cons c rest ih =>
    obtain ⟨hc, hrest⟩ := List.forall_mem_cons.mp h
    rw [escapeWith, hc, ih hrest]

/-- A name without backticks and backslashes is read as it is. -/
theorem readName_eq_self {name : List Char} (hquote : backtick ∉ name) (hescape : '\\' ∉ name) :
    readName name = name := by
  rw [readName, ← escapeWith_nameCode]
  split
  next => rfl
  next =>
    refine escapeWith_eq_self fun c hc => if_neg ?_
    rintro (rfl | rfl)
    · exact hquote hc
    · exact hescape hc

/-! ## Composites -/

/-- The content of a written array or struct is found between its brackets. -/
theorem content?_append {head inner : List Char} (h : Passes 1 inner) :
    content? head (head ++ inner ++ ['>']) = some inner := by
  rw [content?, List.append_assoc, dropIgnoringCase_append]
  simp only [h.closes, closeBracket?_end]
  simp

/-- A written array is read back as an array of its element type. -/
theorem parse?_arrayOf {element : List Char} (h : SelfContained element) :
    parse? (arrayOf element) = some (.array element) := by
  have hpasses : Passes 1 element := h.passes.mono (Nat.zero_le 1)
  have hstruct : content? structHead (arrayOf element) = none := by
    have hhead : dropIgnoringCase structHead (arrayOf element) = none := rfl
    rw [content?, hhead]
  have harray : content? arrayHead (arrayOf element) = some element := content?_append hpasses
  rw [parse?, (SelfContained.arrayOf hpasses).trimmed, hstruct, harray]
  simp [h.trimmed, h.ne_nil]

/-- An array type is read as a type when no name stands in front of it. -/
theorem Nameless.arrayOf {element : List Char} (h : Passes 1 element) :
    Nameless (arrayOf element) where
  toSelfContained := .arrayOf h
  unquoted := by
    have hhead : (StoreType.arrayOf element).head? = some 'A' := rfl
    rw [hhead]
    decide
  unsplit := Or.inl (by
    have hhead : dropIgnoringCase arrayHead (trimStart (StoreType.arrayOf element)) =
        some (element ++ ['>']) := dropIgnoringCase_append arrayHead _
    simp [isComposite, hhead])

/-- A struct type is read as a type when no name stands in front of it. -/
theorem Nameless.structOf {fields : List (List Char × List Char)}
    (h : ∀ f ∈ fields, Passes 0 f.2) : Nameless (structOf fields) where
  toSelfContained := .structOf fun f hf => (h f hf).fieldText
  unquoted := by
    have hhead : (StoreType.structOf fields).head? = some 'S' := rfl
    rw [hhead]
    decide
  unsplit := Or.inl (by
    have hhead : dropIgnoringCase structHead (trimStart (StoreType.structOf fields)) = some _ :=
      dropIgnoringCase_append structHead _
    simp [isComposite, hhead])

/-- Texts with commas between them are split into these texts, all but the first after a blank. -/
theorem pieces?_commaSeparated {first : List Char} {rest : List (List Char)}
    (h : ∀ t ∈ first :: rest, Passes 0 t) :
    pieces? .plain 0 (commaSeparated (first :: rest)) = some (first :: rest.map (' ' :: ·)) := by
  induction rest generalizing first with
  | nil =>
    have hsplit := (h first (List.mem_cons_self ..)).splits 0 (Nat.le_refl 0) []
    rw [List.append_nil] at hsplit
    simp [commaSeparated, hsplit, pieces?, foldr_prepend]
  | cons second others ih =>
    obtain ⟨hfirst, hrest⟩ := List.forall_mem_cons.mp h
    have hjoin : commaSeparated (first :: second :: others) =
        first ++ ',' :: ' ' :: commaSeparated (second :: others) := by
      simp [commaSeparated, List.intercalate]
    rw [hjoin, hfirst.splits 0 (Nat.le_refl 0), pieces?_separator,
      pieces?_plain (by decide) (by decide), ih hrest]
    simp [foldr_prepend, prepend]

/-- A blank in front of a field is not part of it. -/
theorem fieldToken?_blank (piece : List Char) : fieldToken? (' ' :: piece) = fieldToken? piece := by
  rw [fieldToken?, trim_cons_blank rfl]
  rfl

/-- Written fields are read back in order, when each of them is. -/
theorem fields?_commaSeparated {fields : List (List Char × List Char)}
    {token : List Char × List Char → FieldToken}
    (htexts : ∀ t ∈ fields.map fun f => fieldText f.1 f.2, Passes 0 t)
    (hread : ∀ f ∈ fields, fieldToken? (fieldText f.1 f.2) = some (token f)) :
    fields? (commaSeparated (fields.map fun f => fieldText f.1 f.2)) =
      some (fields.map token) := by
  cases fields with
  | nil => rfl
  | cons first rest =>
    obtain ⟨hfirst, hrest⟩ := List.forall_mem_cons.mp hread
    have hne : trim (commaSeparated ((first :: rest).map fun f => fieldText f.1 f.2)) ≠ [] := by
      intro hnil
      have hblank : trim (fieldText first.1 first.2) = [] := by
        rw [trim_eq_nil_iff] at hnil ⊢
        intro c hc
        refine hnil c ?_
        cases rest <;> simp [commaSeparated, List.intercalate, hc]
      simp [fieldToken?, hblank] at hfirst
    have htokens : (rest.map fun f => ' ' :: fieldText f.1 f.2).mapM fieldToken? =
        some (rest.map token) := by
      clear hne htexts hread
      induction rest with
      | nil => rfl
      | cons second others ih =>
        obtain ⟨hsecond, hothers⟩ := List.forall_mem_cons.mp hrest
        simp [List.mapM_cons, fieldToken?_blank, hsecond, ih hothers]
    rw [fields?, if_neg (by simpa using hne), List.map_cons, pieces?_commaSeparated htexts]
    simp [List.mapM_cons, hfirst, htokens, Function.comp_def]

/-- A written struct is read back as its fields, when each of them is. -/
theorem parse?_structOf {fields : List (List Char × List Char)}
    {token : List Char × List Char → FieldToken} (hpasses : ∀ f ∈ fields, Passes 0 f.2)
    (hread : ∀ f ∈ fields, fieldToken? (fieldText f.1 f.2) = some (token f)) :
    parse? (structOf fields) = some (.struct (fields.map token)) := by
  have htexts : ∀ t ∈ fields.map fun f => fieldText f.1 f.2, Passes 0 t := by
    intro t ht
    obtain ⟨f, hf, rfl⟩ := List.mem_map.mp ht
    exact (hpasses f hf).fieldText
  have hstruct : SelfContained (structOf fields) := .structOf fun f hf => (hpasses f hf).fieldText
  have hcontent : content? structHead (structOf fields) =
      some (commaSeparated (fields.map fun f => fieldText f.1 f.2)) :=
    content?_append (.commaSeparated htexts)
  rw [parse?, hstruct.trimmed, hcontent]
  simp only [fields?_commaSeparated htexts hread, Option.map_some]

/-! ## Types of named fields -/

/-- Texts of types are self-contained. -/
theorem TypeText.selfContained {t : List Char} (h : TypeText t) : SelfContained t := by
  induction h with
  | scalar h => exact h.selfContained
  | array _ ih => exact .arrayOf (ih.passes.mono (Nat.zero_le 1))
  | struct _ _ ih => exact .structOf fun f hf => (ih f hf).passes.fieldText

/-- Arrays of type texts and structs of named type texts are taken apart into what they were
written from. -/
theorem parse?_written :
    (∀ t, TypeText t → parse? (arrayOf t) = some (.array t)) ∧
      ∀ fields, (∀ f ∈ fields, f.1 ≠ [] ∧ TypeText f.2) →
        parse? (structOf fields) = some (.struct (fields.map readField)) := by
  constructor
  · intro t ht
    exact parse?_arrayOf ht.selfContained
  · intro fields h
    refine parse?_structOf (fun f hf => (h f hf).2.selfContained.passes) fun f hf => ?_
    exact fieldToken?_named (h f hf).1 (h f hf).2.selfContained

/-- A reserved name loses its quotes, and a name with a backtick and a backslash keeps its
escapes; neither its comma nor its bracket counts. -/
theorem parse?_written_quotedNames :
    let fields := [("order".toList, "NUMERIC(10, 2)".toList),
      ("a`, \\<b".toList, arrayOf "STRING".toList)]
    TypeText (structOf fields) ∧
      parse? (arrayOf (structOf fields)) = some (.array (structOf fields)) ∧
      parse? (structOf fields) = some (.struct
        [⟨"order".toList, "NUMERIC(10, 2)".toList⟩,
          ⟨"a\\`, \\\\<b".toList, "ARRAY<STRING>".toList⟩]) := by
  intro fields
  have hfields : ∀ f ∈ fields, f.1 ≠ [] ∧ TypeText f.2 := by
    simp only [fields, List.forall_mem_cons]
    exact ⟨⟨by decide, .scalar (by decide)⟩, ⟨by decide, .array (.scalar (by decide))⟩, by simp⟩
  have ht : TypeText (structOf fields) :=
    .struct (fun f hf => (hfields f hf).1) fun f hf => (hfields f hf).2
  exact ⟨ht, parse?_written.1 _ ht, parse?_written.2 fields hfields⟩

end TypedSql.StoreType
