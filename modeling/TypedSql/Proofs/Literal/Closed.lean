import TypedSql.Proofs.Catalog.Synthesis
import TypedSql.Proofs.Literal.Scalars

/-!
# Literals are closed

A literal is one closed piece of SQL whatever the value contains. Around the parts of arrays and
structs stand matching brackets behind a store type without facets, in which the names of members
are quoted where they have to be; the parts are neutral to a lexer by induction over the mapping.
-/

namespace TypedSql

open Result Sql Sql.Lexer StoreType

namespace Literal

/-! ## Parts -/

/-- What is written for items is written for one of them each. -/
theorem exists_of_mem_eachAt {α β : Type} {f : α → Result β} {index : Nat} {items : List α}
    {parts : List β} (h : eachAt f index items = .ok parts) {part : β} (hpart : part ∈ parts) :
    ∃ item ∈ items, f item = .ok part := by
  induction items generalizing index parts with
  | nil =>
    cases h
    exact absurd hpart List.not_mem_nil
  | cons first rest ih =>
    rw [eachAt] at h
    cases hfirst : f first with
    | error fault => simp [hfirst] at h
    | ok b =>
      cases hrest : eachAt f (index + 1) rest with
      | error fault => simp [hfirst, hrest] at h
      | ok others =>
        obtain rfl : b :: others = parts := by simpa [hfirst, hrest] using h
        rcases List.mem_cons.mp hpart with rfl | hpart
        · exact ⟨first, List.mem_cons_self .., hfirst⟩
        · obtain ⟨item, hitem, hf⟩ := ih hrest hpart
          exact ⟨item, List.mem_cons_of_mem _ hitem, hf⟩

/-- The first field of a record is written as null or as its value, the others behind it. -/
theorem fieldLiterals_cons {f : Field} {rest : List Field} {r : Record} {parts : List (List Char)}
    (h : fieldLiterals (f :: rest) r = .ok parts) :
    ∃ text others, parts = text :: others ∧ fieldLiterals rest r = .ok others ∧
      (text = "NULL".toList ∨ ∃ v, literal f.mapping v = .ok text) := by
  obtain ⟨name, mapping, type, member⟩ := f
  rw [fieldLiterals] at h
  cases hrest : fieldLiterals rest r with
  | error fault =>
    exfalso
    cases hv : Field.extract ⟨name, mapping, type, member⟩ r with
    | none => simp [hv, hrest] at h
    | some v => cases hl : literal mapping v <;> simp [hv, hl, hrest] at h
  | ok others =>
    cases hv : Field.extract ⟨name, mapping, type, member⟩ r with
    | none => exact ⟨_, others, by simpa [hv, hrest] using h.symm, rfl, .inl rfl⟩
    | some v =>
      cases hl : literal mapping v with
      | error fault => simp [hv, hl] at h
      | ok text => exact ⟨text, others, by simpa [hv, hl, hrest] using h.symm, rfl, .inr ⟨v, hl⟩⟩

/-- What is written for the fields of a record is null or written for one of their values each. -/
theorem exists_of_mem_fieldLiterals {fields : List Field} {r : Record} {parts : List (List Char)}
    (h : fieldLiterals fields r = .ok parts) {part : List Char} (hpart : part ∈ parts) :
    part = "NULL".toList ∨ ∃ f ∈ fields, ∃ v, literal f.mapping v = .ok part := by
  induction fields generalizing parts with
  | nil =>
    cases h
    exact absurd hpart List.not_mem_nil
  | cons first rest ih =>
    obtain ⟨text, others, rfl, hothers, hfirst⟩ := fieldLiterals_cons h
    rcases List.mem_cons.mp hpart with rfl | hpart
    · exact hfirst.imp_right fun hv => ⟨first, List.mem_cons_self .., hv⟩
    · exact (ih hothers hpart).imp_right fun ⟨f, hf, hv⟩ => ⟨f, List.mem_cons_of_mem _ hf, hv⟩

end Literal

/-! ## Mappings -/

/-- A mapping whose store type shows no facets, and so the mappings of its parts. -/
inductive Mapping.Unfaceted : Mapping → Prop
  | scalar {m : Mapping} {kind : ScalarKind} (hkind : m.kind = .scalar kind)
      (htype : StoreType.Unfaceted m.storeType.toList) : Unfaceted m
  | array {m element : Mapping} {shape materialized : Shape}
      (hkind : m.kind = .array element shape materialized)
      (htype : StoreType.Unfaceted m.storeType.toList) (helement : Unfaceted element) :
      Unfaceted m
  | struct {m : Mapping} {fields : List Field} (hkind : m.kind = .struct fields)
      (htype : StoreType.Unfaceted m.storeType.toList)
      (hfields : ∀ f ∈ fields, Unfaceted f.mapping) : Unfaceted m

namespace Mapping.Unfaceted

variable {m m' : Mapping}

/-- The store type of the mapping itself shows no facets. -/
theorem storeType (h : Unfaceted m) : StoreType.Unfaceted m.storeType.toList := by
  cases h with
  | scalar _ htype => exact htype
  | array _ htype => exact htype
  | struct _ htype => exact htype

/-- A mapping of the same kind and store type shows no facets either. -/
theorem of_eq (h : Unfaceted m) (hkind : m'.kind = m.kind) (hstore : m'.storeType = m.storeType) :
    Unfaceted m' := by
  have htype : StoreType.Unfaceted m'.storeType.toList := hstore ▸ h.storeType
  cases h with
  | scalar hscalar => exact .scalar (hkind.trans hscalar) htype
  | array harray _ helement => exact .array (hkind.trans harray) htype helement
  | struct hstruct _ hfields => exact .struct (hkind.trans hstruct) htype hfields

/-- In front of brackets stands the store type as it is. -/
theorem literalStoreType (h : Unfaceted m) : m.literalStoreType.toList = m.storeType.toList := by
  rw [Mapping.literalStoreType, String.toList_ofList, h.storeType.kept.stripFacets]

end Mapping.Unfaceted

namespace Literal

/-- Null is neutral. -/
theorem neutral_null : Neutral "NULL".toList := .of_markless (by decide)

/-- Neutral texts are neutral with commas between them, in brackets behind a store type. -/
theorem neutral_composite {m : Mapping} (hm : m.Unfaceted) {opening close : Char}
    (hclosing : closing? opening = some close) {parts : List (List Char)}
    (h : ∀ part ∈ parts, Neutral part) :
    Neutral (m.literalStoreType.toList ++ opening :: (commaSeparated parts ++ [close])) := by
  have hparts : Neutral (commaSeparated parts) :=
    commaSeparated_induction (.of_markless (by decide)) (.of_markless (by decide))
      .append h
  rw [hm.literalStoreType]
  exact hm.storeType.neutral.append (hparts.brackets hclosing)

/-- A mapping without facets writes neutral texts only. -/
theorem neutral_literal {m : Mapping} (hm : m.Unfaceted) {v : Value} {text : List Char}
    (h : literal m v = .ok text) : Neutral text := by
  induction hm generalizing v text with
  | @scalar m kind hkind htype =>
    obtain ⟨storeType, type, _, facets, converter, comparer⟩ := m
    cases hkind
    rw [literal] at h
    split at h
    · cases h
    · exact Except.ok.inj h ▸ neutral_null
    · exact neutral_scalarLiteral h
  | @array m element shape materialized hkind htype helement ih =>
    have hm : m.Unfaceted := .array hkind htype helement
    obtain ⟨storeType, type, _, facets, converter, comparer⟩ := m
    cases hkind
    rw [literal] at h
    split at h
    · cases h
    · exact Except.ok.inj h ▸ neutral_null
    · obtain ⟨parts, hparts, rfl⟩ := map_eq_ok.mp h
      refine neutral_composite hm rfl fun part hpart => ?_
      obtain ⟨item, -, hitem⟩ := exists_of_mem_eachAt hparts hpart
      exact ih hitem
    · cases h
  | @struct m fields hkind htype hfields ih =>
    have hm : m.Unfaceted := .struct hkind htype hfields
    obtain ⟨storeType, type, _, facets, converter, comparer⟩ := m
    cases hkind
    rw [literal] at h
    split at h
    · cases h
    · exact Except.ok.inj h ▸ neutral_null
    · obtain ⟨parts, hparts, rfl⟩ := map_eq_ok.mp h
      refine neutral_composite hm rfl fun part hpart => ?_
      rcases exists_of_mem_fieldLiterals hparts hpart with rfl | ⟨f, hf, w, hw⟩
      · exact neutral_null
      · exact ih f hf hw
    · cases h

end Literal

/-! ## Default mappings -/

namespace Catalog

variable {c : Catalog} {t : HostType} {m : Mapping}

/-- The mapping of a built-in store type shows no facets. -/
theorem unfaceted_builtin (b : Builtin) : b.mapping.Unfaceted := by
  have htype : StoreType.Unfaceted b.mapping.storeType.toList :=
    .of_markless (by cases b <;> decide)
  cases b <;> exact .scalar rfl htype

/-- An array mapping shows no facets when the mapping of its elements shows none. -/
theorem unfaceted_array (hm : m.Unfaceted) (l : ListType) (convention : Shape) :
    (Mapping.array m l convention).Unfaceted := by
  refine .array rfl ?_ hm
  rw [Mapping.array, String.toList_ofList]
  exact hm.storeType.arrayOf

/-- A struct mapping shows no facets when the mappings of its fields show none. -/
theorem unfaceted_struct {fields : List Field} (hfields : ∀ f ∈ fields, f.mapping.Unfaceted)
    (type : HostType) : (Mapping.struct fields none type).Unfaceted := by
  refine .struct rfl ?_ hfields
  rw [Mapping.struct, Option.getD_none, Mapping.structStoreType, String.toList_ofList]
  refine .structOf fun w hw => ?_
  obtain ⟨f, hf, rfl⟩ := List.mem_map.mp hw
  exact (hfields f hf).storeType

/-- A default mapping shows no facets. -/
theorem unfaceted_of_resolveKey (h : c.resolveKey ⟨some t, none⟩ = some m) : m.Unfaceted := by
  refine resolveKey_induction (motive := fun _ m => m.Unfaceted) ?_ ?_ ?_ ?_ ?_ ?_ h
  · intro s
    have hbare := bare_ofScalar s
    exact (unfaceted_builtin (builtinOf s)).of_eq hbare.kind hbare.storeType
  · intro inner found hfound hm
    exact hm.of_eq rfl (nullable_storeType (readsBack_of_resolveKey hfound).bare)
  · intro e u m _ hu hm
    obtain ⟨-, rfl⟩ := enumMapping?_some hm
    exact hu.of_eq rfl rfl
  · exact (unfaceted_builtin .bytes).of_eq rfl rfl
  · intro l em m hem hm
    obtain rfl := arrayMapping?_some hm
    exact unfaceted_array hem l _
  · intro r hfields
    exact unfaceted_struct hfields _

/-- A literal of a default mapping is one closed piece of SQL, whatever the value contains. -/
theorem isClosed_render (h : c.resolveType t = some m) {v : Value} {text : String}
    (hv : Literal.render m v = .ok text) : isClosed text.toList = true := by
  obtain ⟨s, hs, rfl⟩ := map_eq_ok.mp hv
  rw [String.toList_ofList]
  exact (Literal.neutral_literal (unfaceted_of_resolveKey h) hs).isClosed

section Examples

/-- A composite record whose member has a name with quotes, a bracket and a comment. -/
def unruly : RecordType :=
  ⟨"Unruly", true, [⟨"a`b(--'", .listOf (.scalar .string), true, true⟩]⟩

/-- The field of the record's mapping. -/
def unrulyField : Field :=
  ⟨"a`b(--'", .array Builtin.string.mapping ⟨.scalar .string, .list⟩ .list,
    .listOf (.scalar .string), none⟩

/-- A value of the record with a string that would end its quotes, a bracket and the line. -/
def unrulyValue : Value := .record (.ofList [("a`b(--'", .list [.string "')] -- \\", .null])])

/-- The literal of the value. -/
def unrulyText : String :=
  "STRUCT<`a\\`b(--'` ARRAY<STRING>>(ARRAY<STRING>['\\')] -- \\\\', NULL])"

/-- Quotes, brackets and comments in names and strings do not count. -/
theorem isClosed_render_unruly : ∃ m, (default : Catalog).resolveType (.record unruly) = some m ∧
    Literal.render m unrulyValue = .ok unrulyText ∧ isClosed unrulyText.toList = true := by
  have hlist : (default : Catalog).resolveKey ⟨some (.listOf (.scalar .string)), none⟩ =
      some unrulyField.mapping := by
    rw [HostType.listOf, resolveKey_listType (by decide), resolveKey_scalarType]
    rfl
  have hfields : defaultFields default unruly = [unrulyField] := by
    simp only [defaultFields, memberFields, unruly, RecordOf.mappedMembers, List.filter,
      Bool.and_self, List.filterMap_cons, List.filterMap_nil, hlist, Option.map_some]
    rfl
  have hm : (default : Catalog).resolveType (.record unruly) =
      some (.struct [unrulyField] none (.record unruly)) := by
    rw [← hfields]
    exact (resolveKey_recordType unruly).trans (if_pos ⟨rfl, by simp [hfields]⟩)
  have hv : Literal.render (.struct [unrulyField] none (.record unruly)) unrulyValue =
      .ok unrulyText := rfl
  exact ⟨_, hm, hv, isClosed_render hm hv⟩

end Examples

end Catalog

end TypedSql
