import TypedSql.Catalog.Builtin
import TypedSql.Literal.Basic
import TypedSql.Proofs.Fault
import TypedSql.Proofs.Mapping.Parts

/-!
# Where a literal fails

A value that cannot be written fails at one of its positions: the whole value, an element of an
array or a field of a struct that it reaches, at any depth. The first such position in the order of
writing decides, and its fault comes with the contexts that lead to it, the outermost first.
-/

namespace TypedSql

open Result

namespace Literal

/-! ## Places -/

/-- A part of an array or a struct, seen from there. -/
inductive Place where
  | element (index : Nat)
  | field (name : String)

/-- The context of what fails in a part. -/
@[simp]
def Place.cause : Place → Cause
  | .element index => .renderingElement index
  | .field name => .renderingField name

/-- The fault behind the contexts of places, the outermost first. -/
def behind (path : List Place) (f : Fault) : Fault :=
  path.foldr (fun place inner => inner.inside place.cause) f

/-- Contexts stand in front of the message in their order. -/
theorem message_behind (path : List Place) (f : Fault) : (behind path f).message =
    ": ".intercalate (path.map (fun place => place.cause.message) ++ [f.message]) := by
  induction path with
  | nil => exact String.intercalate_singleton.symm
  | cons place rest ih =>
    have hne : rest.map (fun place => place.cause.message) ++ [f.message] ≠ [] := by simp
    rw [List.map_cons, List.cons_append, String.intercalate_cons_of_ne_nil hne, ← ih]
    exact Fault.message_inside ..

/-! ## Positions -/

/-- A value reached inside another one, and the mapping by which it is written. -/
structure Position where
  /-- The places that lead to it, the outermost first. -/
  path : List Place
  mapping : Mapping
  value : Value

namespace Position

/-- The same position seen from one more place outside. -/
def within (place : Place) (p : Position) : Position := { p with path := place :: p.path }

/-- What fails at a position itself, its parts left aside: a value that cannot be stored, a scalar
that cannot be written, or a value that is not what an array or a struct is made of. -/
def ownFault? (p : Position) : Option Fault :=
  match p.mapping.prepare p.value with
  | .error fault => some fault
  | .ok none => none
  | .ok (some v) =>
    match p.mapping.kind, v with
    | .scalar kind, v => Result.fault? (scalarLiteral p.mapping kind v)
    | .array .., .list _ => none
    | .struct _, .record _ => none
    | _, v => some (p.mapping.mismatch v)

/-- The fault of a position behind the contexts that lead to it. -/
def fault? (p : Position) : Option Fault := p.ownFault?.map (behind p.path)

end Position

mutual

/-- The positions of a value in the order of writing, each before those inside it. -/
def positions : Mapping → Value → List Position
  | ⟨storeType, type, .scalar kind, facets, converter, comparer⟩, v =>
    [⟨[], ⟨storeType, type, .scalar kind, facets, converter, comparer⟩, v⟩]
  | ⟨storeType, type, .array element shape materialized, facets, converter, comparer⟩, v =>
    let m : Mapping :=
      ⟨storeType, type, .array element shape materialized, facets, converter, comparer⟩
    ⟨[], m, v⟩ ::
      match m.prepare v with
      | .ok (some (.list items)) => items.zipIdx.flatMap fun (item, index) =>
          (positions element item).map (.within (.element index))
      | _ => []
  | ⟨storeType, type, .struct fields, facets, converter, comparer⟩, v =>
    let m : Mapping := ⟨storeType, type, .struct fields, facets, converter, comparer⟩
    ⟨[], m, v⟩ ::
      match m.prepare v with
      | .ok (some (.record r)) => positionsOfFields fields r
      | _ => []

/-- The positions of a record's members in the order of the fields; a missing member has none. -/
def positionsOfFields : List Field → Record → List Position
  | [], _ => []
  | ⟨name, mapping, type, member⟩ :: rest, r =>
    (match Field.extract ⟨name, mapping, type, member⟩ r with
      | none => []
      | some v => (positions mapping v).map (.within (.field name))) ++
    positionsOfFields rest r

end

/-! ## The first position that fails -/

/-- The first find among lists in a row is the first find of the first list that has one. -/
theorem findSome?_flatMap {α β γ : Type} (l : List α) (f : α → List β) (g : β → Option γ) :
    (l.flatMap f).findSome? g = l.findSome? fun a => (f a).findSome? g := by
  simp only [← List.head?_filterMap, List.filterMap_flatMap, List.head?_flatMap]

/-- Seen from one more place outside positions fail as before, behind its context. -/
theorem findSome?_within (place : Place) (ps : List Position) :
    (ps.map (.within place)).findSome? Position.fault? =
      (ps.findSome? Position.fault?).map (·.inside place.cause) := by
  rw [List.findSome?_map, List.map_findSome?]
  congr 1
  funext p
  exact (Option.map_map (·.inside place.cause) (behind p.path) p.ownFault?).symm

/-- Items fail with the first of them that does, behind its place. -/
theorem fault?_eachAt {α β : Type} (f : α → Result β) (index : Nat) (items : List α) :
    fault? (eachAt f index items) = (items.zipIdx index).findSome? fun item =>
      (fault? (f item.1)).map (·.inside (.renderingElement item.2)) := by
  induction items generalizing index with
  | nil => rfl
  | cons first rest ih =>
    rw [eachAt, List.zipIdx_cons, List.findSome?_cons, ← ih]
    cases f first with
    | error fault => rfl
    | ok b => cases eachAt f (index + 1) rest <;> rfl

/-- The fields of a record fail with the first position that does, when each of them does. -/
theorem fault?_fieldLiterals {fields : List Field}
    (h : ∀ f ∈ fields, ∀ v, fault? (literal f.mapping v) =
      (positions f.mapping v).findSome? Position.fault?) (r : Record) :
    fault? (fieldLiterals fields r) = (positionsOfFields fields r).findSome? Position.fault? := by
  induction fields with
  | nil => rfl
  | cons first rest ih =>
    obtain ⟨name, mapping, type, member⟩ := first
    rw [List.forall_mem_cons] at h
    obtain ⟨hfirst, hrest⟩ := h
    rw [fieldLiterals, positionsOfFields, List.findSome?_append, ← ih hrest]
    cases Field.extract ⟨name, mapping, type, member⟩ r with
    | none => cases fieldLiterals rest r <;> rfl
    | some v =>
      rw [findSome?_within, ← hfirst v]
      cases hl : literal mapping v with
      | error fault => simp [hl]
      | ok text => cases fieldLiterals rest r <;> simp [hl]

/-- Nothing leads to the whole value. -/
theorem fault?_whole (m : Mapping) (v : Value) :
    Position.fault? ⟨[], m, v⟩ = Position.ownFault? ⟨[], m, v⟩ :=
  congrFun Option.map_id _

/-- A value fails with the first of its positions that does. -/
theorem fault?_literal (m : Mapping) (v : Value) :
    fault? (literal m v) = (positions m v).findSome? Position.fault? := by
  induction m generalizing v with
  | scalar m kind hkind =>
    obtain ⟨storeType, type, _, facets, converter, comparer⟩ := m
    cases hkind
    rw [literal, positions, List.findSome?_singleton, fault?_whole, Position.ownFault?]
    rcases Mapping.prepare _ v with fault | _ | w <;> rfl
  | array m element shape materialized hkind ih =>
    obtain ⟨storeType, type, _, facets, converter, comparer⟩ := m
    cases hkind
    have hitems (items : List Value) : fault? (eachAt (literal element) 0 items) =
        (items.zipIdx.flatMap fun (item, index) =>
          (positions element item).map (.within (.element index))).findSome?
            Position.fault? := by
      simp only [fault?_eachAt, findSome?_flatMap, findSome?_within, ih, Place.cause]
    rw [literal, positions, List.findSome?_cons, fault?_whole, Position.ownFault?]
    rcases Mapping.prepare _ v with fault | _ | w
    · rfl
    · rfl
    · cases w <;> simp [hitems]
  | struct m fields hkind ih =>
    obtain ⟨storeType, type, _, facets, converter, comparer⟩ := m
    cases hkind
    have hfields := fault?_fieldLiterals ih
    rw [literal, positions, List.findSome?_cons, fault?_whole, Position.ownFault?]
    rcases Mapping.prepare _ v with fault | _ | w
    · rfl
    · rfl
    · cases w <;> simp [hfields]

/-- The first position is that of the whole value. -/
theorem exists_positions_eq (m : Mapping) (v : Value) :
    ∃ rest, positions m v = ⟨[], m, v⟩ :: rest := by
  obtain ⟨_, _, kind, _, _, _⟩ := m
  cases kind <;> exact ⟨_, rfl⟩

/-- What stands at a position that fails itself fails alone, with the same fault. -/
theorem render_of_ownFault? {p : Position} {fault : Fault} (h : p.ownFault? = some fault) :
    render p.mapping p.value = .error fault := by
  obtain ⟨rest, hrest⟩ := exists_positions_eq p.mapping p.value
  have hwhole : Position.fault? ⟨[], p.mapping, p.value⟩ = some fault := (fault?_whole ..).trans h
  rw [← fault?_eq_some, render, fault?_map, fault?_literal, hrest, List.findSome?_cons, hwhole]

/-- A value is written when none of its positions fails, and else it fails with the first of them
that does: the message names the way to this position from the outside in, and ends in the message
with which what stands there fails alone. -/
theorem render_fails_first (m : Mapping) (v : Value) :
    (Succeeds (render m v) ↔ ∀ p ∈ positions m v, p.ownFault? = none) ∧
    ∀ fault, render m v = .error fault → ∃ before p after own,
      positions m v = before ++ p :: after ∧ (∀ q ∈ before, q.ownFault? = none) ∧
      p.ownFault? = some own ∧ render p.mapping p.value = .error own ∧
      fault.message =
        ": ".intercalate (p.path.map (fun place => place.cause.message) ++ [own.message]) := by
  have hfails : fault? (render m v) = (positions m v).findSome? Position.fault? := by
    rw [render, fault?_map, fault?_literal]
  have hnone (p : Position) : p.fault? = none ↔ p.ownFault? = none := Option.map_eq_none_iff
  constructor
  · rw [← fault?_eq_none, hfails, List.findSome?_eq_none_iff]
    exact forall₂_congr fun p _ => hnone p
  · intro fault hfault
    rw [← fault?_eq_some, hfails, List.findSome?_eq_some_iff] at hfault
    obtain ⟨before, p, after, hpositions, hp, hbefore⟩ := hfault
    obtain ⟨own, hown, rfl⟩ := Option.map_eq_some_iff.mp hp
    exact ⟨before, p, after, own, hpositions, fun q hq => (hnone q).mp (hbefore q hq), hown,
      render_of_ownFault? hown, message_behind ..⟩

/-- The message names the second of the days, which is the first that is no date. -/
example :
    let days : Field := ⟨"days", .array Builtin.date.mapping ⟨.scalar .date, .list⟩ .list,
      .listOf (.scalar .date), none⟩
    let v : Value := .record (.ofList [("days", .list [.null, .i32 1, .bool true])])
    (fault? (render (.struct [days] none .unknown) v)).map Fault.message =
      some "rendering field \x60days\x60: rendering element 1: cannot convert I32 to DATE" := rfl

end Literal

end TypedSql
