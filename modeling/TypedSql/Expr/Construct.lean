import TypedSql.Expr.Typing

/-!
# Building typed expressions

Constructors that give every node its mapping and type the operands on the way.
-/

namespace TypedSql.Expr

/-- Typing under a catalog, for operands of any size. -/
def unbounded (c : Catalog) (n : Nat) : Annotator n := fun e _ wanted => annotated c e wanted

/-- A constant typed by its value; null, records and empty lists stay untyped. -/
def ofValue (c : Catalog) (v : Value) : Expr := .constant v (c.resolveValue v)

/-- A constant with a mapping. -/
def typedConstant (v : Value) (m : Mapping) : Expr := .constant v (some m)

/-- A parameter of a host type. -/
def parameterOf (c : Catalog) (name : String) (type : HostType) (v : Value) : Result Expr :=
  match c.resolveType type with
  | some m => .ok (.parameter name v m)
  | none => .error (.of (.feature (.parameterType type)))

/-- A function call. -/
def function (c : Catalog) (name : String) (args : List Expr) (m : Mapping) : Expr :=
  .call name (args.map (applyDefault c)) m

/-- A binary operation. -/
def operation (c : Catalog) (l : Expr) (op : BinaryOp) (r : Expr) : Expr :=
  binaryBy (unbounded c (l.size + r.size + 1)) l op r
    (Nat.lt_succ_of_le (Nat.le_add_right ..)) (Nat.lt_succ_of_le (Nat.le_add_left ..))

/-- The conjunction. -/
def conjunction (c : Catalog) (l r : Expr) : Expr := operation c l .and r

/-- The disjunction. -/
def disjunction (c : Catalog) (l r : Expr) : Expr := operation c l .or r

/-- The negation of a truth value. -/
def negation (c : Catalog) (x : Expr) : Expr :=
  notBy (unbounded c (x.size + 1)) x (Nat.lt_succ_self _)

/-- The negative of a number. -/
def negative (c : Catalog) (x : Expr) : Expr :=
  negateBy (unbounded c (x.size + 1)) x (Nat.lt_succ_self _)

/-- An element of an array. -/
def elementAt (c : Catalog) (array index : Expr) (mode : IndexMode) : Expr :=
  indexBy (unbounded c (array.size + index.size + 1)) array index mode none
    (Nat.lt_succ_of_le (Nat.le_add_right ..)) (Nat.lt_succ_of_le (Nat.le_add_left ..))

/-- A field of an expression that is a struct. -/
def field (x : Expr) (name : String) : Result Expr :=
  match x.mapping?.bind Mapping.fields? with
  | none => .error (.of (.feature (.memberAccess name)))
  | some fields =>
    match Field.find? fields name with
    | none => .error (.of (.missingField name))
    | some f => .ok (.member x f.name f.mapping)

/-- Membership of an item in an array. -/
def membership (c : Catalog) (item array : Expr) : Expr :=
  inUnnestBy (unbounded c (item.size + array.size + 1)) item array
    (Nat.lt_succ_of_le (Nat.le_add_right ..)) (Nat.lt_succ_of_le (Nat.le_add_left ..))

/-- An array of elements of a host type. -/
def arrayLiteral (c : Catalog) (elements : List Expr) (elementType : HostType) : Result Expr :=
  match c.resolveType (.listOf elementType) with
  | none => .error (.of (.feature (.elementType elementType)))
  | some m => .ok (.array (elements.map (annotate c m.element?)) elementType m.element? (some m))

/-- A cast to the store type of a mapping. -/
def castTo (c : Catalog) (x : Expr) (m : Mapping) : Expr := .cast (applyDefault c x) m

/-- The function that converts an instant to a date or time, where there is one. -/
def conversionFunction? (source target : Mapping) : Option String :=
  if source.hasKind .timestamp || source.hasKind .dateTime then
    if target.hasKind .dateTime then some "DATETIME"
    else if target.hasKind .date then some "DATE"
    else if target.hasKind .time then some "TIME"
    else none
  else none

/-- An expression converted to the store type of a mapping: untyped ones are typed by it, those of
the same store type are kept, and others are converted by a function or a cast. -/
def convert (c : Catalog) (x : Expr) (target : Mapping) : Expr :=
  match x.mapping? with
  | none => applyMapping c x target
  | some source =>
    if Text.sameName source.storeType target.storeType then x
    else
      match conversionFunction? source target with
      | some name => function c name [x] target
      | none => castTo c x target

end TypedSql.Expr
