/-!
# Host types

The types of the values that a program hands over: scalars, optional values, enumerations,
sequences and records. Records are described member by member, so nothing about a type has to be
discovered from its values.
-/

namespace TypedSql

/-- The declared shape of a sequence. -/
inductive Shape where
  /-- Fixed length. -/
  | array
  /-- Growable and ordered. -/
  | list
  /-- Abstract and read-only. -/
  | sequence
  /-- Rectangular, with a number of dimensions. -/
  | multi (rank : Nat)
deriving DecidableEq, Repr, Inhabited

namespace Shape

/-- Shapes whose values can be constructed directly. -/
def isConcrete : Shape → Bool
  | .array | .list => true
  | _ => false

/-- More than one dimension. -/
def isMultiDimensional : Shape → Bool
  | .multi rank => decide (1 < rank)
  | _ => false

/-- The concrete shape used for values of this shape. -/
def materialize (shape convention : Shape) : Shape := if shape.isConcrete then shape else convention

end Shape

/-- The scalar host types. -/
inductive ScalarType where
  | bool
  | i8 | i16 | i32 | i64
  | u8 | u16 | u32 | u64
  | f32 | f64
  | decimal | bigDecimal
  | string | char | bytes | uuid
  | date | time | dateTime | timestamp | zoned
  | json | geography
deriving DecidableEq, Repr, Inhabited

/-- A named value of an enumeration. -/
structure EnumVariant where
  name : String
  discriminant : Int64
deriving DecidableEq, Repr

/-- An enumeration stored through its underlying type. -/
structure EnumOf (τ : Type) where
  name : String
  underlying : τ
  variants : List EnumVariant

/-- A sequence of elements in a declared shape. -/
structure ListOf (τ : Type) where
  element : τ
  shape : Shape

/-- A member of a record. -/
structure MemberOf (τ : Type) where
  name : String
  type : τ
  readable : Bool
  writable : Bool

/-- A record; a composite one is stored as a struct even without a store type. -/
structure RecordOf (τ : Type) where
  name : String
  composite : Bool
  members : List (MemberOf τ)

/-- A host type. -/
inductive HostType where
  | scalar (type : ScalarType)
  | option (inner : HostType)
  | enum (type : EnumOf HostType)
  | list (type : ListOf HostType)
  | record (type : RecordOf HostType)
  /-- The type of a value that shows none, such as an empty list. -/
  | unknown

/-- An enumeration type. -/
abbrev EnumType := EnumOf HostType

/-- A sequence type. -/
abbrev ListType := ListOf HostType

/-- A member of a record type. -/
abbrev Member := MemberOf HostType

/-- A record type. -/
abbrev RecordType := RecordOf HostType

instance : Inhabited HostType := ⟨.unknown⟩

namespace HostType

mutual

/-- The number of types that make up a type. -/
def size : HostType → Nat
  | .scalar _ => 1
  | .option inner => inner.size + 1
  | .enum ⟨_, underlying, _⟩ => underlying.size + 1
  | .list ⟨element, _⟩ => element.size + 1
  | .record ⟨_, _, members⟩ => sizeMembers members + 1
  | .unknown => 1

/-- The number of types in a list of members. -/
def sizeMembers : List Member → Nat
  | [] => 0
  | ⟨_, type, _, _⟩ :: rest => type.size + sizeMembers rest

end

/-- The type of a member is no larger than all members together. -/
theorem size_le_sizeMembers {m : Member} {members : List Member} (h : m ∈ members) :
    m.type.size ≤ sizeMembers members := by
  induction members with
  | nil => simp at h
  | cons first rest ih =>
    obtain ⟨_, type, _, _⟩ := first
    rw [sizeMembers]
    rcases List.mem_cons.1 h with rfl | h
    · exact Nat.le_add_right _ _
    · exact Nat.le_trans (ih h) (Nat.le_add_left _ _)

/-! ## Equality -/

mutual

/-- Equality of host types is decided part by part. -/
def decEq : (a b : HostType) → Decidable (a = b)
  | .scalar a, .scalar b =>
    if h : a = b then isTrue (h ▸ rfl) else isFalse (by simpa using h)
  | .option a, .option b =>
    match a.decEq b with
    | isTrue h => isTrue (h ▸ rfl)
    | isFalse h => isFalse (by simpa using h)
  | .enum ⟨n, a, vs⟩, .enum ⟨m, b, ws⟩ =>
    match a.decEq b with
    | isTrue h =>
      if h' : n = m ∧ vs = ws then isTrue (by simp [h, h'])
      else isFalse (by
        intro e
        simp only [enum.injEq, EnumOf.mk.injEq] at e
        exact h' ⟨e.1, e.2.2⟩)
    | isFalse h => isFalse (by simp [h])
  | .list ⟨a, s⟩, .list ⟨b, t⟩ =>
    match a.decEq b with
    | isTrue h => if h' : s = t then isTrue (by simp [h, h']) else isFalse (by simp [h'])
    | isFalse h => isFalse (by simp [h])
  | .record ⟨n, c, ms⟩, .record ⟨n', c', ms'⟩ =>
    match decEqMembers ms ms' with
    | isTrue h =>
      if h' : n = n' ∧ c = c' then isTrue (by simp [h, h'])
      else isFalse (by
        intro e
        simp only [record.injEq, RecordOf.mk.injEq] at e
        exact h' ⟨e.1, e.2.1⟩)
    | isFalse h => isFalse (by simp [h])
  | .unknown, .unknown => isTrue rfl
  | .scalar _, .option _ | .scalar _, .enum _ | .scalar _, .list _ | .scalar _, .record _
  | .scalar _, .unknown => isFalse (by simp)
  | .option _, .scalar _ | .option _, .enum _ | .option _, .list _ | .option _, .record _
  | .option _, .unknown => isFalse (by simp)
  | .enum _, .scalar _ | .enum _, .option _ | .enum _, .list _ | .enum _, .record _
  | .enum _, .unknown => isFalse (by simp)
  | .list _, .scalar _ | .list _, .option _ | .list _, .enum _ | .list _, .record _
  | .list _, .unknown => isFalse (by simp)
  | .record _, .scalar _ | .record _, .option _ | .record _, .enum _ | .record _, .list _
  | .record _, .unknown => isFalse (by simp)
  | .unknown, .scalar _ | .unknown, .option _ | .unknown, .enum _ | .unknown, .list _
  | .unknown, .record _ => isFalse (by simp)

/-- Equality of member lists. -/
def decEqMembers : (a b : List Member) → Decidable (a = b)
  | [], [] => isTrue rfl
  | [], _ :: _ | _ :: _, [] => isFalse (by simp)
  | ⟨n, t, r, w⟩ :: ms, ⟨n', t', r', w'⟩ :: ms' =>
    match t.decEq t', decEqMembers ms ms' with
    | isTrue h, isTrue h' =>
      if h'' : n = n' ∧ r = r' ∧ w = w' then isTrue (by simp [h, h', h''])
      else isFalse (by
        intro e
        simp only [List.cons.injEq, MemberOf.mk.injEq] at e
        exact h'' ⟨e.1.1, e.1.2.2⟩)
    | isFalse h, _ => isFalse (by simp [h])
    | _, isFalse h => isFalse (by simp [h])

end

instance : DecidableEq HostType := decEq

/-! ## Families of types -/

/-- A growable list of elements. -/
def listOf (element : HostType) : HostType := .list ⟨element, .list⟩

/-- A fixed-length array of elements. -/
def arrayOf (element : HostType) : HostType := .list ⟨element, .array⟩

/-- The truth values. -/
def isBool (t : HostType) : Bool := t == .scalar .bool

/-- Strings, characters not among them. -/
def isString (t : HostType) : Bool := t == .scalar .string

/-- Sequences of any shape. -/
def isList : HostType → Bool
  | .list _ => true
  | _ => false

/-- Records. -/
def isRecord : HostType → Bool
  | .record _ => true
  | _ => false

/-- Enumerations. -/
def isEnum : HostType → Bool
  | .enum _ => true
  | _ => false

/-- Integers of fewer than 64 bits. -/
def isNarrowInteger : HostType → Bool
  | .scalar .i8 | .scalar .i16 | .scalar .i32 | .scalar .u8 | .scalar .u16 | .scalar .u32 => true
  | _ => false

/-- Integers of any width. -/
def isInteger (t : HostType) : Bool :=
  t.isNarrowInteger || t == .scalar .i64 || t == .scalar .u64

/-- Binary floats. -/
def isFloat (t : HostType) : Bool := t == .scalar .f32 || t == .scalar .f64

/-- Decimals. -/
def isDecimal (t : HostType) : Bool := t == .scalar .decimal || t == .scalar .bigDecimal

/-- Numbers of any kind. -/
def isNumeric (t : HostType) : Bool := t.isInteger || t.isFloat || t.isDecimal

/-- Dates, times and instants. -/
def isTemporal : HostType → Bool
  | .scalar .date | .scalar .time | .scalar .dateTime | .scalar .timestamp | .scalar .zoned => true
  | _ => false

/-- Bytes, or a fixed-length array of 8-bit unsigned integers. -/
def isByteSequence (t : HostType) : Bool := t == .scalar .bytes || t == arrayOf (.scalar .u8)

/-- The type without its option wrappers. -/
def unwrapOption : HostType → HostType
  | .option inner => inner.unwrapOption
  | t => t

end HostType

/-- The first variant with a discriminant. -/
def EnumOf.variant? {τ : Type} (e : EnumOf τ) (discriminant : Int64) : Option EnumVariant :=
  e.variants.find? (·.discriminant == discriminant)

/-- The same elements in another shape. -/
def ListOf.withShape {τ : Type} (l : ListOf τ) (shape : Shape) : ListOf τ := ⟨l.element, shape⟩

end TypedSql
