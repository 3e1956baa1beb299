import TypedSql.Expr.Construct
import TypedSql.Numeral.Shortest
import TypedSql.Operation.Basic

/-!
# Geographies

Geographies are held in well-known text. Members and methods of an expression that is a geography
are functions, most of them applied to the receiver and the arguments.
-/

namespace TypedSql

/-- The well-known text of a point. -/
def Geography.point (x y : Numeral.Binary64) : String :=
  "POINT(" ++ String.ofList x.text ++ " " ++ String.ofList y.text ++ ")"

namespace GeographyOp

/-- The function for an operation, the number of its arguments after the receiver and the store
type of its result. -/
def function? : GeographyOp → Option (String × Nat × Builtin)
  | .area => some ("ST_AREA", 0, .float64)
  | .length => some ("ST_LENGTH", 0, .float64)
  | .perimeter => some ("ST_PERIMETER", 0, .float64)
  | .x => some ("ST_X", 0, .float64)
  | .y => some ("ST_Y", 0, .float64)
  | .isEmpty => some ("ST_ISEMPTY", 0, .bool)
  | .isClosed => some ("ST_ISCLOSED", 0, .bool)
  | .numPoints => some ("ST_NUMPOINTS", 0, .int64)
  | .dimension => some ("ST_DIMENSION", 0, .int64)
  | .boundary => some ("ST_BOUNDARY", 0, .geography)
  | .centroid => some ("ST_CENTROID", 0, .geography)
  | .convexHull => some ("ST_CONVEXHULL", 0, .geography)
  | .startPoint => some ("ST_STARTPOINT", 0, .geography)
  | .endPoint => some ("ST_ENDPOINT", 0, .geography)
  | .geometryType => some ("ST_GEOMETRYTYPE", 0, .string)
  | .asText => some ("ST_ASTEXT", 0, .string)
  | .contains => some ("ST_CONTAINS", 1, .bool)
  | .coveredBy => some ("ST_COVEREDBY", 1, .bool)
  | .covers => some ("ST_COVERS", 1, .bool)
  | .intersects => some ("ST_INTERSECTS", 1, .bool)
  | .touches => some ("ST_TOUCHES", 1, .bool)
  | .within => some ("ST_WITHIN", 1, .bool)
  | .disjoint => some ("ST_DISJOINT", 1, .bool)
  | .equalsTopologically => some ("ST_EQUALS", 1, .bool)
  | .buffer => some ("ST_BUFFER", 1, .geography)
  | .union => some ("ST_UNION", 1, .geography)
  | .difference => some ("ST_DIFFERENCE", 1, .geography)
  | .intersection => some ("ST_INTERSECTION", 1, .geography)
  | .distance => some ("ST_DISTANCE", 1, .float64)
  | .isWithinDistance => some ("ST_DWITHIN", 2, .bool)
  | .z | .m | .numRings | .overlaps | .pointN => none

/-- The expression for an operation on a geography. -/
def apply (op : GeographyOp) (c : Catalog) (receiver : Expr) (args : List Expr) : Option Expr :=
  let call (name : String) (args : List Expr) (result : Builtin) : Expr :=
    Expr.function c name (receiver :: args) result.mapping
  match op, args with
  | .numRings, [] =>
    some (Expr.function c "ST_NUMGEOMETRIES" [call "ST_BOUNDARY" [] .geography]
      Builtin.int64.mapping)
  | .overlaps, [_] =>
    some (Expr.conjunction c (call "ST_INTERSECTS" args .bool)
      (Expr.negation c (call "ST_TOUCHES" args .bool)))
  | .pointN, [position] =>
    some (call "ST_POINTN" [Expr.operation c position .add (Expr.ofValue c (.i64 1))] .geography)
  | op, args =>
    match op.function? with
    | some (name, count, result) =>
      if args.length = count then some (call name args result) else none
    | none => none

/-- The expression for an operation, if the receiver is a geography. -/
def toExpr? (op : GeographyOp) (c : Catalog) (receiver : Option Expr) (args : List Expr) :
    Option Expr := do
  let receiver ← receiver
  let m ← receiver.mapping?
  guard (m.hasKind .geography)
  op.apply c receiver args

end GeographyOp

end TypedSql
