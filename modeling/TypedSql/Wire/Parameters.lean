import TypedSql.Wire.Basic

/-!
# Parameter lists

The parameters of a query, each under its own name. A parameter without a name is given the first
free one of `p0`, `p1`, ...; one under a known name replaces the earlier.
-/

namespace TypedSql.Parameters

/-- The name of the parameter with a number. -/
def numbered (n : Nat) : String := String.ofList ('p' :: Numeral.decimal n)

/-- The first numbered name from `start` on that is not taken.

Among one more candidates than there are names one is free. -/
def freshName (taken : List String) (start : Nat) : String :=
  match (List.range (taken.length + 1)).find? fun i => !taken.contains (numbered (start + i)) with
  | some i => numbered (start + i)
  | none => numbered (start + taken.length + 1)

/-- The names in a list. -/
def names (ps : List Parameter) : List String := ps.map (·.name)

/-- A list with the parameter of the same name replaced, or with a new one at its end. -/
def put (p : Parameter) : List Parameter → List Parameter
  | [] => [p]
  | q :: rest => if q.name = p.name then p :: rest else q :: put p rest

/-- Adds a parameter and returns the name it is known by. -/
def push (ps : List Parameter) (p : Parameter) : String × List Parameter :=
  let name := if p.name.isEmpty then freshName (names ps) ps.length else p.name
  (name, put { p with name } ps)

/-- Whether a name is in use. -/
def contains (ps : List Parameter) (name : String) : Bool := (names ps).contains name

end TypedSql.Parameters
