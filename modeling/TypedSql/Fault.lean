import TypedSql.Value.Describe

/-!
# Faults

What can go wrong, as data: a cause and the causes it was wrapped around. The message lists them
from the outermost context to the root, separated by colons.
-/

namespace TypedSql

/-- A request that SQL cannot express. -/
inductive Feature where
  /-- A parameter of a type without a mapping. -/
  | parameterType (type : HostType)
  /-- A field of an expression that is not a struct. -/
  | memberAccess (field : String)
  /-- An array of elements of a type without a mapping. -/
  | elementType (type : HostType)
  /-- An array literal that has not been typed. -/
  | untypedArray
  /-- A constant that shows no type. -/
  | untypedConstant (value : Value)
  | other (text : String)

/-- A value whose shape cannot be stored. -/
inductive Misshape where
  /-- A rectangular array, with its number of dimensions. -/
  | container (rank : Nat)
  /-- A rectangular array inside a JSON document. -/
  | jsonArray (rank : Nat)
  | other (text : String)

/-- A cause of failure, or a place where one happened. -/
inductive Cause where
  | note (text : String)
  | renderingElement (index : Nat)
  | renderingField (name : String)
  | bindingParameter (name : String)
  | missingField (name : String)
  | conversion (value : Value) (target : String)
  | feature (what : Feature)
  | misshape (what : Misshape)
  /-- Text that is no UUID. -/
  | malformedUuid
  /-- Text that is no settings document. -/
  | malformedSettings

/-- A cause with those it was wrapped around, the root last. -/
structure Fault where
  cause : Cause
  earlier : List Cause

/-- The description of an unsupported feature. -/
def Feature.message : Feature → String
  | .parameterType type => "no BigQuery mapping for parameter type " ++ type.describe
  | .memberAccess field => "field access \x60" ++ field ++ "\x60 on a non-STRUCT expression"
  | .elementType type => "no BigQuery array mapping for elements of type " ++ type.describe
  | .untypedArray => "array literal without a resolved element type"
  | .untypedConstant value => "constant " ++ value.describe ++ " has no BigQuery type"
  | .other text => text

/-- The description of an unsupported shape. -/
def Misshape.message : Misshape → String
  | .container rank => "rank " ++ integerText rank ++ " container"
  | .jsonArray rank => "rank " ++ integerText rank ++ " array cannot be stored as JSON"
  | .other text => text

/-- The text of a cause; a conversion names the type that the value shows. -/
def Cause.message : Cause → String
  | .note text => text
  | .renderingElement index => "rendering element " ++ integerText index
  | .renderingField name => "rendering field \x60" ++ name ++ "\x60"
  | .bindingParameter name => "binding parameter \x60" ++ name ++ "\x60"
  | .missingField name => "STRUCT has no field \x60" ++ name ++ "\x60"
  | .conversion value target => "cannot convert " ++ value.inferType.describe ++ " to " ++ target
  | .feature what => "unsupported feature: " ++ what.message
  | .misshape what => "unsupported shape: " ++ what.message
  | .malformedUuid => "invalid UUID"
  | .malformedSettings => "invalid settings"

namespace Fault

/-- A fault without context. -/
def of (cause : Cause) : Fault := ⟨cause, []⟩

/-- A value that does not fit where it is put. -/
def conversion (value : Value) (target : String) : Fault := of (.conversion value target)

/-- All causes, the outermost context first. -/
def causes (f : Fault) : List Cause := f.cause :: f.earlier

/-- The messages of all causes, the outermost context first. -/
def message (f : Fault) : String := ": ".intercalate (f.causes.map Cause.message)

/-- The fault inside a context.

Only the outermost cause of the context is kept. A context that is still in use elsewhere cannot
be taken apart, so that its text stands in for it. -/
def context (f outer : Fault) (shared : Bool) : Fault :=
  ⟨if shared then .note outer.cause.message else outer.cause, f.causes⟩

/-- The fault at a place. -/
def inside (f : Fault) (place : Cause) : Fault := f.context (of place) false

end Fault

/-- A result or a fault. -/
abbrev Result := Except Fault

/-- A value of the wanted scalar type as it is. -/
def Value.expect (v : Value) (wanted : ScalarType) : Result Value :=
  if v.scalarType? = some wanted then .ok v else .error (.conversion v wanted.describe)

end TypedSql
