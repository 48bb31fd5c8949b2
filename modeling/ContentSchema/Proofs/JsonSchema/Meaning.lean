import ContentSchema.Constraint.Matching
import ContentSchema.Proofs.Value
import ContentSchema.Schema.JsonSchema
import ContentSchema.Validation.Result

/-!
# The meaning of JSON Schema documents

What a document in the vocabulary of JSON Schema demands of a value.  Every keyword is about
the value on its own, save for the two that hand parts of it to further documents: the
entries of an object to those of its properties, and the elements of an array to the one of
its items.  Keywords that only annotate demand nothing.
-/

namespace ContentSchema
namespace JsonSchema

/-!
## JSON values
-/

/-- A value that can be written as JSON and that has no null among the entries of an object. -/
inductive IsJson : Value -> Prop
  | null : IsJson .null
  | bool (b : Bool) : IsJson (.bool b)
  | int (n : Int) : IsJson (.int n)
  | float (negative : Bool) (significand : Nat) (exponent : Int) :
      IsJson (.float (.finite negative significand exponent))
  | text (t : String) : IsJson (.text t)
  | list {items : List Value} : (forall v, v ∈ items -> IsJson v) -> IsJson (.list items)
  | mapping {entries : List (Value × Value)} :
      (forall e, e ∈ entries -> exists name, e.1 = .text name) ->
      (forall e, e ∈ entries -> e.2 ≠ .null) ->
      (forall e, e ∈ entries -> IsJson e.2) ->
      IsJson (.mapping entries)

/-- The types of JSON Schema.  A number is an integer when it has no fractional part. -/
inductive HasType : String -> Value -> Prop
  | null : HasType "null" .null
  | boolean (b : Bool) : HasType "boolean" (.bool b)
  | int (n : Int) : HasType "number" (.int n)
  | float (x : Binary64) : HasType "number" (.float x)
  | integer (n : Int) : HasType "integer" (.int n)
  | wholeFloat {x : Binary64} : x.isWhole = true -> HasType "integer" (.float x)
  | string (t : String) : HasType "string" (.text t)
  | array {v : Value} {items : List Value} :
      Schema.sequenceItems? v = some items -> HasType "array" v
  | object (entries : List (Value × Value)) : HasType "object" (.mapping entries)

/-!
## Keywords
-/

def lengthOf? : Value -> Option Quantity
  | .text t => some (.rational t.length)
  | _ => none

/-- What bounds on numbers are about; truth values are no numbers. -/
def numberOf? : Value -> Option Quantity
  | .int n => some (.rational n)
  | .float x => some x.quantity
  | _ => none

def Bounds (measured : Option Quantity) (within : Quantity -> Quantity -> Bool)
    (bound : Value) : Prop :=
  exists q, bound.quantity? = some q ∧ forall m, measured = some m -> within q m = true

/-- What a keyword with its argument demands of a value on its own.  A malformed argument of
a keyword that demands anything is met by no value. -/
def Meets (keyword : String) (argument v : Value) : Prop :=
  match keyword with
  | "type" => exists name, argument = .text name ∧ HasType name v
  | "enum" => exists values, argument = .list values ∧ exists w, w ∈ values ∧ v.same w = true
  | "minLength" => Bounds (lengthOf? v) (fun bound size => bound.le size) argument
  | "maxLength" => Bounds (lengthOf? v) (fun bound size => size.le bound) argument
  | "minimum" => Bounds (numberOf? v) (fun bound size => bound.le size) argument
  | "maximum" => Bounds (numberOf? v) (fun bound size => size.le bound) argument
  | "exclusiveMinimum" => Bounds (numberOf? v) (fun bound size => bound.lt size) argument
  | "pattern" => exists pattern tree, argument = .text pattern ∧
      Pattern.compile pattern = .ok tree ∧
      forall t, v = .text t -> tree.occursIn t.toList = true
  | "required" => exists names : List String, argument = .list (names.map Value.text) ∧
      forall entries, v = .mapping entries ->
        forall name, name ∈ names -> exists w, Value.field? entries name = some w
  | "properties" => exists members, argument = .ofMembers members
  | "items" => exists keywords, argument = .ofMembers keywords
  | _ => True

/-!
## Documents
-/

/-- The value is as the document demands. -/
inductive Satisfies : Value -> Value -> Prop
  | document {keywords : Keywords} {v : Value} :
      (forall k, k ∈ keywords -> Meets k.1 k.2 v) ->
      (forall properties property entries w, ("properties", .ofMembers properties) ∈ keywords ->
        property ∈ properties -> v = .mapping entries ->
        Value.field? entries property.1 = some w -> Satisfies property.2 w) ->
      (forall items elements w, ("items", items) ∈ keywords ->
        Schema.sequenceItems? v = some elements -> w ∈ elements -> Satisfies items w) ->
      Satisfies (toValue keywords) v

end JsonSchema
end ContentSchema
