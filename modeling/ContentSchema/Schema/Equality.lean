import ContentSchema.Schema.Basic

/-!
# Equality of schemas

Two schemas are the same when they have the same shape, attributes and constraints, and the
same schemas below them.  Constraints count by name, description, kinds and parameters, and
values as members of containers.
-/

namespace ContentSchema
namespace Schema

def sameAttributes (a b : Attributes) : Bool :=
  a.isOptional == b.isOptional &&
    (match a.fallback, b.fallback with
      | some x, some y => x.same y
      | none, none => true
      | _, _ => false) &&
    Value.same (.mapping a.metadata) (.mapping b.metadata)

def sameConstraints : List Constraint → List Constraint → Bool
  | [], [] => true
  | c :: cs, d :: ds => c.same d && sameConstraints cs ds
  | _, _ => false

mutual

def same : Schema → Schema → Bool
  | primitive a kind constraints, primitive b kind' constraints' =>
      sameAttributes a b && kind = kind' && sameConstraints constraints constraints'
  | enumeration a values, enumeration b values' =>
      sameAttributes a b && Value.sameAll values values'
  | object a fields, object b fields' => sameAttributes a b && sameFields fields fields'
  | array a none, array b none => sameAttributes a b
  | array a (some element), array b (some element') => sameAttributes a b && element.same element'
  | bare a, bare b => sameAttributes a b
  | foreign v, foreign w => v.same w
  | _, _ => false

def sameFields : List (String × Schema) → List (String × Schema) → Bool
  | [], [] => true
  | (name, child) :: rest, (name', child') :: rest' =>
      name == name' && child.same child' && sameFields rest rest'
  | _, _ => false

end

end Schema
end ContentSchema
