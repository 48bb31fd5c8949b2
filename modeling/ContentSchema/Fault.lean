import ContentSchema.Validation.FieldError
import ContentSchema.Value.Display

/-!
# Faults

What stops an operation.  A definition error says why a schema or a collection cannot be
built; its causes are kept apart, and the wording of each stands in one place.  The other
faults are lookups that fail, documents that cannot be read or are rejected, and arguments
that an operation has no answer for.
-/

namespace ContentSchema

/-!
## Defects of schemas
-/

inductive DefectCause
  | notASchema (typeName : String)
  | emptyEnum
  | repeatedEnumValue
  | missingElement
  | repeatedField (name : String)
  | misplacedConstraint (constraint kind : String)
deriving DecidableEq

structure Defect where
  path : String
  cause : DefectCause
deriving DecidableEq

def Defect.text (d : Defect) : String :=
  d.path ++ ": " ++
    match d.cause with
    | .notASchema typeName => "expected a schema node, got " ++ typeName
    | .emptyEnum => "enum has no allowed values"
    | .repeatedEnumValue => "enum has duplicate values"
    | .missingElement => "array has no element schema"
    | .repeatedField name => "duplicate field '" ++ name ++ "'"
    | .misplacedConstraint constraint kind =>
        "constraint '" ++ constraint ++ "' does not apply to " ++ kind

/-!
## Definition errors
-/

inductive DefinitionError
  | unknownPrimitive (kind : String)
  | unrefinable (constraint kind : String)
  | inapplicable (constraint kind : String) (appliesTo : List String)
  | noBound (combinator kind : String)
  | boundNotNumber (combinator : String) (bound : Value)
  | boundNotWhole (combinator : String) (bound : Value)
  | boundNegative (combinator : String) (bound : Value)
  | invalidDefault (value : Value) (kind : String) (problems : List String)
  | fieldExists (name : String)
  | unknownFields (names : List Value) (declared : List String)
  | notAnEntry (entry : Value)
  | badFieldName (name : Value)
  | fieldNotSchema (name typeName : String)
  | repeatedField (name : String)
  | emptyEnum
  | enumValueNotText (value : Value)
  | repeatedEnumValues (values : List String)
  | elementNotSchema (typeName : String)
  | inconsistent (defects : List Defect)
  | notValidatable (typeName path : String)
  | missingElement (path : String)
  | ambiguousSource
  | blankSource (value : Value)
  | unknownSourceKeys (keys : List String)
  | notASource (value : Value)
  | noSources
  | badCollectionName (name : Value)
  | badCollectionKind (kind : Value) (collection : String)
  | rootNotObject (collection typeName : String)
  | registryFrozen (collection : String)
  | notADescriptor (typeName : String)
  | collectionExists (name : String)
  | unregisteredInclude (collection included : String)
  | inconsistentCollection (collection : String) (defects : List Defect)

namespace DefinitionError

def primitiveNames : String := "string, number, boolean, date"

def defectList (defects : List Defect) : String :=
  "Inconsistent schema: " ++ "; ".intercalate (defects.map Defect.text)

def pathOrRoot (path : String) : String :=
  if path.isEmpty then "<root>" else path

def message : DefinitionError → String
  | unknownPrimitive kind =>
      "Unknown primitive kind '" ++ kind ++ "'. Valid kinds: " ++ primitiveNames
  | unrefinable constraint kind =>
      "Constraint '" ++ constraint ++ "' cannot be attached to " ++ kind ++ " schemas"
  | inapplicable constraint kind appliesTo =>
      "Constraint '" ++ constraint ++ "' does not apply to " ++ kind ++ " schemas (applies to: " ++
        commaSeparated appliesTo ++ ")"
  | noBound combinator kind =>
      combinator ++ "() is not defined for " ++ kind ++ " schemas"
  | boundNotNumber combinator bound =>
      combinator ++ "() length bound must be a number, got " ++ bound.literal
  | boundNotWhole combinator bound =>
      combinator ++ "() length bound must be a whole number, got " ++ bound.literal
  | boundNegative combinator bound =>
      combinator ++ "() length bound must not be negative, got " ++ bound.literal
  | invalidDefault value kind problems =>
      "Default " ++ value.literal ++ " is invalid for " ++ kind ++ " schema: " ++
        "; ".intercalate problems
  | fieldExists name => "Cannot extend object schema: field '" ++ name ++ "' already exists"
  | unknownFields names declared =>
      "Unknown field(s) " ++ commaSeparated (names.map Value.literal) ++ "; object declares: " ++
        (if (commaSeparated declared).isEmpty then "(none)" else commaSeparated declared)
  | notAnEntry entry => "Field entries must be (name, schema) pairs, got " ++ entry.literal
  | badFieldName name => "Field names must be non-empty strings, got " ++ name.literal
  | fieldNotSchema name typeName =>
      "Field '" ++ name ++ "' must be a schema node, got " ++ typeName
  | repeatedField name => "Duplicate field '" ++ name ++ "' in object schema"
  | emptyEnum => "Enum schema needs at least one allowed value"
  | enumValueNotText value =>
      "Enum values must be strings, got " ++ value.typeName ++ " (" ++ value.literal ++ ")"
  | repeatedEnumValues values =>
      "Duplicate enum value(s): " ++ commaSeparated (values.map Text.quoted)
  | elementNotSchema typeName => "Array element must be a schema node, got " ++ typeName
  | inconsistent defects => defectList defects
  | notValidatable typeName path =>
      "Cannot validate against " ++ typeName ++ " at '" ++ pathOrRoot path ++ "'"
  | missingElement path => "Array at '" ++ pathOrRoot path ++ "' has no element schema"
  | ambiguousSource => "A source must define exactly one of a glob pattern or an include"
  | blankSource value => "Source values must be non-empty strings, got " ++ value.literal
  | unknownSourceKeys keys => "Unknown source key(s): " ++ commaSeparated keys
  | notASource value => "Cannot interpret " ++ value.literal ++ " as a collection source"
  | noSources => "A collection needs at least one source"
  | badCollectionName name => "Collection name must be a non-empty string, got " ++ name.literal
  | badCollectionKind kind collection =>
      "Invalid kind " ++ kind.literal ++ " for collection '" ++ collection ++
        "'. Valid kinds: page, data"
  | rootNotObject collection typeName =>
      "Collection '" ++ collection ++ "' needs an object schema at its root, got " ++ typeName
  | registryFrozen collection => "Cannot register '" ++ collection ++ "': registry is frozen"
  | notADescriptor typeName => "Expected a CollectionDescriptor, got " ++ typeName
  | collectionExists name => "Duplicate collection name '" ++ name ++ "'"
  | unregisteredInclude collection included =>
      "Collection '" ++ collection ++ "' includes unregistered collection '" ++ included ++ "'"
  | inconsistentCollection collection defects =>
      "Collection '" ++ collection ++ "': " ++ defectList defects

end DefinitionError

/-!
## Unreadable documents
-/

inductive UnreadableCause
  | unavailable (detail : String)
  | invalidYaml
  | notAMapping (typeName : String)
  | unsupportedSuffix
deriving DecidableEq

def UnreadableCause.message (path : String) : UnreadableCause → String
  | unavailable detail => "Cannot read " ++ path ++ ": " ++ detail
  | invalidYaml => "Invalid YAML in " ++ path ++ ": the text is not well formed"
  | notAMapping typeName =>
      "Expected a mapping at the top of " ++ path ++ ", got " ++ typeName
  | unsupportedSuffix =>
      "Unsupported content file " ++ path ++ "; expected one of .yml, .yaml, .md, .markdown"

/-!
## Faults
-/

/-- What stops an operation. -/
inductive Fault
  | definition (e : DefinitionError)
  | unknownCollection (name : Value)
  | unreadable (path : String) (cause : UnreadableCause)
  | rejected (errors : List FieldError)
  | malformedPattern
  | badValue
  | missingKey
  | badIndex
  | tooLarge
  | unsupportedPattern
  | selfContaining
  | unending
  | wrongType

namespace Fault

def rejectionSummary (errors : List FieldError) : String :=
  let shown := "; ".intercalate ((errors.take 3).map FieldError.text)
  let more := if 3 < errors.length then "; ... (" ++ toString (errors.length - 3) ++ " more)" else ""
  toString errors.length ++ " field error(s): " ++ shown ++ more

def message : Fault → String
  | definition e => e.message
  | unknownCollection name => "Unknown collection: '" ++ name.plain ++ "'"
  | unreadable path cause => cause.message path
  | rejected errors => rejectionSummary errors
  | _ => ""

def name : Fault → String
  | definition _ => "SchemaDefinitionError"
  | unknownCollection _ => "UnknownCollectionError"
  | unreadable _ _ => "DocumentParseError"
  | rejected _ => "DocumentValidationError"
  | malformedPattern => "re.error"
  | badValue => "ValueError"
  | missingKey => "KeyError"
  | badIndex => "IndexError"
  | tooLarge => "OverflowError"
  | unsupportedPattern => "NotImplementedError"
  | selfContaining => "NotImplementedError"
  | unending => "RecursionError"
  | wrongType => "TypeError"

end Fault

abbrev Answer (α : Type) := Except Fault α

def refuse {α : Type} (e : DefinitionError) : Answer α :=
  .error (.definition e)

def orFault {α : Type} (fault : Fault) : Option α → Answer α
  | some a => .ok a
  | none => .error fault

end ContentSchema
