import ContentSchema.Yaml.Failure

/-!
# Readers of YAML

Content files are read with whatever reader of YAML there is: a function that yields the value
that a text describes, or the failure of reading it.
-/

namespace ContentSchema

/-- A reader of YAML. -/
class YamlReader where
  read : List Char → Yaml.Outcome Value

end ContentSchema
