/-!
# Selectors of documents

A collection draws its documents from files that match a pattern under the content root, or
from the documents of another collection.
-/

namespace ContentSchema

/-- One selector of a collection: a file pattern, or the name of a collection to include. -/
inductive Selector
  | files (pattern : String)
  | included (collection : String)
deriving DecidableEq

namespace Selector

def pattern? : Selector → Option String
  | files pattern => some pattern
  | included _ => none

def collection? : Selector → Option String
  | files _ => none
  | included collection => some collection

def isInclude : Selector → Bool
  | files _ => false
  | included _ => true

def text : Selector → String
  | files pattern => pattern
  | included collection => "include:" ++ collection

end Selector
end ContentSchema
