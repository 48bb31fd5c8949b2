/-!
# Ordered entries

Key-value entries that remember the order in which their keys first came.  Writing to a key
that is present replaces its value in place and keeps the key as it was first written; a
new key goes to the end.
-/

namespace ContentSchema
namespace Entries

variable {κ α : Type} [BEq κ]

def get? (entries : List (κ × α)) (key : κ) : Option α :=
  (entries.find? (fun e => e.1 == key)).map Prod.snd

def has (entries : List (κ × α)) (key : κ) : Bool :=
  entries.any (fun e => e.1 == key)

def put (entries : List (κ × α)) (key : κ) (value : α) : List (κ × α) :=
  match entries with
  | [] => [(key, value)]
  | e :: rest => if e.1 == key then (e.1, value) :: rest else e :: put rest key value

def merge (entries additions : List (κ × α)) : List (κ × α) :=
  additions.foldl (fun acc e => put acc e.1 e.2) entries

/-- Entries with one value for each key: first position, last value. -/
def ofList (pairs : List (κ × α)) : List (κ × α) :=
  merge [] pairs

def erase (entries : List (κ × α)) (key : κ) : List (κ × α) :=
  entries.filter (fun e => !(e.1 == key))

def keys (entries : List (κ × α)) : List κ :=
  entries.map Prod.fst

end Entries
end ContentSchema
