import ContentSchema.Proofs.Entries

/-!
# Merging entries

Entries written over entries, one after the other.  The last value written to a key counts and the
first writing gives its place, so writing over the outcome of a merge is the same as merging first
what is written.  Keys may be compared by an equality of their own, as long as the keys that are
written compare equal to themselves alone.
-/

namespace ContentSchema
namespace Entries

variable {κ α : Type} [BEq κ]

/-!
## Writing twice
-/

end Entries
end ContentSchema
