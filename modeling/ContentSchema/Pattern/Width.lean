import ContentSchema.Pattern.Basic

/-!
# Widths of patterns

The least and the greatest number of characters that a pattern can match.  A look behind
needs a pattern whose two bounds agree.
-/

namespace ContentSchema
namespace Pattern

structure Width where
  least : Nat
  most : Nat
deriving DecidableEq

namespace Width

def unbounded : Nat := 18446744073709551616

def capped (w : Width) : Width :=
  ⟨min w.least unbounded, min w.most unbounded⟩

def append (a b : Width) : Width :=
  (⟨a.least + b.least, a.most + b.most⟩ : Width).capped

def union (a b : Width) : Width :=
  ⟨min a.least b.least, max a.most b.most⟩

def times (a : Width) (least : Nat) (most : Option Nat) : Width :=
  let high :=
    match most with
    | some m => a.most * m
    | none => if a.most = 0 then 0 else unbounded
  (⟨a.least * least, high⟩ : Width).capped

def isFixed (a : Width) : Bool :=
  a.least = a.most

end Width

mutual

def Tree.width (groups : List (Option Width)) : Tree → Width
  | .anyCharacter _ => ⟨1, 1⟩
  | .character _ => ⟨1, 1⟩
  | .place _ => ⟨0, 0⟩
  | .sequence parts => sequenceWidth groups parts
  | .choice branches => choiceWidth groups branches
  | .group _ body => body.width groups
  | .backreference number _ => ((groups[number - 1]?).join).getD ⟨0, 0⟩
  | .conditional _ present absent =>
      (present.width groups).union (absent.width groups)
  | .lookAhead _ _ => ⟨0, 0⟩
  | .lookBehind _ _ _ => ⟨0, 0⟩
  | .atomic body => body.width groups
  | .repeated _ least most body => (body.width groups).times least most

def sequenceWidth (groups : List (Option Width)) : List Tree → Width
  | [] => ⟨0, 0⟩
  | part :: rest => (part.width groups).append (sequenceWidth groups rest)

def choiceWidth (groups : List (Option Width)) : List Tree → Width
  | [] => ⟨0, 0⟩
  | [branch] => branch.width groups
  | branch :: rest => (branch.width groups).union (choiceWidth groups rest)

end

end Pattern
end ContentSchema
