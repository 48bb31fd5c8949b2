import ContentSchema.Text.Numeral

/-!
# Numeric host addresses

The two text forms of numeric host addresses: four decimal numbers with points between them,
and up to eight groups of hexadecimal digits with colons between them, where one run of
empty groups may be left out, the last two groups may be written as four decimal numbers,
and a zone may follow a percent sign.
-/

namespace ContentSchema
namespace Address

def pieces (separator : Char) (cs : List Char) : List (List Char) :=
  cs.splitOn separator

def isOctet (cs : List Char) : Bool :=
  !cs.isEmpty && cs.all Text.isDigit && cs.length ≤ 3 &&
    (cs = ['0'] || cs.head? ≠ some '0') && Text.numberOf 10 cs ≤ 255

def isDottedQuad (cs : List Char) : Bool :=
  let octets := pieces '.' cs
  octets.length = 4 && octets.all isOctet

def isHextet (cs : List Char) : Bool :=
  !cs.isEmpty && cs.length ≤ 4 && cs.all Text.isHexDigit

def expandTail? (groups : List (List Char)) : Option (List (List Char)) :=
  match groups.getLast? with
  | some last =>
      if last.contains '.' then
        if isDottedQuad last then some (groups.dropLast ++ [['0'], ['0']]) else none
      else some groups
  | none => none

/-- Whether the groups before and behind an empty group are in order: the outer ends may be
empty only next to it. -/
def isSplitGroups (front back : List (List Char)) : Bool :=
  let front := if front = [[]] then [] else front
  let back := if back = [[]] then [] else back
  front.all isHextet && back.all isHextet && front.length + back.length < 8

def areGroups (groups : List (List Char)) : Bool :=
  let inner := groups.dropLast.drop 1
  match inner.filter List.isEmpty with
  | [] => groups.length = 8 && groups.all isHextet
  | [_] =>
      let front := groups.take 1 ++ inner.takeWhile (fun g => !g.isEmpty)
      isSplitGroups front (groups.drop (front.length + 1))
  | _ => false

def isColonGroups (cs : List Char) : Bool :=
  let groups := pieces ':' cs
  if groups.length < 3 then false
  else
    match expandTail? groups with
    | some expanded => expanded.length ≤ 9 && areGroups expanded
    | none => false

def isGroupAddress (cs : List Char) : Bool :=
  if cs.contains '/' then false
  else
    let address := cs.takeWhile (· ≠ '%')
    match cs.drop address.length with
    | [] => isColonGroups address
    | _ :: zone => !zone.isEmpty && !zone.contains '%' && isColonGroups address

end Address
end ContentSchema
