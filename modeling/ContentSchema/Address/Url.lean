import ContentSchema.Address.HostNumber

/-!
# Web addresses

An address has a scheme, a colon and, behind two slashes, an authority that ends at the next
slash, question mark or number sign.  It is well shaped when it has a scheme and an
authority; a mail address needs the scheme alone.  Controls and blanks in front are dropped,
and so are tabs and line breaks everywhere.  An authority with square brackets must hold a
numeric host in groups or a host of a future kind, and it must not hold characters that stand
for delimiters; otherwise the address cannot be read at all.
-/

namespace ContentSchema
namespace Address

structure Url where
  scheme : List Char
  authority : List Char
deriving DecidableEq

namespace Url

def isSchemeChar (c : Char) : Bool :=
  Text.isAsciiLetter c || Text.isDigit c || c = '+' || c = '-' || c = '.'

def lowered (c : Char) : Char :=
  if 65 ≤ c.toNat ∧ c.toNat ≤ 90 then Char.ofNat (c.toNat + 32) else c

def splitScheme (cs : List Char) : List Char × List Char :=
  let name := cs.takeWhile (· ≠ ':')
  match name, cs.drop name.length with
  | first :: _, _ :: rest =>
      if Text.isAsciiLetter first && name.all isSchemeChar then (name.map lowered, rest)
      else ([], cs)
  | _, _ => ([], cs)

def authorityOf (cs : List Char) : List Char :=
  match cs with
  | '/' :: '/' :: rest => rest.takeWhile (fun c => c ≠ '/' && c ≠ '?' && c ≠ '#')
  | _ => []

def isFutureHost (cs : List Char) : Bool :=
  match cs with
  | 'v' :: rest =>
      let version := rest.takeWhile Text.isHexDigit
      match rest.drop version.length with
      | '.' :: name => !version.isEmpty && !name.isEmpty && !name.contains '\n'
      | _ => false
  | _ => false

def hasSoundBrackets (authority : List Char) : Bool :=
  match authority.contains '[', authority.contains ']' with
  | false, false => true
  | true, true =>
      let host := ((authority.dropWhile (· ≠ '[')).drop 1).takeWhile (· ≠ ']')
      if host.head? = some 'v' then isFutureHost host else isGroupAddress host
  | _, _ => false

/-- Characters whose compatibility form holds a slash, a question mark, a number sign, an at
sign or a colon. -/
def disguisedDelimiters : List Nat :=
  [0x2047, 0x2048, 0x2049, 0x2100, 0x2101, 0x2105, 0x2106, 0x2A74, 0xFE13, 0xFE16, 0xFE55,
    0xFE56, 0xFE5F, 0xFE6B, 0xFF03, 0xFF0F, 0xFF1A, 0xFF1F, 0xFF20]

def cleaned (cs : List Char) : List Char :=
  (cs.dropWhile (fun c => c.toNat ≤ 0x20)).filter (fun c => c ≠ '\t' && c ≠ '\r' && c ≠ '\n')

def read? (text : String) : Option Url :=
  let (scheme, rest) := splitScheme (cleaned text.toList)
  let authority := authorityOf rest
  if hasSoundBrackets authority && !authority.any (fun c => disguisedDelimiters.contains c.toNat) then
    some ⟨scheme, authority⟩
  else none

/-- A scheme with an authority, or a mail address. -/
def isWellShaped (url : Url) : Bool :=
  !url.scheme.isEmpty && (!url.authority.isEmpty || url.scheme = "mailto".toList)

end Url
end Address
end ContentSchema
