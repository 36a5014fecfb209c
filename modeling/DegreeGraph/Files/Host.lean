import DegreeGraph.Fault
import DegreeGraph.Text.Pieces

/-!
# Names of computers

The name of a computer in an address may be a number between brackets: eight groups of up to four hexadecimal
digits between colons, where two colons stand for groups of zeros, the last two groups may be written as
four decimal numbers, and a mark and the name of a zone may follow. A later version of such numbers is marked by a
letter. Before the opening bracket stands nothing but who asks; behind the closing one stands nothing but a port.

No character of a name may stand for one that ends a name or a part of it when texts are compared.
-/

namespace DegreeGraph.Host

open DegreeGraph.Text

/-! ## Numbers -/

/-- A character is a digit in base sixteen. -/
def isHexDigit (c : Char) : Bool :=
  c.isDigit || ('a' ≤ c && c ≤ 'f') || ('A' ≤ c && c ≤ 'F')

/-- A decimal number of eight bits, without zeros in front. -/
def isOctet (s : List Char) : Bool :=
  !s.isEmpty && s.length ≤ 3 && s.all Char.isDigit && (s = ['0'] || s.head? != some '0')
    && s.foldl (fun n c ↦ 10 * n + (c.toNat - '0'.toNat)) 0 < 256

/-- Four numbers of eight bits between points. -/
def isFourNumbers (s : List Char) : Bool :=
  let parts := piecesBetween '.' s
  parts.length = 4 && parts.all isOctet

/-- A number of sixteen bits. -/
def isGroup (s : List Char) : Bool := !s.isEmpty && s.length ≤ 4 && s.all isHexDigit

/-- The groups between colons, where four numbers at the end make two groups. -/
def groups? (s : List Char) : Option (List (List Char)) :=
  let parts := piecesBetween ':' s
  let last := parts.getLastD []
  if !last.contains '.' then some parts
  else if isFourNumbers last then some (parts.dropLast ++ [['0'], ['0']])
  else none

/-- The number of groups of an address. -/
def groupCount : Nat := 8

/-- The places of empty groups other than the first and the last one. -/
def gaps (groups : List (List Char)) : List Nat :=
  (List.range groups.length).filter fun i ↦
    0 < i && i + 1 < groups.length && (groups.getD i []).isEmpty

/-- The groups on one side of a gap are whole; the outermost one may be empty if it is alone. -/
def isSide (groups : List (List Char)) : Bool := groups = [[]] || groups.all isGroup

/-- The number of groups on one side of a gap that are not empty. -/
def written (groups : List (List Char)) : Nat := groups.countP (!·.isEmpty)

/-- Groups make an address. -/
def areGroups (groups : List (List Char)) : Bool :=
  match gaps groups with
  | [] => groups.length = groupCount && groups.all isGroup
  | [i] =>
    let before := groups.take i
    let behind := groups.drop (i + 1)
    isSide before && isSide behind && written before + written behind < groupCount
  | _ => false

/-- Groups between colons, and the name of a zone behind a mark. -/
def isGrouped (s : List Char) : Bool :=
  let number := s.takeWhile (· != '%')
  let zone := s.drop (number.length + 1)
  let isZoned := number.length < s.length
  (!isZoned || (!zone.isEmpty && !zone.contains '%')) && (groups? number).any areGroups

/-- A number of a later version: a letter, its version, a point and anything. -/
def isLater (s : List Char) : Bool :=
  let version := (s.drop 1).takeWhile isHexDigit
  match s.drop (1 + version.length) with
  | '.' :: _ :: _ => !version.isEmpty
  | _ => false

/-- What stands between brackets is the number of a computer, and not one of four numbers. -/
def checkNumber (s : List Char) : Except HostTrouble Unit :=
  if s.head? = some 'v' then if isLater s then .ok () else .error .laterVersion
  else if isFourNumbers s then .error .fourNumbers
  else if isGrouped s then .ok ()
  else .error (.noNumbers (String.ofList s))

/-! ## Names -/

/-- What stands behind the last mark of who asks. -/
def withoutUser (host : List Char) : List Char := (host.reverse.takeWhile (· != '@')).reverse

/-- A name with brackets in it is a number between them, and nothing stands beside them but a port. -/
def checkBracketed (host : List Char) : Except HostTrouble Unit :=
  let name := withoutUser host
  if !name.contains '[' then checkNumber (name.takeWhile (· != ':'))
  else if name.head? != some '[' then .error .brackets
  else
    let number := (name.drop 1).takeWhile (· != ']')
    let port := name.drop (number.length + 2)
    if port.head?.all (· == ':') then checkNumber number else .error .brackets

/-- The characters that stand for others of which one ends a name or a part of it. -/
def foldedEnds : List Char :=
  ['\u2047', '\u2048', '\u2049', '\u2100', '\u2101', '\u2105', '\u2106', '\u2a74', '\ufe13', '\ufe16', '\ufe55',
    '\ufe56', '\ufe5f', '\ufe6b', '\uff03', '\uff0f', '\uff1a', '\uff1f', '\uff20']

/-- The name of a computer may stand in an address. -/
def check (host : List Char) : Except HostTrouble Unit := do
  if host.contains '[' != host.contains ']' then throw .brackets
  if host.contains '[' then checkBracketed host
  if host.any foldedEnds.contains then throw (.foldedEnd (String.ofList host))

end DegreeGraph.Host
