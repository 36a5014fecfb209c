import DegreeGraph.Files.Host
import DegreeGraph.Files.Tree
import DegreeGraph.Text.Blank
import DegreeGraph.Text.Utf8

/-!
# Addresses of files

A table is read from an address: a path, or a scheme, a colon and something that the scheme understands. The
schemes that are known as such are listed. Only the scheme of files on this computer leads anywhere; what stands
behind it is a path in which a byte may be written by its code. An address of another form with a scheme would
need a package that is not there. A path may start at a home folder.
-/

namespace DegreeGraph.Address

open DegreeGraph.Text

/-! ## Schemes -/

/-- The schemes that are known as such. -/
def knownSchemes : List String :=
  ["file", "ftp", "git", "git+ssh", "gopher", "hdl", "http", "https", "imap", "mms", "nfs", "nntp", "prospero",
    "rsync", "rtsp", "rtspu", "sftp", "shttp", "sip", "sips", "snews", "svn", "svn+ssh", "tel", "telnet", "wais",
    "ws", "wss"]

/-- A character may stand in a scheme. -/
def isSchemeChar (c : Char) : Bool := c.isAlphanum || c == '+' || c == '-' || c == '.'

/-- A character that does not count where a scheme is looked for. -/
def isSkipped (c : Char) : Bool := c == '\t' || c == '\r' || c == '\n'

/-- The scheme of a text and what follows the colon; without a scheme, nothing and the whole text. -/
def splitScheme (s : List Char) : List Char × List Char :=
  let scheme := s.takeWhile (· != ':')
  if scheme.length < s.length && scheme.head?.any Char.isAlpha && scheme.all isSchemeChar then
    (scheme.map Char.toLower, s.drop (scheme.length + 1))
  else ([], s)

/-- A character ends the name of a computer. -/
def endsHost (c : Char) : Bool := c == '/' || c == '?' || c == '#'

/-- What stands between two slashes and the end of the name of a computer. -/
def host? : List Char → Option (List Char)
  | '/' :: '/' :: rest => some (rest.takeWhile (!endsHost ·))
  | _ => none

/-- A character does not count in front of an address. -/
def isLeading (c : Char) : Bool := c ≤ ' '

/-- The scheme of an address, in which the name of a computer has to be a good one. -/
def scheme (address : String) : Except Fault String := do
  let (scheme, rest) := splitScheme ((address.toList.dropWhile isLeading).filter (!isSkipped ·))
  (Host.check ((host? rest).getD [])).mapError .badAddress
  return String.ofList scheme

/-- The runs of characters that may stand in a scheme, between pairs of colons, up to a colon and two slashes. The
first argument is greater than the number of characters. -/
def isChain : (fuel : Nat) → List Char → Bool
  | 0, _ => false
  | fuel + 1, s =>
    match s.dropWhile isSchemeChar with
    | ':' :: '/' :: '/' :: _ => true
    | ':' :: ':' :: rest => (rest.head?.any isSchemeChar) && isChain fuel rest
    | _ => false

/-- An address has a scheme, or a chain of them, and two slashes. -/
def needsPackage (address : String) : Bool :=
  let s := address.toList
  s.head?.any Char.isAlpha && isChain (s.length + 1) s

/-! ## Parts -/

/-- The value of a digit in base sixteen. -/
def hexValue? (b : UInt8) : Option Nat :=
  let c := Char.ofNat b.toNat
  if c.isDigit then some (c.toNat - '0'.toNat)
  else if 'a' ≤ c && c ≤ 'f' then some (c.toNat - 'a'.toNat + 10)
  else if 'A' ≤ c && c ≤ 'F' then some (c.toNat - 'A'.toNat + 10)
  else none

/-- Bytes with the codes behind percent signs taken for the bytes that they stand for. -/
def decodeBytes : List UInt8 → List UInt8
  | 0x25 :: a :: b :: rest =>
    match hexValue? a, hexValue? b with
    | some high, some low => UInt8.ofNat (16 * high + low) :: decodeBytes rest
    | _, _ => 0x25 :: decodeBytes (a :: b :: rest)
  | b :: rest => b :: decodeBytes rest
  | [] => []

/-- A text with the codes behind percent signs taken for the bytes that they stand for. -/
def decode (s : String) : String := Utf8.decodeLenient (decodeBytes (Utf8.encode s))

/-- What an address with a scheme consists of. -/
structure Parts where
  scheme : String
  host : String
  /-- What the scheme understands. -/
  path : String
deriving Repr

/-- An address without what surrounds it: blanks, and a mark and what follows it at the end. -/
def bare (address : String) : List Char :=
  let s := trimBy isBlank address.toList
  if s.contains '#' then ((s.reverse.dropWhile (· != '#')).drop 1).reverse else s

/-- The parts of an address with a scheme. -/
def partsOf (address : String) : Parts :=
  let s := bare address
  let scheme := s.takeWhile (· != ':')
  let rest := s.drop (scheme.length + 1)
  match host? rest with
  | none => ⟨(String.ofList scheme).toLower, "", String.ofList rest⟩
  | some host =>
    let path := rest.drop (host.length + 2)
    let path := if path.isEmpty || path.head? = some '/' then path else '/' :: path
    ⟨(String.ofList scheme).toLower, decode (String.ofList host), String.ofList path⟩

/-- The name of a computer and the number behind it. -/
def splitPort (host : String) : String × String :=
  let digits := (host.toList.reverse.takeWhile Char.isDigit).reverse
  let rest := (host.toList.take (host.length - digits.length))
  if rest.getLast? = some ':' then (String.ofList rest.dropLast, String.ofList digits) else (host, "")

/-- The names of this computer. -/
def ownNames : List String := ["localhost", "127.0.0.1"]

/-- A name leads to this computer. -/
def isOwn (host : String) : Bool :=
  let (name, port) := splitPort host
  name = "" || (port = "" && ownNames.contains name.toLower)

/-! ## Reading -/

/-- The text of a file on this computer, for a name of a computer. -/
def readOwn (host path : String) : FileM String := do
  FileM.checkPath path
  let trouble (t : FileTrouble) : Fault := .notOpened (.file t path)
  match (← get).readFile path with
  | .ok text => if isOwn host then return text else throw (.notOpened .farFile)
  | .error .isFolder => throw (if isOwn host then trouble .isFolder else .notOpened .farFile)
  | .error t => throw (trouble t)

/-- The text of the file that the parts of an address tell. -/
def readParts (parts : Parts) : FileM String :=
  let fail (t : AddressTrouble) : FileM String := throw (.notOpened t)
  match parts.scheme with
  | "file" =>
    let isDoubled := match parts.path.toList with
      | '/' :: '/' :: rest => rest.head? != some '/'
      | _ => false
    if isDoubled && parts.host != "" && parts.host != "localhost" then
      fail (if ownNames.contains parts.host then .unknownScheme "file" else .onlyHere)
    else readOwn parts.host (decode parts.path)
  | "http" | "https" => fail (if parts.host = "" then .noHost else .unresolved)
  | "ftp" => fail (if parts.host = "" then .noFileHost else .unresolved)
  | scheme => fail (.unknownScheme scheme)

/-- The beginnings of paths that stand for the home folder. -/
def homeMarks : List String := ["~", "~root"]

/-- A path with the home folder in place of its mark. -/
def expandHome (path : String) : String :=
  let s := path.toList
  let first := s.takeWhile (· != '/')
  if homeMarks.contains (String.ofList first) then FileTree.home.toPath ++ String.ofList (s.drop first.length)
  else path

/-- An address is a path. -/
def isPath (address : String) : Except Fault Bool := do
  return !knownSchemes.contains (← scheme address) && !needsPackage address

/-- The text of the file at an address. -/
def read (address : String) : FileM String := do
  if knownSchemes.contains (← FileM.ofAnswer (scheme address)) then readParts (partsOf address)
  else if needsPackage address then throw (.noPackage "fsspec")
  else FileM.read (expandHome address)

end DegreeGraph.Address
