import DegreeGraph.Datum.Written
import DegreeGraph.Packed.Trouble
import DegreeGraph.Text.Utf8

/-!
# What can go wrong

Every failure is one of the causes below. The causes carry what the message needs; the wording is in
one place, `Fault.message`. A few properties of a cause decide how a command reports it:
`Fault.isBadValue`, `Fault.isFileTrouble` and `Fault.isGivenUp`.
-/

namespace DegreeGraph

open DegreeGraph.Text DegreeGraph.Number DegreeGraph.Packed

/-- The comparisons that data of different kinds may refuse. -/
inductive Relation where
  | less
  | greater
  | atMost
  | atLeast
deriving DecidableEq, Repr

/-- The sign of a comparison. -/
def Relation.sign : Relation → String
  | less => "<"
  | greater => ">"
  | atMost => "<="
  | atLeast => ">="

/-- Why an operation on files fails. -/
inductive FileTrouble where
  | missing
  | busy
  | alreadyThere
  | notFolder
  | isFolder
  | nameTooLong
deriving DecidableEq, Repr

/-- The number and the text of a trouble with files. -/
def FileTrouble.text : FileTrouble → String
  | missing => "[Errno 2] No such file or directory"
  | busy => "[Errno 16] Device or resource busy"
  | alreadyThere => "[Errno 17] File exists"
  | notFolder => "[Errno 20] Not a directory"
  | isFolder => "[Errno 21] Is a directory"
  | nameTooLong => "[Errno 36] File name too long"

/-- What is wrong with the name of a computer in an address. -/
inductive HostTrouble where
  /-- Brackets stand alone, or something stands beside them. -/
  | brackets
  /-- No address of a computer is between brackets. -/
  | noNumbers (name : String)
  /-- What is between brackets should be an address of a later version. -/
  | laterVersion
  /-- An address of four numbers is between brackets. -/
  | fourNumbers
  /-- A character stands for one that ends the name. -/
  | foldedEnd (name : String)
deriving DecidableEq, Repr

/-- The text of a trouble with the name of a computer. -/
def HostTrouble.text : HostTrouble → String
  | brackets => "Invalid IPv6 URL"
  | noNumbers name => quote name ++ " does not appear to be an IPv4 or IPv6 address"
  | laterVersion => "IPvFuture address is invalid"
  | fourNumbers => "An IPv4 address cannot be in brackets"
  | foldedEnd name =>
    "netloc '" ++ name ++ "' contains invalid characters under NFKC normalization"

/-- Why the file at an address cannot be had. -/
inductive AddressTrouble where
  /-- An operation on files fails. -/
  | file (trouble : FileTrouble) (path : String)
  /-- No way to have files is known for a scheme. -/
  | unknownScheme (scheme : String)
  /-- The address lacks the name of a computer. -/
  | noHost
  /-- The address lacks the name of a computer with files. -/
  | noFileHost
  /-- The file should be on another computer. -/
  | farFile
  /-- The file may only be on this computer. -/
  | onlyHere
  /-- The name of a computer leads nowhere. -/
  | unresolved
deriving DecidableEq, Repr

/-- The text of a trouble with an address. -/
def AddressTrouble.text : AddressTrouble → String
  | file trouble path => trouble.text ++ ": " ++ quote path
  | unknownScheme scheme => "unknown url type: " ++ scheme
  | noHost => "no host given"
  | noFileHost => "ftp error: no host given"
  | farFile => "file not on local host"
  | onlyHere => "file:// scheme is supported only on localhost"
  | unresolved => "[Errno -3] Temporary failure in name resolution"

/-- The kinds of archives. -/
inductive ArchiveKind where
  | zip
  | tape
deriving DecidableEq, Repr

/-- The name of a kind of archives, and a short one. -/
def ArchiveKind.names : ArchiveKind → String × String
  | zip => ("ZIP file", "ZIP")
  | tape => ("TAR archive", "TAR archive")

/-- The cause of a failure. -/
inductive Fault where
  /-- An entry is not an integer. -/
  | notInteger (kind : Kind)
  /-- A sequence is asked of a datum that is none. -/
  | notSequence (kind : Kind)
  /-- An edge is not a sequence. -/
  | notPair (kind : Kind)
  /-- An edge has fewer than two ends. -/
  | tooFewEnds (count : Nat)
  /-- An edge has more than two ends. -/
  | tooManyEnds
  /-- Two data have no order. -/
  | incomparable (relation : Relation) (left right : Kind)
  /-- A datum cannot be looked up. -/
  | notKey (kind : Kind)
  /-- A list is indexed by a datum that is no integer. -/
  | notIndex (kind : Kind)
  /-- A list is repeated a number of times that is no integer. -/
  | notCount (kind : Kind)
  /-- The number of items is asked of a datum that is no sequence. -/
  | notSized (kind : Kind)
  /-- What only texts have is asked of a datum that is none. -/
  | notText (kind : Kind) (asked : String)
  /-- A list has no entry at an index. -/
  | indexOutOfRange
  /-- An index is beyond what an index can be. -/
  | indexTooLarge
  /-- A number of repetitions is beyond what it can be. -/
  | countTooLarge
  /-- There is no room for a list, or for bytes. -/
  | noRoom
  /-- An integer is added to a datum that is no number. -/
  | notSummand (kind : Kind)
  /-- No feasibility test has the name; the known names follow. -/
  | unknownTest (name : Datum) (known : List String)
  /-- No simple graph has the degrees. -/
  | notGraphical (sequence : Option (List Datum)) (text : Datum)
  /-- The sampler gave up at a pivot. -/
  | exhausted (pivot attempts restarts : Datum)
  /-- A failure without a cause of its own. -/
  | unspecified (details : List Datum)
  /-- A constructor lacks arguments. -/
  | missingArguments (callee : String) (names : List String)
  /-- A constructor has too many arguments. -/
  | tooManyArguments (callee : String) (least most given : Nat)
  /-- A constructor does not know an argument. -/
  | unknownArgument (callee name : String)
  /-- A setting cannot be assigned. -/
  | frozenSetting (name : String)
  /-- A token of a degree list is not an integer literal. -/
  | notDegree (token : String)
  /-- A table lacks a column; its columns follow. -/
  | noColumn (column : Datum) (path : String) (columns : List String)
  /-- Rows of a table hold no number. -/
  | notNumeric (path : String) (rows : List Int)
  /-- A column of a table holds a number with a fraction. -/
  | notIntegral (column path : String)
  /-- A table has no columns at all. -/
  | emptyTable
  /-- A row of a table has more fields than the rows above it. -/
  | raggedRow (expected line saw : Nat)
  /-- A quoted field of a table is not closed. -/
  | openQuote (row : Nat)
  /-- What is written so is not an integer literal. -/
  | notIntegerLiteral (written : String)
  /-- An integer has too many digits: to be read from a literal, which has so many, or to be written. -/
  | tooManyDigits (count : Option Nat)
  /-- An integer is asked of a datum that is neither a number nor a text. -/
  | notNumber (kindName : String)
  /-- An integer is asked of the number that is none. -/
  | notANumber
  /-- An integer is asked of an infinite number. -/
  | infiniteNumber
  /-- An integer is beyond every finite double. -/
  | oversizedForDouble
  /-- Numbers with a fraction in a column of integers. -/
  | fractionalIds
  /-- Infinite numbers in a column of integers. -/
  | infiniteIds
  /-- Data that are not the same as the integers that they are read as. -/
  | mixedIds
  /-- Integers of 64 bits without a sign in a column of integers with one. -/
  | unsignedIds
  /-- Integers of more than 64 bits in a column of integers. -/
  | oversizedIds
  /-- A datum that cannot be a node. -/
  | notNode
  /-- An edge of a graph has neither two nor three parts. -/
  | notEdge (edge : String)
  /-- A text is not the literal of a number. -/
  | notFloatLiteral (literal : String)
  /-- A number is asked of a datum that is neither a number nor a text. -/
  | notReal (kind : Kind)
  /-- A path is asked of a datum that is no text. -/
  | notPath (kind : Kind)
  /-- A table is asked of a datum that is no text. -/
  | notReadable (kind : Kind)
  /-- Lists that should make an array have a shape in common, and then no more. -/
  | unevenShape (shape : List Nat)
  /-- An array has another shape than a list of some length. -/
  | otherShape (shape : List Nat) (length : Nat)
  /-- An attribute list of an edge holds an item that is no sequence. -/
  | attributeNotSequence (position : Nat)
  /-- An attribute list of an edge holds an item that is no pair. -/
  | attributeNotPair (position length : Nat)
  /-- A loop is at a node that has no place. -/
  | lostPlace
  /-- The number of nodes is negative. -/
  | negativeCount (n : Datum)
  /-- The exponent is at most one. -/
  | flatExponent (gamma : Datum)
  /-- The least degree is not between zero and the cap. -/
  | leastDegreeOutOfRange (cap least : Datum)
  /-- No sample passed. -/
  | noSample (attempts n gamma : Datum)
  /-- An edge of a store names a node that it does not have. -/
  | unknownHandle (a b : Datum)
  /-- The store refuses to create edges. -/
  | storeGone
  /-- A transaction is opened inside another. -/
  | nestedTransaction
  /-- A key property is the name of a parameter of node creation. -/
  | reservedProperty (property : String)
  /-- A key property is no text. -/
  | notKeyword
  /-- A failure that is told by its kind and text; what a failed look-up asked for is quoted. -/
  | raised (kind text : String)
  /-- A file operation fails. -/
  | file (trouble : FileTrouble) (path : String) (target : Option String)
  /-- A path holds the character of code zero. -/
  | zeroInPath
  /-- Degrees are given twice. -/
  | twoInputs
  /-- A datum that no draws can start from. -/
  | notSeed
  /-- A datum that no layout can start from. -/
  | notLayoutSeed (seed : Datum)
  /-- An integer that no layout can start from. -/
  | layoutSeedOutOfRange
  /-- A degree is too large to be drawn. -/
  | oversizedBar
  /-- A file does not begin like one in the gzip format, but with these bytes. -/
  | notGzip (start : List UInt8)
  /-- A file in the bzip format is damaged. -/
  | brokenStream
  /-- A packed file is cut off. -/
  | streamEnded
  /-- A file is no LZMA file. -/
  | badLzma (trouble : LzmaTrouble)
  /-- A deflated stream is damaged. -/
  | badDeflate (trouble : DeflateTrouble)
  /-- A file is no zip archive, or a damaged one. -/
  | badZip (trouble : ZipTrouble)
  /-- A zip archive asks for more than is known. -/
  | unknownZip (demand : ZipDemand)
  /-- A member of a zip archive is locked. -/
  | locked (name : String)
  /-- A file has no such place. -/
  | noPlace
  /-- A place in memory is negative. -/
  | negativePlace (place : Int)
  /-- A place in a file has more than 64 bits. -/
  | farPlace
  /-- A place in memory has more than 64 bits. -/
  | farOffset
  /-- A negative number of bytes is asked for. -/
  | negativeLength
  /-- A number of bytes that is asked for has more than 64 bits. -/
  | farLength
  /-- A block ends before a field of it begins. -/
  | shortBlock
  /-- A line has no end. -/
  | openLine
  /-- A link leads to itself. -/
  | endlessLink
  /-- A file is no tape archive, neither packed in one of three ways nor as it is. -/
  | notTape (gzip bzip lzma : Option TapeTrouble) (plain : TapeTrouble)
  /-- A tape archive is damaged behind its first member. -/
  | badTape (trouble : TapeTrouble)
  /-- A tape archive has no member of a name, which may be that of a link. -/
  | noMember (asked : String) (name : List UInt8)
  /-- A member of a tape archive holds no bytes. -/
  | notFile
  /-- An archive has no members. -/
  | noMembers (kind : ArchiveKind) (path : String)
  /-- An archive has several members, whose names are written so. -/
  | manyMembers (kind : ArchiveKind) (written : List String)
  /-- Bytes are no text. -/
  | notUtf8 (run : Utf8.BadRun)
  /-- The file at an address cannot be had. -/
  | notOpened (trouble : AddressTrouble)
  /-- The name of a computer in an address is bad. -/
  | badAddress (trouble : HostTrouble)
  /-- A library is not there. -/
  | noLibrary (name : String)
  /-- A package that some files need is not there. -/
  | noPackage (name : String)

namespace Fault

/-- The message of a graph that does not exist. -/
def notGraphicalText : String := "the supplied distribution is not graphical"

/-- The failure that reports degrees without a realization. -/
def notRealizable (degrees : List Int) : Fault :=
  notGraphical (some (degrees.map .int)) (.text notGraphicalText)

/-- Names in a message: `'a'`, `'a' and 'b'`, `'a', 'b', and 'c'`. -/
def enumerated : List String → String
  | [] => ""
  | [a] => quote a
  | [a, b] => quote a ++ " and " ++ quote b
  | names =>
    ", ".intercalate ((names.take (names.length - 1)).map quote) ++ ", and "
      ++ quote (names.getLastD "")

/-- The wording of the arguments that are missing. -/
def missingText (callee : String) (names : List String) : String :=
  callee ++ " missing " ++ toString names.length ++ " required positional argument"
    ++ (if names.length = 1 then "" else "s") ++ ": " ++ enumerated names

/-- The wording of arguments that are too many, the receiver counted. -/
def tooManyText (callee : String) (least most given : Nat) : String :=
  callee ++ " takes " ++ (if least = most then toString most
    else "from " ++ toString least ++ " to " ++ toString most)
    ++ " positional arguments but " ++ toString given ++ " were given"

/-- The wording of details: nothing, the one detail, or all of them between parentheses. -/
def unspecifiedText : List Datum → String
  | [] => ""
  | [d] => d.display
  | ds => "(" ++ Datum.writtenItems ds ++ ")"

/-- The wording of a property that is the name of a parameter. -/
def reservedText (property : String) : String :=
  if property = "label" then
    "networkx.classes.graph.Graph.add_node() got multiple values for keyword argument 'label'"
  else "Graph.add_node() got multiple values for argument " ++ quote property

/-- The wording of a file that is no tape archive, neither packed in one of three ways nor as it is. -/
def notTapeText (gzip bzip lzma : Option TapeTrouble) (plain : TapeTrouble) : String :=
  let line (method text : String) : String :=
    "\n- method " ++ method ++ ": ReadError(" ++ quote text ++ ")"
  let packed (method otherwise : String) (trouble : Option TapeTrouble) : String :=
    line method ((trouble.map TapeTrouble.text).getD otherwise)
  "file could not be opened successfully:" ++ packed "gz" "not a gzip file" gzip
    ++ packed "bz2" "not a bzip2 file" bzip ++ packed "xz" "not an lzma file" lzma
    ++ line "tar" plain.text

/-- The wording of bytes that are no text. -/
def notUtf8Text (run : Utf8.BadRun) : String :=
  let place := toString run.place
  let what := match run.bytes with
    | [b] => "byte 0x" ++ String.ofList (hexDigits 2 b.toNat) ++ " in position " ++ place
    | bytes => "bytes in position " ++ place ++ "-" ++ toString (run.place + bytes.length - 1)
  "'utf-8' codec can't decode " ++ what ++ ": " ++ run.flaw.text

/-- The wording of an integer that is added to what is no number. -/
def notSummandText (k : Kind) : String :=
  match k with
  | .text | .list =>
    "can only concatenate " ++ k.name ++ " (not \"int\") to " ++ k.name
  | _ => "unsupported operand type(s) for +: " ++ quote k.name ++ " and 'int'"

/-- The wording of a shape; a single size is followed by a comma. -/
def shapeText (between : String) (shape : List Nat) : String :=
  "(" ++ between.intercalate (shape.map toString) ++ (if shape.length = 1 then ",)" else ")")

/-- The beginning of a text that is quoted in full only if it is short. -/
def shortened (s : String) : String := String.ofList (s.toList.take 200)

/-- The wording of an integer with too many digits. -/
def tooManyDigitsText (count : Option Nat) : String :=
  let size := match count with
    | some n => ": value has " ++ toString n ++ " digits"
    | none => ""
  "Exceeds the limit (" ++ toString digitLimit ++ " digits) for integer string conversion" ++ size
    ++ "; use sys.set_int_max_str_digits() to increase the limit"

/-- The wording of a failure. -/
def message : Fault → String
  | notInteger k => quote k.name ++ " object cannot be interpreted as an integer"
  | notSequence k => quote k.name ++ " object is not iterable"
  | notPair k => "cannot unpack non-iterable " ++ k.name ++ " object"
  | tooFewEnds n => "not enough values to unpack (expected 2, got " ++ toString n ++ ")"
  | tooManyEnds => "too many values to unpack (expected 2)"
  | incomparable relation left right =>
    quote relation.sign ++ " not supported between instances of " ++ quote left.name ++ " and "
      ++ quote right.name
  | notKey k => "unhashable type: " ++ quote k.name
  | notIndex k => "list indices must be integers or slices, not " ++ k.name
  | notCount k => "can't multiply sequence by non-int of type " ++ quote k.name
  | notSized k => "object of type " ++ quote k.name ++ " has no len()"
  | notText k asked => quote k.name ++ " object has no attribute " ++ quote asked
  | indexOutOfRange => "list index out of range"
  | indexTooLarge => "cannot fit 'int' into an index-sized integer"
  | countTooLarge => "cannot fit 'int' into an index-sized integer"
  | noRoom => ""
  | notSummand k => notSummandText k
  | unknownTest name known =>
    "unknown feasibility test: " ++ name.written ++ " (expected one of " ++ writtenTexts known ++ ")"
  | notGraphical _ text => text.display
  | exhausted pivot attempts restarts =>
    "edge sampling exhausted at pivot " ++ pivot.display ++ " after " ++ attempts.display
      ++ " attempts (" ++ restarts.display ++ " restart(s))"
  | unspecified details => unspecifiedText details
  | missingArguments callee names => missingText callee names
  | tooManyArguments callee least most given => tooManyText callee least most given
  | unknownArgument callee name => callee ++ " got an unexpected keyword argument " ++ quote name
  | frozenSetting name => "cannot assign to field " ++ quote name
  | notDegree token => "not an integer degree: " ++ quote token
  | noColumn column path columns =>
    "column " ++ column.written ++ " not found in " ++ path ++ " (columns: " ++ writtenTexts columns
      ++ ")"
  | notNumeric path rows =>
    "non-numeric or missing degrees in " ++ path ++ " at rows "
      ++ (Datum.list (rows.map .int)).written
  | notIntegral column path => "non-integral degrees in column " ++ quote column ++ " of " ++ path
  | emptyTable => "No columns to parse from file"
  | raggedRow expected line saw =>
    "Error tokenizing data. C error: Expected " ++ toString expected ++ " fields in line "
      ++ toString line ++ ", saw " ++ toString saw ++ "\n"
  | openQuote row =>
    "Error tokenizing data. C error: EOF inside string starting at row " ++ toString row
  | notIntegerLiteral written => "invalid literal for int() with base 10: " ++ shortened written
  | tooManyDigits count => tooManyDigitsText count
  | notNumber k =>
    "int() argument must be a string, a bytes-like object or a real number, not " ++ quote k
  | notANumber => "cannot convert float NaN to integer"
  | infiniteNumber => "cannot convert float infinity to integer"
  | oversizedForDouble => "int too large to convert to float"
  | fractionalIds => "Trying to coerce float values to integers"
  | infiniteIds => "Cannot convert non-finite values (NA or inf) to integer"
  | mixedIds => "Trying to coerce object values to integers"
  | unsignedIds => "values cannot be losslessly cast to int64"
  | oversizedIds => "The elements provided in the data cannot all be casted to the dtype int64"
  | notNode => "None cannot be a node"
  | notEdge edge => "Edge tuple " ++ edge ++ " must be a 2-tuple or 3-tuple."
  | notFloatLiteral literal => "could not convert string to float: " ++ quote literal
  | notReal k => "float() argument must be a string or a real number, not " ++ quote k.name
  | notPath k => "expected str, bytes or os.PathLike object, not " ++ k.name
  | notReadable k => "Invalid file path or buffer object type: <class " ++ quote k.name ++ ">"
  | unevenShape shape =>
    "setting an array element with a sequence. The requested array has an inhomogeneous shape after "
      ++ toString shape.length ++ " dimensions. The detected shape was " ++ shapeText ", " shape
      ++ " + inhomogeneous part."
  | otherShape shape length =>
    "shape mismatch: value array of shape " ++ shapeText "," shape
      ++ " could not be broadcast to indexing result of shape " ++ shapeText "," [length]
  | attributeNotSequence position =>
    "cannot convert dictionary update sequence element #" ++ toString position ++ " to a sequence"
  | attributeNotPair position length =>
    "dictionary update sequence element #" ++ toString position ++ " has length " ++ toString length
      ++ "; 2 is required"
  | lostPlace => ""
  | negativeCount n => "n must be >= 0, got " ++ n.display
  | flatExponent gamma => "gamma must be > 1, got " ++ gamma.display
  | leastDegreeOutOfRange cap least =>
    "min_degree must lie in [0, " ++ cap.display ++ "], got " ++ least.display
  | noSample attempts n gamma =>
    "powerlaw_degree_sequence: no graphical sample in " ++ attempts.display ++ " attempts (n="
      ++ n.display ++ ", gamma=" ++ gamma.display ++ ")"
  | unknownHandle a b =>
    quote ("unknown node handle in edge (" ++ a.display ++ ", " ++ b.display ++ ")")
  | storeGone => "store went away"
  | nestedTransaction => "nested transactions are not supported"
  | reservedProperty property => reservedText property
  | notKeyword => "keywords must be strings"
  | raised kind text => if kind = "KeyError" then quote text else text
  | file trouble path none => trouble.text ++ ": " ++ quote path
  | file trouble path (some target) =>
    trouble.text ++ ": " ++ quote path ++ " -> " ++ quote target
  | zeroInPath => "embedded null byte"
  | twoInputs => "pass degrees either inline or with --file, not both"
  | notSeed =>
    "The only supported seed types are: None,\nint, float, str, bytes, and bytearray."
  | notLayoutSeed seed =>
    seed.display ++ " cannot be used to create a numpy.random.RandomState or\n"
      ++ "numpy.random.Generator instance"
  | layoutSeedOutOfRange => "Seed must be between 0 and 2**32 - 1"
  | oversizedBar => "Python int too large to convert to C long"
  | notGzip start => "Not a gzipped file (" ++ quoteBytes start ++ ")"
  | brokenStream => "Invalid data stream"
  | streamEnded => "Compressed file ended before the end-of-stream marker was reached"
  | badLzma trouble => trouble.text
  | badDeflate trouble => "Error -3 while decompressing data: " ++ trouble.text
  | badZip trouble => trouble.text
  | unknownZip demand => demand.text
  | locked name => "File " ++ quote name ++ " is encrypted, password required for extraction"
  | noPlace => "[Errno 22] Invalid argument"
  | negativePlace place => "negative seek value " ++ writeInt place
  | farPlace => "cannot fit 'int' into an offset-sized integer"
  | farOffset => "Python int too large to convert to C ssize_t"
  | farLength => "cannot fit 'int' into an index-sized integer"
  | negativeLength => "read length must be non-negative or -1"
  | openLine => "not enough values to unpack (expected 2, got 1)"
  | shortBlock => "index out of range"
  | endlessLink => "maximum recursion depth exceeded"
  | notTape gzip bzip lzma plain => notTapeText gzip bzip lzma plain
  | badTape trouble => trouble.text
  | noMember asked name => quote (asked ++ " " ++ quoteLoose name ++ " not found")
  | notFile => ""
  | noMembers kind path => "Zero files found in " ++ kind.names.1 ++ " " ++ path
  | manyMembers kind written =>
    "Multiple files found in " ++ kind.names.1 ++ ". Only one file per " ++ kind.names.2 ++ ": ["
      ++ ", ".intercalate written ++ "]"
  | notUtf8 run => notUtf8Text run
  | notOpened trouble => "<urlopen error " ++ trouble.text ++ ">"
  | badAddress trouble => trouble.text
  | noLibrary name => "No module named " ++ quote name
  | noPackage name =>
    "\x60Import " ++ name ++ "\x60 failed.  Use pip, conda, or your preferred package management tool to install the "
      ++ name ++ " package."

/-- The failure lies in a value that was given. -/
def isBadValue : Fault → Bool
  | tooFewEnds _ | tooManyEnds | unknownTest .. | notGraphical .. | notDegree _ | noColumn ..
  | notNumeric .. | notIntegral .. | emptyTable | raggedRow .. | openQuote _
  | notIntegerLiteral _ | tooManyDigits _ | notANumber | fractionalIds | infiniteIds | mixedIds
  | unsignedIds | notNode | attributeNotPair .. | notFloatLiteral _ | unevenShape _ | otherShape ..
  | negativeCount _ | flatExponent _ | leastDegreeOutOfRange .. | zeroInPath | twoInputs
  | notLayoutSeed _ | layoutSeedOutOfRange | noMembers .. | manyMembers .. | notUtf8 _
  | notReadable _ | badAddress _ | negativePlace _ | farPlace | negativeLength
  | openLine => true
  | raised kind _ => kind == "ValueError"
  | _ => false

/-- The failure lies with the files. -/
def isFileTrouble : Fault → Bool
  | file .. | storeGone | notGzip _ | brokenStream | noPlace | notOpened _ => true
  | raised kind _ => kind == "OSError"
  | _ => false

/-- The failure is that of a search that was given up. -/
def isGivenUp : Fault → Bool
  | exhausted .. | noSample .. | nestedTransaction => true
  | raised kind _ => kind == "RuntimeError"
  | _ => false

end Fault

/-- The integer of a literal that is written in some way; too many digits at its beginning fail before anything
behind them. -/
def integerOf (written : String) (literal : List Char) : Except Fault Int :=
  match readInt? literal, leadingSize? literal with
  | some z, _ => .ok z
  | none, some count =>
    .error (if digitLimit < count then .tooManyDigits (some count) else .notIntegerLiteral written)
  | none, none => .error (.notIntegerLiteral written)

/-- The integer of a literal in a text. -/
def integerIn (s : String) : Except Fault Int := integerOf (quote s) s.toList

/-- The form of a datum that stands alone, if it can be written. -/
def Datum.shown (d : Datum) : Except Fault String :=
  if d.isWritable then .ok d.display else .error (.tooManyDigits none)

end DegreeGraph
