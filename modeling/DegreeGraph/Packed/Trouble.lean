import DegreeGraph.Text.Quoted

/-!
# What is wrong with packed files

The ways in which a packed stream, or an archive of files, fails to follow its format.
-/

namespace DegreeGraph.Packed

open DegreeGraph.Text

/-- What is wrong with a deflated stream. -/
inductive DeflateTrouble where
  | blockKind
  | storedLength
  | tooManySymbols
  | lengthCode
  | repetition
  | noEnd
  | literalCode
  | distanceCode
  | literal
  | distance
  | farDistance
deriving DecidableEq, Repr

/-- The text of a trouble with a deflated stream. -/
def DeflateTrouble.text : DeflateTrouble → String
  | blockKind => "invalid block type"
  | storedLength => "invalid stored block lengths"
  | tooManySymbols => "too many length or distance symbols"
  | lengthCode => "invalid code lengths set"
  | repetition => "invalid bit length repeat"
  | noEnd => "invalid code -- missing end-of-block"
  | literalCode => "invalid literal/lengths set"
  | distanceCode => "invalid distances set"
  | literal => "invalid literal/length code"
  | distance => "invalid distance code"
  | farDistance => "invalid distance too far back"

/-- What is wrong with an LZMA stream. -/
inductive LzmaTrouble where
  | format
  | options
  | corrupt
deriving DecidableEq, Repr

/-- The text of a trouble with an LZMA stream. -/
def LzmaTrouble.text : LzmaTrouble → String
  | format => "Input format not supported by decoder"
  | options => "Invalid or unsupported options"
  | corrupt => "Corrupt input data"

/-- The numbers of a member of a zip archive that may stand in a large field. -/
inductive ZipNumber where
  | size
  | packedSize
  | place
deriving DecidableEq, Repr

/-- The name of a number of a member. -/
def ZipNumber.name : ZipNumber → String
  | size => "File size"
  | packedSize => "Compress size"
  | place => "Header offset"

/-- What is wrong with a zip archive. -/
inductive ZipTrouble where
  | noEnd
  /-- The archive goes on elsewhere. -/
  | disks
  | badOffset
  | shortDirectory
  | directoryMark
  /-- An extra field of some kind is longer than what is left. -/
  | extra (kind size : Nat)
  /-- A large field is too short for a number. -/
  | noNumber (number : ZipNumber)
  | shortHeader
  | headerMark
  /-- The directory and a header name a member differently. -/
  | names (listed : String) (found : List UInt8)
  /-- The bytes of a member go beyond the place where the directory begins. -/
  | overlap (listed : String)
  /-- The bytes of a member have another checksum. -/
  | checksum (name : String)
deriving DecidableEq, Repr

/-- The text of a trouble with a zip archive. -/
def ZipTrouble.text : ZipTrouble → String
  | noEnd => "File is not a zip file"
  | disks => "zipfiles that span multiple disks are not supported"
  | badOffset => "Bad offset for central directory"
  | shortDirectory => "Truncated central directory"
  | directoryMark => "Bad magic number for central directory"
  | extra kind size =>
    "Corrupt extra field " ++ String.ofList (hexDigits 4 kind) ++ " (size=" ++ toString size ++ ")"
  | noNumber number => "Corrupt zip64 extra field. " ++ number.name ++ " not found."
  | shortHeader => "Truncated file header"
  | headerMark => "Bad magic number for file header"
  | names listed found =>
    "File name in directory " ++ quote listed ++ " and header " ++ quoteBytes found ++ " differ."
  | overlap listed => "Overlapped entries: " ++ quote listed ++ " (possible zip bomb)"
  | checksum name => "Bad CRC-32 for file " ++ quote name

/-- What a zip archive asks for in vain. -/
inductive ZipDemand where
  /-- A later version of the format, in tenths. -/
  | version (tenths : Nat)
  | patches
  | encryption
  | method
deriving DecidableEq, Repr

/-- The text of a demand. -/
def ZipDemand.text : ZipDemand → String
  | version tenths => "zip file version " ++ toString (tenths / 10) ++ "." ++ toString (tenths % 10)
  | patches => "compressed patched data (flag bit 5)"
  | encryption => "strong encryption (flag bit 6)"
  | method => "That compression method is not supported"

/-- What is wrong with a tape archive. -/
inductive TapeTrouble where
  /-- There are no bytes at all. -/
  | empty
  /-- A header is cut off. -/
  | short
  /-- A header holds what is no number. -/
  | header
  /-- A header has another checksum. -/
  | sum
  /-- The bytes of a member are cut off. -/
  | data
  /-- A header that should follow is not there. -/
  | noHeader
  /-- The archive ends where a header should follow. -/
  | ended
deriving DecidableEq, Repr

/-- The text of a trouble with a tape archive. -/
def TapeTrouble.text : TapeTrouble → String
  | empty => "empty file"
  | short => "truncated header"
  | header => "invalid header"
  | sum => "bad checksum"
  | data => "unexpected end of data"
  | noHeader => "empty header"
  | ended => "end of file header"

end DegreeGraph.Packed
