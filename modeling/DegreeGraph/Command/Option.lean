import DegreeGraph.Datum.Written
import DegreeGraph.Number.Literal
import DegreeGraph.Text.DecimalDigit

/-!
# Options of a command line

An option has one or more names, and most options take a value of a certain kind. An argument names an
option in full, by a beginning that only one option has, or with its value behind an equals sign.

An argument that begins with a hyphen and names nothing is still taken for an option, so that it is not
mistaken for a value; a number with a minus sign, a single hyphen and a text with a space in it are values.
-/

namespace DegreeGraph

open DegreeGraph.Number DegreeGraph.Text

/-- The kinds of values on a command line. -/
inductive ValueKind where
  | integer
  | real
  | text
  /-- One of a list of texts. -/
  | choice (texts : List String)
deriving DecidableEq, Repr

namespace ValueKind

/-- A text is one of those that are allowed. -/
def admits (allowed : List String) (s : String) : Except String Unit :=
  if allowed.contains s then .ok ()
  else
    .error ("invalid choice: " ++ quote s ++ " (choose from "
      ++ ", ".intercalate (allowed.map quote) ++ ")")

/-- The value that an argument gives. -/
def read (kind : ValueKind) (s : String) : Except String Datum :=
  match kind with
  | integer =>
    match readInt? s.toList with
    | some z => .ok (.int z)
    | none => .error ("invalid int value: " ++ quote s)
  | real =>
    match readFloat? s.toList with
    | some x => .ok (.float x)
    | none => .error ("invalid float value: " ++ quote s)
  | text => .ok (.text s)
  | choice allowed => (admits allowed s).map fun _ ↦ .text s

end ValueKind

/-- An option of a command line. -/
structure OptionSpec where
  /-- The names, with their hyphens. -/
  names : List String
  /-- What the value is for. -/
  field : String
  /-- The kind of the value; an option without a value asks for help. -/
  kind : Option ValueKind
deriving DecidableEq, Repr

/-- The name of an option in messages. -/
def OptionSpec.title (o : OptionSpec) : String := "/".intercalate o.names

/-- A way to read an argument as an option. -/
structure OptionUse where
  option : OptionSpec
  /-- The name that was meant. -/
  name : String
  /-- The value in the same argument. -/
  value : Option String
deriving DecidableEq, Repr

/-- What an argument may be on a command line. -/
inductive Token where
  /-- A value. -/
  | word (text : String)
  /-- The two hyphens behind which everything is a value. -/
  | dashes
  /-- An option, which may be unknown. -/
  | option (text : String) (use : Option OptionUse)
deriving DecidableEq, Repr

/-- The token stands for an option. -/
def Token.isOption : Token → Bool
  | option .. => true
  | _ => false

/-- The argument that a token was. -/
def Token.source : Token → String
  | word s => s
  | dashes => "--"
  | option s _ => s

/-! ## Recognition -/

/-- The options under all their names. -/
def namedOptions (options : List OptionSpec) : List (String × OptionSpec) :=
  options.flatMap fun o ↦ o.names.map fun name ↦ (name, o)

/-- The two parts of a text around its first equals sign. -/
def splitAtEquals (s : String) : Option (String × String) :=
  let cs := s.toList
  if cs.contains '=' then
    some (String.ofList (cs.takeWhile (· != '=')), String.ofList ((cs.dropWhile (· != '=')).drop 1))
  else none

/-- A text begins with another. -/
def beginsWith (s start : String) : Bool := start.toList.isPrefixOf s.toList

/-- The options that an argument with two hyphens may begin. -/
def longUses (options : List OptionSpec) (s : String) : List OptionUse :=
  let (start, value) :=
    match splitAtEquals s with
    | some (start, value) => (start, some value)
    | none => (s, none)
  ((namedOptions options).filter fun o ↦ beginsWith o.1 start).map fun o ↦ ⟨o.2, o.1, value⟩

/-- The options that an argument with one hyphen may begin, or whose short name it begins with. -/
def shortUses (options : List OptionSpec) (s : String) : List OptionUse :=
  let short := String.ofList (s.toList.take 2)
  (namedOptions options).filterMap fun o ↦
    if o.1 == short then some ⟨o.2, o.1, some (String.ofList (s.toList.drop 2))⟩
    else if beginsWith o.1 s then some ⟨o.2, o.1, none⟩
    else none

/-- The options that an argument may begin. -/
def usesOf (options : List OptionSpec) (s : String) : List OptionUse :=
  if beginsWith s "--" then longUses options s else shortUses options s

/-- All characters are decimal digits, and there are some. -/
def areDigits (s : List Char) : Bool := !s.isEmpty && s.all fun c ↦ (digitValue? c).isSome

/-- A text is a number with a minus sign, a line end behind it allowed. -/
def isNegativeNumber (s : String) : Bool :=
  match s.toList with
  | '-' :: rest =>
    let rest := if rest.getLast? == some '\n' then rest.dropLast else rest
    let ahead := rest.takeWhile fun c ↦ (digitValue? c).isSome
    areDigits rest
      || match rest.drop ahead.length with
        | '.' :: behind => areDigits behind
        | _ => false
  | _ => false

/-- The option that an argument names exactly, with or without a value. -/
def exactUse? (options : List OptionSpec) (s : String) : Option OptionUse :=
  match (namedOptions options).lookup s with
  | some o => some ⟨o, s, none⟩
  | none =>
    match splitAtEquals s with
    | some (name, value) => ((namedOptions options).lookup name).map fun o ↦ ⟨o, name, some value⟩
    | none => none

/-- What an argument is, or a message if it may begin several options. -/
def tokenOf (options : List OptionSpec) (s : String) : Except String Token :=
  if !beginsWith s "-" then .ok (.word s)
  else
    match exactUse? options s with
    | some use => .ok (.option s (some use))
    | none =>
      if s.length = 1 then .ok (.word s)
      else
        match usesOf options s with
        | [use] => .ok (.option s (some use))
        | [] =>
          if isNegativeNumber s || s.toList.contains ' ' then .ok (.word s) else .ok (.option s none)
        | uses =>
          .error ("ambiguous option: " ++ s ++ " could match "
            ++ ", ".intercalate (uses.map OptionUse.name))

/-- The tokens of arguments; behind two hyphens everything is a value. -/
def tokensOf (options : List OptionSpec) : List String → Except String (List Token)
  | [] => .ok []
  | s :: rest =>
    if s == "--" then .ok (.dashes :: rest.map .word)
    else do
      let token ← tokenOf options s
      let tokens ← tokensOf options rest
      return token :: tokens

end DegreeGraph
