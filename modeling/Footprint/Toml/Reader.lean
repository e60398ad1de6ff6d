import Footprint.Toml.Scalar
import Footprint.Toml.Value

namespace Footprint.Toml

def isSpace (c : Char) : Bool :=
  c == ' ' || c == '\t'

def dropSpace (cs : List Char) : List Char :=
  cs.dropWhile isSpace

/-- Characters of comments and of strings on one line: no control characters but the tab. -/
def isPlain (c : Char) : Bool :=
  c == '\t' || (32 ≤ c.toNat && c.toNat != 127)

/-- The text after a line break. -/
def newline? : List Char → Option (List Char)
  | '\n' :: cs => some cs
  | '\r' :: '\n' :: cs => some cs
  | _ => none

def dropComment : List Char → List Char
  | '#' :: cs => cs.dropWhile isPlain
  | cs => cs

/-- What follows the end of a line, where blanks and a comment may precede the break. -/
def endOfLine? (cs : List Char) : Option (List Char) :=
  match dropComment (dropSpace cs) with
  | [] => some []
  | cs => newline? cs

/-- Drops blanks, comments and line breaks, as between the items of an array. -/
def dropLines : Nat → List Char → List Char
  | 0, cs => cs
  | fuel + 1, cs =>
    match newline? (dropComment (dropSpace cs)) with
    | some rest => dropLines fuel rest
    | none => dropSpace cs

def scalarValue? (n : Nat) : Option Char :=
  if n < 0xD800 ∨ (0xE000 ≤ n ∧ n < 0x110000) then some (Char.ofNat n) else none

def hexEscape? (count : Nat) (cs : List Char) : Option (Char × List Char) :=
  let ds := cs.take count
  if ds.length = count ∧ ds.all isHex then
    (scalarValue? (valueInBase 16 ds)).map fun c => (c, cs.drop count)
  else none

/-- The character named after a backslash. -/
def escape? : List Char → Option (Char × List Char)
  | 'b' :: cs => some ('\x08', cs)
  | 't' :: cs => some ('\t', cs)
  | 'n' :: cs => some ('\n', cs)
  | 'f' :: cs => some ('\x0c', cs)
  | 'r' :: cs => some ('\r', cs)
  | '"' :: cs => some ('"', cs)
  | '\\' :: cs => some ('\\', cs)
  | 'u' :: cs => hexEscape? 4 cs
  | 'U' :: cs => hexEscape? 8 cs
  | _ => none

/-- The rest of a string in quotes, after the opening one. -/
def basicString : Nat → List Char → Option (List Char × List Char)
  | 0, _ => none
  | fuel + 1, cs =>
    match cs with
    | '"' :: rest => some ([], rest)
    | '\\' :: rest => do
      let (c, rest) ← escape? rest
      let (s, rest) ← basicString fuel rest
      some (c :: s, rest)
    | c :: rest =>
      if isPlain c then (basicString fuel rest).map fun (s, rest) => (c :: s, rest) else none
    | [] => none

/-- The rest of a string in apostrophes, which knows no escapes. -/
def literalString : List Char → Option (List Char × List Char)
  | '\'' :: rest => some ([], rest)
  | c :: rest =>
    if isPlain c then (literalString rest).map fun (s, rest) => (c :: s, rest) else none
  | [] => none

def dropBreaks : Nat → List Char → List Char
  | 0, cs => cs
  | fuel + 1, cs =>
    match newline? (dropSpace cs) with
    | some rest => dropBreaks fuel rest
    | none => dropSpace cs

/-- A backslash at the end of a line joins it to the next text. -/
def joinedLine? (cs : List Char) : Option (List Char) :=
  (newline? (dropSpace cs)).map fun rest => dropBreaks (rest.length + 1) rest

/-- The rest of a text over several lines, after its three opening marks. Up to two marks may
stand directly before the three closing ones. -/
def multiline (mark : Char) (escapes : Bool) : Nat → List Char → Option (List Char × List Char)
  | 0, _ => none
  | fuel + 1, cs =>
    let marks := (cs.takeWhile (· == mark)).length
    if 3 ≤ marks then
      if marks ≤ 5 then some (List.replicate (marks - 3) mark, cs.drop marks) else none
    else
      match cs with
      | [] => none
      | c :: rest =>
        if escapes && c == '\\' then
          match joinedLine? rest with
          | some rest => multiline mark escapes fuel rest
          | none => do
            let (c, rest) ← escape? rest
            let (s, rest) ← multiline mark escapes fuel rest
            some (c :: s, rest)
        else
          match newline? cs with
          | some rest => (multiline mark escapes fuel rest).map fun (s, rest) => ('\n' :: s, rest)
          | none =>
            if isPlain c then
              (multiline mark escapes fuel rest).map fun (s, rest) => (c :: s, rest)
            else none

def multilineBody (mark : Char) (escapes : Bool) (cs : List Char) :
    Option (List Char × List Char) :=
  let cs := (newline? cs).getD cs
  multiline mark escapes (cs.length + 1) cs

def string? : List Char → Option (List Char × List Char)
  | '"' :: '"' :: '"' :: cs => multilineBody '"' true cs
  | '\'' :: '\'' :: '\'' :: cs => multilineBody '\'' false cs
  | '"' :: cs => basicString (cs.length + 1) cs
  | '\'' :: cs => literalString cs
  | _ => none

def isBareKey (c : Char) : Bool :=
  c.isAlphanum || c == '_' || c == '-'

def simpleKey? : List Char → Option (String × List Char)
  | '"' :: cs => (basicString (cs.length + 1) cs).map fun (s, rest) => (String.ofList s, rest)
  | '\'' :: cs => (literalString cs).map fun (s, rest) => (String.ofList s, rest)
  | cs =>
    let name := cs.takeWhile isBareKey
    if name.isEmpty then none else some (String.ofList name, cs.drop name.length)

/-- How many names a key may have, and how many arrays and tables in braces may lie in one
another. -/
def maxDepth : Nat := 79

/-- Names with points between them: those before the last, and the last. -/
def dottedNames : Nat → List Char → Option (List String × String × List Char)
  | 0, _ => none
  | fuel + 1, cs => do
    let (name, cs) ← simpleKey? (dropSpace cs)
    match dropSpace cs with
    | '.' :: rest =>
      let (path, last, rest) ← dottedNames fuel rest
      some (name :: path, last, rest)
    | rest => some ([], name, rest)

/-- A key with the path before its last name. -/
def key? (cs : List Char) : Option (List String × String × List Char) :=
  (dottedNames (cs.length + 1) cs).filter fun (path, _) => path.length < maxDepth

def isScalarChar (c : Char) : Bool :=
  c.isAlphanum || c == '+' || c == '-' || c == '_' || c == '.' || c == ':'

def ofScalar : Scalar → Value
  | .integer n => .integer n
  | .float x => .float x
  | .boolean b => .boolean b
  | .datetime text => .datetime text

/-- A scalar; between a date and a time there may be a blank. -/
def readScalar (cs : List Char) : Option (Value × List Char) :=
  let word := cs.takeWhile isScalarChar
  let rest := cs.drop word.length
  let withTime := match rest with
    | ' ' :: more =>
      let time := more.takeWhile isScalarChar
      if date? word == some [] && !time.isEmpty then
        (scalar? (word ++ ' ' :: time)).map fun v => (ofScalar v, more.drop time.length)
      else none
    | _ => none
  withTime.orElse fun _ => (scalar? word).map fun v => (ofScalar v, rest)

mutual

/-- A value and what follows it; `depth` more arrays and tables may open inside one another. -/
def readValue : Nat → Nat → List Char → Option (Value × List Char)
  | 0, _, _ => none
  | fuel + 1, depth, cs =>
    match cs with
    | '"' :: _ | '\'' :: _ => (string? cs).map fun (s, rest) => (.string (String.ofList s), rest)
    | '[' :: rest =>
      match depth with
      | 0 => none
      | depth + 1 =>
        (readItems fuel depth (dropLines rest.length rest)).map fun (items, rest) =>
          (.array items, rest)
    | '\x7b' :: rest =>
      match depth, dropSpace rest with
      | 0, _ => none
      | _ + 1, '\x7d' :: rest => some (.table .braces [], rest)
      | depth + 1, rest =>
        (readFields fuel depth [] rest).map fun (fields, rest) => (.table .braces fields, rest)
    | cs => readScalar cs

/-- The items of an array up to its bracket. A comma may follow the last one. -/
def readItems : Nat → Nat → List Char → Option (List Value × List Char)
  | 0, _, _ => none
  | fuel + 1, depth, cs =>
    match cs with
    | ']' :: rest => some ([], rest)
    | cs =>
      match readValue fuel depth cs with
      | none => none
      | some (value, rest) =>
        match dropLines rest.length rest with
        | ',' :: rest =>
          (readItems fuel depth (dropLines rest.length rest)).map fun (items, rest) =>
            (value :: items, rest)
        | ']' :: rest => some ([value], rest)
        | _ => none

/-- The fields of a table in braces. -/
def readFields : Nat → Nat → Fields → List Char → Option (Fields × List Char)
  | 0, _, _, _ => none
  | fuel + 1, depth, fields, cs =>
    match key? cs with
    | none => none
    | some (path, name, rest) =>
      match rest with
      | '=' :: rest =>
        match readValue fuel depth (dropSpace rest) with
        | none => none
        | some (value, rest) =>
          match fields.addKey path name value .braces with
          | none => none
          | some fields =>
            match dropSpace rest with
            | ',' :: rest => readFields fuel depth fields rest
            | '\x7d' :: rest => some (fields, rest)
            | _ => none
      | _ => none

end

/-- What has been read of a document: its fields and the path of the table now open. -/
structure Progress where
  fields : Fields
  current : List String

/-- Reads a header in single or double brackets. -/
def readHeader (p : Progress) (cs : List Char) : Option (Progress × List Char) :=
  match cs with
  | '[' :: cs => do
    let (path, name, rest) ← key? cs
    let fields ← p.fields.openItem path name
    match rest with
    | ']' :: ']' :: rest => some (⟨fields, path ++ [name]⟩, ← endOfLine? rest)
    | _ => none
  | cs => do
    let (path, name, rest) ← key? cs
    let fields ← p.fields.openTable path name
    match rest with
    | ']' :: rest => some (⟨fields, path ++ [name]⟩, ← endOfLine? rest)
    | _ => none

/-- Reads a key and its value into the table now open. -/
def readField (p : Progress) (cs : List Char) : Option (Progress × List Char) := do
  let (path, name, rest) ← key? cs
  let rest ← expect '=' rest
  let rest := dropSpace rest
  let (value, rest) ← readValue (2 * rest.length + 2) maxDepth rest
  let fields ← Fields.alter false (fun _ fields => fields.addKey path name value .header)
    p.current .header p.fields
  some (⟨fields, p.current⟩, ← endOfLine? rest)

def readLines : Nat → Progress → List Char → Option Fields
  | 0, _, _ => none
  | fuel + 1, p, cs =>
    match dropSpace cs with
    | [] => some p.fields
    | '[' :: rest =>
      match readHeader p rest with
      | some (p, rest) => readLines fuel p rest
      | none => none
    | c :: rest =>
      match endOfLine? (c :: rest) with
      | some rest => readLines fuel p rest
      | none =>
        match readField p (c :: rest) with
        | some (p, rest) => readLines fuel p rest
        | none => none

/-- The fields of a document, none when its text is malformed. A byte order mark may come
first. -/
def parse? (s : String) : Option Fields :=
  let cs := match s.toList with
    | '\uFEFF' :: cs => cs
    | cs => cs
  readLines (cs.length + 1) ⟨[], []⟩ cs

end Footprint.Toml
