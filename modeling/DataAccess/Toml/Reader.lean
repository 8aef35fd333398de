import DataAccess.Toml.Number
import DataAccess.Toml.Text

/-!
Reading TOML text: line by line, then the tables that the lines describe.
-/
namespace DataAccess.Toml

def isBlank (c : Char) : Bool := c = ' ' ∨ c = '\t'

def skipBlank (cs : List Char) : List Char := cs.dropWhile isBlank

/-- Skips blanks, line ends and comments, from within a comment or not. A comment has no
control characters but tabs. -/
def skipGaps? : (comment : Bool) → List Char → Option (List Char)
  | _, [] => some []
  | true, c :: rest =>
    if c = '\n' then skipGaps? false rest
    else if c = '\t' ∨ 0x20 ≤ c.toNat then skipGaps? true rest
    else none
  | false, c :: rest =>
    if c = '#' then skipGaps? true rest
    else if isGap c then skipGaps? false rest
    else some (c :: rest)

/-- Nothing but a comment may follow on the line. -/
def endLine? (cs : List Char) : Option (List Char) :=
  match skipBlank cs with
  | [] => some []
  | c :: rest => if c = '\n' ∨ c = '#' then some (c :: rest) else none

def readKey? (cs : List Char) : Option (String × List Char) :=
  let word := bareWord cs
  if !word.isEmpty then some (String.ofList word, cs.dropWhile isBare)
  else if opensLong cs then none
  else (readShort? cs).map fun r => (String.ofList r.1, r.2)

/-- Keys with points between them, and the blanks around them. -/
def readPath? : Nat → List Char → Option (List String × List Char)
  | 0, _ => none
  | fuel + 1, cs => do
    let (key, rest) ← readKey? (skipBlank cs)
    match skipBlank rest with
    | '.' :: rest =>
      let (more, rest) ← readPath? fuel rest
      return (key :: more, rest)
    | rest => return ([key], rest)

mutual

def readValue? : Nat → List Char → Option (Value × List Char)
  | 0, _ => none
  | fuel + 1, cs =>
    match cs with
    | '[' :: rest => (readItems? fuel rest).map fun r => (.list r.1, r.2)
    | '\x7b' :: rest =>
      match skipBlank rest with
      | '\x7d' :: rest => some (.table .braces [], rest)
      | rest => do
        let (fields, rest) ← readFields? fuel rest
        return (.table .braces (← ofDotted? fields), rest)
    | _ =>
      if cs.head? = some '\x22' ∨ cs.head? = some '\x27' then
        (readText? cs).map fun r => (.text (String.ofList r.1), r.2)
      else if bareWord cs = ['t', 'r', 'u', 'e'] then some (.bool true, cs.drop 4)
      else if bareWord cs = ['f', 'a', 'l', 's', 'e'] then some (.bool false, cs.drop 5)
      else if startsMoment cs then readMoment? cs
      else readNumber? cs

/-- The rest of a list; a comma may stand behind its last value. -/
def readItems? : Nat → List Char → Option (List Value × List Char)
  | 0, _ => none
  | fuel + 1, cs => do
    match ← skipGaps? false cs with
    | ']' :: rest => return ([], rest)
    | cs =>
      let (value, rest) ← readValue? fuel cs
      match ← skipGaps? false rest with
      | ',' :: rest =>
        let (more, rest) ← readItems? fuel rest
        return (value :: more, rest)
      | ']' :: rest => return ([value], rest)
      | _ => none

/-- The rest of a table in braces, which is on one line. -/
def readFields? : Nat → List Char → Option (List (List String × Value) × List Char)
  | 0, _ => none
  | fuel + 1, cs => do
    let (f, rest) ← readField? fuel cs
    match skipBlank rest with
    | ',' :: rest =>
      let (more, rest) ← readFields? fuel rest
      return (f :: more, rest)
    | '\x7d' :: rest => return ([f], rest)
    | _ => none

def readField? : Nat → List Char → Option ((List String × Value) × List Char)
  | 0, _ => none
  | fuel + 1, cs => do
    match ← readPath? fuel cs with
    | (path, '=' :: rest) =>
      let (value, rest) ← readValue? fuel (skipBlank rest)
      return ((path, value), rest)
    | _ => none

end

def readHeader? (fuel : Nat) (cs : List Char) : Option (Line × List Char) := do
  match cs with
  | '[' :: rest =>
    match ← readPath? fuel rest with
    | (path, ']' :: ']' :: rest) => return (.header path true, rest)
    | _ => none
  | _ =>
    match ← readPath? fuel cs with
    | (path, ']' :: rest) => return (.header path false, rest)
    | _ => none

def readLine? (fuel : Nat) : List Char → Option (Line × List Char)
  | '[' :: rest => readHeader? fuel rest
  | cs => (readField? fuel cs).map fun r => (.field r.1.1 r.1.2, r.2)

def readLines? : Nat → List Char → Option (List Line)
  | 0, _ => none
  | fuel + 1, cs => do
    match ← skipGaps? false cs with
    | [] => return []
    | cs =>
      let (line, rest) ← readLine? fuel cs
      return line :: (← readLines? fuel (← endLine? rest))

/-- A carriage return before a line feed is part of the line end. -/
def unifyLineEnds : List Char → List Char
  | '\r' :: '\n' :: rest => '\n' :: unifyLineEnds rest
  | c :: rest => c :: unifyLineEnds rest
  | [] => []

def dropByteOrderMark : List Char → List Char
  | '\ufeff' :: rest => rest
  | cs => cs

/-- The table that a document describes. Every nested step but three in four takes a
character. -/
def ofText? (s : String) : Option Fields :=
  let cs := dropByteOrderMark (unifyLineEnds s.toList)
  (readLines? (4 * cs.length + 4) cs).bind ofLines?

end DataAccess.Toml
