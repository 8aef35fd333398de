import DataAccess.Text.Hex

/-!
Strings of TOML text: in double quotes with escapes or in single quotes without, on one line or,
between three quotes, on many. A reader takes the text behind the opening quotes and gives the
characters of the string and what follows its closing quotes.
-/
namespace DataAccess.Toml

/-- May stand in a string as it is. -/
def isPlain (c : Char) : Bool := c = '\t' ∨ (0x20 ≤ c.toNat ∧ c.toNat ≠ 0x7F)

def simpleEscape? : Char → Option Char
  | '\x22' => some '\x22'
  | '\\' => some '\\'
  | 'b' => some '\x08'
  | 'f' => some '\x0c'
  | 'n' => some '\n'
  | 'r' => some '\r'
  | 't' => some '\t'
  | _ => none

/-- The character of an escape, from the text behind its backslash. -/
def readEscape? : List Char → Option (Char × List Char)
  | 'u' :: rest =>
    if rest.length < 4 then none else (Text.codePoint? (rest.take 4)).map (·, rest.drop 4)
  | 'U' :: rest =>
    if rest.length < 8 then none else (Text.codePoint? (rest.take 8)).map (·, rest.drop 8)
  | c :: rest => (simpleEscape? c).map (·, rest)
  | [] => none

theorem length_readEscape? {cs rest : List Char} {c : Char}
    (h : readEscape? cs = some (c, rest)) : rest.length ≤ cs.length := by
  fun_cases readEscape? cs <;> simp_all [readEscape?] <;> grind

def readLiteral? (cs : List Char) : Option (List Char × List Char) :=
  let body := cs.takeWhile (· ≠ '\x27')
  match cs.dropWhile (· ≠ '\x27') with
  | _ :: rest => if body.all isPlain then some (body, rest) else none
  | [] => none

def readBasic? (cs : List Char) : Option (List Char × List Char) :=
  match cs with
  | [] => none
  | c :: rest =>
    if c = '\x22' then some ([], rest)
    else if c = '\\' then
      match _h : readEscape? rest with
      | some (c, rest) => (readBasic? rest).map fun r => (c :: r.1, r.2)
      | none => none
    else if isPlain c then (readBasic? rest).map fun r => (c :: r.1, r.2)
    else none
termination_by cs.length
decreasing_by
  · have := length_readEscape? _h
    simp only [List.length_cons]
    omega
  · simp

/-- Three quotes close a string of many lines; of up to five in a row the first two belong to
the string. -/
def closeLong? (quote : Char) (cs : List Char) : Option (List Char × List Char) :=
  let run := (cs.takeWhile (· = quote)).length
  if run < 3 then none
  else some (List.replicate (min (run - 3) 2) quote, cs.drop (3 + min (run - 3) 2))

def readLongLiteral? : List Char → Option (List Char × List Char)
  | [] => none
  | c :: rest =>
    match closeLong? '\x27' (c :: rest) with
    | some closed => some closed
    | none =>
      if isPlain c ∨ c = '\n' then (readLongLiteral? rest).map fun r => (c :: r.1, r.2)
      else none

def isGap (c : Char) : Bool := c = ' ' ∨ c = '\t' ∨ c = '\n'

/-- What a backslash at the end of a line joins: blanks up to the end of the line, and all
blanks and line ends behind it. -/
def joinLines? (cs : List Char) : Option (List Char) :=
  match cs.dropWhile (fun c => c = ' ' ∨ c = '\t') with
  | '\n' :: rest => some (rest.dropWhile isGap)
  | _ => none

theorem length_dropWhile_le (p : Char → Bool) (cs : List Char) :
    (cs.dropWhile p).length ≤ cs.length := (List.dropWhile_suffix p).length_le

theorem length_joinLines? {cs rest : List Char} (h : joinLines? cs = some rest) :
    rest.length ≤ cs.length := by
  unfold joinLines? at h
  split at h
  · rename_i tail heq
    have h1 := length_dropWhile_le (fun c => c = ' ' ∨ c = '\t') cs
    have h2 := length_dropWhile_le isGap tail
    grind
  · simp at h

def readLongBasic? (cs : List Char) : Option (List Char × List Char) :=
  match cs with
  | [] => none
  | c :: rest =>
    match closeLong? '\x22' (c :: rest) with
    | some closed => some closed
    | none =>
      if c = '\\' then
        match _h : readEscape? rest, _g : joinLines? rest with
        | some (c, rest), _ => (readLongBasic? rest).map fun r => (c :: r.1, r.2)
        | none, some rest => readLongBasic? rest
        | none, none => none
      else if isPlain c ∨ c = '\n' then (readLongBasic? rest).map fun r => (c :: r.1, r.2)
      else none
termination_by cs.length
decreasing_by
  · have := length_readEscape? _h
    simp only [List.length_cons]
    omega
  · have := length_joinLines? _g
    simp only [List.length_cons]
    omega
  · simp

/-- A line end right behind the opening quotes is no part of the string. -/
def dropLineEnd : List Char → List Char
  | '\n' :: rest => rest
  | cs => cs

/-- A string on one line, from its opening quote. -/
def readShort? : List Char → Option (List Char × List Char)
  | '\x22' :: rest => readBasic? rest
  | '\x27' :: rest => readLiteral? rest
  | _ => none

def opensLong (cs : List Char) : Bool :=
  cs.take 3 = ['\x22', '\x22', '\x22'] ∨ cs.take 3 = ['\x27', '\x27', '\x27']

def readText? (cs : List Char) : Option (List Char × List Char) :=
  match cs with
  | '\x22' :: '\x22' :: '\x22' :: rest => readLongBasic? (dropLineEnd rest)
  | '\x27' :: '\x27' :: '\x27' :: rest => readLongLiteral? (dropLineEnd rest)
  | _ => readShort? cs

end DataAccess.Toml
