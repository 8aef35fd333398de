/-!
UTF-8 decoding. Bytes that are no character are reported one at a time, where the longest
run that starts like a character counts as one; a lenient reader replaces each of them, a
strict one refuses the text.
-/
namespace DataAccess.Text

/-- For the first byte of a longer character: the range of its second byte, and the number of
bytes after that. -/
def secondByte? (lead : UInt8) : Option (UInt8 × UInt8 × Nat) :=
  if 0xC2 ≤ lead ∧ lead ≤ 0xDF then some (0x80, 0xBF, 0)
  else if lead = 0xE0 then some (0xA0, 0xBF, 1)
  else if lead = 0xED then some (0x80, 0x9F, 1)
  else if 0xE1 ≤ lead ∧ lead ≤ 0xEF then some (0x80, 0xBF, 1)
  else if lead = 0xF0 then some (0x90, 0xBF, 2)
  else if 0xF1 ≤ lead ∧ lead ≤ 0xF3 then some (0x80, 0xBF, 2)
  else if lead = 0xF4 then some (0x80, 0x8F, 2)
  else none

def isContinuation (b : UInt8) : Bool := 0x80 ≤ b ∧ b ≤ 0xBF

/-- The character of a lead byte, stripped of its length mark, and its continuation bytes. -/
def joinBytes (lead : Nat) (rest : List UInt8) : Char :=
  Char.ofNat (rest.foldl (fun n b => n * 64 + b.toNat % 64) lead)

/-- The characters of a text; none stands for bytes that are no character. -/
def decodeUtf8 : List UInt8 → List (Option Char)
  | [] => []
  | a :: rest =>
    if a < 0x80 then some (Char.ofNat a.toNat) :: decodeUtf8 rest
    else match secondByte? a with
      | none => none :: decodeUtf8 rest
      | some (low, high, more) =>
        match rest with
        | [] => [none]
        | b :: rest =>
          if ¬(low ≤ b ∧ b ≤ high) then none :: decodeUtf8 (b :: rest)
          else if more = 0 then some (joinBytes (a.toNat % 32) [b]) :: decodeUtf8 rest
          else match rest with
            | [] => [none]
            | c :: rest =>
              if ¬isContinuation c then none :: decodeUtf8 (c :: rest)
              else if more = 1 then some (joinBytes (a.toNat % 16) [b, c]) :: decodeUtf8 rest
              else match rest with
                | [] => [none]
                | d :: rest =>
                  if ¬isContinuation d then none :: decodeUtf8 (d :: rest)
                  else some (joinBytes (a.toNat % 8) [b, c, d]) :: decodeUtf8 rest

/-- Each run of bytes that is no character becomes U+FFFD. -/
def decodeLossy (bytes : List UInt8) : String :=
  String.ofList ((decodeUtf8 bytes).map (·.getD '\ufffd'))

def decodeStrict? (bytes : List UInt8) : Option String :=
  ((decodeUtf8 bytes).mapM id).map String.ofList

def encodeUtf8 (s : String) : List UInt8 := s.toUTF8.toList

end DataAccess.Text
