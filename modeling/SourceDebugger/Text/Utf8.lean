import SourceDebugger.Memory.Word
/-!
Reading bytes as UTF-8. Bytes that are no text are not refused: each maximal run of bytes that could
have begun a character is replaced by U+FFFD.
-/
namespace SourceDebugger.Text

/-- What bytes begin with: a character, a beginning that was cut off, or bytes that are wrong. -/
inductive Utf8Head where
  | char (c : Char) (length : Nat)
  /-- All bytes there are begin a character, but do not finish it. -/
  | cut (length : Nat)
  /-- So many bytes cannot be part of any character. -/
  | wrong (length : Nat)
  deriving DecidableEq, Repr

def isContinuation (b : UInt8) : Bool := 0x80 ≤ b && b ≤ 0xbf

/-- The bytes that may follow a first byte, which exclude overlong forms, surrogates and numbers
beyond the last code point; and how many bytes follow in all. -/
def utf8Lead (b : UInt8) : Option (UInt8 × UInt8 × Nat) :=
  if 0xc2 ≤ b && b ≤ 0xdf then some (0x80, 0xbf, 1)
  else if b = 0xe0 then some (0xa0, 0xbf, 2)
  else if b = 0xed then some (0x80, 0x9f, 2)
  else if 0xe1 ≤ b && b ≤ 0xef then some (0x80, 0xbf, 2)
  else if b = 0xf0 then some (0x90, 0xbf, 3)
  else if 0xf1 ≤ b && b ≤ 0xf3 then some (0x80, 0xbf, 3)
  else if b = 0xf4 then some (0x80, 0x8f, 3)
  else none

/-- The code point of a first byte and those that follow it. -/
def utf8CodePoint (lead : UInt8) (rest : Bytes) : Nat :=
  let top := match rest.length with
    | 1 => lead.toNat % 32
    | 2 => lead.toNat % 16
    | _ => lead.toNat % 8
  rest.foldl (fun n b => n * 64 + b.toNat % 64) top

/-- Reads the head of a text that is not empty. -/
def utf8Head (b : UInt8) (rest : Bytes) : Utf8Head :=
  if b < 0x80 then .char (Char.ofNat b.toNat) 1
  else match utf8Lead b with
    | none => .wrong 1
    | some (low, high, count) =>
      match rest with
      | [] => .cut 1
      | second :: more =>
        if second < low || high < second then .wrong 1
        else
          let tail := (more.take (count - 1)).takeWhile isContinuation
          if tail.length = count - 1 then
            .char (Char.ofNat (utf8CodePoint b (second :: tail))) (count + 1)
          else if tail.length = more.length then .cut (2 + tail.length)
          else .wrong (2 + tail.length)

/-- The characters of bytes; the first argument bounds the number of steps. -/
def decodeLossy : Nat → Bytes → List Char
  | 0, _ => []
  | _, [] => []
  | n + 1, b :: rest =>
    match utf8Head b rest with
    | .char c length => c :: decodeLossy n (rest.drop (length - 1))
    | .cut length | .wrong length => '\uFFFD' :: decodeLossy n (rest.drop (length - 1))

def ofUtf8Lossy (bytes : Bytes) : String := String.ofList (decodeLossy bytes.length bytes)

/-- The beginning of a character that is cut off at the end, if nothing before it is wrong; the rest
of it may still arrive. -/
def unfinished : Nat → Bytes → Bytes
  | 0, _ => []
  | _, [] => []
  | n + 1, b :: rest =>
    match utf8Head b rest with
    | .char _ length => unfinished n (rest.drop (length - 1))
    | .wrong _ => []
    | .cut _ => b :: rest

/-- Takes from bytes what can be read now; the unfinished rest comes second. -/
def takeReadable (bytes : Bytes) : String × Bytes :=
  let rest := unfinished bytes.length bytes
  (ofUtf8Lossy (bytes.take (bytes.length - rest.length)), rest)

end SourceDebugger.Text
