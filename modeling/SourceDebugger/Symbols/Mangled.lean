import SourceDebugger.Text.Numeral
/-!
Mangled symbol names of the scheme `_ZN` element* `E`. An element is a decimal length and that many
bytes; its text escapes punctuation between dollar signs and writes a path separator as two dots.
A name that does not follow the scheme has no readable form.
-/
namespace SourceDebugger.Mangled

/-- Whether the first text occurs in the second. -/
def occursIn (pattern : List Char) : List Char → Bool
  | [] => pattern.isEmpty
  | c :: rest => pattern.isPrefixOf (c :: rest) || occursIn pattern rest

/-- What follows the first occurrence of a text, with what precedes it. -/
def cutAt (pattern : List Char) : List Char → Option (List Char × List Char)
  | [] => if pattern.isEmpty then some ([], []) else none
  | c :: rest =>
    if pattern.isPrefixOf (c :: rest) then some ([], (c :: rest).drop pattern.length)
    else (cutAt pattern rest).map fun p => (c :: p.1, p.2)

theorem length_dropWhile_le {α : Type} (p : α → Bool) (xs : List α) :
    (xs.dropWhile p).length ≤ xs.length := by
  induction xs with
  | nil => simp
  | cons x xs ih =>
    simp only [List.dropWhile_cons]
    split
    · exact Nat.le_succ_of_le ih
    · exact Nat.le_refl _

def decimal (digits : List Char) : Nat :=
  digits.foldl (fun n c => n * 10 + (c.toNat - '0'.toNat)) 0

/-- The elements up to the closing `E`, and what follows it. An element must be followed by
something, if only by that `E`. -/
def elements : List Char → Option (List (List Char) × List Char)
  | [] => none
  | c :: rest =>
    if c = 'E' then some ([], rest)
    else if c.isDigit then
      let body := rest.dropWhile Char.isDigit
      let size := decimal (c :: rest.takeWhile Char.isDigit)
      if size < body.length then
        (elements (body.drop size)).map fun p => (body.take size :: p.1, p.2)
      else none
    else none
termination_by cs => cs.length
decreasing_by
  have h := length_dropWhile_le Char.isDigit rest
  simp only [List.length_drop, List.length_cons]
  omega

def isControl (c : Char) : Bool := c.toNat < 0x20 || (0x7f ≤ c.toNat && c.toNat < 0xa0)

/-- The character of an escape `u` with lower-case hexadecimal digits. -/
def escapedCodePoint (digits : List Char) : Option Char :=
  if digits.all fun c => c.isDigit || ('a' ≤ c && c ≤ 'f') then
    match Text.readNumeral 16 (2 ^ 32) (String.ofList digits) with
    | .ok n =>
      if h : n.isValidChar then
        let c := Char.ofNatAux n h
        if isControl c then none else some c
      else none
    | .error _ => none
  else none

/-- The text of an escape. -/
def escapeText (name : List Char) : Option (List Char) :=
  if name = ['S', 'P'] then some ['@']
  else if name = ['B', 'P'] then some ['*']
  else if name = ['R', 'F'] then some ['&']
  else if name = ['L', 'T'] then some ['<']
  else if name = ['G', 'T'] then some ['>']
  else if name = ['L', 'P'] then some ['(']
  else if name = ['R', 'P'] then some [')']
  else if name = ['C'] then some [',']
  else match name with
    | 'u' :: digits => (escapedCodePoint digits).map ([·])
    | _ => none

/-- Resolves escapes up to the first one that is not known; the rest stays as it is. -/
def unescape : List Char → List Char
  | [] => []
  | '.' :: '.' :: rest => ':' :: ':' :: unescape rest
  | '$' :: rest =>
    match escapeText (rest.takeWhile (· ≠ '$')), rest.dropWhile (· ≠ '$') with
    | some text, _ :: after => text ++ unescape (rest.drop (rest.length - after.length))
    | _, _ => '$' :: rest
  | c :: rest => c :: unescape rest
termination_by cs => cs.length
decreasing_by all_goals simp only [List.length_drop, List.length_cons]; omega

def renderElement : List Char → List Char
  | '_' :: '$' :: rest => unescape ('$' :: rest)
  | element => unescape element

/-- The disambiguating last element: `h` and hexadecimal digits. -/
def isHash : List Char → Bool
  | 'h' :: digits => digits.all fun c => (Text.digitValue? 16 c).isSome
  | _ => false

/-- Elements are joined by `::`; a hash at the end is left out. -/
def renderElements (first : Bool) : List (List Char) → List Char
  | [] => []
  | [last] => if isHash last then [] else separator ++ renderElement last
  | e :: rest => separator ++ renderElement e ++ renderElements false rest
where
  separator : List Char := if first then [] else [':', ':']

/-- What may follow the closing `E`: nothing, or a suffix of visible characters after a dot. -/
def isSuffix : List Char → Bool
  | [] => true
  | '.' :: rest => rest.all fun c => 0x21 ≤ c.toNat && c.toNat ≤ 0x7e
  | _ => false

/-- A suffix `.llvm.` with upper-case hexadecimal digits is not part of the name. -/
def withoutRenaming (name : List Char) : List Char :=
  match cutAt ".llvm.".toList name with
  | some (before, after) =>
    if after.all fun c => c.isDigit || ('A' ≤ c && c ≤ 'F') || c = '@' then before else name
  | none => name

/-- What follows the opening of a mangled name. -/
def body? : List Char → Option (List Char)
  | '_' :: 'Z' :: 'N' :: rest => some rest
  | 'Z' :: 'N' :: rest => some rest
  | '_' :: '_' :: 'Z' :: 'N' :: rest => some rest
  | _ => none

/-- The readable form of a mangled name. -/
def readable? (name : String) : Option String := do
  let body ← body? (withoutRenaming name.toList)
  if body.any fun c => 0x80 ≤ c.toNat then none
  else
    let (names, suffix) ← elements body
    if isSuffix suffix then some (String.ofList (renderElements true names ++ suffix)) else none

/-- The readable form, or the name itself if it is not mangled. -/
def display (name : String) : String := (readable? name).getD name

end SourceDebugger.Mangled
