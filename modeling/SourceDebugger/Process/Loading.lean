import SourceDebugger.Elf.Image
import SourceDebugger.Process.Kernel
/-!
Loading a program: its segments are mapped from the file, the rest of its memory is zero, and its
arguments lie at the top of a fresh stack. Programs are self-contained: none names another one
that would have to load it.
-/
namespace SourceDebugger.Loading

/-- Kinds of segments. -/
def loadedKind : Nat := 1

def interpreterKind : Nat := 3

/-- The machine that programs are for, at this offset of a file. -/
def machineNumber : Nat := 62

def machineOffset : Nat := 18

/-- Rounds down to the start of a page. -/
def pageStart (a : UInt64) : UInt64 := (a >>> pageBits) <<< pageBits

def pagesFor (size : Nat) : Nat := (size + pageSize - 1) / pageSize

/-- A page of a file. What lies behind the end of the file is zero; pages wholly behind it do not
exist. -/
def filePage (contents : ByteArray) (offset : Nat) : Option ByteArray :=
  if contents.size ≤ offset then none
  else
    let some_ := contents.extract offset (offset + pageSize)
    some (some_ ++ AddressSpace.zeroPage.extract 0 (pageSize - some_.size))

def filePages (contents : ByteArray) (offset count : Nat) : Array (Option ByteArray) :=
  (Array.range count).map fun i => filePage contents (offset + i * pageSize)

def zeroPages (count : Nat) : Array (Option ByteArray) :=
  Array.replicate count (some AddressSpace.zeroPage)

/-- Zeros from a position of the last page on. -/
def clearFrom (pages : Array (Option ByteArray)) (position : Nat) : Array (Option ByteArray) :=
  pages.modify (pages.size - 1) fun page => page.map fun b =>
    b.extract 0 position ++ AddressSpace.zeroPage.extract 0 (pageSize - position)

/-- Maps a segment. If it is larger than its part of the file, the rest is zero. -/
def mapSegment (path : String) (contents : ByteArray) (bias : UInt64) (m : AddressSpace)
    (s : Elf.Segment) : AddressSpace :=
  let start := pageStart (bias + s.address)
  let inPage := (bias + s.address - start).toNat
  let offset := s.offset - inPage
  let protection : Protection :=
    ⟨s.flags &&& 4 != 0, s.flags &&& 2 != 0, s.flags &&& 1 != 0⟩
  let fileCount := if s.fileSize = 0 then 0 else pagesFor (inPage + s.fileSize)
  let pages := filePages contents offset fileCount
  let rest := (inPage + s.fileSize) % pageSize
  let pages := if s.fileSize < s.memorySize && rest ≠ 0 then clearFrom pages rest else pages
  let m := if fileCount = 0 then m
    else m.insert ⟨start, protection, some (path, UInt64.ofNat offset), false, pages⟩
  let zeroCount := pagesFor (inPage + s.memorySize) - fileCount
  if zeroCount = 0 then m
  else
    m.insert
      ⟨start + UInt64.ofNat (fileCount * pageSize), protection, none, false, zeroPages zeroCount⟩

/-- What is written above the arguments: the page size and the entry, by kind. -/
def auxiliary (entry : UInt64) : List UInt64 := [6, 4096, 9, entry, 0, 0]

/-- The stack that a program finds: how many arguments there are, where they are, and the
arguments themselves at the top. -/
def fillStack (m : AddressSpace) (top entry : UInt64) (arguments : List Bytes) :
    AddressSpace × UInt64 :=
  let sizes := arguments.map fun b => UInt64.ofNat (b.length + 1)
  let texts := top - 64 - sizes.foldl (· + ·) 0
  let places :=
    (sizes.foldl (fun (places, a) size => (a :: places, a + size)) ([], texts)).1.reverse
  let words := [UInt64.ofNat arguments.length] ++ places ++ [0, 0] ++ auxiliary entry
  let sp := ((texts - UInt64.ofNat (8 * words.length)) >>> 4) <<< 4
  let m := (m.poke texts (arguments.flatMap (· ++ [0]))).1
  ((m.poke sp (words.flatMap Bytes.ofWord)).1, sp)

/-- How much of the stack there is at first. -/
def stackPages : Nat := 33

/-- Where programs go that can be loaded anywhere. No two loads share a place. -/
def placeFor (loads : Nat) : UInt64 := 0x555500000000 + UInt64.ofNat (loads % 4096) * 0x1000000

def stackTopFor (loads : Nat) : UInt64 := 0x7ffc00000000 + UInt64.ofNat (loads % 4096) * 0x1000000

/-- The headers of a program that can be run, or why it cannot. -/
def headers (contents : Bytes) : Except Errno (Elf.Header × List Elf.Segment) :=
  match contents with
  | 0x23 :: 0x21 :: _ => .error .notFound
  | _ =>
    match Reading.from? contents Elf.header with
    | none => .error .badFormat
    | some h =>
      let forMachine := (contents.drop machineOffset).take 2 == Bytes.ofNat 2 machineNumber
      if !h.writing.isStandard || !forMachine || h.kind == .other then .error .badFormat
      else match Elf.segments? contents h with
        | none | some [] => .error .badFormat
        | some segments =>
          if segments.any (·.kind == interpreterKind) then .error .notFound else .ok (h, segments)

/-- A program's memory and the state of its first thread. -/
def load (path : String) (contents : ByteArray) (arguments : List Bytes) (loads : Nat) :
    Except Errno (AddressSpace × X86.Cpu) := do
  let (h, segments) ← headers contents.toList
  let bias := if h.kind == .movable then placeFor loads else 0
  let m := (segments.filter (·.kind == loadedKind)).foldl (mapSegment path contents bias) ⟨#[]⟩
  let top := stackTopFor loads
  let stack : MemoryRegion :=
    ⟨top - UInt64.ofNat (stackPages * pageSize), ⟨true, true, false⟩, none, true,
      zeroPages stackPages⟩
  let entry := bias + h.entry
  let (m, sp) := fillStack (m.insert stack) top entry arguments
  .ok (m, .atEntry entry sp)

end SourceDebugger.Loading
