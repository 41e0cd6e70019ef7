import SourceDebugger.Memory.Mapping
import SourceDebugger.Memory.Word
/-!
The memory of a process: regions of whole pages, each with what may be done with it and where its
contents came from. The program itself is held to what the regions allow; a debugger is not. A
page that lies behind the end of its file exists but cannot be touched by anyone.
-/
namespace SourceDebugger

/-- Pages have 4096 bytes. -/
def pageSize : Nat := 4096

def pageBits : UInt64 := 12

/-- What the program may do with a region. -/
structure Protection where
  read : Bool
  write : Bool
  execute : Bool
  deriving DecidableEq, Repr, Inhabited

structure MemoryRegion where
  start : UInt64
  protection : Protection
  /-- The file that the region shows, and from where on. -/
  file : Option (String × UInt64)
  /-- The region may be extended downwards, which makes it a stack. -/
  grows : Bool
  pages : Array (Option ByteArray)
  deriving Inhabited

/-- What becomes of an access. -/
inductive AccessFault where
  | unmapped
  | forbidden
  /-- There is no page behind the end of a file. -/
  | noPage
  deriving DecidableEq, Repr

namespace MemoryRegion

def size (r : MemoryRegion) : UInt64 := UInt64.ofNat (r.pages.size * pageSize)

def stop (r : MemoryRegion) : UInt64 := r.start + r.size

@[inline] def contains (r : MemoryRegion) (a : UInt64) : Bool := r.start ≤ a && a - r.start < r.size

end MemoryRegion

/-- The regions of a process in the order of their addresses; no two overlap. -/
structure AddressSpace where
  regions : Array MemoryRegion
  deriving Inhabited

namespace AddressSpace

def zeroPage : ByteArray := ⟨Array.replicate pageSize 0⟩

def regionAt? (m : AddressSpace) (a : UInt64) : Option Nat := m.regions.findIdx? (·.contains a)

/-- Puts a region into its place; it must not overlap another one. -/
def insert (m : AddressSpace) (r : MemoryRegion) : AddressSpace :=
  let before := m.regions.filter (·.start < r.start)
  let after := m.regions.filter (!·.start < r.start)
  ⟨before.push r ++ after⟩

/-- What is left of a region when a stretch is taken out of it. -/
def cut (start stop : UInt64) (r : MemoryRegion) : Array MemoryRegion :=
  if stop ≤ r.start || r.stop ≤ start then #[r]
  else
    let pagesTo := fun (a : UInt64) => ((a - r.start) >>> pageBits).toNat
    let low :=
      if r.start < start then #[{ r with pages := r.pages.extract 0 (pagesTo start) }] else #[]
    let moved := r.file.map fun (path, offset) => (path, offset + (stop - r.start))
    let high := if stop < r.stop then
        #[{ r with
          start := stop, file := moved, pages := r.pages.extract (pagesTo stop) r.pages.size }]
      else #[]
    low ++ high

def remove (m : AddressSpace) (start stop : UInt64) : AddressSpace :=
  ⟨m.regions.flatMap (cut start stop)⟩

/-- How far a stack may be extended, in pages. -/
def stackLimit : Nat := 2048

/-- Extends the stack that begins above an address down to it, if there is one and it may. -/
def growTo? (m : AddressSpace) (a : UInt64) : Option AddressSpace := do
  let i ← m.regions.findIdx? fun r => r.grows && a < r.start
  let r ← m.regions[i]?
  let start := (a >>> pageBits) <<< pageBits
  let more := ((r.start - start) >>> pageBits).toNat
  if stackLimit < r.pages.size + more
      || (0 < i && (m.regions[i - 1]?.any fun b => start < b.stop)) then
    none
  else
    let pages := Array.replicate more (some zeroPage) ++ r.pages
    some ⟨m.regions.setIfInBounds i { r with start, pages }⟩

/-- The page around an address. -/
def pageOf (r : MemoryRegion) (a : UInt64) : Option ByteArray :=
  match r.pages[((a - r.start) >>> pageBits).toNat]? with
  | some page => page
  | none => none

def offsetInPage (a : UInt64) : Nat := (a &&& 0xfff).toNat

/-- The byte of a page; pages are whole. -/
@[inline] def pageByte (page : ByteArray) (i : Nat) : UInt8 :=
  if h : i < page.size then page[i] else 0

/-- The number that `size` bytes of a page stand for. -/
def pageNumber (page : ByteArray) (i : Nat) : (size : Nat) → UInt64
  | 0 => 0
  | n + 1 => (pageNumber page (i + 1) n <<< 8) ||| (pageByte page i).toUInt64

/-- Writes the lowest `size` bytes of a number into a page. -/
def setNumber (page : ByteArray) (i : Nat) (w : UInt64) : (size : Nat) → ByteArray
  | 0 => page
  | n + 1 =>
    setNumber (if h : i < page.size then page.set i w.toUInt8 h else page) (i + 1) (w >>> 8) n

/-- The region and page that an access by the program reaches. -/
def access (m : AddressSpace) (a : UInt64) (allowed : Protection → Bool) :
    Except AccessFault (Nat × ByteArray) :=
  match m.regionAt? a with
  | none => .error .unmapped
  | some i =>
    match m.regions[i]? with
    | none => .error .unmapped
    | some r =>
      if !allowed r.protection then .error .forbidden
      else match pageOf r a with
        | none => .error .noPage
        | some page => .ok (i, page)

/-- Reads byte by byte, which also crosses pages; the highest byte comes last. -/
def loadBytes (m : AddressSpace) (a : UInt64) : (size : Nat) → Except AccessFault UInt64
  | 0 => .ok 0
  | n + 1 =>
    match m.access a (·.read), loadBytes m (a + 1) n with
    | .ok (_, page), .ok w => .ok ((w <<< 8) ||| (pageByte page (offsetInPage a)).toUInt64)
    | .error e, _ => .error e
    | _, .error e => .error e

def load (m : AddressSpace) (a : UInt64) (size : Nat) : Except AccessFault UInt64 :=
  if offsetInPage a + size ≤ pageSize then
    match m.access a (·.read) with
    | .ok (_, page) => .ok (pageNumber page (offsetInPage a) size)
    | .error e => .error e
  else m.loadBytes a size

/-- Changes a page in place. -/
@[inline] def modifyPage (m : AddressSpace) (region : Nat) (a : UInt64)
    (f : ByteArray → ByteArray) : AddressSpace :=
  ⟨m.regions.modify region fun r =>
    { r with pages := r.pages.modify ((a - r.start) >>> pageBits).toNat (·.map f) }⟩

/-- Writes within a page whose region is known. -/
def put (m : AddressSpace) (region : Nat) (a w : UInt64) (size : Nat) : AddressSpace :=
  m.modifyPage region a fun page => setNumber page (offsetInPage a) w size

/-- Where the program may write, or why not. -/
def writable (m : AddressSpace) (a : UInt64) : Except AccessFault Nat :=
  match m.access a (·.write) with
  | .ok (i, _) => .ok i
  | .error e => .error e

/-- Writes on two sides of a page's end, both or neither. -/
def storeAcross (m : AddressSpace) (a w : UInt64) (size : Nat) : Except AccessFault AddressSpace :=
  let near := pageSize - offsetInPage a
  let far := a + UInt64.ofNat near
  match m.writable a, m.writable far with
  | .ok i, .ok j =>
    .ok ((m.put i a w near).put j far (w >>> (8 * UInt64.ofNat near)) (size - near))
  | .error e, _ => .error e
  | _, .error e => .error e

def store (m : AddressSpace) (a w : UInt64) (size : Nat) : Except AccessFault AddressSpace :=
  if offsetInPage a + size ≤ pageSize then
    match m.writable a with
    | .ok i => .ok (m.put i a w size)
    | .error e => .error e
  else m.storeAcross a w size

/-! A debugger's view: nothing is forbidden, and an access goes as far as there are pages. -/

/-- Up to `size` bytes from an address on. -/
def peek (m : AddressSpace) (a : UInt64) : (size : Nat) → Bytes
  | 0 => []
  | n + 1 =>
    match m.access a fun _ => true with
    | .ok (_, page) => pageByte page (offsetInPage a) :: peek m (a + 1) n
    | .error _ => []

/-- Writes as many of the bytes as there are pages for; the number of those is the second result. -/
def poke (m : AddressSpace) (a : UInt64) : Bytes → AddressSpace × Nat
  | [] => (m, 0)
  | b :: rest =>
    match m.access a fun _ => true with
    | .ok (i, _) =>
      let (m, n) := poke (m.put i a b.toUInt64 1) (a + 1) rest
      (m, n + 1)
    | .error _ => (m, 0)

/-- The list of mappings that the kernel shows. -/
def mappings (m : AddressSpace) : List Mapping :=
  m.regions.toList.map fun r =>
    { start := r.start, stop := r.stop, offset := (r.file.map (·.2)).getD 0
      executable := r.protection.execute, path := r.file.map (·.1) }

end AddressSpace

end SourceDebugger
