import SourceDebugger.Location
import SourceDebugger.Module
/-!
Breakpoints as the user sees them. A breakpoint is *bound* while it stands for an address of a
loaded module; numbers are given out once and never again, so that a removed breakpoint can still be
looked at by whoever kept it.
-/
namespace SourceDebugger

abbrev BreakpointId := Nat

/-- What a bound breakpoint stands for. -/
structure Binding where
  address : UInt64
  segment : Option Segment
  deriving DecidableEq, Repr, Inhabited

structure Breakpoint where
  id : BreakpointId
  location : Location
  enabled : Bool
  binding : Option Binding
  /-- How often it was reached while it was enabled. -/
  hits : Nat
  /-- Removed breakpoints are kept, but take part in nothing. -/
  registered : Bool
  deriving DecidableEq, Repr

namespace Breakpoint

def address? (b : Breakpoint) : Option UInt64 := b.binding.map (·.address)

def segment? (b : Breakpoint) : Option Segment := b.binding.bind (·.segment)

def unbound (b : Breakpoint) : Breakpoint := { b with binding := none }

/-- What a location stands for in a module. An address needs no code there, only the module. -/
def bindingIn (m : LoadedModule) : Location → Option Binding
  | .source file line => (m.resolve? file line).map fun r => ⟨r.start, some r.segment⟩
  | .address a => if m.contains a then some ⟨a, (m.lineAt? a).map (·.segment)⟩ else none

end Breakpoint

/-- All breakpoints there have been, in the order of their numbers. -/
structure Breakpoints where
  items : List Breakpoint
  nextId : BreakpointId
  deriving Repr

namespace Breakpoints

def empty : Breakpoints := ⟨[], 1⟩

def registered (bs : Breakpoints) : List Breakpoint := bs.items.filter (·.registered)

def find? (bs : Breakpoints) (id : BreakpointId) : Option Breakpoint :=
  bs.items.find? (·.id = id)

def registered? (bs : Breakpoints) (id : BreakpointId) : Option Breakpoint :=
  (bs.find? id).filter (·.registered)

def add (bs : Breakpoints) (location : Location) : Breakpoint × Breakpoints :=
  let b : Breakpoint := ⟨bs.nextId, location, true, none, 0, true⟩
  (b, ⟨bs.items ++ [b], bs.nextId + 1⟩)

/-- Changes the breakpoint with a number. -/
def update (bs : Breakpoints) (id : BreakpointId) (f : Breakpoint → Breakpoint) : Breakpoints :=
  { bs with items := bs.items.map fun b => if b.id = id then f b else b }

/-- Unbinds the registered breakpoints that are bound where a test says. -/
def unbindWhere (bs : Breakpoints) (test : UInt64 → Bool) : Breakpoints :=
  { bs with items := bs.items.map fun b =>
      if b.registered && (b.address?.map test).getD false then b.unbound else b }

/-- Counts a hit for each enabled breakpoint among some. -/
def count (bs : Breakpoints) (ids : List BreakpointId) : Breakpoints :=
  { bs with items := bs.items.map fun b =>
      if b.registered && b.enabled && ids.contains b.id then { b with hits := b.hits + 1 } else b }

/-- Whether one of some breakpoints is enabled. -/
def anyEnabled (bs : Breakpoints) (ids : List BreakpointId) : Bool :=
  bs.items.any fun b => b.registered && b.enabled && ids.contains b.id

end Breakpoints

end SourceDebugger
