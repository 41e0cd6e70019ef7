/-!
Binary search for the boundary between the entries that satisfy a test and those that do not. On
entries of which the satisfying ones come first, the boundary is their number; on other
entries the result is some position and nothing is claimed about it.
-/
namespace SourceDebugger

/-- Halves a window of `size` entries from `base` on until one is left. -/
def narrow (test : Nat → Bool) (base size : Nat) : Nat :=
  if _h : 1 < size then
    let half := size / 2
    narrow test (if test (base + half) then base + half else base) (size - half)
  else base
termination_by size
decreasing_by omega

/-- The position of the first entry that fails the test, found by halving. -/
def boundary {α : Type} (entries : Array α) (test : α → Bool) : Nat :=
  let holds := fun i => match entries[i]? with
    | some a => test a
    | none => false
  if entries.size = 0 then 0
  else
    let last := narrow holds 0 entries.size
    if holds last then last + 1 else last

/-- The last entry before the boundary. -/
def lastBefore? {α : Type} (entries : Array α) (test : α → Bool) : Option α :=
  match boundary entries test with
  | 0 => none
  | n + 1 => entries[n]?

end SourceDebugger
