/-!
Powers and sums of numbers are the core library's in every module, also where one imports algebra
that knows the numbers as a monoid.
-/
namespace SourceDebugger

@[default_instance 20000]
instance (priority := 2000) powNat {α : Type} [NatPow α] : Pow α Nat := instPowNat

instance (priority := 2000) zeroNat : Zero Nat := Zero.ofOfNat0

end SourceDebugger
