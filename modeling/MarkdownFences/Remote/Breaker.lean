namespace MarkdownFences.Remote

/-- Counts failures in a row. It opens when they reach the threshold, and a success closes it. -/
structure Breaker where
  threshold : Nat
  failures : Nat
  isOpen : Bool
  deriving DecidableEq, Repr

namespace Breaker

def new (threshold : Nat) : Breaker := ⟨threshold, 0, false⟩

def fail (b : Breaker) : Breaker :=
  let failures := b.failures + 1
  { b with failures, isOpen := b.isOpen || b.threshold ≤ failures }

def succeed (b : Breaker) : Breaker := { b with failures := 0, isOpen := false }

end Breaker

end MarkdownFences.Remote
