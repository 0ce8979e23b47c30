/-! Places in a document, counted in characters. -/

namespace IGate.Toml

/-- The places from `start` to before `stop`. -/
structure Span where
  start : Nat
  stop : Nat
  deriving DecidableEq

structure Located (α : Type) where
  value : α
  span : Option Span
  deriving DecidableEq

end IGate.Toml
