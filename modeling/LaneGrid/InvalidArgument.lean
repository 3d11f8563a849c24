/-!
# Invalid arguments

A refused call names the argument it refuses and says why. Each part of the library has a type of
its own for what can be wrong, and reads as an `InvalidArgument` only when it is reported.
-/

namespace LaneGrid

/-- An argument that breaks the contract of what it was given to. -/
structure InvalidArgument where
  argument : String
  reason : String
deriving DecidableEq

namespace InvalidArgument

def message (e : InvalidArgument) : String :=
  "invalid argument `" ++ e.argument ++ "`: " ++ e.reason

end InvalidArgument

end LaneGrid
