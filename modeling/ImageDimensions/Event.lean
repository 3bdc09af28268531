import ImageDimensions.Statistics

/-!
# Event — what is logged

Generating a block and writing the file are logged.  An event carries the values that go with its
message.
-/

namespace ImageDimensions

/-- How important an event is. -/
inductive Level where
  | debug
  | info
deriving DecidableEq, Repr

/-- Something that is logged. -/
inductive Event where
  | emittingBlock (shape : String) (array multisample : Nat) (descriptors : String)
  | wroteSource (path : String) (statistics : Statistics)
deriving DecidableEq, Repr

namespace Event

def level : Event → Level
  | emittingBlock .. => .debug
  | wroteSource .. => .info

def message : Event → String
  | emittingBlock .. => "emitting block"
  | wroteSource .. => "wrote generated source"

end Event

end ImageDimensions
