/-!
# Kinds of units

A unit is of one of six kinds, and its kind fixes its buffers: their names on
the input side and on the output side. The index of a buffer is its position in
that list (`UnitType.indexOf?`), so indices are dense on each side and do not
depend on the description a unit stands in.
-/

set_option autoImplicit false

namespace MoveMachine

/-- The two sides of a unit. -/
inductive Side where
  | input
  | output
deriving DecidableEq

/-- The kinds of units. -/
inductive UnitType where
  /-- Runs the program and collects results. -/
  | control
  /-- Reads and writes memory at computed addresses. -/
  | loadStore
  /-- Writes arriving values to consecutive words of memory. -/
  | streamIn
  /-- Emits consecutive words of memory. -/
  | streamOut
  /-- Passes values on in the order in which they were expected. -/
  | reorder
  /-- Computes on pairs of operands. -/
  | arithmetic
deriving DecidableEq, Inhabited

/-- A side as it is written in messages and listings. -/
def Side.text : Side → String
  | .input => "input"
  | .output => "output"

namespace UnitType

/-- All kinds of units. -/
def all : List UnitType := [.control, .loadStore, .streamIn, .streamOut, .reorder, .arithmetic]

/-- The name of a kind in processor descriptions. -/
def name : UnitType → String
  | .control => "cu"
  | .loadStore => "lsu"
  | .streamIn => "memory_stream_in"
  | .streamOut => "memory_stream_out"
  | .reorder => "rob"
  | .arithmetic => "pu"

/-- The kind with a name. -/
def ofName? (name : String) : Option UnitType := all.find? (·.name == name)

/-- The names of a unit's buffers on one side, by index. -/
def buffers : UnitType → Side → List String
  | .control, .input => ["in0", "in1", "in2"]
  | .control, .output => []
  | .loadStore, .input => ["in0", "in1", "opc"]
  | .loadStore, .output => ["out"]
  | .streamIn, .input => ["in0"]
  | .streamIn, .output => []
  | .streamOut, .input => []
  | .streamOut, .output => ["out"]
  | .reorder, .input => ["in0"]
  | .reorder, .output => ["out"]
  | .arithmetic, .input => ["in0", "in1", "opc"]
  | .arithmetic, .output => ["out"]

/-- The index of a named buffer on one side of a unit. -/
def indexOf? (type : UnitType) (side : Side) (buffer : String) : Option UInt8 :=
  (type.buffers side).idxOf? buffer |>.map UInt8.ofNat

end UnitType
end MoveMachine
