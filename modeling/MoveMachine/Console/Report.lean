import MoveMachine.Machine

/-!
# Reports

What the commands print about topologies, programs and runs.
-/

set_option autoImplicit false

namespace MoveMachine.Console

/-- A text filled up with blanks behind it. -/
def padRight (width : Nat) (text : String) : String :=
  text ++ String.ofList (List.replicate (width - text.length) ' ')

/-- A text filled up with blanks in front of it. -/
def padLeft (width : Nat) (text : String) : String :=
  String.ofList (List.replicate (width - text.length) ' ') ++ text

/-- Lines, each with a line break behind it. -/
def lines (texts : List String) : String := String.join (texts.map (· ++ "\n"))

/-- The lines about a unit: its buffers with their addresses, inputs first, and its parameters. -/
def unitLines (unit : UnitDescription) : List String :=
  let buffer (side : Side) : String × Address → String
    | (name, address) => s!"     {padRight 6 side.text} {padRight 5 name} {address.text}"
  [s!"[{unit.number.toNat}] {unit.name} ({unit.type.name})"]
    ++ (unit.buffers .input).map (buffer .input)
    ++ (unit.buffers .output).map (buffer .output)
    ++ unit.parameters.entries.map fun (key, value) => s!"     param  {key} = {value}"

/-- The description of a topology, with the units in the order of their numbers. -/
def topologyText (topology : Topology) : String :=
  lines <|
    [s!"Processor    : {topology.name}",
      s!"Buffer depth : {topology.depth.value}",
      s!"Interconnect : {topology.interconnect.name} ({topology.interconnect.unitCount} channels)",
      s!"Units        : {topology.units.size}",
      ""]
    ++ topology.unitsByNumber.flatMap unitLines

/-- The instructions of a program with their indices. -/
def listing (program : List Instruction) : List String :=
  program.mapIdx fun index instruction => padLeft 5 (toString index) ++ "  " ++ instruction.text

/-- The listing of a program, and the size and the checksum of its image. -/
def programText (program : List Instruction) (image : Image) : String :=
  lines <|
    listing program ++
    ["",
      s!"Instructions : {image.size}",
      s!"Image size   : {image.bytes.length} bytes",
      s!"Checksum     : 0x{hexadecimal 8 image.checksum}"]

/-- Words in their signed reading. -/
def wordsText (words : List Word) : String :=
  "[" ++ ", ".intercalate (words.map fun word => toString word.toInt) ++ "]"

/-- What a run came to, with the program counter and the words of memory after it. -/
def runText (report : RunReport) (pc : Nat) (memory : List Word) : String :=
  lines
    [s!"Outcome      : {report.outcome.text}",
      s!"Steps        : {report.steps}",
      s!"Issued       : {report.issued} (pc {pc})",
      s!"Packets      : {report.delivered} delivered, {report.discarded} discarded",
      s!"Results      : {wordsText report.results}",
      s!"Memory after : {wordsText memory}"]

end MoveMachine.Console
