import MoveMachine.Machine

/-!
# A machine and its host

A host asks a machine to load a program, to write or read memory, or to run, and
is told whether this succeeded, what was read or how the run ended
(`Machine.serve`). A request that is refused leaves the machine as it was; a run
that ends in a fault leaves it as it was when the fault occurred.
-/

set_option autoImplicit false

namespace MoveMachine

/-- What a host can ask of a machine. -/
inductive Request where
  | load (image : Image)
  | write (offset : Nat) (values : List Word)
  | read (offset length : Nat)
  | run
deriving DecidableEq

/-- What a host is told when its request succeeds. -/
inductive Reply where
  | done
  | words (content : List Word)
  | report (report : RunReport)
deriving DecidableEq

namespace Machine

/-- The machine after a change that is made only if it succeeds. -/
def commit (machine : Machine) : Except Fault Machine → Machine × Except Fault Reply
  | .ok changed => (changed, .ok .done)
  | .error fault => (machine, .error fault)

/-- The machine after a request, and what the host is told. -/
def serve (machine : Machine) : Request → Machine × Except Fault Reply
  | .load image => machine.commit (machine.load image)
  | .write offset values => machine.commit (machine.writeMemory offset values)
  | .read offset length => (machine, (machine.readMemory offset length).map .words)
  | .run =>
    let ended := machine.run
    (ended.1, ended.2.map .report)

/-- The machine after requests one after the other, and what the host is told about each. -/
def serveAll (machine : Machine) : List Request → Machine × List (Except Fault Reply)
  | [] => (machine, [])
  | request :: later =>
    let first := machine.serve request
    let rest := first.1.serveAll later
    (rest.1, first.2 :: rest.2)

end Machine
end MoveMachine
