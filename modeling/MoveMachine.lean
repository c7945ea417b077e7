import MoveMachine.Topology.Document
import MoveMachine.Machine
import MoveMachine.Console.Arguments
import MoveMachine.Main
import MoveMachine.Proofs.SlotDelivery
import MoveMachine.Proofs.FlowControl
import MoveMachine.Proofs.DepthIndependence
import MoveMachine.Proofs.TokenConservation
import MoveMachine.Proofs.ProgressBound
import MoveMachine.Proofs.LabelResolution
import MoveMachine.Proofs.GrammarMeaning
import MoveMachine.Proofs.LineSplitting
import MoveMachine.Proofs.Traffic
import MoveMachine.Proofs.Loading
import MoveMachine.Proofs.HostOperations
import MoveMachine.Proofs.IssueOrder
import MoveMachine.Proofs.Resumption
import MoveMachine.Proofs.ImageRoundTrip
import MoveMachine.Proofs.ReorderWindow
import MoveMachine.Proofs.Naming
import MoveMachine.Proofs.LabelReference
import MoveMachine.Proofs.Kernel.Activity
import MoveMachine.Proofs.Kernel.Steps
import MoveMachine.Proofs.Kernel.Running
import MoveMachine.Proofs.Kernel.Repetition
import MoveMachine.Proofs.ArithmeticStream
import MoveMachine.Proofs.SequentialMemory
import MoveMachine.Proofs.StreamRange
import MoveMachine.Proofs.Delivery
import MoveMachine.Proofs.ManagerOrder
import MoveMachine.Proofs.OutputPairing
import MoveMachine.Proofs.Declaration
import MoveMachine.Proofs.ExactArithmetic
import MoveMachine.Proofs.Diagnostics
