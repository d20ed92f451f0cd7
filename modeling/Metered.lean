import Metered.Automaton.Picture
import Metered.Query
import Metered.Settings
import Metered.Turing.BusyBeaver
import Metered.Turing.Machine
import Metered.Proofs.BitRow
import Metered.Proofs.Cost
import Metered.Proofs.Diagram
import Metered.Proofs.Holes
import Metered.Proofs.InfiniteTape
import Metered.Proofs.Ledger
import Metered.Proofs.Line
import Metered.Proofs.NormalTable
import Metered.Proofs.Primality
import Metered.Proofs.RunCost
import Metered.Proofs.Simulation
import Metered.Proofs.Ticks
import Metered.Proofs.UnaryCost
import Metered.Proofs.Allowance
import Metered.Proofs.Agreement
import Metered.Proofs.Soundness
import Metered.Proofs.LiteralTable
import Metered.Proofs.Drawing
import Metered.Proofs.RecordedCells
import Metered.Proofs.Mirror
import Metered.Proofs.Window
import Metered.Proofs.Continuation
import Metered.Proofs.Violation
import Metered.Proofs.LightCone
import Metered.Proofs.Reflection
import Metered.Proofs.Pascal
import Metered.Proofs.Yields
import Metered.Proofs.Rechecked
import Metered.Proofs.Refusals
import Metered.Proofs.Edges
import Metered.Proofs.TapeReader
import Metered.Proofs.Trace
import Metered.Proofs.DirectionWords
import Metered.Proofs.Sweep
