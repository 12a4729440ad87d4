import TapeMachine.Main
import TapeMachine.Proofs.Structured
import TapeMachine.Proofs.Coalescing
import TapeMachine.Proofs.Pacing
import TapeMachine.Proofs.Driving
import TapeMachine.Proofs.Coherence
import TapeMachine.Proofs.Cancelling
import TapeMachine.Proofs.Residue
import TapeMachine.Proofs.Reachable
import TapeMachine.Proofs.Reports
import TapeMachine.Proofs.Budget
import TapeMachine.Proofs.Watching
import TapeMachine.Proofs.Scheduling
import TapeMachine.Proofs.Tables
import TapeMachine.Proofs.Layering
import TapeMachine.Proofs.Blanks
import TapeMachine.Proofs.Commands
import TapeMachine.Proofs.Scripts
import TapeMachine.Proofs.Debugging
import TapeMachine.Proofs.Frames
import TapeMachine.Proofs.Nesting
import TapeMachine.Proofs.Offsets
import TapeMachine.Proofs.Unmatched
import TapeMachine.Proofs.Caret
import TapeMachine.Proofs.Spans
import TapeMachine.Proofs.Lockstep
import TapeMachine.Proofs.Unread
import TapeMachine.Proofs.Capacity
import TapeMachine.Proofs.Dump
import TapeMachine.Proofs.Escapes
import TapeMachine.Proofs.Verbatim
import TapeMachine.Proofs.Lines
import TapeMachine.Proofs.Cuts
import TapeMachine.Proofs.Comments
import TapeMachine.Proofs.Placement
import TapeMachine.Proofs.InView
import TapeMachine.Proofs.Arithmetic
import TapeMachine.Proofs.Painting
import TapeMachine.Proofs.MemoryPage
import TapeMachine.Proofs.MemoryRows
import TapeMachine.Proofs.Echo
import TapeMachine.Proofs.Clamping
