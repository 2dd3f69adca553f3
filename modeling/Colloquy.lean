import Colloquy.Replay.Document
import Colloquy.Screen.Keys
import Colloquy.Screen.Frame
import Colloquy.Main
import Colloquy.Proofs.Action
import Colloquy.Proofs.Evaluation.Simulation
import Colloquy.Proofs.Playthrough.Operation
import Colloquy.Proofs.Playthrough.Simulation
import Colloquy.Proofs.Host.Record
import Colloquy.Proofs.Playthrough.Transaction
import Colloquy.Proofs.Builtin
import Colloquy.Proofs.Sandbox.Host
import Colloquy.Proofs.Sandbox.Kinds
import Colloquy.Proofs.Dialogue.Grammar
import Colloquy.Proofs.Sandbox.Failure
import Colloquy.Proofs.Evaluation.Quiet
import Colloquy.Proofs.Playthrough.Fresh
import Colloquy.Proofs.Sandbox.Fresh
import Colloquy.Proofs.Evaluation.Fault
import Colloquy.Proofs.Playthrough.Indexing
import Colloquy.Proofs.Sandbox.Offered
import Colloquy.Playthrough.Source
import Colloquy.Proofs.Sandbox.Resume
import Colloquy.Proofs.Number.Bits
import Colloquy.Proofs.Number.Nearest
import Colloquy.Proofs.Number.Shortest
import Colloquy.Proofs.Number.Plain
import Colloquy.Proofs.Token
import Colloquy.Proofs.Expr.RoundTrip
import Colloquy.Proofs.Json.Pieces
import Colloquy.Proofs.Json.Reading
import Colloquy.Proofs.Json.Number
import Colloquy.Proofs.FileTree
import Colloquy.Proofs.FileTree.Frame
import Colloquy.Proofs.Json.Record
import Colloquy.Proofs.Sandbox.Document
import Colloquy.Proofs.Session.Load
import Colloquy.Proofs.Dialogue.Targets
import Colloquy.Proofs.Playthrough.Strict
import Colloquy.Proofs.Dialogue.Forms
import Colloquy.Proofs.Dialogue.Labels
import Colloquy.Proofs.Dialogue.Denotation
import Colloquy.Proofs.Command.Agent
import Colloquy.Proofs.Evaluation.Frame
import Colloquy.Proofs.Playthrough.Frame
import Colloquy.Proofs.Sandbox.Variables
import Colloquy.Proofs.Dialogue.Order
import Colloquy.Proofs.Dialogue.Joined
import Colloquy.Proofs.Json.Quantity
import Colloquy.Proofs.Json.Indented
import Colloquy.Proofs.Json.Depth
import Colloquy.Proofs.Json.Codec
import Colloquy.Proofs.Expr.Document
import Colloquy.Proofs.Dialogue.Document
import Colloquy.Proofs.Replay.Document
import Colloquy.Proofs.Documents
import Colloquy.Proofs.Evaluation.Shape
import Colloquy.Proofs.Playthrough.Coupling
import Colloquy.Proofs.Playthrough.Pruned
import Colloquy.Proofs.Dialogue.Fault
import Colloquy.Proofs.Playthrough.Fault
import Colloquy.Proofs.Screen.Follows
import Colloquy.Proofs.Screen.Enter
import Colloquy.Proofs.Screen.Window
import Colloquy.Proofs.Text.Quoted
import Colloquy.Proofs.Token.Account
import Colloquy.Proofs.Dialogue.Diagnostic
import Colloquy.Proofs.Text.Bytes
import Colloquy.Proofs.Replay.Run
import Colloquy.Proofs.Replay.Check
import Colloquy.Proofs.Expr.Balance
import Colloquy.Proofs.Sandbox.Pawn
import Colloquy.Proofs.Sandbox.Handles
import Colloquy.Proofs.LinePlayer.Idle
import Colloquy.Proofs.Scenario.Scripts
import Colloquy.Proofs.Command.StateFile
import Colloquy.Proofs.Json.Nearest
import Colloquy.Proofs.Dialogue.Names
import Colloquy.Proofs.Json.Line
import Colloquy.Proofs.Sandbox.Nearest
import Colloquy.Proofs.Command.Lines
import Colloquy.Proofs.Screen.Typing
import Colloquy.Proofs.Expr.Atom
import Colloquy.Proofs.Screen.Frame
