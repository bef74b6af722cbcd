import BoardConsole.Pacing
import BoardConsole.Numeral.Literal
import BoardConsole.Numeral.Hex
import BoardConsole.Text.Words
import BoardConsole.Text.Blank
import BoardConsole.Terminal.Display
import BoardConsole.ObjectFile.Segment
import BoardConsole.Files
import BoardConsole.Link.Script
import BoardConsole.Link.Tap
import BoardConsole.Monitor.Remote
import BoardConsole.Debugger.Session
import BoardConsole.Link.Stream
import BoardConsole.DebugService
import BoardConsole.Transfer.Port
import BoardConsole.Console.Servicer
import BoardConsole.Console.Loopback
import BoardConsole.Interface.Screen
import BoardConsole.Options
import BoardConsole.Main
import BoardConsole.Proofs.FlashImage
import BoardConsole.Proofs.Replies
import BoardConsole.Proofs.Maintenance
import BoardConsole.Proofs.Readiness
import BoardConsole.Proofs.Glyphs
import BoardConsole.Proofs.Checks
import BoardConsole.Proofs.Conversation
import BoardConsole.Proofs.Frames
import BoardConsole.Proofs.StopAndWait
import BoardConsole.Proofs.Receiver
import BoardConsole.Proofs.Batch
import BoardConsole.Proofs.Tokens
import BoardConsole.Proofs.Bounds
import BoardConsole.Proofs.Checked
import BoardConsole.Proofs.Lockstep
import BoardConsole.Proofs.ObjectFiles
import BoardConsole.Proofs.Exchanges
import BoardConsole.Proofs.Steadfast
import BoardConsole.Proofs.Untouched
import BoardConsole.Proofs.Opening
import BoardConsole.Proofs.Deeds
import BoardConsole.Proofs.Servicing
import BoardConsole.Proofs.FailStop
import BoardConsole.Proofs.Acts
import BoardConsole.Proofs.Colors
import BoardConsole.Proofs.Quitting
import BoardConsole.Proofs.Cancelling
import BoardConsole.Proofs.Transparency
import BoardConsole.Proofs.Commands
import BoardConsole.Proofs.Framing
import BoardConsole.Proofs.FullReset
import BoardConsole.Proofs.BusAccesses
import BoardConsole.Proofs.FlashWindow
import BoardConsole.Proofs.Arguments
import BoardConsole.Proofs.Streaming
import BoardConsole.Proofs.WriteProgram
import BoardConsole.Proofs.Readout
import BoardConsole.Proofs.BankEnd
import BoardConsole.Proofs.Skipping
import BoardConsole.Proofs.Upkeep
import BoardConsole.Proofs.Intents
import BoardConsole.Proofs.Pieces
import BoardConsole.Proofs.Paced
import BoardConsole.Proofs.PlainText
import BoardConsole.Proofs.Operands
import BoardConsole.Proofs.Cells
import BoardConsole.Proofs.Erasing
import BoardConsole.Proofs.Shifting
import BoardConsole.Proofs.CursorMotion
import BoardConsole.Proofs.Renditions
import BoardConsole.Proofs.Leftovers
import BoardConsole.Proofs.Numerals
import BoardConsole.Proofs.Reports
import BoardConsole.Proofs.Panes
import BoardConsole.Proofs.LogTail
import BoardConsole.Proofs.DebugLog
import BoardConsole.Proofs.LineWindow
import BoardConsole.Proofs.Encoding
import BoardConsole.Proofs.Editing
import BoardConsole.Proofs.LineBuffers
import BoardConsole.Proofs.Literals
import BoardConsole.Proofs.FixedWidth
