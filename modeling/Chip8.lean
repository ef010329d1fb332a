import Chip8.Host.Window
import Chip8.Listing
import Chip8.Main
import Chip8.Proofs.CallStack.Requests
import Chip8.Proofs.Keyboard
import Chip8.Proofs.Listing
import Chip8.Proofs.Machine.Arithmetic
import Chip8.Proofs.Machine.Call
import Chip8.Proofs.Machine.Disassembly
import Chip8.Proofs.Machine.Drawing
import Chip8.Proofs.Machine.Exact
import Chip8.Proofs.Machine.Frame
import Chip8.Proofs.Machine.Following
import Chip8.Proofs.Machine.Index
import Chip8.Proofs.Machine.Influence
import Chip8.Proofs.Machine.Saved
import Chip8.Proofs.Machine.Writes
import Chip8.Proofs.Picture.Text
import Chip8.Proofs.Picture.Window
import Chip8.Proofs.Session.Window
import Chip8.Proofs.Session.Beep
import Chip8.Proofs.Session.Trace
import Chip8.Proofs.Machine.Painting
import Chip8.Proofs.Machine.Overprint
import Chip8.Proofs.Machine.Transfer
import Chip8.Proofs.Machine.Overlay
import Chip8.Proofs.Machine.LowBits
