import Chip8.Instruction.Encode
import Chip8.Main
import Chip8.Proofs.Encoding
import Chip8.Proofs.Spans
import Chip8.Proofs.Execution
import Chip8.Proofs.Stepping
import Chip8.Proofs.Failure
import Chip8.Proofs.Checked
import Chip8.Proofs.Faultless
import Chip8.Proofs.Grounded
import Chip8.Proofs.Returning
import Chip8.Proofs.Batching
import Chip8.Proofs.Decoding
import Chip8.Proofs.Drawing
import Chip8.Proofs.Halting
import Chip8.Proofs.Clocking
import Chip8.Proofs.Awaiting
import Chip8.Proofs.Storing
import Chip8.Proofs.Glyphs
import Chip8.Proofs.Framing
import Chip8.Proofs.Turns
import Chip8.Proofs.Showing
import Chip8.Proofs.Logging
import Chip8.Proofs.Course
import Chip8.Proofs.Concluding
import Chip8.Proofs.Pacing
import Chip8.Proofs.Cropping
import Chip8.Proofs.Rating
import Chip8.Proofs.Unread
import Chip8.Proofs.Titling
import Chip8.Proofs.Flagging
import Chip8.Proofs.Holding
import Chip8.Proofs.Restoring
import Chip8.Proofs.Erasing
import Chip8.Proofs.Handmade
import Chip8.Proofs.Taking
import Chip8.Proofs.Loading
import Chip8.Proofs.Viewing
import Chip8.Proofs.Listing
import Chip8.Proofs.Stacking
import Chip8.Proofs.Remembering
import Chip8.Proofs.Pressing
import Chip8.Proofs.Wording
import Chip8.Proofs.Consuming
