import SuperChip.Main
import SuperChip.Proofs.Emulator.Published
import SuperChip.Proofs.Machine.Calls
import SuperChip.Proofs.Machine.Decode
import SuperChip.Proofs.Machine.Fresh
import SuperChip.Proofs.Machine.Run
import SuperChip.Proofs.Presenter.Pictures
import SuperChip.Proofs.Session.Beeps
import SuperChip.Proofs.Session.Desk
import SuperChip.Proofs.Session.Shutdown
import SuperChip.Proofs.Session.Steps
import SuperChip.Proofs.Session.Stream
import SuperChip.Proofs.Session.Turns
import SuperChip.Proofs.Emulator.Pacing
import SuperChip.Proofs.Channel.Handover
import SuperChip.Proofs.Presenter.Given
import SuperChip.Proofs.Session.Draining
import SuperChip.Proofs.Machine.Sprite
import SuperChip.Proofs.Machine.Overlay
import SuperChip.Proofs.Machine.Flags
import SuperChip.Proofs.Canvas.Scroll
import SuperChip.Proofs.Machine.Marks
import SuperChip.Proofs.Machine.ProgramCounter
import SuperChip.Proofs.RateLimiter
import SuperChip.Proofs.Machine.Transfer
import SuperChip.Proofs.Channel.Usage
import SuperChip.Proofs.Machine.Waiting
import SuperChip.Proofs.Session.FirstCause
import SuperChip.Proofs.Machine.Loading
import SuperChip.Proofs.Machine.Glyphs
import SuperChip.Proofs.Window
import SuperChip.Proofs.Speaker
