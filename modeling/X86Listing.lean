import X86Listing.Interchange.Builder
import X86Listing.Json.Reader
import X86Listing.Json.Writer
import X86Listing.Proofs.Resolution
import X86Listing.Proofs.Step
import X86Listing.Proofs.Stream
import X86Listing.Proofs.SinkIndependence
import X86Listing.Proofs.Accounting
import X86Listing.Proofs.Replay
import X86Listing.Proofs.NamedOperations
import X86Listing.Proofs.Rejection
import X86Listing.Proofs.DefaultWidth
import X86Listing.Proofs.Truncation
import X86Listing.Proofs.LogDiscipline
import X86Listing.Proofs.Independence
import X86Listing.Proofs.JsonText
import X86Listing.Proofs.LawfulInterchange
import X86Listing.Proofs.Listing
import X86Listing.Proofs.RoundTrip
import X86Listing.Proofs.Spelling
import X86Listing.Proofs.Rules
import X86Listing.Proofs.Outcomes
import X86Listing.Proofs.Restart
import X86Listing.Proofs.ShiftWidth
import X86Listing.Proofs.Relaxation
import X86Listing.Proofs.InstructionText
import X86Listing.Proofs.ShiftRequests
import X86Listing.Proofs.Refinements
import X86Listing.Proofs.Escapes
import X86Listing.Proofs.DeclarationText
import X86Listing.Proofs.OneOperand
import X86Listing.Proofs.ByteStore
import X86Listing.Proofs.GivenTexts
import X86Listing.Proofs.Comments
