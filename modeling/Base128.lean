import Base128.Command.Directory
import Base128.Command.Respond
import Base128.Cursor.Session
import Base128.Main
import Base128.Proofs.Extension
import Base128.Proofs.Walkers
import Base128.Proofs.Malformed
import Base128.Proofs.Acceptance
import Base128.Proofs.Verdict
import Base128.Proofs.Chunks
import Base128.Proofs.Agreement
import Base128.Proofs.Canonical
import Base128.Proofs.Relaxation
import Base128.Proofs.Concatenation
import Base128.Proofs.Paging
import Base128.Proofs.Rerun
import Base128.Proofs.Fused
import Base128.Proofs.Truncation
import Base128.Proofs.Segments
import Base128.Proofs.Checked
import Base128.Proofs.Reader
import Base128.Proofs.Commands
import Base128.Proofs.Safety
import Base128.Proofs.Limit
import Base128.Proofs.Narrow
import Base128.Proofs.Dressed
import Base128.Proofs.Summary
import Base128.Proofs.Lossless
import Base128.Proofs.Streams
import Base128.Proofs.Framing
import Base128.Proofs.Precedence
import Base128.Proofs.Merging
import Base128.Proofs.Depth
