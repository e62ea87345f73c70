import Columnar.Bank
import Columnar.Chunk.Basic
import Columnar.Chunk.Select
import Columnar.Chunk.Sound
import Columnar.DataType
import Columnar.Domain
import Columnar.Encoder
import Columnar.Ledger
import Columnar.Nesting
import Columnar.Proofs.Columns
import Columnar.Proofs.Compatibility
import Columnar.Proofs.Conservation
import Columnar.Proofs.Correspondence
import Columnar.Proofs.Cutting
import Columnar.Proofs.Decoding
import Columnar.Proofs.Demands
import Columnar.Proofs.Encoding
import Columnar.Proofs.Ending
import Columnar.Proofs.Fields
import Columnar.Proofs.Filling
import Columnar.Proofs.Frugality
import Columnar.Proofs.Growing
import Columnar.Proofs.Lifetimes
import Columnar.Proofs.Names
import Columnar.Proofs.Naming
import Columnar.Proofs.Packing
import Columnar.Proofs.Paths
import Columnar.Proofs.Placing
import Columnar.Proofs.Provisions
import Columnar.Proofs.Refusals
import Columnar.Proofs.Registrations
import Columnar.Proofs.Reserving
import Columnar.Proofs.RoundTrip
import Columnar.Proofs.Rows
import Columnar.Proofs.Sessions
import Columnar.Proofs.Sizes
import Columnar.Proofs.Spare
import Columnar.Proofs.Storing
import Columnar.Proofs.Sufficing
import Columnar.Proofs.Texts
import Columnar.Proofs.Tiling
import Columnar.Proofs.Traces
import Columnar.Proofs.Widening
import Columnar.Value.Basic
import Columnar.Value.Cell
import Columnar.Value.Meaning
import Columnar.Words
