import BulkMemory.Form
import BulkMemory.Machine
import BulkMemory.Main
import BulkMemory.Proofs.Machine.CopyBytes
import BulkMemory.Proofs.Pass.Idempotence
import BulkMemory.Token.Grammar
import BulkMemory.Proofs.Machine.FillBytes
import BulkMemory.Proofs.Machine.Rounds
import BulkMemory.Proofs.Machine.Bounds
import BulkMemory.Proofs.Machine.Traps
import BulkMemory.Proofs.Machine.Faults
import BulkMemory.Proofs.Form.Calls
import BulkMemory.Proofs.Form.Fields
import BulkMemory.Proofs.Token.Depth
import BulkMemory.Proofs.Layout.Forest
import BulkMemory.Proofs.Occurrence.Kept
import BulkMemory.Proofs.Pass.Forest
import BulkMemory.Proofs.Pass.Nesting
import BulkMemory.Proofs.Layout.Names
import BulkMemory.Proofs.Replacement.Fresh
import BulkMemory.Proofs.Pass.Resolution
import BulkMemory.Proofs.Token.Exact
import BulkMemory.Proofs.Token.Cursor
import BulkMemory.Proofs.Token.Cuts
import BulkMemory.Proofs.Token.First
import BulkMemory.Proofs.Layout.Partners
import BulkMemory.Proofs.Layout.Exact
import BulkMemory.Proofs.Layout.Balance
import BulkMemory.Proofs.Occurrence.Refusal
import BulkMemory.Proofs.Occurrence.Matching
import BulkMemory.Proofs.Pass.Shortcuts
import BulkMemory.Proofs.Pass.Success
import BulkMemory.Proofs.Pass.Trivia
import BulkMemory.Proofs.Pass.Breaks
import BulkMemory.Proofs.Occurrence.Operand
import BulkMemory.Proofs.Pass.Operands
import BulkMemory.Proofs.Pass.Renaming
import BulkMemory.Proofs.Function.Recovery
import BulkMemory.Proofs.Function.Rendering
import BulkMemory.Proofs.Files.Changes
import BulkMemory.Proofs.Tool.Conversion
import BulkMemory.Proofs.Occurrence.Order
import BulkMemory.Proofs.Replacement.Choice
import BulkMemory.Proofs.Pass.Offsets
import BulkMemory.Proofs.Module.Numerals
import BulkMemory.Proofs.Token.Zeros
import BulkMemory.Proofs.Outline.Joining
