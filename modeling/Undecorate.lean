import Undecorate.Declaration.Writer
import Undecorate.Main
import Undecorate.Proofs.Encoding.Decoding
import Undecorate.Proofs.Declaration.Balance
import Undecorate.Proofs.Declaration.InsideOut
import Undecorate.Proofs.Declaration.Spacing
import Undecorate.Proofs.Declaration.Insertion
import Undecorate.Proofs.WellFormed
import Undecorate.Proofs.Idempotence
import Undecorate.Proofs.Abbreviation
import Undecorate.Proofs.Terminator
import Undecorate.Proofs.NodeStore
import Undecorate.Proofs.Progress
import Undecorate.Proofs.Agreement
import Undecorate.Proofs.Ending
import Undecorate.Proofs.Reuse
import Undecorate.Proofs.Switches
import Undecorate.Proofs.Remembering
import Undecorate.Proofs.Nesting
import Undecorate.Proofs.Diagnosis
import Undecorate.Proofs.FunctionType
import Undecorate.Proofs.Number
import Undecorate.Proofs.CursorHistory
import Undecorate.Proofs.Declaration.MissingResult
import Undecorate.Proofs.SelfDelimiting
import Undecorate.Proofs.Declaration.WriterHistory
