import MipsAssembler.Assembly.Stages
import MipsAssembler.Bits.Width
import MipsAssembler.Main
import MipsAssembler.Proofs.Outcome
import MipsAssembler.Proofs.InstructionTable
import MipsAssembler.Proofs.Messages
import MipsAssembler.Proofs.FaultOrigin
import MipsAssembler.Proofs.SourceText
import MipsAssembler.Proofs.Grammar
import MipsAssembler.Proofs.FirstFault
import MipsAssembler.Proofs.Packing
import MipsAssembler.Proofs.PackingReads
import MipsAssembler.Proofs.AccessLanguage
import MipsAssembler.Proofs.SignedDigits
import MipsAssembler.Proofs.NumeralLanguage
import MipsAssembler.Proofs.Bits.TwosComplement
import MipsAssembler.Proofs.FieldText
import MipsAssembler.Proofs.BinaryLanguage
import MipsAssembler.Proofs.LayoutByIndex
import MipsAssembler.Proofs.Renaming
import MipsAssembler.Proofs.ReferenceRewriting
import MipsAssembler.Proofs.SharedWords
import MipsAssembler.Proofs.Relocation
import MipsAssembler.Proofs.ScanAutomaton
import MipsAssembler.Proofs.ScanSeams
import MipsAssembler.Proofs.TokenText
import MipsAssembler.Proofs.LineEnds
import MipsAssembler.Proofs.Reports
import MipsAssembler.Proofs.ExitCodes
import MipsAssembler.Proofs.TraceAccount
import MipsAssembler.Proofs.Verbosity
