import DefensiveCopy.Analysis.Necessity
import DefensiveCopy.Analysis.Options
import DefensiveCopy.Analysis.Run
import DefensiveCopy.Analysis.Signal
import DefensiveCopy.Chain
import DefensiveCopy.CoreLibrary
import DefensiveCopy.Finding.Basic
import DefensiveCopy.Finding.Class
import DefensiveCopy.Finding.Report
import DefensiveCopy.FlagWord
import DefensiveCopy.MemberAccess.Basic
import DefensiveCopy.MemberAccess.Extraction
import DefensiveCopy.MemberAccess.Indexing
import DefensiveCopy.MemberAccess.Pinning
import DefensiveCopy.Model
import DefensiveCopy.Operation.Basic
import DefensiveCopy.Operation.Builder
import DefensiveCopy.Operation.Script
import DefensiveCopy.Operation.Tree
import DefensiveCopy.Operation.Usage
import DefensiveCopy.Platform
import DefensiveCopy.Proofs.AccessLevels
import DefensiveCopy.Proofs.AnnotatedModel
import DefensiveCopy.Proofs.Annotation
import DefensiveCopy.Proofs.Atomicity
import DefensiveCopy.Proofs.Building
import DefensiveCopy.Proofs.Cancellation
import DefensiveCopy.Proofs.ClassFilter
import DefensiveCopy.Proofs.ConstraintSemantics
import DefensiveCopy.Proofs.ConstructedMembers
import DefensiveCopy.Proofs.ConstructedTypes
import DefensiveCopy.Proofs.ContainmentWalk
import DefensiveCopy.Proofs.EnclosingMember
import DefensiveCopy.Proofs.Forest
import DefensiveCopy.Proofs.FreshTokens
import DefensiveCopy.Proofs.GeneratedCode
import DefensiveCopy.Proofs.ImplementationLookup
import DefensiveCopy.Proofs.IncludeListForm
import DefensiveCopy.Proofs.IndexerDispatch
import DefensiveCopy.Proofs.Insertion
import DefensiveCopy.Proofs.Integrity
import DefensiveCopy.Proofs.InterfaceClosure
import DefensiveCopy.Proofs.LibraryClosure
import DefensiveCopy.Proofs.LibraryGrowth
import DefensiveCopy.Proofs.LibraryIntegrity
import DefensiveCopy.Proofs.LinkPaths
import DefensiveCopy.Proofs.LiveAnalysis
import DefensiveCopy.Proofs.MemberRegions
import DefensiveCopy.Proofs.MemberSearch
import DefensiveCopy.Proofs.MessageSlots
import DefensiveCopy.Proofs.OperandFields
import DefensiveCopy.Proofs.OverrideLookup
import DefensiveCopy.Proofs.PinningAmbiguity
import DefensiveCopy.Proofs.Polling
import DefensiveCopy.Proofs.ReceiverSites
import DefensiveCopy.Proofs.Registration
import DefensiveCopy.Proofs.RegistrationCall
import DefensiveCopy.Proofs.ReportOrder
import DefensiveCopy.Proofs.Scheduling
import DefensiveCopy.Proofs.StorageDescent
import DefensiveCopy.Proofs.StricterContext
import DefensiveCopy.Proofs.TableExtension
import DefensiveCopy.Proofs.TableInvariant
import DefensiveCopy.Proofs.TypeLookup
import DefensiveCopy.Proofs.ValueUse
import DefensiveCopy.Receiver.Context
import DefensiveCopy.Receiver.Name
import DefensiveCopy.Receiver.ReadOnly
import DefensiveCopy.Symbol.Basic
import DefensiveCopy.Symbol.Vocabulary
import DefensiveCopy.Symbol.WellKnown
import DefensiveCopy.SymbolTable.Accessibility
import DefensiveCopy.SymbolTable.Ancestry
import DefensiveCopy.SymbolTable.Basic
import DefensiveCopy.SymbolTable.Containment
import DefensiveCopy.SymbolTable.Interfaces
import DefensiveCopy.SymbolTable.Recognition
import DefensiveCopy.SymbolTable.Registration
import DefensiveCopy.SymbolTable.Semantics
import DefensiveCopy.Text.Blank
import DefensiveCopy.Text.Hex
import DefensiveCopy.Text.Template
import DefensiveCopy.Token
