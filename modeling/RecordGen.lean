import RecordGen.Table
import RecordGen.Text.Blank
import RecordGen.Text.Word
import RecordGen.Text.CharClass
import RecordGen.Text.Surrogate
import RecordGen.Text.Quoted
import RecordGen.Text.CombiningClass
import RecordGen.Text.Composite
import RecordGen.Text.Replacement
import RecordGen.Text.NormalForm
import RecordGen.Text.Plain
import RecordGen.Decimal.Shortest
import RecordGen.Decimal.Nearest
import RecordGen.Json.Value
import RecordGen.Json.Display
import RecordGen.Json.Reader
import RecordGen.Schema.Fault
import RecordGen.Schema.Type
import RecordGen.Schema.TypeText
import RecordGen.Schema.Graph
import RecordGen.Schema.Document
import RecordGen.Documentation
import RecordGen.Target.JavaName
import RecordGen.Target.PythonName
import RecordGen.Config
import RecordGen.Naming
import RecordGen.Hierarchy
import RecordGen.Resolution
import RecordGen.GeneratedType
import RecordGen.Analysis
import RecordGen.Target.Fault
import RecordGen.Target.Members
import RecordGen.Target.JavaTree
import RecordGen.Target.JavaPrinter
import RecordGen.Target.JavaTypes
import RecordGen.Target.Working
import RecordGen.Target.JavaEmission
import RecordGen.Target.JavaBackend
import RecordGen.Target.PythonTree
import RecordGen.Target.PythonLiteral
import RecordGen.Target.PythonReference
import RecordGen.Target.PythonLimits
import RecordGen.Target.PythonPrinter
import RecordGen.Target.PythonReading
import RecordGen.Target.PythonTypes
import RecordGen.Target.PythonEmission
import RecordGen.Target.PythonBackend
import RecordGen.Generation
import RecordGen.Session
import RecordGen.CommandLine.Options
import RecordGen.CommandLine.Surroundings
import RecordGen.CommandLine.Invocation
import RecordGen.Main
import RecordGen.Proofs.Fallible
import RecordGen.Proofs.FreshNames
import RecordGen.Proofs.Ancestry
import RecordGen.Proofs.Allocation
import RecordGen.Proofs.Resolving
import RecordGen.Proofs.WellFormed
import RecordGen.Proofs.Loading
import RecordGen.Proofs.Substitution
import RecordGen.Proofs.Members
import RecordGen.Proofs.Describing
import RecordGen.Proofs.Acceptance
import RecordGen.Proofs.DocLines
import RecordGen.Proofs.JavaUnits
import RecordGen.Proofs.PythonClasses
import RecordGen.Proofs.Conformance
import RecordGen.Proofs.LongNumerals
import RecordGen.Proofs.Validation
import RecordGen.Proofs.TypeNames
import RecordGen.Proofs.JavaReferences
import RecordGen.Proofs.JavaScoping
import RecordGen.Proofs.JavaCapture
import RecordGen.Proofs.Memos
import RecordGen.Proofs.Backends
import RecordGen.Proofs.Sessions
import RecordGen.Proofs.Partition
import RecordGen.Proofs.DocumentOrder
import RecordGen.Proofs.GrowingGraphs
import RecordGen.Proofs.GrowingResults
import RecordGen.Proofs.GrowingSources
import RecordGen.Proofs.PythonLinearization
import RecordGen.Proofs.PythonDefinitions
import RecordGen.Proofs.JavaExecution
import RecordGen.Proofs.JavaCopies
import RecordGen.Proofs.NameClaims
import RecordGen.Proofs.LegalNames
import RecordGen.Proofs.PythonBuiltins
import RecordGen.Proofs.PythonExecution
import RecordGen.Proofs.PythonProtocol
import RecordGen.Proofs.PythonCopies
import RecordGen.Proofs.PythonClosure
import RecordGen.Proofs.JavaLayout
import RecordGen.Proofs.LastingMemos
import RecordGen.Proofs.MappedDocs
import RecordGen.Proofs.EmittedDocs
import RecordGen.Proofs.BlankDocs
import RecordGen.Proofs.InertDocs
import RecordGen.Proofs.Banners
import RecordGen.Proofs.TypeTexts
import RecordGen.Proofs.EditedDocuments
import RecordGen.Proofs.LinkedTexts
import RecordGen.Proofs.NewReferences
import RecordGen.Proofs.CommandLines
import RecordGen.Proofs.TypeReadings
import RecordGen.Proofs.Flattenings
import RecordGen.Proofs.AncestryWalks
import RecordGen.Proofs.CanonicalOrder
import RecordGen.Proofs.Components
import RecordGen.Proofs.LocalNames
import RecordGen.Proofs.JavaComments
import RecordGen.Proofs.JavaTypes
import RecordGen.Proofs.LegalMembers
import RecordGen.Proofs.JavaIndentation
import RecordGen.Proofs.CleanLines
import RecordGen.Proofs.NormalForms
import RecordGen.Proofs.PythonLines
import RecordGen.Proofs.PythonModules
