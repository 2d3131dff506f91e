import ShaderVariants.Main
import ShaderVariants.Workspace
import ShaderVariants.Proofs.Cpp.Execution
import ShaderVariants.Proofs.Cpp.Comments
import ShaderVariants.Proofs.Cpp.Reading
import ShaderVariants.Proofs.Names
import ShaderVariants.Proofs.Accessors
import ShaderVariants.Proofs.Shaders
import ShaderVariants.Proofs.Cpp.Spelling
import ShaderVariants.Proofs.Generated.Members
import ShaderVariants.Proofs.Generated.Frame
import ShaderVariants.Proofs.Generated.Statements
import ShaderVariants.Proofs.Generated.Files
import ShaderVariants.Proofs.Generated.Lines
import ShaderVariants.Proofs.Generated.Object
import ShaderVariants.Proofs.Generated.Assembling
import ShaderVariants.Proofs.RoundTrip
import ShaderVariants.Proofs.AssembledLines
import ShaderVariants.Proofs.BoundNames
import ShaderVariants.Proofs.DeclaredNames
import ShaderVariants.Proofs.ScannedParts
import ShaderVariants.Proofs.Paths
import ShaderVariants.Proofs.Walks
import ShaderVariants.Proofs.Changes
import ShaderVariants.Proofs.Staging
import ShaderVariants.Proofs.Publishing
import ShaderVariants.Proofs.MadeDirectories
import ShaderVariants.Proofs.Generating
import ShaderVariants.Proofs.InSync
import ShaderVariants.Proofs.Verdicts
import ShaderVariants.Proofs.RecoveredShaders
import ShaderVariants.Proofs.ReadyOutputs
import ShaderVariants.Proofs.TwoInputs
import ShaderVariants.Proofs.DistinctVariants
import ShaderVariants.Proofs.AppendedSources
import ShaderVariants.Proofs.Obstacles
import ShaderVariants.Proofs.ResolvedSettings
import ShaderVariants.Proofs.ExitCodes
import ShaderVariants.Proofs.SymbolsInEffect
import ShaderVariants.Proofs.BodyStatements
import ShaderVariants.Proofs.ArtifactLines
import ShaderVariants.Proofs.HeaderComments
import ShaderVariants.Proofs.QuotedLiterals
import ShaderVariants.Proofs.LiteralLimits
import ShaderVariants.Proofs.Interruptions
import ShaderVariants.Proofs.NameTables
import ShaderVariants.Proofs.SetToggles
import ShaderVariants.Proofs.CarriageReturns
import ShaderVariants.Proofs.NamespacePaths
import ShaderVariants.Proofs.PascalCase
import ShaderVariants.Proofs.LiteralPieces
import ShaderVariants.Proofs.ScanEvents
import ShaderVariants.Proofs.OutputPlaces
import ShaderVariants.Proofs.NamedSymbols
