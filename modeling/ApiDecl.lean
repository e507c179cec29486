import ApiDecl.Document.Reader
import ApiDecl.Main
import ApiDecl.Proofs.Marking
import ApiDecl.Proofs.References
import ApiDecl.Proofs.Determinacy
import ApiDecl.Proofs.PropertyOrder
import ApiDecl.Proofs.Shadowing
import ApiDecl.Proofs.Locality
import ApiDecl.Proofs.FileOrder
import ApiDecl.Proofs.JsonReading
import ApiDecl.Proofs.RecordReading
import ApiDecl.Proofs.SchemaReading
import ApiDecl.Proofs.DocumentReading
import ApiDecl.Proofs.RouteDeclarations
import ApiDecl.Proofs.RouteSource
import ApiDecl.Proofs.RouteAlignment
import ApiDecl.Proofs.RoutePaths
import ApiDecl.Proofs.RouteLiterals
import ApiDecl.Proofs.HandlerNames
import ApiDecl.Proofs.FunctionNames
import ApiDecl.Proofs.Sessions
import ApiDecl.Proofs.InPlace
import ApiDecl.Proofs.StructUses
import ApiDecl.Proofs.Hidden
import ApiDecl.Proofs.FileChanges
import ApiDecl.Proofs.Runs
import ApiDecl.Proofs.NormalForm
import ApiDecl.Proofs.Regeneration
import ApiDecl.Proofs.HandlerContract
import ApiDecl.Proofs.RouteRecords
import ApiDecl.Proofs.Vocabulary
import ApiDecl.Proofs.SkippedFields
import ApiDecl.Proofs.DeclarationFaults
import ApiDecl.Proofs.ParsingCalls
import ApiDecl.Proofs.ParsingSignatures
import ApiDecl.Proofs.ParsingPaths
import ApiDecl.Proofs.Parsing
import ApiDecl.Proofs.BareTokens
import ApiDecl.Proofs.ParsingItems
import ApiDecl.Proofs.Pieces
import ApiDecl.Proofs.SnakeWords
import ApiDecl.Proofs.SourcePieces
import ApiDecl.Proofs.SourceTokens
import ApiDecl.Proofs.SilentSource
import ApiDecl.Proofs.Idempotence
import ApiDecl.Proofs.EmptyTypes
import ApiDecl.Proofs.ShallowTypes
import ApiDecl.Proofs.Words
import ApiDecl.Proofs.DirectiveGrammar
import ApiDecl.Proofs.Documentation
import ApiDecl.Proofs.PathParameters
import ApiDecl.Proofs.Wrapping
import ApiDecl.Proofs.DeclarationFiles
import ApiDecl.Proofs.CommaLists
import ApiDecl.Proofs.EmbeddingMarks
import ApiDecl.Proofs.SnakeLetters
import ApiDecl.Proofs.ItemNumbers
import ApiDecl.Proofs.VisibleDeclarations
import ApiDecl.Proofs.DocLocations
import ApiDecl.Proofs.JoinedPaths
import ApiDecl.Proofs.JoinedTags
