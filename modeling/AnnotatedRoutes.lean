import AnnotatedRoutes.Annotation.Directive
import AnnotatedRoutes.Annotation.Docblock
import AnnotatedRoutes.Calendar.Moment
import AnnotatedRoutes.Calendar.Spelling
import AnnotatedRoutes.Catalog.Basic
import AnnotatedRoutes.Catalog.File
import AnnotatedRoutes.CommandLine.Arguments
import AnnotatedRoutes.CommandLine.Run
import AnnotatedRoutes.Discovery
import AnnotatedRoutes.FileTree.Basic
import AnnotatedRoutes.FileTree.Canonical
import AnnotatedRoutes.FileTree.Path
import AnnotatedRoutes.Generation
import AnnotatedRoutes.Keyed
import AnnotatedRoutes.Main
import AnnotatedRoutes.Number.Double
import AnnotatedRoutes.Number.Shortest
import AnnotatedRoutes.Number.Spelling
import AnnotatedRoutes.Proofs.ActionOrder
import AnnotatedRoutes.Proofs.AdjacentDocblock
import AnnotatedRoutes.Proofs.AnnotationOrigin
import AnnotatedRoutes.Proofs.AnnotationSegments
import AnnotatedRoutes.Proofs.AnnotationText
import AnnotatedRoutes.Proofs.BelowDirectory
import AnnotatedRoutes.Proofs.BodySpans
import AnnotatedRoutes.Proofs.BraceBalance
import AnnotatedRoutes.Proofs.BuilderCalls
import AnnotatedRoutes.Proofs.Cancellation
import AnnotatedRoutes.Proofs.CanonicalPaths
import AnnotatedRoutes.Proofs.CatalogEntries
import AnnotatedRoutes.Proofs.CatalogLoading
import AnnotatedRoutes.Proofs.CatalogValidation
import AnnotatedRoutes.Proofs.ClassMembers
import AnnotatedRoutes.Proofs.ClassOrder
import AnnotatedRoutes.Proofs.CodeBehindClass
import AnnotatedRoutes.Proofs.CommandReturns
import AnnotatedRoutes.Proofs.CommandRuns
import AnnotatedRoutes.Proofs.CommentClosing
import AnnotatedRoutes.Proofs.DeclarationMasking
import AnnotatedRoutes.Proofs.DeclarationReading
import AnnotatedRoutes.Proofs.DeclarationSearch
import AnnotatedRoutes.Proofs.DirectoryListing
import AnnotatedRoutes.Proofs.DirectoryWalk
import AnnotatedRoutes.Proofs.DocblockEnd
import AnnotatedRoutes.Proofs.DocblockLookup
import AnnotatedRoutes.Proofs.DocblockRoundTrip
import AnnotatedRoutes.Proofs.DryRun
import AnnotatedRoutes.Proofs.ExceptRules
import AnnotatedRoutes.Proofs.HeldFiles
import AnnotatedRoutes.Proofs.InertLines
import AnnotatedRoutes.Proofs.InertRouter
import AnnotatedRoutes.Proofs.InputFiles
import AnnotatedRoutes.Proofs.JobAttempts
import AnnotatedRoutes.Proofs.JobReturns
import AnnotatedRoutes.Proofs.JsonReading
import AnnotatedRoutes.Proofs.KeyedLookup
import AnnotatedRoutes.Proofs.KeywordReading
import AnnotatedRoutes.Proofs.LinkResolution
import AnnotatedRoutes.Proofs.ListingOrder
import AnnotatedRoutes.Proofs.LowercaseOrder
import AnnotatedRoutes.Proofs.MergeOrder
import AnnotatedRoutes.Proofs.MethodDocblocks
import AnnotatedRoutes.Proofs.MethodListing
import AnnotatedRoutes.Proofs.MethodReading
import AnnotatedRoutes.Proofs.MethodSearch
import AnnotatedRoutes.Proofs.ModelBuilding
import AnnotatedRoutes.Proofs.ModelDumps
import AnnotatedRoutes.Proofs.ModelIntegrity
import AnnotatedRoutes.Proofs.ModelMeaning
import AnnotatedRoutes.Proofs.ModelReturns
import AnnotatedRoutes.Proofs.ModelWrites
import AnnotatedRoutes.Proofs.Occurrence
import AnnotatedRoutes.Proofs.OutputAgreement
import AnnotatedRoutes.Proofs.OutputOrder
import AnnotatedRoutes.Proofs.PrintedClass
import AnnotatedRoutes.Proofs.PrintedDocblock
import AnnotatedRoutes.Proofs.PrintedMethods
import AnnotatedRoutes.Proofs.QualifiedNames
import AnnotatedRoutes.Proofs.RecordLines
import AnnotatedRoutes.Proofs.RecordOrder
import AnnotatedRoutes.Proofs.ReflectorMemory
import AnnotatedRoutes.Proofs.RepeatedClass
import AnnotatedRoutes.Proofs.RouteDelivery
import AnnotatedRoutes.Proofs.RouterDecoding
import AnnotatedRoutes.Proofs.RouterLayout
import AnnotatedRoutes.Proofs.RouterLines
import AnnotatedRoutes.Proofs.RouterStatements
import AnnotatedRoutes.Proofs.RunEffects
import AnnotatedRoutes.Proofs.ScannedComments
import AnnotatedRoutes.Proofs.SelfContained
import AnnotatedRoutes.Proofs.SettingsFaults
import AnnotatedRoutes.Proofs.ShippedRouter
import AnnotatedRoutes.Proofs.SpanEnd
import AnnotatedRoutes.Proofs.SpanLookahead
import AnnotatedRoutes.Proofs.SpanOpening
import AnnotatedRoutes.Proofs.SpanPartition
import AnnotatedRoutes.Proofs.SpanScan
import AnnotatedRoutes.Proofs.StableOrder
import AnnotatedRoutes.Proofs.SureRuns
import AnnotatedRoutes.Proofs.TextBytes
import AnnotatedRoutes.Proofs.TextOrder
import AnnotatedRoutes.Proofs.TextShape
import AnnotatedRoutes.Proofs.TidyModel
import AnnotatedRoutes.Proofs.TokenReading
import AnnotatedRoutes.Proofs.TreeGrowth
import AnnotatedRoutes.Proofs.TreeShape
import AnnotatedRoutes.Proofs.UntouchedFiles
import AnnotatedRoutes.Proofs.UrlRegistrations
import AnnotatedRoutes.Proofs.WrittenFiles
import AnnotatedRoutes.Proofs.WrittenModel
import AnnotatedRoutes.Router.Render
import AnnotatedRoutes.Router.Templates
import AnnotatedRoutes.Routing.Builder
import AnnotatedRoutes.Routing.Model
import AnnotatedRoutes.Routing.Record
import AnnotatedRoutes.Routing.Route
import AnnotatedRoutes.Session
import AnnotatedRoutes.Settings.Basic
import AnnotatedRoutes.Settings.File
import AnnotatedRoutes.Settings.Shipped
import AnnotatedRoutes.Settings.Value
import AnnotatedRoutes.Source.ClassScan
import AnnotatedRoutes.Source.Declaration
import AnnotatedRoutes.Source.Method
import AnnotatedRoutes.Source.PrecedingDocblock
import AnnotatedRoutes.Source.Reflector
import AnnotatedRoutes.Source.Span
import AnnotatedRoutes.Source.Token
import AnnotatedRoutes.Template.Basic
import AnnotatedRoutes.Template.Fill
import AnnotatedRoutes.Template.Layout
import AnnotatedRoutes.Text.Basic
import AnnotatedRoutes.Text.Blank
import AnnotatedRoutes.Text.CodeRange
import AnnotatedRoutes.Text.Digit
import AnnotatedRoutes.Text.Line
import AnnotatedRoutes.Text.Lowercase
import AnnotatedRoutes.Text.Printable
import AnnotatedRoutes.Text.Quoted
import AnnotatedRoutes.Text.Utf8
import AnnotatedRoutes.Text.WordChar
import AnnotatedRoutes.Yaml.BlockText
import AnnotatedRoutes.Yaml.Document
import AnnotatedRoutes.Yaml.Fault
import AnnotatedRoutes.Yaml.Node
import AnnotatedRoutes.Yaml.Place
import AnnotatedRoutes.Yaml.PlainText
import AnnotatedRoutes.Yaml.Property
import AnnotatedRoutes.Yaml.QuotedText
import AnnotatedRoutes.Yaml.Tag
import AnnotatedRoutes.Yaml.Token
import AnnotatedRoutes.Yaml.Token.Lexer
