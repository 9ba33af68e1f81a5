import RouteAtlas.Alias.Babel
import RouteAtlas.Alias.ConfigText
import RouteAtlas.Alias.Dialect
import RouteAtlas.Alias.Jest
import RouteAtlas.Alias.Metro
import RouteAtlas.Alias.Probe
import RouteAtlas.Alias.Resolver
import RouteAtlas.Alias.Tsconfig
import RouteAtlas.CommandLine.Report
import RouteAtlas.CommandLine.Request
import RouteAtlas.Failure
import RouteAtlas.FilePath
import RouteAtlas.FileTree
import RouteAtlas.Glob
import RouteAtlas.HttpMethod
import RouteAtlas.HttpPath
import RouteAtlas.Json
import RouteAtlas.Main
import RouteAtlas.Options
import RouteAtlas.OsError
import RouteAtlas.Proofs.Alias.Cache
import RouteAtlas.Proofs.Alias.History
import RouteAtlas.Proofs.Alias.RealFiles
import RouteAtlas.Proofs.Alias.Resolution
import RouteAtlas.Proofs.FilePath
import RouteAtlas.Proofs.FilePath.Normalization
import RouteAtlas.Proofs.FilePath.Order
import RouteAtlas.Proofs.FilePath.Steps
import RouteAtlas.Proofs.FileTree
import RouteAtlas.Proofs.Glob
import RouteAtlas.Proofs.HttpPath
import RouteAtlas.Proofs.Regex
import RouteAtlas.Proofs.Route.BranchUnion
import RouteAtlas.Proofs.Route.Duality
import RouteAtlas.Proofs.Route.Expansion
import RouteAtlas.Proofs.Route.FullMatch
import RouteAtlas.Proofs.Route.MountChain
import RouteAtlas.Proofs.Route.Overwriting
import RouteAtlas.Proofs.Route.ReadingOrder
import RouteAtlas.Proofs.Route.RealSources
import RouteAtlas.Proofs.Route.Rearrangement
import RouteAtlas.Proofs.Route.Recording
import RouteAtlas.Proofs.Route.RoundTrip
import RouteAtlas.Proofs.Route.StoreHistory
import RouteAtlas.Proofs.Route.Survey
import RouteAtlas.Proofs.Route.Termination
import RouteAtlas.Proofs.Route.Walk
import RouteAtlas.Proofs.Search.Candidates
import RouteAtlas.Proofs.Search.Walk
import RouteAtlas.Proofs.SortedMap
import RouteAtlas.Proofs.Source.CommentedTree
import RouteAtlas.Proofs.Source.Comments
import RouteAtlas.Proofs.Source.Nodes
import RouteAtlas.Proofs.Source.Reading
import RouteAtlas.Proofs.Source.StatementOrder
import RouteAtlas.Proofs.Syntax.Bindings
import RouteAtlas.Proofs.Syntax.Definitions
import RouteAtlas.Proofs.Syntax.Expressions
import RouteAtlas.Proofs.Syntax.Faithful
import RouteAtlas.Proofs.Syntax.Placement
import RouteAtlas.Proofs.Syntax.Programs
import RouteAtlas.Proofs.Syntax.Reading
import RouteAtlas.Proofs.Syntax.Statements
import RouteAtlas.Proofs.Syntax.Token
import RouteAtlas.Proofs.Syntax.Types
import RouteAtlas.Proofs.Trie.Branch
import RouteAtlas.Proofs.Trie.Canonical
import RouteAtlas.Proofs.Trie.Pattern
import RouteAtlas.Proofs.Trie.Store
import RouteAtlas.Regex.Basic
import RouteAtlas.Regex.CharSet
import RouteAtlas.Regex.Parse
import RouteAtlas.Route.FileRoutes
import RouteAtlas.Route.Graph
import RouteAtlas.Route.Index
import RouteAtlas.Route.Store
import RouteAtlas.Route.Survey
import RouteAtlas.Route.Trie
import RouteAtlas.Search.Content
import RouteAtlas.Search.Engine
import RouteAtlas.Search.Program
import RouteAtlas.Search.Query
import RouteAtlas.Search.Walk
import RouteAtlas.Shell.Arithmetic
import RouteAtlas.Shell.Builtin
import RouteAtlas.Shell.Execution
import RouteAtlas.Shell.Field
import RouteAtlas.Shell.Launch
import RouteAtlas.Shell.Parse
import RouteAtlas.Shell.Pattern
import RouteAtlas.Shell.Script
import RouteAtlas.Shell.State
import RouteAtlas.SortedMap
import RouteAtlas.Source.Extraction
import RouteAtlas.Source.Finding
import RouteAtlas.Source.Mention
import RouteAtlas.Source.Published
import RouteAtlas.Source.Value
import RouteAtlas.Syntax.Annotation
import RouteAtlas.Syntax.Binding
import RouteAtlas.Syntax.Definition
import RouteAtlas.Syntax.Expression
import RouteAtlas.Syntax.Language
import RouteAtlas.Syntax.Markup
import RouteAtlas.Syntax.Program
import RouteAtlas.Syntax.Reader
import RouteAtlas.Syntax.Statement
import RouteAtlas.Syntax.Template
import RouteAtlas.Syntax.Token
import RouteAtlas.Syntax.Tree
import RouteAtlas.TestDiscovery
import RouteAtlas.Text.Blank
import RouteAtlas.Text.Category
import RouteAtlas.Text.CodeTable
import RouteAtlas.Text.LetterCase
import RouteAtlas.Text.Pieces
import RouteAtlas.Text.WordChar
import RouteAtlas.WorkTree
import RouteAtlas.Proofs.Trie.LiteralRoutes
import RouteAtlas.Proofs.Route.JoinedBase
import RouteAtlas.Proofs.Route.JoinedPattern
import RouteAtlas.Proofs.Search.Fallback
import RouteAtlas.Proofs.Alias.ExtendsChain
import RouteAtlas.Proofs.Alias.LongestKey
import RouteAtlas.Proofs.Alias.PathMapping
import RouteAtlas.Proofs.Alias.Literals
import RouteAtlas.Proofs.Alias.ObjectText
import RouteAtlas.Proofs.Alias.LooseJson
import RouteAtlas.Proofs.Alias.SoleLiteral
import RouteAtlas.Proofs.Alias.CommentRemoval
import RouteAtlas.Proofs.HttpPath.Canonical
import RouteAtlas.Proofs.HttpPath.Joining
import RouteAtlas.Proofs.Route.CanonicalQuery
import RouteAtlas.Proofs.Source.PublishedNames
import RouteAtlas.Proofs.Source.OwnReturns
import RouteAtlas.Proofs.Source.RouteChain
import RouteAtlas.Proofs.Places
import RouteAtlas.Proofs.Source.MentionedNames
import RouteAtlas.Proofs.TestDiscovery.Tokens
import RouteAtlas.Proofs.TestDiscovery.ManyRoutes
import RouteAtlas.Proofs.CommandLine.Rendering
import RouteAtlas.Proofs.CommandLine.DisplayedPaths
