import AppBundler.App.Model
import AppBundler.App.Reader
import AppBundler.App.Validation
import AppBundler.App.Version
import AppBundler.Bundle.Artifact
import AppBundler.Bundle.Boot
import AppBundler.Bundle.Config
import AppBundler.Bundle.Context
import AppBundler.Bundle.Error
import AppBundler.Bundle.FileName
import AppBundler.Bundle.Framework
import AppBundler.Bundle.Graph
import AppBundler.Bundle.Metadata
import AppBundler.Bundle.Namespaces
import AppBundler.Bundle.Placeholder
import AppBundler.Bundle.Pragma
import AppBundler.Bundle.Prepared
import AppBundler.Bundle.Specifier
import AppBundler.Command.Arguments
import AppBundler.Command.Run
import AppBundler.Digest.Content
import AppBundler.Digest.Sha256
import AppBundler.Files.Tree
import AppBundler.Json.Canonical
import AppBundler.Json.Digest
import AppBundler.Json.Parser
import AppBundler.Json.Printer
import AppBundler.Json.Shaped
import AppBundler.Json.Value
import AppBundler.Main
import AppBundler.Number.Double
import AppBundler.Number.Reading
import AppBundler.Number.Shortest
import AppBundler.Proofs.App.Identity
import AppBundler.Proofs.App.ScriptHash
import AppBundler.Proofs.Bundle.Addresses
import AppBundler.Proofs.Bundle.Bytes
import AppBundler.Proofs.Bundle.Caching
import AppBundler.Proofs.Bundle.Closure
import AppBundler.Proofs.Bundle.Contents
import AppBundler.Proofs.Bundle.Contest
import AppBundler.Proofs.Bundle.Description
import AppBundler.Proofs.Bundle.Directories
import AppBundler.Proofs.Bundle.Endings
import AppBundler.Proofs.Bundle.Footers
import AppBundler.Proofs.Bundle.Graph
import AppBundler.Proofs.Bundle.Index
import AppBundler.Proofs.Bundle.Listing
import AppBundler.Proofs.Bundle.Loads
import AppBundler.Proofs.Bundle.Lookup
import AppBundler.Proofs.Bundle.Orders
import AppBundler.Proofs.Bundle.Origins
import AppBundler.Proofs.Bundle.Placeholders
import AppBundler.Proofs.Bundle.Races
import AppBundler.Proofs.Bundle.Rebuilds
import AppBundler.Proofs.Bundle.Schemas
import AppBundler.Proofs.Bundle.Scripts
import AppBundler.Proofs.Bundle.Settings
import AppBundler.Proofs.Bundle.Settling
import AppBundler.Proofs.Bundle.Substitution
import AppBundler.Proofs.Bundle.Texts
import AppBundler.Proofs.Digest.Collisions
import AppBundler.Proofs.Json.Canonical
import AppBundler.Proofs.Json.Collections
import AppBundler.Proofs.Json.RoundTrip
import AppBundler.Proofs.Number.Digits
import AppBundler.Proofs.Publish.Interleavings
import AppBundler.Proofs.Publish.Outcomes
import AppBundler.Proofs.Publish.Reuse
import AppBundler.Proofs.Publish.Soundness
import AppBundler.Proofs.Remote.Expiry
import AppBundler.Proofs.Remote.Headers
import AppBundler.Proofs.Remote.Keys
import AppBundler.Proofs.Remote.Lifetimes
import AppBundler.Proofs.Remote.Visits
import AppBundler.Proofs.Schema.Chasing
import AppBundler.Proofs.Schema.Defaults
import AppBundler.Proofs.Schema.Exports
import AppBundler.Proofs.Schema.Faults
import AppBundler.Proofs.Schema.Interfaces
import AppBundler.Proofs.Schema.Leniency
import AppBundler.Proofs.Schema.Members
import AppBundler.Proofs.Schema.Nodes
import AppBundler.Proofs.Schema.Nullability
import AppBundler.Proofs.Schema.Nullish
import AppBundler.Proofs.Schema.NumberDefaults
import AppBundler.Proofs.Schema.ParameterTypes
import AppBundler.Proofs.Schema.Resolving
import AppBundler.Proofs.Schema.Returns
import AppBundler.Proofs.Schema.Rewording
import AppBundler.Proofs.Schema.Shapes
import AppBundler.Proofs.Schema.Termination
import AppBundler.Proofs.Schema.Texts
import AppBundler.Proofs.Schema.Undeclared
import AppBundler.Proofs.Schema.Wire
import AppBundler.Proofs.Source.Alike
import AppBundler.Proofs.Source.Braces
import AppBundler.Proofs.Source.Comments
import AppBundler.Proofs.Source.Declarations
import AppBundler.Proofs.Source.Elements
import AppBundler.Proofs.Source.Embedded
import AppBundler.Proofs.Source.ErrorPlaces
import AppBundler.Proofs.Source.Faults
import AppBundler.Proofs.Source.Fuel
import AppBundler.Proofs.Source.Gaps
import AppBundler.Proofs.Source.Inside
import AppBundler.Proofs.Source.Joining
import AppBundler.Proofs.Source.Lexemes
import AppBundler.Proofs.Source.Likeness
import AppBundler.Proofs.Source.NextLine
import AppBundler.Proofs.Source.Numerals
import AppBundler.Proofs.Source.Reading
import AppBundler.Proofs.Source.Respelling
import AppBundler.Proofs.Source.Returns.Lexemes
import AppBundler.Proofs.Source.Returns.Tokens
import AppBundler.Proofs.Source.Rewriting
import AppBundler.Proofs.Source.Scanners
import AppBundler.Proofs.Source.Separation
import AppBundler.Proofs.Source.Sites
import AppBundler.Proofs.Source.Spans
import AppBundler.Proofs.Source.Tree.Data
import AppBundler.Proofs.Source.Tree.Exprs
import AppBundler.Proofs.Source.Tree.Handlers
import AppBundler.Proofs.Source.Tree.Items
import AppBundler.Proofs.Source.Tree.Layout
import AppBundler.Proofs.Source.Tree.Objects
import AppBundler.Proofs.Source.Tree.Operands
import AppBundler.Proofs.Source.Tree.Params
import AppBundler.Proofs.Source.Tree.Printed
import AppBundler.Proofs.Source.Tree.Printing
import AppBundler.Proofs.Source.Tree.Progress
import AppBundler.Proofs.Source.Tree.Rewording
import AppBundler.Proofs.Source.Tree.Signatures
import AppBundler.Proofs.Source.Tree.Spelling
import AppBundler.Proofs.Source.Tree.Types
import AppBundler.Proofs.Source.Trimmed.Nested
import AppBundler.Proofs.Source.Trimmed.Pieces
import AppBundler.Proofs.Source.Trimmed.Tokens
import AppBundler.Proofs.Source.Weaving
import AppBundler.Proofs.Source.Words
import AppBundler.Proofs.Store.Files
import AppBundler.Proofs.Store.Memory
import AppBundler.Proofs.Store.Reads
import AppBundler.Proofs.Store.Versions
import AppBundler.Proofs.Store.Writers
import AppBundler.Proofs.Text.LineEnds
import AppBundler.Proofs.Text.Parts
import AppBundler.Proofs.Text.Returns
import AppBundler.Proofs.Url.PlainNames
import AppBundler.Proofs.Url.Relative
import AppBundler.Proofs.Url.Schemes
import AppBundler.Publish.Publisher
import AppBundler.Remote.Cache
import AppBundler.Remote.Fetch
import AppBundler.Remote.Lifetime
import AppBundler.Remote.Table
import AppBundler.Schema.Chase
import AppBundler.Schema.Classify
import AppBundler.Schema.Doc
import AppBundler.Schema.Extract
import AppBundler.Schema.Node
import AppBundler.Schema.Wire
import AppBundler.Source.Cursor
import AppBundler.Source.Error
import AppBundler.Source.Imports
import AppBundler.Source.Lexeme
import AppBundler.Source.Lexer
import AppBundler.Source.Position
import AppBundler.Source.Token
import AppBundler.Source.Tree
import AppBundler.Source.Tree.Exprs
import AppBundler.Source.Tree.Inner
import AppBundler.Source.Tree.Items
import AppBundler.Source.Tree.Literals
import AppBundler.Source.Tree.Params
import AppBundler.Source.Tree.Types
import AppBundler.Store.Blobs
import AppBundler.Store.Error
import AppBundler.Store.Versions
import AppBundler.Text.Blank
import AppBundler.Text.CombiningClass
import AppBundler.Text.Composed
import AppBundler.Text.Composite
import AppBundler.Text.Direction
import AppBundler.Text.Duration
import AppBundler.Text.Joining
import AppBundler.Text.Letter
import AppBundler.Text.Mark
import AppBundler.Text.Parts
import AppBundler.Text.Printable
import AppBundler.Text.Quoted
import AppBundler.Url.Basic
import AppBundler.Url.Domain
import AppBundler.Url.DomainMapping
import AppBundler.Url.Encoding
import AppBundler.Url.Host
import AppBundler.Url.Parser
import AppBundler.Url.Path
import AppBundler.Url.Punycode
