import LineScopes.Describe
import LineScopes.Engine
import LineScopes.Engine.Literal
import LineScopes.Error
import LineScopes.Grammar.Compiled
import LineScopes.Grammar.Dependency
import LineScopes.Grammar.Document
import LineScopes.Grammar.Library
import LineScopes.Grammar.Reader
import LineScopes.Grammar.Reference
import LineScopes.Grammar.Surroundings
import LineScopes.Journal
import LineScopes.Json.Reader
import LineScopes.Json.Record
import LineScopes.Json.Value
import LineScopes.Pattern.Anchors
import LineScopes.Pattern.Source
import LineScopes.Pattern.Template
import LineScopes.Regex.CharClass
import LineScopes.Regex.Engine
import LineScopes.Regex.Matcher
import LineScopes.Regex.Parser
import LineScopes.Regex.Tree
import LineScopes.Registry.Basic
import LineScopes.Registry.Loading
import LineScopes.Rule.Compile
import LineScopes.Rule.Injection
import LineScopes.Rule.PatternSet
import LineScopes.Rule.PatternSets
import LineScopes.Rule.Table
import LineScopes.Scan.Candidate
import LineScopes.Scan.Captures
import LineScopes.Scan.Continuation
import LineScopes.Scan.Coverage
import LineScopes.Scan.Line
import LineScopes.Scan.ScopeList
import LineScopes.Scan.State
import LineScopes.Scan.Step
import LineScopes.Scope.Name
import LineScopes.Scope.Path
import LineScopes.Selector.Basic
import LineScopes.Selector.Parser
import LineScopes.Selector.Token
import LineScopes.Selector.Written
import LineScopes.Style.ColorMap
import LineScopes.Style.FontStyle
import LineScopes.Style.Metadata
import LineScopes.Text.Boundary
import LineScopes.Text.Decimal
import LineScopes.Text.Offset
import LineScopes.Text.Quoted
import LineScopes.Text.Span
import LineScopes.Text.Split
import LineScopes.Theme.Basic
import LineScopes.Theme.Document
import LineScopes.Theme.Reader
import LineScopes.Theme.Rule
import LineScopes.Theme.Trie
import LineScopes.Token.Basic
import LineScopes.Token.Brackets
import LineScopes.Token.Languages
import LineScopes.Token.Override
import LineScopes.Unicode.Alphabetic
import LineScopes.Unicode.Case
import LineScopes.Unicode.CaseTable
import LineScopes.Unicode.Casing
import LineScopes.Unicode.Categories
import LineScopes.Unicode.CharSet
import LineScopes.Unicode.Classes
import LineScopes.Unicode.Letters
import LineScopes.Proofs.Engine.Literal
import LineScopes.Proofs.Outcome
import LineScopes.Proofs.Rule.Growth
import LineScopes.Proofs.Scan.Frames
import LineScopes.Proofs.Rule.Labels
import LineScopes.Proofs.Scan.Growth
import LineScopes.Proofs.Scan.Moves
import LineScopes.Proofs.Scan.Progress
import LineScopes.Proofs.Scan.Run
import LineScopes.Proofs.Scan.Segments
import LineScopes.Proofs.Token.Partition
import LineScopes.Proofs.Token.Runs
import LineScopes.Proofs.Scan.Erasure
import LineScopes.Proofs.Scan.Lockstep
import LineScopes.Proofs.Token.Equality
import LineScopes.Proofs.Scan.Inside
import LineScopes.Proofs.Scan.Nesting
import LineScopes.Proofs.Token.Stacks
import LineScopes.Proofs.Scan.Visits
import LineScopes.Proofs.Scan.Closing
import LineScopes.Proofs.Scope.Lists
import LineScopes.Proofs.Scope.Parts
import LineScopes.Proofs.Style.ColorMap
import LineScopes.Proofs.Theme.Order
import LineScopes.Proofs.Theme.Specificity
import LineScopes.Proofs.Theme.Trie
import LineScopes.Proofs.Theme.Groups
import LineScopes.Proofs.Theme.Lookup
import LineScopes.Proofs.Theme.Decision
import LineScopes.Proofs.Grammar.Written
import LineScopes.Proofs.Grammar.Includes
import LineScopes.Proofs.Grammar.Walk
import LineScopes.Proofs.Grammar.Requests
import LineScopes.Proofs.Grammar.Rounds
import LineScopes.Proofs.Rule.Resolution
import LineScopes.Proofs.Grammar.Discovery
import LineScopes.Proofs.Grammar.Completeness
import LineScopes.Proofs.Rule.Targets
import LineScopes.Proofs.Rule.Bodies
import LineScopes.Proofs.Rule.Survey
import LineScopes.Proofs.Rule.Injections
import LineScopes.Proofs.Rule.Closed
import LineScopes.Proofs.Rule.Meaning
import LineScopes.Proofs.Rule.Rearranged
import LineScopes.Proofs.Rule.Flattening
import LineScopes.Proofs.Rule.Twins
import LineScopes.Proofs.Rule.Permuted
import LineScopes.Proofs.Scan.Shifts
import LineScopes.Proofs.Scan.Course
import LineScopes.Proofs.Scan.Anchors
import LineScopes.Proofs.Scan.Paint
import LineScopes.Proofs.Scan.Repaint
import LineScopes.Proofs.Registry.ThemeChange
import LineScopes.Proofs.Rule.Collected
import LineScopes.Proofs.Rule.Preorder
import LineScopes.Proofs.Scan.Choice
import LineScopes.Proofs.Scan.Passing
import LineScopes.Proofs.Scan.Below
import LineScopes.Proofs.Scan.Groups
import LineScopes.Proofs.Scan.Upkeep
import LineScopes.Proofs.Pattern.Reading
import LineScopes.Proofs.Pattern.Variants
import LineScopes.Proofs.Pattern.References
import LineScopes.Proofs.Pattern.TemplateSearch
import LineScopes.Proofs.Pattern.Expansion
import LineScopes.Proofs.Scan.Reach
import LineScopes.Proofs.Scan.Names
import LineScopes.Proofs.Theme.Marks
import LineScopes.Proofs.Theme.Ties
import LineScopes.Proofs.Theme.Places
import LineScopes.Proofs.Theme.Arrangement
import LineScopes.Proofs.Style.Exported
import LineScopes.Proofs.Theme.Exported
import LineScopes.Proofs.Selector.Grammar
import LineScopes.Proofs.Selector.Reading
import LineScopes.Proofs.Selector.Accepted
import LineScopes.Proofs.Selector.Printed
import LineScopes.Proofs.Text.Pieces
import LineScopes.Proofs.Theme.Selectors
import LineScopes.Proofs.Theme.Numbers
import LineScopes.Proofs.Theme.Packed
import LineScopes.Proofs.Selector.Embedding
import LineScopes.Proofs.Grammar.Traversal
import LineScopes.Proofs.Grammar.Queue
import LineScopes.Proofs.Registry.Operations
import LineScopes.Proofs.Registry.Failure
import LineScopes.Proofs.Registry.Replacement
import LineScopes.Proofs.Rule.Unresolved
import LineScopes.Proofs.Scan.Cuts
import LineScopes.Proofs.Registry.Loads
import LineScopes.Proofs.Registry.Turns
import LineScopes.Proofs.Registry.SharedLoads
import LineScopes.Proofs.Style.Updates
import LineScopes.Proofs.Style.Numbering
import LineScopes.Proofs.Token.Languages
import LineScopes.Proofs.Scan.StackLaws
import LineScopes.Proofs.Scan.Chains
import LineScopes.Proofs.Scan.Depth
import LineScopes.Proofs.Scan.Sharing
import LineScopes.Proofs.Scan.Histories
