import TypeLens.Check.Declare
import TypeLens.Check.Infer
import TypeLens.Check.Module
import TypeLens.Check.Pattern
import TypeLens.Check.Problem
import TypeLens.Check.Solve
import TypeLens.Check.State
import TypeLens.CommandLine.Arguments
import TypeLens.CommandLine.Run
import TypeLens.CommandLine.Word
import TypeLens.Concrete.Expr
import TypeLens.Concrete.Module
import TypeLens.Concrete.Pattern
import TypeLens.Concrete.Token
import TypeLens.Concrete.Type
import TypeLens.Core.Lowering
import TypeLens.Core.Term
import TypeLens.Entity
import TypeLens.Failure
import TypeLens.Files.Basic
import TypeLens.Files.Path
import TypeLens.Files.Source
import TypeLens.Fragment
import TypeLens.Globals
import TypeLens.Graph
import TypeLens.Info
import TypeLens.Instances
import TypeLens.Layout
import TypeLens.Lex.Lexer
import TypeLens.Lex.Token
import TypeLens.Main
import TypeLens.Name
import TypeLens.OpTree
import TypeLens.Prelude
import TypeLens.Proofs.Checking.Agreement
import TypeLens.Proofs.Checking.Changes
import TypeLens.Proofs.Checking.Closure
import TypeLens.Proofs.Checking.Coherence
import TypeLens.Proofs.Checking.Columns
import TypeLens.Proofs.Checking.Compiled
import TypeLens.Proofs.Checking.Conservation
import TypeLens.Proofs.Checking.Constraints
import TypeLens.Proofs.Checking.Constructors
import TypeLens.Proofs.Checking.Declarations
import TypeLens.Proofs.Checking.DictionaryNames
import TypeLens.Proofs.Checking.Environments
import TypeLens.Proofs.Checking.Evolution
import TypeLens.Proofs.Checking.Exports
import TypeLens.Proofs.Checking.Families
import TypeLens.Proofs.Checking.Formation
import TypeLens.Proofs.Checking.FormedBindings
import TypeLens.Proofs.Checking.FormedDeclarations
import TypeLens.Proofs.Checking.FormedModules
import TypeLens.Proofs.Checking.Generalisation
import TypeLens.Proofs.Checking.Inference
import TypeLens.Proofs.Checking.Laminarity
import TypeLens.Proofs.Checking.Legibility
import TypeLens.Proofs.Checking.Methods
import TypeLens.Proofs.Checking.Naming
import TypeLens.Proofs.Checking.Places
import TypeLens.Proofs.Checking.Recovery
import TypeLens.Proofs.Checking.Resolution
import TypeLens.Proofs.Checking.Scoping
import TypeLens.Proofs.Checking.Solving
import TypeLens.Proofs.Checking.Substitution
import TypeLens.Proofs.Checking.TopOccurrences
import TypeLens.Proofs.Checking.Visibility
import TypeLens.Proofs.Files.Names
import TypeLens.Proofs.Files.Paths
import TypeLens.Proofs.Grammar.Derivations
import TypeLens.Proofs.Grammar.Exact
import TypeLens.Proofs.Grammar.Expressions
import TypeLens.Proofs.Grammar.Modules
import TypeLens.Proofs.Grammar.Patterns
import TypeLens.Proofs.Grammar.Positions
import TypeLens.Proofs.Grammar.Prediction
import TypeLens.Proofs.Grammar.Readings
import TypeLens.Proofs.Grammar.Types
import TypeLens.Proofs.Graph.Components
import TypeLens.Proofs.Graph.Cycles
import TypeLens.Proofs.Info.Children
import TypeLens.Proofs.Layout.Blocks
import TypeLens.Proofs.Layout.Comparison
import TypeLens.Proofs.Layout.Ordering
import TypeLens.Proofs.Layout.Stream
import TypeLens.Proofs.Lex.Lines
import TypeLens.Proofs.Lex.Pieces
import TypeLens.Proofs.Lex.Tabs
import TypeLens.Proofs.Lex.Tiling
import TypeLens.Proofs.Lex.Words
import TypeLens.Proofs.Lowering.Capture
import TypeLens.Proofs.Lowering.Counting
import TypeLens.Proofs.Lowering.EvidenceTypes
import TypeLens.Proofs.Lowering.Failure
import TypeLens.Proofs.Lowering.FreeNames
import TypeLens.Proofs.Lowering.Matching
import TypeLens.Proofs.Lowering.TypeApplication
import TypeLens.Proofs.Lowering.Types
import TypeLens.Proofs.Lowering.WellScoped
import TypeLens.Proofs.Operators.Fixity
import TypeLens.Proofs.Render.Fragments
import TypeLens.Proofs.Render.Signatures
import TypeLens.Proofs.Render.SourceTypes
import TypeLens.Proofs.Session.Bundled
import TypeLens.Proofs.Session.Consistency
import TypeLens.Proofs.Session.Descriptions
import TypeLens.Proofs.Session.Failures
import TypeLens.Proofs.Session.History
import TypeLens.Proofs.Session.ImportCycles
import TypeLens.Proofs.Session.Loading
import TypeLens.Proofs.Session.ModuleGraph
import TypeLens.Proofs.Session.NamesInScope
import TypeLens.Proofs.Session.Obstacles
import TypeLens.Proofs.Session.PointQueries
import TypeLens.Proofs.Session.Rounds
import TypeLens.Proofs.Session.TargetOrder
import TypeLens.Proofs.Session.Worklist
import TypeLens.Proofs.Source.Nesting
import TypeLens.Proofs.Strict.Declarations
import TypeLens.Proofs.Strict.Inference
import TypeLens.Proofs.Strict.Modules
import TypeLens.Proofs.Strict.Operations
import TypeLens.Proofs.Surface.Arities
import TypeLens.Proofs.Surface.Grouping
import TypeLens.Proofs.Surface.Groups
import TypeLens.Proofs.Surface.Imports
import TypeLens.Proofs.Surface.InertLines
import TypeLens.Proofs.Surface.Literals
import TypeLens.Proofs.Surface.NameQueries
import TypeLens.Proofs.Surface.Nesting
import TypeLens.Proofs.Surface.Outlines
import TypeLens.Proofs.Surface.Spans
import TypeLens.Proofs.Surface.Spellings
import TypeLens.Proofs.Surface.Tabs
import TypeLens.Proofs.Text.StringLiterals
import TypeLens.Proofs.Typed.Evidence
import TypeLens.Proofs.Typed.Nodes
import TypeLens.Proofs.Typed.Places
import TypeLens.Proofs.Typed.Positions
import TypeLens.Proofs.Typed.Types
import TypeLens.Proofs.Typing.Completeness
import TypeLens.Proofs.Typing.Principal
import TypeLens.Proofs.Typing.Rules
import TypeLens.Proofs.Typing.Soundness
import TypeLens.Proofs.Unification.Arities
import TypeLens.Proofs.Unification.Assignment
import TypeLens.Proofs.Unification.MostGeneral
import TypeLens.Render.Entity
import TypeLens.Render.Type
import TypeLens.Render.Writable
import TypeLens.Scope
import TypeLens.Session.Basic
import TypeLens.Session.ModuleGraph
import TypeLens.Session.Query
import TypeLens.Source.Diagnostic
import TypeLens.Source.Span
import TypeLens.Surface.Build
import TypeLens.Surface.Fault
import TypeLens.Surface.Grouping
import TypeLens.Surface.Groups
import TypeLens.Surface.Parse
import TypeLens.Surface.Tree
import TypeLens.Table
import TypeLens.Text.Blank
import TypeLens.Text.CharacterName
import TypeLens.Text.Digit
import TypeLens.Text.Escape
import TypeLens.Text.Integer
import TypeLens.Text.Json
import TypeLens.Text.Letter
import TypeLens.Text.NameTable
import TypeLens.Text.Printable
import TypeLens.Text.Quoted
import TypeLens.Text.Utf8
import TypeLens.Text.WideName
import TypeLens.Ty.Basic
import TypeLens.Ty.Images
import TypeLens.Ty.Scheme
import TypeLens.Ty.Subst
import TypeLens.Ty.UVar
import TypeLens.Ty.Unify
import TypeLens.Typed.Node
import TypeLens.Typed.Resolve
import TypeLens.Typed.Tree
