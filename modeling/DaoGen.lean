import DaoGen.Code.Expr
import DaoGen.Code.Grammar
import DaoGen.Code.ItemSyntax
import DaoGen.Code.Language
import DaoGen.Code.Language.Attribute
import DaoGen.Code.Language.Basic
import DaoGen.Code.Language.Bound
import DaoGen.Code.Language.Control
import DaoGen.Code.Language.Definition
import DaoGen.Code.Language.Expression
import DaoGen.Code.Language.Function
import DaoGen.Code.Language.Item
import DaoGen.Code.Language.Operation
import DaoGen.Code.Language.Operator
import DaoGen.Code.Language.Pattern
import DaoGen.Code.Language.Rule
import DaoGen.Code.Language.Statement
import DaoGen.Code.Language.Suffix
import DaoGen.Code.Language.Trait
import DaoGen.Code.Language.Type
import DaoGen.Code.Lexer
import DaoGen.Code.Literal
import DaoGen.Code.Look
import DaoGen.Code.Phrase
import DaoGen.Code.Reserved
import DaoGen.Code.Token
import DaoGen.Code.TypeSyntax
import DaoGen.Declaration
import DaoGen.Declaration.Argument
import DaoGen.Declaration.Attribute
import DaoGen.Declaration.Collection
import DaoGen.Declaration.WrittenType
import DaoGen.Diagnostic
import DaoGen.Emission
import DaoGen.Emission.Body
import DaoGen.Emission.Cause
import DaoGen.Emission.Conversion
import DaoGen.Emission.Database
import DaoGen.Emission.Endpoint
import DaoGen.Emission.Implementation
import DaoGen.Emission.Method
import DaoGen.Emission.Name
import DaoGen.Emission.Record
import DaoGen.Emission.Replication
import DaoGen.Emission.Route
import DaoGen.Emission.Schema
import DaoGen.Emission.Unit
import DaoGen.Entity
import DaoGen.Extraction
import DaoGen.Extraction.Attachment
import DaoGen.Extraction.Database
import DaoGen.Extraction.Entity
import DaoGen.Extraction.Fault
import DaoGen.Extraction.Index
import DaoGen.Extraction.Operation
import DaoGen.Extraction.Resolution
import DaoGen.Model
import DaoGen.Operation
import DaoGen.Options
import DaoGen.Outcome
import DaoGen.QualifiedName
import DaoGen.Sql.Definition
import DaoGen.Sql.Parameter
import DaoGen.Sql.Statement
import DaoGen.Sql.Write
import DaoGen.Target
import DaoGen.Text.Blank
import DaoGen.Text.CharSet
import DaoGen.Text.Cluster
import DaoGen.Text.Cluster.Table
import DaoGen.Text.Fragment
import DaoGen.Text.Identifier
import DaoGen.Text.Identifier.Table
import DaoGen.Text.LetterCase
import DaoGen.Text.LetterCase.Table
import DaoGen.Text.Printable
import DaoGen.Text.Printable.Table
import DaoGen.Text.Quoted
import DaoGen.Text.Similarity
import DaoGen.Text.Words
import DaoGen.TypeRef
import DaoGen.TypeRef.Alias
import DaoGen.TypeRef.Column
import DaoGen.TypeRef.Normal
import DaoGen.TypeRef.Wire
import DaoGen.Workers
import DaoGen.Proofs.Extraction.Accepted
import DaoGen.Proofs.Extraction.Run
import DaoGen.Proofs.Emission.Attempts
import DaoGen.Proofs.Model.Closed
import DaoGen.Proofs.Emission.Gaps
import DaoGen.Proofs.Emission.Paths
import DaoGen.Proofs.Emission.Recording
import DaoGen.Proofs.Emission.Typing
import DaoGen.Proofs.TypeRef.Plain
import DaoGen.Proofs.Emission.Conversion
import DaoGen.Proofs.TypeRef.Canonical
import DaoGen.Proofs.Sql.Scan
import DaoGen.Proofs.Sql.Binding
import DaoGen.Proofs.Emission.Conformance
import DaoGen.Proofs.Code.Name
import DaoGen.Proofs.Emission.References
import DaoGen.Proofs.Extraction.Account
import DaoGen.Proofs.Verdict
import DaoGen.Proofs.Emission.Answers
import DaoGen.Proofs.Emission.Siblings
import DaoGen.Proofs.Restriction
import DaoGen.Proofs.Interleaving
import DaoGen.Proofs.Repetition
import DaoGen.Proofs.Code.Ending
import DaoGen.Proofs.Emission.Dialects
import DaoGen.Proofs.Emission.Overrides
import DaoGen.Proofs.Emission.Contract
import DaoGen.Proofs.Code.Spelling
import DaoGen.Proofs.Code.Reading
import DaoGen.Proofs.Code.Yields
import DaoGen.Proofs.Code.TypeTree
import DaoGen.Proofs.Code.TypeReading
import DaoGen.Proofs.Code.Words
import DaoGen.Proofs.Code.Lines
import DaoGen.Proofs.Code.Ahead
import DaoGen.Proofs.Code.Rereading
import DaoGen.Proofs.Code.Stable
import DaoGen.Proofs.Code.CommaList
import DaoGen.Proofs.Code.TypeEdges
import DaoGen.Proofs.Code.StableBound
import DaoGen.Proofs.Code.StablePath
import DaoGen.Proofs.Code.StableGenerics
import DaoGen.Proofs.Code.StableFunction
import DaoGen.Proofs.Code.StableType
import DaoGen.Proofs.Code.TypeSum
import DaoGen.Proofs.Code.WrittenTree
import DaoGen.Proofs.Code.Legible
import DaoGen.Proofs.TypeRef.PathText
import DaoGen.Proofs.TypeRef.Text
import DaoGen.Proofs.TypeRef.RoundTrip
import DaoGen.Proofs.TypeRef.Known
import DaoGen.Proofs.TypeRef.Unresolved
import DaoGen.Proofs.TypeRef.Survival
import DaoGen.Proofs.Extraction.WellFormed
import DaoGen.Proofs.Extraction.Method
import DaoGen.Proofs.Extraction.Invalid
import DaoGen.Proofs.Extraction.Deferral
import DaoGen.Proofs.Sql.RowWrite
import DaoGen.Proofs.Sql.Words
import DaoGen.Proofs.Sql.WriteWords
import DaoGen.Proofs.Emission.WriteRecord
import DaoGen.Proofs.Sql.Literal
import DaoGen.Proofs.Emission.Literal
import DaoGen.Proofs.Emission.Write
import DaoGen.Proofs.Sql.Grammar
import DaoGen.Proofs.Text.SnakeCase
import DaoGen.Proofs.Emission.Schema
import DaoGen.Proofs.Emission.Argument
import DaoGen.Proofs.Code.Scope
import DaoGen.Proofs.Emission.Outline
import DaoGen.Proofs.Emission.Capture
import DaoGen.Proofs.Extraction.Attachment
import DaoGen.Proofs.Emission.Table
import DaoGen.Proofs.Extraction.Index
import DaoGen.Proofs.Emission.Definitions
import DaoGen.Proofs.Code.ItemTree
import DaoGen.Proofs.Declaration.Collection
import DaoGen.Proofs.Text.Path
import DaoGen.Proofs.Extraction.Naming
import DaoGen.Proofs.Text.CaseForms
import DaoGen.Proofs.Emission.Mounting
import DaoGen.Proofs.TypeRef.Wire
import DaoGen.Proofs.Text.AnyCase
import DaoGen.Proofs.Options.Arguments
import DaoGen.Proofs.Options.RuntimeName
