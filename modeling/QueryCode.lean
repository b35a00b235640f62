import QueryCode.Calendar
import QueryCode.Code
import QueryCode.CommandLine.Arguments
import QueryCode.CommandLine.Help
import QueryCode.CommandLine.Run
import QueryCode.Condition.Basic
import QueryCode.Condition.Clause
import QueryCode.Condition.Grammar
import QueryCode.Condition.Plan
import QueryCode.Condition.Removal
import QueryCode.Condition.Token
import QueryCode.Convert
import QueryCode.Error
import QueryCode.Finder.Filter
import QueryCode.Finder.Joined
import QueryCode.Finder.Object
import QueryCode.Finder.Single
import QueryCode.Literal
import QueryCode.Main
import QueryCode.Naming.Identifier
import QueryCode.Naming.Noun
import QueryCode.Number.Double
import QueryCode.Number.Shortest
import QueryCode.Reader
import QueryCode.Relation.Chain
import QueryCode.Relation.Filter
import QueryCode.Relation.Joined
import QueryCode.Relation.Rename
import QueryCode.Relation.Single
import QueryCode.Relation.Template
import QueryCode.Report.Basic
import QueryCode.Report.Json
import QueryCode.Settings.Basic
import QueryCode.Settings.Document
import QueryCode.Settings.Location
import QueryCode.Statement.Aggregate
import QueryCode.Statement.Association
import QueryCode.Statement.Basic
import QueryCode.Statement.Parser
import QueryCode.Statement.Pattern
import QueryCode.Target
import QueryCode.Text.Basic
import QueryCode.Text.Blank
import QueryCode.Text.Capital
import QueryCode.Text.Digit
import QueryCode.Text.Fold
import QueryCode.Text.Letter
import QueryCode.Text.Mark
import QueryCode.Text.Mask
import QueryCode.Text.Range
import QueryCode.Text.Scan
import QueryCode.Text.TopLevel
import QueryCode.Text.Word
import QueryCode.Writer
import QueryCode.Proofs.Condition.Spelling
import QueryCode.Proofs.Reader
import QueryCode.Proofs.Condition.Sound
import QueryCode.Proofs.Condition.Equality
import QueryCode.Proofs.Condition.Slices
import QueryCode.Proofs.Condition.Planning
import QueryCode.Proofs.Relation.Filter
import QueryCode.Proofs.Finder.Filter
import QueryCode.Proofs.Change
import QueryCode.Proofs.Code.Inert
import QueryCode.Proofs.Naming.Inert
import QueryCode.Proofs.Literal
import QueryCode.Proofs.Statement.Names
import QueryCode.Proofs.Convert
import QueryCode.Proofs.Text.Word
import QueryCode.Proofs.Text.Scan
import QueryCode.Proofs.Condition.Written
import QueryCode.Proofs.Condition.Printed
import QueryCode.Proofs.Condition.RoundTrip
import QueryCode.Proofs.Statement.Keyword
import QueryCode.Proofs.Statement.Fits
import QueryCode.Proofs.Statement.Clause
import QueryCode.Proofs.Statement.Item
import QueryCode.Proofs.Statement.Select
import QueryCode.Proofs.Statement.Joins
import QueryCode.Proofs.Statement.RoundTrip
import QueryCode.Proofs.Limit
import QueryCode.Proofs.Finder.Leaf
import QueryCode.Proofs.Text.Boundary
import QueryCode.Proofs.Statement.Places
import QueryCode.Proofs.Statement.Total
import QueryCode.Proofs.Condition.Total
import QueryCode.Proofs.Total
import QueryCode.Proofs.Text.Hidden
import QueryCode.Proofs.Statement.Hidden
import QueryCode.Proofs.Statement.JoinList
import QueryCode.Proofs.Statement.Values
import QueryCode.Proofs.Condition.Scanners
import QueryCode.Proofs.Text.Offset
import QueryCode.Proofs.Condition.Flatten
import QueryCode.Proofs.Condition.Taken
import QueryCode.Proofs.Condition.Reprint
import QueryCode.Proofs.Condition.Tree
import QueryCode.Proofs.Condition.Truth
import QueryCode.Proofs.Relation.Template
import QueryCode.Proofs.Code.Text
import QueryCode.Proofs.Partition
import QueryCode.Proofs.Finder.Object
import QueryCode.Proofs.Relation.Hash
import QueryCode.Proofs.Condition.Subquery
import QueryCode.Proofs.Code.Strings
import QueryCode.Proofs.Literal.Quotes
import QueryCode.Proofs.Text.Infix
import QueryCode.Proofs.Text.Ban
import QueryCode.Proofs.Code.Clean
import QueryCode.Proofs.Condition.Clean
import QueryCode.Proofs.Statement.Parts
import QueryCode.Proofs.Statement.Clean
import QueryCode.Proofs.Relation.Clean
import QueryCode.Proofs.Finder.Clean
import QueryCode.Proofs.Exposure
import QueryCode.Proofs.Condition.Spacing
import QueryCode.Proofs.Finder.Columns
import QueryCode.Proofs.Statement.OffsetFirst
import QueryCode.Proofs.Statement.Quoted
import QueryCode.Proofs.Distinct
import QueryCode.Proofs.Literal.Integer
import QueryCode.Proofs.Statement.Equation
import QueryCode.Proofs.Statement.Association
import QueryCode.Proofs.Condition.KeyEquation
import QueryCode.Proofs.Finder.Include
import QueryCode.Proofs.Statement.Aggregate
import QueryCode.Proofs.Text.Mark
import QueryCode.Proofs.Text.Replace
import QueryCode.Proofs.Text.Fold
import QueryCode.Proofs.Relation.Alias
import QueryCode.Proofs.Calendar
import QueryCode.Proofs.Relation.Dates
import QueryCode.Proofs.Statement.Reserved
import QueryCode.Proofs.Statement.Counts
import QueryCode.Proofs.Naming.LetterCase
import QueryCode.Proofs.Naming.Model
import QueryCode.Proofs.Receiver
import QueryCode.Proofs.Text.Parens
import QueryCode.Proofs.Text.Split
import QueryCode.Proofs.Condition.Shape
