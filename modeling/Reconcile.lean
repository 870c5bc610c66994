import Reconcile.Catalog.Database
import Reconcile.Catalog.MySql
import Reconcile.Catalog.PostgreSql
import Reconcile.Catalog.Row
import Reconcile.Catalog.Server
import Reconcile.Catalog.Shape
import Reconcile.Catalog.SqlServer
import Reconcile.CommandLine.Arguments
import Reconcile.CommandLine.Disk
import Reconcile.CommandLine.Files
import Reconcile.CommandLine.Log
import Reconcile.CommandLine.Outputs
import Reconcile.CommandLine.Path
import Reconcile.CommandLine.Program
import Reconcile.Crawl.Crawler
import Reconcile.Crawl.Reading
import Reconcile.Crawl.Rehearsal
import Reconcile.Data.Datum
import Reconcile.Data.Json
import Reconcile.Data.Token
import Reconcile.Data.Toml
import Reconcile.Data.Toml.Scalar
import Reconcile.Data.Toml.Tree
import Reconcile.Data.Toml.Value
import Reconcile.Decimal.Fixed
import Reconcile.Dialect
import Reconcile.Diff.Comparison
import Reconcile.Diff.Equality
import Reconcile.Diff.Shape
import Reconcile.Diff.State
import Reconcile.Diff.TableDiff
import Reconcile.Fault
import Reconcile.Main
import Reconcile.Proofs.Accounting
import Reconcile.Proofs.Additions
import Reconcile.Proofs.Addresses
import Reconcile.Proofs.Agreement
import Reconcile.Proofs.AlteringColumns
import Reconcile.Proofs.Annotating
import Reconcile.Proofs.Batches
import Reconcile.Proofs.BoundDefaults
import Reconcile.Proofs.ByteOrder
import Reconcile.Proofs.Calls
import Reconcile.Proofs.Cancellation
import Reconcile.Proofs.CanonicalDefinitions
import Reconcile.Proofs.CategoryTasks
import Reconcile.Proofs.Classification
import Reconcile.Proofs.ColumnShapes
import Reconcile.Proofs.ColumnStatements
import Reconcile.Proofs.ComparisonCourse
import Reconcile.Proofs.Convergence
import Reconcile.Proofs.CrawlCourse
import Reconcile.Proofs.DefinerClauses
import Reconcile.Proofs.Differences
import Reconcile.Proofs.EmptyPlans
import Reconcile.Proofs.Equivalence
import Reconcile.Proofs.Essentials
import Reconcile.Proofs.Filing
import Reconcile.Proofs.FilledTables
import Reconcile.Proofs.Finality
import Reconcile.Proofs.ForeignKeyEquality
import Reconcile.Proofs.ForeignKeySafety
import Reconcile.Proofs.Identifiers
import Reconcile.Proofs.IndexStatements
import Reconcile.Proofs.Indistinguishable
import Reconcile.Proofs.JsonText
import Reconcile.Proofs.Keys
import Reconcile.Proofs.LifeCycle
import Reconcile.Proofs.Literals
import Reconcile.Proofs.MemberEdits
import Reconcile.Proofs.Mirror
import Reconcile.Proofs.Names
import Reconcile.Proofs.Noninterference
import Reconcile.Proofs.Noting
import Reconcile.Proofs.Operations
import Reconcile.Proofs.OutputFiles
import Reconcile.Proofs.Paths
import Reconcile.Proofs.Phases
import Reconcile.Proofs.Plans
import Reconcile.Proofs.Qualifiers
import Reconcile.Proofs.Redaction
import Reconcile.Proofs.Relaxation
import Reconcile.Proofs.Removals
import Reconcile.Proofs.Replica
import Reconcile.Proofs.Requests
import Reconcile.Proofs.Restatements
import Reconcile.Proofs.RowGroups
import Reconcile.Proofs.Runs
import Reconcile.Proofs.ScriptingCourse
import Reconcile.Proofs.Settlement
import Reconcile.Proofs.Shapes
import Reconcile.Proofs.StableOrder
import Reconcile.Proofs.StatementEnds
import Reconcile.Proofs.Statements
import Reconcile.Proofs.StringDefaults
import Reconcile.Proofs.TableCreation
import Reconcile.Proofs.TableEdits
import Reconcile.Proofs.Tokens
import Reconcile.Proofs.Told
import Reconcile.Proofs.Turns
import Reconcile.Proofs.Undisturbed
import Reconcile.Proofs.Visits
import Reconcile.Proofs.Wording
import Reconcile.Proofs.WrittenFiles
import Reconcile.Schema.Key
import Reconcile.Schema.Model
import Reconcile.Schema.Shape
import Reconcile.Schema.Table
import Reconcile.Script.Annotation
import Reconcile.Script.Consolidated
import Reconcile.Script.MySql
import Reconcile.Script.Plan
import Reconcile.Script.PostgreSql
import Reconcile.Script.Spelling
import Reconcile.Script.SqlServer
import Reconcile.Session
import Reconcile.Settings.Connection
import Reconcile.Settings.Project
import Reconcile.Task.Activity
import Reconcile.Task.Status
import Reconcile.Task.Tracker
import Reconcile.Task.Tree
import Reconcile.Text.Blank
import Reconcile.Text.Casing
import Reconcile.Text.Definer
import Reconcile.Text.Definition
import Reconcile.Text.Escaped
import Reconcile.Text.Printable
import Reconcile.Text.Quoted
import Reconcile.Text.Replaced
