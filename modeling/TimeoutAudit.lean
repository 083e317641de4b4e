import TimeoutAudit.Audit.Collect
import TimeoutAudit.Audit.Run
import TimeoutAudit.AuditResult
import TimeoutAudit.CallSite
import TimeoutAudit.CommandLine.Arguments
import TimeoutAudit.CommandLine.Run
import TimeoutAudit.Decimal.Double
import TimeoutAudit.Detector
import TimeoutAudit.FileTree.Basic
import TimeoutAudit.FileTree.Resolve
import TimeoutAudit.FileTree.Walk
import TimeoutAudit.FileTree.Write
import TimeoutAudit.Finding
import TimeoutAudit.Glob
import TimeoutAudit.HttpVerb
import TimeoutAudit.JsonValue
import TimeoutAudit.Log
import TimeoutAudit.Main
import TimeoutAudit.OsText
import TimeoutAudit.Path
import TimeoutAudit.Php.Grammar.Declaration
import TimeoutAudit.Php.Grammar.Expression
import TimeoutAudit.Php.Grammar.Name
import TimeoutAudit.Php.Grammar.Statement
import TimeoutAudit.Php.Lexer
import TimeoutAudit.Php.Literal
import TimeoutAudit.Php.Node
import TimeoutAudit.Php.Parse
import TimeoutAudit.Php.Reader
import TimeoutAudit.Php.Token
import TimeoutAudit.Proofs.Audit.Accounting
import TimeoutAudit.Proofs.Audit.Added
import TimeoutAudit.Proofs.Audit.Collection
import TimeoutAudit.Proofs.Audit.Independence
import TimeoutAudit.Proofs.Audit.Reporters
import TimeoutAudit.Proofs.Audit.SourceOrder
import TimeoutAudit.Proofs.CommandLine.Check
import TimeoutAudit.Proofs.CommandLine.Init
import TimeoutAudit.Proofs.CommandLine.InitThenCheck
import TimeoutAudit.Proofs.CommandLine.Items
import TimeoutAudit.Proofs.CommandLine.ReadBack
import TimeoutAudit.Proofs.Detection
import TimeoutAudit.Proofs.FileTree.AbsolutePath
import TimeoutAudit.Proofs.FileTree.Added
import TimeoutAudit.Proofs.FileTree.Below
import TimeoutAudit.Proofs.FileTree.Follow
import TimeoutAudit.Proofs.FileTree.Locations
import TimeoutAudit.Proofs.FileTree.View
import TimeoutAudit.Proofs.FileTree.Walk
import TimeoutAudit.Proofs.FileTree.WalkOrder
import TimeoutAudit.Proofs.FileTree.Write
import TimeoutAudit.Proofs.LifeCycle
import TimeoutAudit.Proofs.Path.Below
import TimeoutAudit.Proofs.Path.Extension
import TimeoutAudit.Proofs.Path.Parent
import TimeoutAudit.Proofs.Path.Shown
import TimeoutAudit.Proofs.Php.CallOrder
import TimeoutAudit.Proofs.Php.Cutting
import TimeoutAudit.Proofs.Php.DoubleQuoted
import TimeoutAudit.Proofs.Php.Grammar
import TimeoutAudit.Proofs.Php.GroundedCalls
import TimeoutAudit.Proofs.Php.GroundedReaders
import TimeoutAudit.Proofs.Php.Lexer
import TimeoutAudit.Proofs.Php.OptionKeys
import TimeoutAudit.Proofs.Php.Places
import TimeoutAudit.Proofs.Php.PlainText
import TimeoutAudit.Proofs.Php.ReadBack
import TimeoutAudit.Proofs.Php.Reading
import TimeoutAudit.Proofs.Php.Script
import TimeoutAudit.Proofs.Php.ScriptCalls
import TimeoutAudit.Proofs.Php.ScriptReading
import TimeoutAudit.Proofs.Php.SingleQuoted
import TimeoutAudit.Proofs.Php.Spelling
import TimeoutAudit.Proofs.Report.Grouping
import TimeoutAudit.Proofs.Report.JsonContents
import TimeoutAudit.Proofs.Report.JsonReading
import TimeoutAudit.Proofs.Report.Passages
import TimeoutAudit.Proofs.Report.Severities
import TimeoutAudit.Proofs.Schedule
import TimeoutAudit.Proofs.Settings.Defaults
import TimeoutAudit.Proofs.Settings.Erased
import TimeoutAudit.Proofs.Settings.Records
import TimeoutAudit.Proofs.Settings.Restated
import TimeoutAudit.Proofs.Settings.Template
import TimeoutAudit.Proofs.Suppression.Comment
import TimeoutAudit.Proofs.Suppression.CoveredLine
import TimeoutAudit.Proofs.Suppression.Header
import TimeoutAudit.Proofs.Suppression.Lines
import TimeoutAudit.Proofs.Suppression.Placement
import TimeoutAudit.Proofs.Suppression.ReadBack
import TimeoutAudit.Proofs.Suppression.Shape
import TimeoutAudit.Proofs.Suppression.Split
import TimeoutAudit.Proofs.Suppression.Styles
import TimeoutAudit.Proofs.Suppression.Tail
import TimeoutAudit.Proofs.Syntax.CursorLoop
import TimeoutAudit.Proofs.Syntax.FirstFault
import TimeoutAudit.Proofs.Syntax.Positions
import TimeoutAudit.Proofs.Syntax.PreOrder
import TimeoutAudit.Proofs.Text.Blank
import TimeoutAudit.Proofs.Text.Bytes
import TimeoutAudit.Proofs.Text.Glyph
import TimeoutAudit.Proofs.Text.Lines
import TimeoutAudit.Proofs.Text.Lossy
import TimeoutAudit.Proofs.Yaml.Restated
import TimeoutAudit.Proofs.Yaml.Whole
import TimeoutAudit.Report.Json
import TimeoutAudit.Report.Pretty
import TimeoutAudit.Settings
import TimeoutAudit.Settings.Decode
import TimeoutAudit.Settings.Template
import TimeoutAudit.Settings.Validity
import TimeoutAudit.Suppression.Basic
import TimeoutAudit.Suppression.Directive
import TimeoutAudit.Syntax.Cursor
import TimeoutAudit.Syntax.Tree
import TimeoutAudit.Text.Blank
import TimeoutAudit.Text.Glyph
import TimeoutAudit.Text.Lines
import TimeoutAudit.Text.Quoted
import TimeoutAudit.Text.Unprintable
import TimeoutAudit.Yaml.Document
import TimeoutAudit.Yaml.Meaning
import TimeoutAudit.Yaml.Node
import TimeoutAudit.Yaml.Problem
import TimeoutAudit.Yaml.Scalar
import TimeoutAudit.Yaml.Stream
import TimeoutAudit.Yaml.Tag
import TimeoutAudit.Yaml.Token
