import ConversionCoverage.Binary64
import ConversionCoverage.Binary64.Decimal
import ConversionCoverage.Buckets
import ConversionCoverage.Calendar
import ConversionCoverage.Command.Arguments
import ConversionCoverage.Command.Footprint
import ConversionCoverage.Command.Run
import ConversionCoverage.Command.Screen
import ConversionCoverage.Datum
import ConversionCoverage.Datum.Written
import ConversionCoverage.EventLog
import ConversionCoverage.Export
import ConversionCoverage.FilePath
import ConversionCoverage.FileTree
import ConversionCoverage.Host
import ConversionCoverage.Host.Usual
import ConversionCoverage.Json
import ConversionCoverage.Json.Printer
import ConversionCoverage.Json.Reader
import ConversionCoverage.Main
import ConversionCoverage.Markup
import ConversionCoverage.Percentage
import ConversionCoverage.Proofs.Agreement
import ConversionCoverage.Proofs.Buckets
import ConversionCoverage.Proofs.CappedReasons
import ConversionCoverage.Proofs.CommandLine
import ConversionCoverage.Proofs.Confluence
import ConversionCoverage.Proofs.ConsoleMarkup
import ConversionCoverage.Proofs.ConsoleTable
import ConversionCoverage.Proofs.ControlSequence
import ConversionCoverage.Proofs.Decimal
import ConversionCoverage.Proofs.Digits
import ConversionCoverage.Proofs.DirectoryModes
import ConversionCoverage.Proofs.Encodability
import ConversionCoverage.Proofs.ExampleEntries
import ConversionCoverage.Proofs.ExampleOrder
import ConversionCoverage.Proofs.Export
import ConversionCoverage.Proofs.ExportCommand
import ConversionCoverage.Proofs.ExportFaults
import ConversionCoverage.Proofs.ExportLog
import ConversionCoverage.Proofs.FailedRequests
import ConversionCoverage.Proofs.FileTree
import ConversionCoverage.Proofs.FirstFailure
import ConversionCoverage.Proofs.Halves
import ConversionCoverage.Proofs.Histogram
import ConversionCoverage.Proofs.Indentation
import ConversionCoverage.Proofs.Issues
import ConversionCoverage.Proofs.JsonFloat
import ConversionCoverage.Proofs.JsonLines
import ConversionCoverage.Proofs.JsonNumber
import ConversionCoverage.Proofs.JsonRoundTrip
import ConversionCoverage.Proofs.JsonText
import ConversionCoverage.Proofs.Languages
import ConversionCoverage.Proofs.LenientSettings
import ConversionCoverage.Proofs.LineSeams
import ConversionCoverage.Proofs.LogLines
import ConversionCoverage.Proofs.Markup
import ConversionCoverage.Proofs.Nearest
import ConversionCoverage.Proofs.Nesting
import ConversionCoverage.Proofs.Numerals
import ConversionCoverage.Proofs.Outline
import ConversionCoverage.Proofs.Percentages
import ConversionCoverage.Proofs.Permissions
import ConversionCoverage.Proofs.PlainData
import ConversionCoverage.Proofs.PrintableAscii
import ConversionCoverage.Proofs.PrintedRates
import ConversionCoverage.Proofs.ReadableReports
import ConversionCoverage.Proofs.ReadyDirectory
import ConversionCoverage.Proofs.RecordLoading
import ConversionCoverage.Proofs.RecordSchema
import ConversionCoverage.Proofs.Redaction
import ConversionCoverage.Proofs.RepeatedExport
import ConversionCoverage.Proofs.RepeatedNames
import ConversionCoverage.Proofs.ReportDocuments
import ConversionCoverage.Proofs.ReportFiles
import ConversionCoverage.Proofs.Rounding
import ConversionCoverage.Proofs.SettingsFile
import ConversionCoverage.Proofs.SeverityGrammar
import ConversionCoverage.Proofs.Shares
import ConversionCoverage.Proofs.ShownTables
import ConversionCoverage.Proofs.Spellings
import ConversionCoverage.Proofs.SuccessData
import ConversionCoverage.Proofs.SummaryCommand
import ConversionCoverage.Proofs.SurrogatePairs
import ConversionCoverage.Proofs.Tally
import ConversionCoverage.Proofs.TrackedRecords
import ConversionCoverage.Proofs.TrackerKeys
import ConversionCoverage.Proofs.Tracking
import ConversionCoverage.Proofs.TwoExports
import ConversionCoverage.Proofs.Utf8
import ConversionCoverage.Record
import ConversionCoverage.Record.File
import ConversionCoverage.Record.Schema
import ConversionCoverage.Report.ByExample
import ConversionCoverage.Report.ByLanguage
import ConversionCoverage.Report.Digest
import ConversionCoverage.Report.Summary
import ConversionCoverage.Schema
import ConversionCoverage.Settings
import ConversionCoverage.Settings.File
import ConversionCoverage.Severity
import ConversionCoverage.Tally
import ConversionCoverage.Text
import ConversionCoverage.Text.Blank
import ConversionCoverage.Text.ControlSequence
import ConversionCoverage.Text.Digit
import ConversionCoverage.Text.LetterCase
import ConversionCoverage.Text.Numeral
import ConversionCoverage.Text.Printable
import ConversionCoverage.Text.Quoted
import ConversionCoverage.Text.Utf8
import ConversionCoverage.Tracker
import ConversionCoverage.Tracker.Keyed
import ConversionCoverage.Tracker.Session
import ConversionCoverage.Validation
import ConversionCoverage.Yaml.Binary
import ConversionCoverage.Yaml.Cursor
import ConversionCoverage.Yaml.Fault
import ConversionCoverage.Yaml.Node
import ConversionCoverage.Yaml.Number
import ConversionCoverage.Yaml.Scalar
import ConversionCoverage.Yaml.Tag
import ConversionCoverage.Yaml.Timestamp
import ConversionCoverage.Yaml.Token
import ConversionCoverage.Yaml.Value
