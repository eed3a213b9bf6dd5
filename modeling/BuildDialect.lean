import BuildDialect.Main
import BuildDialect.Session.Run
import BuildDialect.Proofs.Parser.Round
import BuildDialect.Proofs.Parser.Frame
import BuildDialect.Proofs.Parser.Calls
import BuildDialect.Proofs.Parser.Account
import BuildDialect.Proofs.Parser.Due
import BuildDialect.Proofs.Parser.Reporting
import BuildDialect.Proofs.Parser.Resumption
import BuildDialect.Proofs.Parser.Record
import BuildDialect.Proofs.Parser.Unreported
import BuildDialect.Proofs.Actions
import BuildDialect.Proofs.Parser.Startup
import BuildDialect.Proofs.Session.Known
import BuildDialect.Proofs.Session.Safety
import BuildDialect.Proofs.Session.Closings
import BuildDialect.Proofs.Session.Recording
import BuildDialect.Proofs.Detection
import BuildDialect.Proofs.Parser.Routing
import BuildDialect.Proofs.Parser.Leak
import BuildDialect.Proofs.Settings.Acceptance
import BuildDialect.Proofs.Parser.Launch
import BuildDialect.Proofs.Report.Arguments
import BuildDialect.Proofs.Settings.Loading
import BuildDialect.Proofs.Parser.Verdict
import BuildDialect.Proofs.Report.Lines
import BuildDialect.Proofs.Report.Agreement
import BuildDialect.Proofs.Yaml.Reading
import BuildDialect.Proofs.Yaml.Scanning
import BuildDialect.Proofs.Yaml.Lines
import BuildDialect.Proofs.Yaml.Composing
import BuildDialect.Proofs.Yaml.Content
import BuildDialect.Proofs.Files.Writing
import BuildDialect.Proofs.Yaml.Intake
import BuildDialect.Proofs.Yaml.Listing
import BuildDialect.Proofs.Settings.Rereading
import BuildDialect.Proofs.Parser.Counting
import BuildDialect.Proofs.Session.Counting
import BuildDialect.Proofs.FirstLine
import BuildDialect.Proofs.Marking
import BuildDialect.Proofs.Report.Account
import BuildDialect.Proofs.Settings.Rejection
import BuildDialect.Proofs.Parser.Attempts
import BuildDialect.Proofs.Session.Blocks
import BuildDialect.Proofs.Files.Passing
import BuildDialect.Proofs.Files.Growing
import BuildDialect.Proofs.Files.Replacing
import BuildDialect.Proofs.Settings.Saving
import BuildDialect.Proofs.Report.Honouring
