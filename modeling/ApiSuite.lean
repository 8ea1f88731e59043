import ApiSuite.Files.Disk
import ApiSuite.Main
import ApiSuite.Notice
import ApiSuite.Proofs.Suite.Rules
import ApiSuite.Proofs.Suite.WellFormed
import ApiSuite.Proofs.Suite.Document
import ApiSuite.Proofs.Suite.RoundTrip
import ApiSuite.Proofs.Schema.Elements
import ApiSuite.Proofs.Schema.Genuine
import ApiSuite.Proofs.Schema.Locality
import ApiSuite.Proofs.Alike
import ApiSuite.Proofs.Schema.Order
import ApiSuite.Proofs.Suite.Spelling
import ApiSuite.Proofs.Text.Contains
import ApiSuite.Proofs.Yaml.Quotes
import ApiSuite.Proofs.Yaml.Citations
import ApiSuite.Proofs.Marker
import ApiSuite.Proofs.Discovery
import ApiSuite.Proofs.Glob.Braces
import ApiSuite.Proofs.Yaml.Merge
import ApiSuite.Proofs.Command.Dump
import ApiSuite.Proofs.Schema.Notes
import ApiSuite.Proofs.Suite.Legible
import ApiSuite.Proofs.Command.Check
import ApiSuite.Proofs.Files.Canonical
import ApiSuite.Proofs.Settings.Nearest
import ApiSuite.Proofs.Settings.Document
import ApiSuite.Proofs.Yaml.Anchors
import ApiSuite.Proofs.Settings.Precedence
import ApiSuite.Proofs.Schema.Vocabulary
import ApiSuite.Proofs.Schema.PathText
import ApiSuite.Proofs.Report.Width
import ApiSuite.Proofs.Report.Colours
import ApiSuite.Proofs.Report.Lines
