import ModBuild.Artifact.Basic
import ModBuild.Artifact.Download
import ModBuild.Artifact.Locate
import ModBuild.Artifact.Stream
import ModBuild.Cli.Fetch
import ModBuild.Cli.Invocation
import ModBuild.Cli.Render
import ModBuild.Cli.Report
import ModBuild.Cli.Run
import ModBuild.Cli.Vars
import ModBuild.Cli.Word
import ModBuild.Descriptor.Basic
import ModBuild.Descriptor.Fault
import ModBuild.Descriptor.Load
import ModBuild.Descriptor.Parse
import ModBuild.Descriptor.Relocation
import ModBuild.Document.Binary64
import ModBuild.Document.Entries
import ModBuild.Document.Value
import ModBuild.Encoding.Basic
import ModBuild.Encoding.Point
import ModBuild.Encoding.Scheme
import ModBuild.Encoding.SingleOctet
import ModBuild.Encoding.Utf8
import ModBuild.Failure
import ModBuild.Files.Access
import ModBuild.Files.Error
import ModBuild.Files.Order
import ModBuild.Files.Temporary
import ModBuild.Files.Tree
import ModBuild.Http
import ModBuild.Main
import ModBuild.Path
import ModBuild.Proofs.Cli.Render
import ModBuild.Proofs.Cli.Rendered
import ModBuild.Proofs.Cli.Templates
import ModBuild.Proofs.Descriptor.Form
import ModBuild.Proofs.Descriptor.Library
import ModBuild.Proofs.Descriptor.Reading
import ModBuild.Proofs.Descriptor.Relocation
import ModBuild.Proofs.Descriptor.Section
import ModBuild.Proofs.Encoding.Utf8
import ModBuild.Proofs.Files.Access
import ModBuild.Proofs.Files.Order
import ModBuild.Proofs.Files.Resolved
import ModBuild.Proofs.Files.Temporary
import ModBuild.Proofs.Files.Emptied
import ModBuild.Proofs.Files.Vacant
import ModBuild.Proofs.Files.Tree
import ModBuild.Proofs.Resolution
import ModBuild.Proofs.Source.Git
import ModBuild.Proofs.Source.Restore
import ModBuild.Proofs.Source.Session
import ModBuild.Proofs.Template.Cut
import ModBuild.Proofs.Template.Append
import ModBuild.Proofs.Template.Octets
import ModBuild.Proofs.Template.Points
import ModBuild.Proofs.Template.Render
import ModBuild.Proofs.Template.Replace
import ModBuild.Proofs.Template.Walk
import ModBuild.Proofs.Text.Blank
import ModBuild.Proofs.Text.Split
import ModBuild.Proofs.Variables.Build
import ModBuild.Proofs.Variables.Dependencies
import ModBuild.Proofs.Variables.Libraries
import ModBuild.Proofs.Variables.Table
import ModBuild.Proofs.World.Effect
import ModBuild.Proofs.World.Run
import ModBuild.Resolution
import ModBuild.Settings
import ModBuild.Source.Control
import ModBuild.Source.Git
import ModBuild.Template.Render
import ModBuild.Template.Replace
import ModBuild.Text.Blank
import ModBuild.Text.Digit
import ModBuild.Text.Field
import ModBuild.Text.Line
import ModBuild.Text.Printable
import ModBuild.Text.Quoted
import ModBuild.Variables.Build
import ModBuild.Variables.Dependencies
import ModBuild.Variables.Libraries
import ModBuild.Variables.Schema
import ModBuild.Variables.Table
import ModBuild.Variant
import ModBuild.Version.Api
import ModBuild.Version.Line
import ModBuild.Version.Resolve
import ModBuild.World
import ModBuild.Yaml.Character
import ModBuild.Yaml.Cursor
import ModBuild.Yaml.Fault
import ModBuild.Yaml.Graph
import ModBuild.Yaml.Graph.Merge
import ModBuild.Yaml.Graph.Parse
import ModBuild.Yaml.Graph.Value
import ModBuild.Yaml.Read
import ModBuild.Yaml.Scalar
import ModBuild.Yaml.Scalar.Binary
import ModBuild.Yaml.Scalar.Number
import ModBuild.Yaml.Scalar.Timestamp
import ModBuild.Yaml.Tag
import ModBuild.Yaml.Token.Basic
import ModBuild.Yaml.Token.Block
import ModBuild.Yaml.Token.Plain
import ModBuild.Yaml.Token.Properties
import ModBuild.Yaml.Token.Quoted
import ModBuild.Yaml.Token.Stream
import ModBuild.Proofs.Version.Resolve
import ModBuild.Proofs.Artifact.Download
import ModBuild.Proofs.Artifact.Stream
import ModBuild.Proofs.Artifact.Reads
import ModBuild.Proofs.Cli.Copy
import ModBuild.Proofs.Cli.Fetch
import ModBuild.Proofs.Cli.Refused
import ModBuild.Proofs.Path
import ModBuild.Proofs.Resolution.Coherent
import ModBuild.Proofs.Files.Place
import ModBuild.Proofs.Cli.Targets
import ModBuild.Proofs.Cli.Outputs
import ModBuild.Proofs.Resolution.Failing
import ModBuild.Proofs.Cli.Ends
import ModBuild.Proofs.Descriptor.Element
import ModBuild.Proofs.Descriptor.FirstFault
import ModBuild.Proofs.Descriptor.Load
import ModBuild.Proofs.Version.Failing
import ModBuild.Proofs.Json.Grammar
import ModBuild.Proofs.Yaml.Cursor
import ModBuild.Proofs.Yaml.Quoted
import ModBuild.Proofs.Yaml.Plain
import ModBuild.Proofs.Yaml.Lexeme
import ModBuild.Proofs.Yaml.Scan
import ModBuild.Proofs.Yaml.Parse
import ModBuild.Proofs.Yaml.Visit
import ModBuild.Proofs.Yaml.Value
import ModBuild.Proofs.Yaml.Number
import ModBuild.Proofs.Json.Read
import ModBuild.Proofs.Descriptor.Json
import ModBuild.Proofs.Text.Digit
import ModBuild.Proofs.Version.Api
import ModBuild.Proofs.Version.Line
import ModBuild.Proofs.Resolution.Newest
import ModBuild.Proofs.Descriptor.Rule
import ModBuild.Proofs.Descriptor.Edit
import ModBuild.Proofs.Variables.Agreement
import ModBuild.Proofs.Variables.Distinct
import ModBuild.Proofs.Artifact.Locate
import ModBuild.Proofs.Artifact.Unambiguous
import ModBuild.Proofs.Artifact.Lines
import ModBuild.Proofs.Artifact.Closing
import ModBuild.Proofs.Cli.Closing
import ModBuild.Proofs.Encoding.Scheme
import ModBuild.Proofs.Encoding.SingleOctet
import ModBuild.Proofs.Template.Failing
import ModBuild.Proofs.World.Calls
import ModBuild.Proofs.Source.Limit
