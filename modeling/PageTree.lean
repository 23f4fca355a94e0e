import PageTree.Base64
import PageTree.Binary64
import PageTree.CommandLine.Arguments
import PageTree.CommandLine.Help
import PageTree.CommandLine.Program
import PageTree.CommandLine.Transcript
import PageTree.CommandLine.Word
import PageTree.Datum
import PageTree.Fault
import PageTree.FileSystem
import PageTree.HostAddress
import PageTree.Json.Printer
import PageTree.Json.Reader
import PageTree.Main
import PageTree.MediaType
import PageTree.MetadataFile
import PageTree.Page
import PageTree.PageRequest
import PageTree.Path
import PageTree.Proofs.Ancestors
import PageTree.Proofs.Base64
import PageTree.Proofs.Basic
import PageTree.Proofs.CommandLine.Announcement
import PageTree.Proofs.CommandLine.HeaderFields
import PageTree.Proofs.CommandLine.Outcome
import PageTree.Proofs.Credentials
import PageTree.Proofs.Datum
import PageTree.Proofs.FailStop
import PageTree.Proofs.FileSystem
import PageTree.Proofs.FileSystem.Absolute
import PageTree.Proofs.FileSystem.Nameable
import PageTree.Proofs.FileSystem.Write
import PageTree.Proofs.Foreseen
import PageTree.Proofs.Json.Completeness
import PageTree.Proofs.Json.Encoded
import PageTree.Proofs.Json.Grammar
import PageTree.Proofs.Json.LineEnds
import PageTree.Proofs.Json.RoundTrip
import PageTree.Proofs.Json.Soundness
import PageTree.Proofs.Lookup
import PageTree.Proofs.MetadataFile
import PageTree.Proofs.MetadataFile.Foreseen
import PageTree.Proofs.Outline
import PageTree.Proofs.Outline.Positions
import PageTree.Proofs.Outline.Rebuild
import PageTree.Proofs.PageAnswer
import PageTree.Proofs.PageRequest
import PageTree.Proofs.PageUrl
import PageTree.Proofs.Path.Spelling
import PageTree.Proofs.Payload
import PageTree.Proofs.Publishing
import PageTree.Proofs.Rehearsal
import PageTree.Proofs.Resources
import PageTree.Proofs.Run
import PageTree.Proofs.SavedTree
import PageTree.Proofs.SavedTree.Room
import PageTree.Proofs.SavedTree.Suffix
import PageTree.Proofs.Schema
import PageTree.Proofs.Schema.Report
import PageTree.Proofs.Schema.Tidy
import PageTree.Proofs.Secrecy
import PageTree.Proofs.Server
import PageTree.Proofs.Session
import PageTree.Proofs.Settings
import PageTree.Proofs.Settings.Domain
import PageTree.Proofs.Settings.EmptyVariable
import PageTree.Proofs.Settings.KeptUrl
import PageTree.Proofs.Settings.Refusal
import PageTree.Proofs.Shape
import PageTree.Proofs.Signature
import PageTree.Proofs.Steps
import PageTree.Proofs.Tally
import PageTree.Proofs.Text
import PageTree.Proofs.Text.Cut
import PageTree.Proofs.Trace
import PageTree.Proofs.Url
import PageTree.Proofs.Utf8
import PageTree.Proofs.Utf8.RoundTrip
import PageTree.Proofs.Value
import PageTree.Proofs.Yaml.Faults
import PageTree.Proofs.Yaml.FlowNodes
import PageTree.Proofs.Yaml.FlowTokens
import PageTree.Proofs.Yaml.Remainder
import PageTree.Proofs.Yaml.Scanner
import PageTree.Proofs.Yaml.Strings
import PageTree.Proofs.Yaml.Tame
import PageTree.Proofs.Yaml.Untagged
import PageTree.Publisher
import PageTree.Session
import PageTree.Settings
import PageTree.Shape
import PageTree.Text
import PageTree.Text.DecimalDigit
import PageTree.Text.Lowercase
import PageTree.Text.Printable
import PageTree.Text.Quoted
import PageTree.Url
import PageTree.Utf8
import PageTree.Value
import PageTree.World
import PageTree.Yaml.Cursor
import PageTree.Yaml.Document
import PageTree.Yaml.Node
import PageTree.Yaml.Number
import PageTree.Yaml.Reader
import PageTree.Yaml.Style.Block
import PageTree.Yaml.Style.Plain
import PageTree.Yaml.Style.Quoted
import PageTree.Yaml.Tag
import PageTree.Yaml.Timestamp
import PageTree.Yaml.Token
import PageTree.Yaml.TokenStream
