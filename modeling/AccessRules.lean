import AccessRules.Files.Tree
import AccessRules.Json.Reader
import AccessRules.Main
import AccessRules.Proofs.Extraction.Attribution
import AccessRules.Proofs.Extraction.Interference
import AccessRules.Proofs.Source.CommentAgreement
import AccessRules.Proofs.Text.Reads
import AccessRules.Proofs.Source.FirstMatch
import AccessRules.Proofs.Requirement.ReadBack
import AccessRules.Proofs.Requirement.BlankLine
import AccessRules.Proofs.Source.CommentLine
import AccessRules.Proofs.Source.CommentPlace
import AccessRules.Proofs.Source.TrailingComment
import AccessRules.Proofs.Extraction.DecoyLine
import AccessRules.Proofs.Extraction.Alone
import AccessRules.Proofs.Plugin.Respond
import AccessRules.Proofs.Plugin.Strict
import AccessRules.Proofs.Table.ModuleReader
import AccessRules.Proofs.Table.Lookup
import AccessRules.Proofs.Text.Utf8
import AccessRules.Proofs.Json.RoundTrip
import AccessRules.Proofs.Table.JsonTable
import AccessRules.Proofs.Files.History
import AccessRules.Proofs.Extraction.Diagnosis
import AccessRules.Proofs.Extraction.Accounts
import AccessRules.Proofs.Wire.Grammar
import AccessRules.Proofs.Schema.Envelope
import AccessRules.Proofs.Extraction.ClosedOption
import AccessRules.Proofs.Source.InsertedLine
import AccessRules.Proofs.Source.LiveSearch
import AccessRules.Proofs.Source.BracedSpan
import AccessRules.Proofs.Requirement.Independence
import AccessRules.Proofs.Table.AddedLines
import AccessRules.Proofs.Settings.Parameters
import AccessRules.Proofs.Requirement.ListLayout
import AccessRules.Proofs.Wire.Occurrence
import AccessRules.Proofs.Schema.LastText
import AccessRules.Proofs.Extraction.VerbChoice
