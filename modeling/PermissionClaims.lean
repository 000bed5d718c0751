import PermissionClaims.Access
import PermissionClaims.Arguments
import PermissionClaims.Claim.Basic
import PermissionClaims.Claim.Change
import PermissionClaims.Claim.Collection
import PermissionClaims.Claim.Grammar
import PermissionClaims.Claim.Parse
import PermissionClaims.Claim.Parser
import PermissionClaims.Claim.Query
import PermissionClaims.Claim.Relation
import PermissionClaims.Config.Basic
import PermissionClaims.Config.Environment
import PermissionClaims.Config.Fault
import PermissionClaims.Failure
import PermissionClaims.Log.Call
import PermissionClaims.Log.Json
import PermissionClaims.Log.Line
import PermissionClaims.Log.Loggers
import PermissionClaims.Log.Notice
import PermissionClaims.Log.Preview
import PermissionClaims.Log.Record
import PermissionClaims.Log.State
import PermissionClaims.Log.Step
import PermissionClaims.Log.Traced
import PermissionClaims.LogLevel
import PermissionClaims.Named
import PermissionClaims.Number.Binary64
import PermissionClaims.Number.Decimal
import PermissionClaims.Number.Layout
import PermissionClaims.Number.Shortest
import PermissionClaims.Report
import PermissionClaims.SortedSet
import PermissionClaims.Template.Basic
import PermissionClaims.Template.Conversion
import PermissionClaims.Template.Fault
import PermissionClaims.Template.Fill
import PermissionClaims.Text.Basic
import PermissionClaims.Text.Blank
import PermissionClaims.Text.Capital
import PermissionClaims.Text.CaseMap
import PermissionClaims.Text.Pattern
import PermissionClaims.Text.Printable
import PermissionClaims.Text.Quoted
import PermissionClaims.Text.Ranges
import PermissionClaims.Time.Civil
import PermissionClaims.Time.Clock
import PermissionClaims.Time.Directive
import PermissionClaims.Time.Field
import PermissionClaims.Time.Pattern
import PermissionClaims.Time.Stretch
import PermissionClaims.Time.Week
import PermissionClaims.Value.Basic
import PermissionClaims.Value.Elements
import PermissionClaims.Value.Key
import PermissionClaims.Value.Level
import PermissionClaims.Value.Render
import PermissionClaims.Proofs.PatternLanguage
import PermissionClaims.Proofs.DottedPath
import PermissionClaims.Proofs.Spelling
import PermissionClaims.Proofs.ClaimText
import PermissionClaims.Proofs.Segments
import PermissionClaims.Proofs.Collection
import PermissionClaims.Proofs.AccessDecision
import PermissionClaims.Proofs.AuthorityOrder
import PermissionClaims.Proofs.PermissionSets
import PermissionClaims.Proofs.SubjectPath
import PermissionClaims.Proofs.Discovery
import PermissionClaims.Proofs.Components
import PermissionClaims.Proofs.TrailingDot
import PermissionClaims.Proofs.TextQueries
import PermissionClaims.Proofs.PrintableValue
import PermissionClaims.Proofs.UnambiguousPreview
import PermissionClaims.Proofs.Notices
import PermissionClaims.Proofs.Timestamp
import PermissionClaims.Proofs.LogLine
import PermissionClaims.Proofs.LetterCase
import PermissionClaims.Proofs.LevelNames
import PermissionClaims.Proofs.FlagWords
import PermissionClaims.Proofs.EnvironmentSettings
import PermissionClaims.Proofs.SetUp
import PermissionClaims.Proofs.CallLog
import PermissionClaims.Proofs.WholeReading
import PermissionClaims.Proofs.FaithfulText
import PermissionClaims.Proofs.JsonReading
import PermissionClaims.Proofs.QuotedReading
import PermissionClaims.Proofs.LineFields
import PermissionClaims.Proofs.JsonLine
import PermissionClaims.Proofs.HeldClaims
import PermissionClaims.Proofs.Below
import PermissionClaims.Proofs.Denial
import PermissionClaims.Proofs.ClaimChanges
import PermissionClaims.Proofs.SettingFaults
import PermissionClaims.Proofs.SubjectSegments
