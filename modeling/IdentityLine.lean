import IdentityLine.Arguments
import IdentityLine.Arguments.Help
import IdentityLine.Calendar
import IdentityLine.Clock
import IdentityLine.Command
import IdentityLine.Environment
import IdentityLine.Files
import IdentityLine.Identity
import IdentityLine.Identity.Json
import IdentityLine.Instant
import IdentityLine.Json.Fault
import IdentityLine.Json.Number
import IdentityLine.Json.Skip
import IdentityLine.Json.Text
import IdentityLine.Level
import IdentityLine.Log
import IdentityLine.Machine
import IdentityLine.Main
import IdentityLine.Offset
import IdentityLine.Path
import IdentityLine.Proofs.AddedLevel
import IdentityLine.Proofs.CanonicalLine
import IdentityLine.Proofs.CheckedFields
import IdentityLine.Proofs.CleanedAgain
import IdentityLine.Proofs.DateText
import IdentityLine.Proofs.DayNumber
import IdentityLine.Proofs.DistinctKeys
import IdentityLine.Proofs.GivenOptions
import IdentityLine.Proofs.HostName
import IdentityLine.Proofs.InstantOrder
import IdentityLine.Proofs.JoinedPath
import IdentityLine.Proofs.JsonGrammar
import IdentityLine.Proofs.JsonIdentities
import IdentityLine.Proofs.JsonLeaves
import IdentityLine.Proofs.JsonObjects
import IdentityLine.Proofs.JsonRoundTrip
import IdentityLine.Proofs.JsonValues
import IdentityLine.Proofs.LevelFlags
import IdentityLine.Proofs.LevelNames
import IdentityLine.Proofs.LevelSources
import IdentityLine.Proofs.LogOrigin
import IdentityLine.Proofs.LogPlace
import IdentityLine.Proofs.MovedInstant
import IdentityLine.Proofs.NamedZone
import IdentityLine.Proofs.OpenedLog
import IdentityLine.Proofs.PrintedFields
import IdentityLine.Proofs.Reading
import IdentityLine.Proofs.RefusedFile
import IdentityLine.Proofs.RunStages
import IdentityLine.Proofs.SameOutput
import IdentityLine.Proofs.SameSecond
import IdentityLine.Proofs.SessionChains
import IdentityLine.Proofs.SettingsDocument
import IdentityLine.Proofs.SettingsKept
import IdentityLine.Proofs.SettingsLayers
import IdentityLine.Proofs.SignerCommands
import IdentityLine.Proofs.SignerSources
import IdentityLine.Proofs.StampedInstant
import IdentityLine.Proofs.StampedZone
import IdentityLine.Proofs.Standing
import IdentityLine.Proofs.SystemEmail
import IdentityLine.Proofs.TakingEntries
import IdentityLine.Proofs.TextBytes
import IdentityLine.Proofs.ValueReaders
import IdentityLine.Proofs.WrittenText
import IdentityLine.Proofs.ZoneGrammar
import IdentityLine.Run
import IdentityLine.Session
import IdentityLine.Settings
import IdentityLine.Settings.File
import IdentityLine.Settings.Load
import IdentityLine.Text.Decimal
import IdentityLine.Text.Quoted
import IdentityLine.Text.Sanitize
import IdentityLine.Text.Trim
import IdentityLine.Text.Unseen
import IdentityLine.Text.Utf8
import IdentityLine.Toml.Document
import IdentityLine.Toml.Scalar
import IdentityLine.Toml.Table
import IdentityLine.Toml.Text
import IdentityLine.Toml.Value
import IdentityLine.Zone
import IdentityLine.Zone.Name
import IdentityLine.Proofs.OffsetText
