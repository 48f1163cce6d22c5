import Forecast.Calendar.Date
import Forecast.Calendar.DateText
import Forecast.Calendar.Month
import Forecast.Calendar.Monthly
import Forecast.Calendar.Window
import Forecast.Confidence.Score
import Forecast.Confidence.Settings
import Forecast.Curve.Alert
import Forecast.Curve.Daily
import Forecast.Curve.Point
import Forecast.Curve.Status
import Forecast.Decimal.Arithmetic
import Forecast.Decimal.Basic
import Forecast.Decimal.Mean
import Forecast.Decimal.Rounding
import Forecast.Decimal.Text
import Forecast.Event.Basic
import Forecast.Event.Expected
import Forecast.Failure
import Forecast.Fault
import Forecast.Household.Account
import Forecast.Household.Entry
import Forecast.Household.Recurring
import Forecast.Household.Snapshot
import Forecast.Json.Codec
import Forecast.Json.Finite
import Forecast.Json.Lexer
import Forecast.Json.Reader
import Forecast.Json.Record
import Forecast.Json.Token
import Forecast.Json.Value
import Forecast.Json.Writer
import Forecast.PowerOfTen
import Forecast.Problem
import Forecast.Proofs.Calendar.Anchored
import Forecast.Proofs.Calendar.Candidates
import Forecast.Proofs.Calendar.Days
import Forecast.Proofs.Calendar.Enumeration
import Forecast.Proofs.Calendar.MonthEnds
import Forecast.Proofs.Calendar.Occurrences
import Forecast.Proofs.Calendar.Parts
import Forecast.Proofs.Calendar.Written
import Forecast.Proofs.Confidence.Check
import Forecast.Proofs.Confidence.Day
import Forecast.Proofs.Confidence.Decay
import Forecast.Proofs.Confidence.Floor
import Forecast.Proofs.Confidence.Order
import Forecast.Proofs.Confidence.Range
import Forecast.Proofs.Confidence.Safety
import Forecast.Proofs.Curve.Alerts
import Forecast.Proofs.Curve.Daywise
import Forecast.Proofs.Curve.Figures
import Forecast.Proofs.Curve.Order
import Forecast.Proofs.Curve.Parts
import Forecast.Proofs.Curve.Poorer
import Forecast.Proofs.Curve.Scored
import Forecast.Proofs.Curve.Statuses
import Forecast.Proofs.Curve.Trace
import Forecast.Proofs.Decimal.Bounded
import Forecast.Proofs.Decimal.ExactSum
import Forecast.Proofs.Decimal.Mean
import Forecast.Proofs.Decimal.Order
import Forecast.Proofs.Decimal.Rounded
import Forecast.Proofs.Decimal.Unsigned
import Forecast.Proofs.Decimal.Written
import Forecast.Proofs.Event.ByDay
import Forecast.Proofs.Event.Causes
import Forecast.Proofs.Event.Count
import Forecast.Proofs.Event.Expected
import Forecast.Proofs.Event.Order
import Forecast.Proofs.Event.Parts
import Forecast.Proofs.Event.Totals
import Forecast.Proofs.Household.Written
import Forecast.Proofs.Json.Faithful
import Forecast.Proofs.Json.Keys
import Forecast.Proofs.Json.Lexing
import Forecast.Proofs.Json.Numeral
import Forecast.Proofs.Json.Reading
import Forecast.Proofs.Json.RoundTrip
import Forecast.Proofs.Json.Slots
import Forecast.Proofs.Report.Totals
import Forecast.Proofs.Report.Written
import Forecast.Proofs.Request.Decoding
import Forecast.Proofs.Request.Origins
import Forecast.Proofs.Request.Params
import Forecast.Proofs.Request.Printed
import Forecast.Proofs.Scenario.Addition
import Forecast.Proofs.Scenario.Outcome
import Forecast.Proofs.Scenario.Recording
import Forecast.Proofs.Scenario.Removal
import Forecast.Proofs.Scenario.Written
import Forecast.Proofs.Session.Balance
import Forecast.Proofs.Session.Conduct
import Forecast.Proofs.Session.Exchange
import Forecast.Proofs.Session.Extension
import Forecast.Proofs.Session.Filter
import Forecast.Proofs.Session.Found
import Forecast.Proofs.Session.Inquiry
import Forecast.Proofs.Session.Lookup
import Forecast.Proofs.Session.Order
import Forecast.Proofs.Session.Reading
import Forecast.Proofs.Session.Reconciliation
import Forecast.Proofs.Session.Relevance
import Forecast.Proofs.Session.Runs
import Forecast.Proofs.Session.Safety
import Forecast.Proofs.Session.Snapshots
import Forecast.Proofs.Session.Told
import Forecast.Proofs.Session.Views
import Forecast.Proofs.Source.Memory
import Forecast.Proofs.Storage.Files
import Forecast.Proofs.Storage.Listing
import Forecast.Proofs.Storage.Names
import Forecast.Proofs.Storage.Ownership
import Forecast.Proofs.Storage.Saved
import Forecast.Proofs.Storage.Settings
import Forecast.Proofs.Success
import Forecast.Proofs.Text.Digits
import Forecast.Proofs.Uuid
import Forecast.Quotient
import Forecast.Report
import Forecast.Request
import Forecast.Scenario.Comparison
import Forecast.Scenario.Plan
import Forecast.Session
import Forecast.Settings
import Forecast.Sorting
import Forecast.Source.Basic
import Forecast.Source.Memory
import Forecast.Storage.FileTree
import Forecast.Storage.Locations
import Forecast.Storage.Path
import Forecast.Storage.Route
import Forecast.Storage.SettingsFile
import Forecast.Storage.SnapshotStore
import Forecast.Text.Blank
import Forecast.Text.Digits
import Forecast.Uuid
import Forecast.ViewMode
