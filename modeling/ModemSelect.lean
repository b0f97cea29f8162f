import ModemSelect.Choice.Decision
import ModemSelect.Choice.Leaving
import ModemSelect.Choice.Returning
import ModemSelect.Engine.Basic
import ModemSelect.Engine.Evaluation
import ModemSelect.Engine.Event
import ModemSelect.Engine.Message
import ModemSelect.Engine.Step
import ModemSelect.Handset.Basic
import ModemSelect.Handset.Readings
import ModemSelect.Internet
import ModemSelect.Journal
import ModemSelect.Json
import ModemSelect.Main
import ModemSelect.Proofs.Aim
import ModemSelect.Proofs.AlarmsView
import ModemSelect.Proofs.Awaiting
import ModemSelect.Proofs.Backoff
import ModemSelect.Proofs.Bookkeeping
import ModemSelect.Proofs.ByteOrder
import ModemSelect.Proofs.Cancellation
import ModemSelect.Proofs.Challengers
import ModemSelect.Proofs.Chronology
import ModemSelect.Proofs.Coherence
import ModemSelect.Proofs.Course
import ModemSelect.Proofs.Debounce
import ModemSelect.Proofs.Decided
import ModemSelect.Proofs.Disabled
import ModemSelect.Proofs.Earliest
import ModemSelect.Proofs.Elapsing
import ModemSelect.Proofs.Feasible
import ModemSelect.Proofs.Firing
import ModemSelect.Proofs.Following
import ModemSelect.Proofs.Forced
import ModemSelect.Proofs.Gate
import ModemSelect.Proofs.Idling
import ModemSelect.Proofs.Improvement
import ModemSelect.Proofs.Independence
import ModemSelect.Proofs.Journaling
import ModemSelect.Proofs.Ledger
import ModemSelect.Proofs.Listening
import ModemSelect.Proofs.Lists
import ModemSelect.Proofs.Mirroring
import ModemSelect.Proofs.Newest
import ModemSelect.Proofs.NoNews
import ModemSelect.Proofs.Origin
import ModemSelect.Proofs.Passage
import ModemSelect.Proofs.Precheck
import ModemSelect.Proofs.Progress
import ModemSelect.Proofs.Punctual
import ModemSelect.Proofs.QueueView
import ModemSelect.Proofs.Ranking
import ModemSelect.Proofs.Reconciling
import ModemSelect.Proofs.Repeating
import ModemSelect.Proofs.Rescoring
import ModemSelect.Proofs.Resolution
import ModemSelect.Proofs.Retrying
import ModemSelect.Proofs.Returns
import ModemSelect.Proofs.Run
import ModemSelect.Proofs.Settling
import ModemSelect.Proofs.SlotRow
import ModemSelect.Proofs.Sound
import ModemSelect.Proofs.Stability
import ModemSelect.Proofs.StandingsView
import ModemSelect.Proofs.Stores
import ModemSelect.Proofs.Ties
import ModemSelect.Proofs.TimerRun
import ModemSelect.Proofs.Trial
import ModemSelect.Proofs.Turn
import ModemSelect.Proofs.Undercut
import ModemSelect.Proofs.Unscored
import ModemSelect.Proofs.UpToDate
import ModemSelect.Proofs.Validation
import ModemSelect.Proofs.Waking
import ModemSelect.Radio.Access
import ModemSelect.Radio.ScoreTable
import ModemSelect.Radio.Service
import ModemSelect.Radio.Signal
import ModemSelect.Report.Engine
import ModemSelect.Report.Handset
import ModemSelect.Report.Trace
import ModemSelect.Report.Values
import ModemSelect.Rig
import ModemSelect.Scenario.Player
import ModemSelect.Scenario.Reading
import ModemSelect.Scenario.Script
import ModemSelect.Schedule.Alarms
import ModemSelect.Schedule.Clock
import ModemSelect.Schedule.Key
import ModemSelect.Schedule.Queue
import ModemSelect.Schedule.Reason
import ModemSelect.Schedule.Retry
import ModemSelect.Schedule.TimerView
import ModemSelect.Schedule.Timers
import ModemSelect.Settings.Basic
import ModemSelect.Settings.Draft
import ModemSelect.Settings.Reading
import ModemSelect.Slots.Modem
import ModemSelect.Slots.Roster
import ModemSelect.Slots.SlotMap
import ModemSelect.Slots.SlotSet
import ModemSelect.Slots.SlotTable
import ModemSelect.Slots.SlotView
import ModemSelect.Text
import ModemSelect.Toml.Date
import ModemSelect.Toml.Decoding
import ModemSelect.Toml.Document
import ModemSelect.Toml.Number
import ModemSelect.Toml.Quoted
import ModemSelect.Toml.Reading
import ModemSelect.Toml.Tree
import ModemSelect.Toml.Value
import ModemSelect.Worker
