import SessionPlayback.Base64
import SessionPlayback.CommandLine
import SessionPlayback.Config.Environment
import SessionPlayback.Config.File
import SessionPlayback.Console.FaultPlan
import SessionPlayback.Console.LogFile
import SessionPlayback.Console.Terminal
import SessionPlayback.Console.Transcript
import SessionPlayback.Console.Viewer
import SessionPlayback.Event.Reader
import SessionPlayback.Feed.Opening
import SessionPlayback.Json.Printer
import SessionPlayback.Json.Reader
import SessionPlayback.Keystrokes
import SessionPlayback.Main
import SessionPlayback.Metadata.Reader
import SessionPlayback.Newlines
import SessionPlayback.Playback.Mode
import SessionPlayback.Playback.Run
import SessionPlayback.Playback.Seek
import SessionPlayback.Playback.Status
import SessionPlayback.Player.Keys
import SessionPlayback.Player.Timeline
import SessionPlayback.Proofs.Binary64.Rounding
import SessionPlayback.Proofs.CommandLine.Dump
import SessionPlayback.Proofs.CommandLine.Settings
import SessionPlayback.Proofs.Config
import SessionPlayback.Proofs.Console.LogFile
import SessionPlayback.Proofs.Console.Service
import SessionPlayback.Proofs.Console.Trace
import SessionPlayback.Proofs.Event.Spelling
import SessionPlayback.Proofs.Json.Printed
import SessionPlayback.Proofs.Json.Reader
import SessionPlayback.Proofs.Json.Token
import SessionPlayback.Proofs.Keystrokes.Splitting
import SessionPlayback.Proofs.Metadata
import SessionPlayback.Proofs.Newlines
import SessionPlayback.Proofs.Playback.Acknowledgement
import SessionPlayback.Proofs.Playback.Advance
import SessionPlayback.Proofs.Playback.Armed
import SessionPlayback.Proofs.Playback.Backpressure
import SessionPlayback.Proofs.Playback.Delay
import SessionPlayback.Proofs.Playback.Display
import SessionPlayback.Proofs.Playback.Drain
import SessionPlayback.Proofs.Playback.FailStop
import SessionPlayback.Proofs.Playback.Failure
import SessionPlayback.Proofs.Playback.Follow
import SessionPlayback.Proofs.Playback.Handover
import SessionPlayback.Proofs.Playback.Operation
import SessionPlayback.Proofs.Playback.Output
import SessionPlayback.Proofs.Playback.Overlook
import SessionPlayback.Proofs.Playback.Pace
import SessionPlayback.Proofs.Playback.PlayOut
import SessionPlayback.Proofs.Playback.Rebuild
import SessionPlayback.Proofs.Playback.Replay
import SessionPlayback.Proofs.Playback.Rescale
import SessionPlayback.Proofs.Playback.Retry
import SessionPlayback.Proofs.Playback.Schedule
import SessionPlayback.Proofs.Playback.Seek
import SessionPlayback.Proofs.Playback.SeekTrace
import SessionPlayback.Proofs.Playback.Stopwatch
import SessionPlayback.Proofs.Playback.Unending
import SessionPlayback.Proofs.Playback.Unflushed
import SessionPlayback.Proofs.Playback.Visibility
import SessionPlayback.Proofs.Player.Account
import SessionPlayback.Proofs.Player.Credit
import SessionPlayback.Proofs.Player.Delivery
import SessionPlayback.Proofs.Player.FailStop
import SessionPlayback.Proofs.Player.Turn
import SessionPlayback.Proofs.Recording.Closing
import SessionPlayback.Proofs.Recording.Layout
import SessionPlayback.Proofs.Recording.Truncation
import SessionPlayback.Proofs.Text.Utf8
import SessionPlayback.Proofs.Timer
import SessionPlayback.Recording
