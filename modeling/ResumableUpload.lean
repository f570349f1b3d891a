import ResumableUpload.Client
import ResumableUpload.CommandLine.Arguments
import ResumableUpload.CommandLine.Filter
import ResumableUpload.CommandLine.Upload
import ResumableUpload.Digest.File
import ResumableUpload.Digest.Md5
import ResumableUpload.Duration
import ResumableUpload.Endpoint.Basic
import ResumableUpload.Endpoint.Resolver
import ResumableUpload.Fault.Call
import ResumableUpload.Fault.Io
import ResumableUpload.Fault.Kind
import ResumableUpload.Fault.Upload
import ResumableUpload.Fields
import ResumableUpload.Files
import ResumableUpload.Http.Address
import ResumableUpload.Http.Exchange
import ResumableUpload.Http.Status
import ResumableUpload.Json.Lexer
import ResumableUpload.Json.Reader
import ResumableUpload.Json.Record
import ResumableUpload.Json.Value
import ResumableUpload.Json.Writer
import ResumableUpload.Log
import ResumableUpload.Main
import ResumableUpload.Membership
import ResumableUpload.Message
import ResumableUpload.Plan.Basic
import ResumableUpload.Plan.Json
import ResumableUpload.Plan.Sizing
import ResumableUpload.Pool
import ResumableUpload.Proofs.Client.Acceptance
import ResumableUpload.Proofs.Client.Disclosure
import ResumableUpload.Proofs.CommandLine.Asked
import ResumableUpload.Proofs.CommandLine.Records
import ResumableUpload.Proofs.Digest.Reading
import ResumableUpload.Proofs.Digest.Stream
import ResumableUpload.Proofs.Digest.Whole
import ResumableUpload.Proofs.Endpoint.Course
import ResumableUpload.Proofs.Endpoint.Flight
import ResumableUpload.Proofs.Endpoint.Provenance
import ResumableUpload.Proofs.Endpoint.Sanctioned
import ResumableUpload.Proofs.Endpoint.Stale
import ResumableUpload.Proofs.Files.Folders
import ResumableUpload.Proofs.Files.Writing
import ResumableUpload.Proofs.Json.RoundTrip
import ResumableUpload.Proofs.Json.Tokens
import ResumableUpload.Proofs.Plan.Bookkeeping
import ResumableUpload.Proofs.Plan.Choice
import ResumableUpload.Proofs.Plan.Marking
import ResumableUpload.Proofs.Plan.Partition
import ResumableUpload.Proofs.Plan.Pieces
import ResumableUpload.Proofs.Plan.Search
import ResumableUpload.Proofs.Plan.Words
import ResumableUpload.Proofs.Pool.Accounting
import ResumableUpload.Proofs.Pool.Course
import ResumableUpload.Proofs.Pool.Draining
import ResumableUpload.Proofs.Pool.Halting
import ResumableUpload.Proofs.Pool.Trouble
import ResumableUpload.Proofs.Resume.Restored
import ResumableUpload.Proofs.Resume.Saved
import ResumableUpload.Proofs.Retry.Account
import ResumableUpload.Proofs.Retry.Law
import ResumableUpload.Proofs.Retry.Steps
import ResumableUpload.Proofs.Retry.Waits
import ResumableUpload.Proofs.Retry.Words
import ResumableUpload.Proofs.Session.Announcing
import ResumableUpload.Proofs.Session.Answers
import ResumableUpload.Proofs.Session.Attempts
import ResumableUpload.Proofs.Session.Bare
import ResumableUpload.Proofs.Session.Blame
import ResumableUpload.Proofs.Session.Chain
import ResumableUpload.Proofs.Session.Closing
import ResumableUpload.Proofs.Session.Commit
import ResumableUpload.Proofs.Session.Content
import ResumableUpload.Proofs.Session.Course
import ResumableUpload.Proofs.Session.Dealings
import ResumableUpload.Proofs.Session.Draining
import ResumableUpload.Proofs.Session.Evidence
import ResumableUpload.Proofs.Session.Failing
import ResumableUpload.Proofs.Session.Frame
import ResumableUpload.Proofs.Session.Handover
import ResumableUpload.Proofs.Session.Heirs
import ResumableUpload.Proofs.Session.History
import ResumableUpload.Proofs.Session.Hosts
import ResumableUpload.Proofs.Session.Hunting
import ResumableUpload.Proofs.Session.Kept
import ResumableUpload.Proofs.Session.Labour
import ResumableUpload.Proofs.Session.Ledger
import ResumableUpload.Proofs.Session.Lifecycle
import ResumableUpload.Proofs.Session.Lone
import ResumableUpload.Proofs.Session.Mishaps
import ResumableUpload.Proofs.Session.Once
import ResumableUpload.Proofs.Session.Order
import ResumableUpload.Proofs.Session.Own
import ResumableUpload.Proofs.Session.Parts
import ResumableUpload.Proofs.Session.Progress
import ResumableUpload.Proofs.Session.Reached
import ResumableUpload.Proofs.Session.Renewal
import ResumableUpload.Proofs.Session.Secrecy
import ResumableUpload.Proofs.Session.States
import ResumableUpload.Proofs.Session.Supplied
import ResumableUpload.Proofs.Session.Trace
import ResumableUpload.Proofs.Session.Transfer
import ResumableUpload.Proofs.Session.Work
import ResumableUpload.Proofs.Settings.Address
import ResumableUpload.Proofs.Settings.Defaulted
import ResumableUpload.Proofs.Settings.Restored
import ResumableUpload.Proofs.Text.Forms
import ResumableUpload.Proofs.Toml.Scalars
import ResumableUpload.Proofs.Toml.Strings
import ResumableUpload.Proofs.Toml.Tables
import ResumableUpload.Proofs.Word
import ResumableUpload.Rehearsal.Clockwork
import ResumableUpload.Rehearsal.Endpoint
import ResumableUpload.Rehearsal.Pool
import ResumableUpload.Rehearsal.Retry
import ResumableUpload.Rehearsal.Script
import ResumableUpload.Rehearsal.Session
import ResumableUpload.Resume
import ResumableUpload.Retry.Failure
import ResumableUpload.Retry.Loop
import ResumableUpload.Retry.Policy
import ResumableUpload.Session.Engine
import ResumableUpload.Session.Handle
import ResumableUpload.Session.Run
import ResumableUpload.Session.Target
import ResumableUpload.Session.Transfer
import ResumableUpload.Session.World
import ResumableUpload.Settings
import ResumableUpload.Settings.File
import ResumableUpload.Text.Hex
import ResumableUpload.Text.Percent
import ResumableUpload.Text.Printable
import ResumableUpload.Text.Quoted
import ResumableUpload.Text.Slashes
import ResumableUpload.Text.Utf8
import ResumableUpload.Toml.Draft
import ResumableUpload.Toml.Lexer
import ResumableUpload.Toml.Number
import ResumableUpload.Toml.Reader
import ResumableUpload.Toml.Record
import ResumableUpload.Toml.Value
import ResumableUpload.Toml.Writer
import ResumableUpload.Proofs.CommandLine.Sitting
