import ChatRelay.Bridge.Callers
import ChatRelay.Bridge.Channel
import ChatRelay.Bridge.Client
import ChatRelay.Bridge.Failure
import ChatRelay.Bridge.Message
import ChatRelay.Bridge.Script
import ChatRelay.Bridge.Tasks
import ChatRelay.Bridge.ToolBridge
import ChatRelay.Bridge.Transport
import ChatRelay.Completion.Accumulator
import ChatRelay.Completion.Call
import ChatRelay.Completion.Delta
import ChatRelay.Completion.Endpoint
import ChatRelay.Completion.EventStream
import ChatRelay.Completion.Failure
import ChatRelay.Completion.Message
import ChatRelay.Completion.Provider
import ChatRelay.Completion.Response
import ChatRelay.Config.Environment
import ChatRelay.Config.Host
import ChatRelay.Config.Settings
import ChatRelay.Draws
import ChatRelay.Json.Basic
import ChatRelay.Json.Decode
import ChatRelay.Json.Reader
import ChatRelay.Json.Writer
import ChatRelay.Main
import ChatRelay.Number.Binary64
import ChatRelay.Number.Shortest
import ChatRelay.Proofs.Bridge.Answers
import ChatRelay.Proofs.Bridge.Asking
import ChatRelay.Proofs.Bridge.CatalogAgreement
import ChatRelay.Proofs.Bridge.Complaints
import ChatRelay.Proofs.Bridge.Dispatch
import ChatRelay.Proofs.Bridge.Listings
import ChatRelay.Proofs.Bridge.Noise
import ChatRelay.Proofs.Bridge.Owners
import ChatRelay.Proofs.Bridge.RequestMoves
import ChatRelay.Proofs.Bridge.SharedTransport
import ChatRelay.Proofs.Bridge.WholeTasks
import ChatRelay.Proofs.Completion.EventCut
import ChatRelay.Proofs.Completion.EventLines
import ChatRelay.Proofs.Completion.EventPieces
import ChatRelay.Proofs.Completion.LastEvent
import ChatRelay.Proofs.Completion.NamePolicies
import ChatRelay.Proofs.Completion.NullMembers
import ChatRelay.Proofs.Completion.PerIndex
import ChatRelay.Proofs.Completion.ReadDeltas
import ChatRelay.Proofs.Completion.Shapes
import ChatRelay.Proofs.Completion.Strands
import ChatRelay.Proofs.Completion.StreamedWhole
import ChatRelay.Proofs.Config.Expansion
import ChatRelay.Proofs.Config.Placeholders
import ChatRelay.Proofs.Json.LeftOut
import ChatRelay.Proofs.Json.Meaning
import ChatRelay.Proofs.Json.Numbers
import ChatRelay.Proofs.Json.Records
import ChatRelay.Proofs.Json.RoundTrip
import ChatRelay.Proofs.Json.Values
import ChatRelay.Proofs.Service.Envelopes
import ChatRelay.Proofs.Service.Exchanges
import ChatRelay.Proofs.Service.Refusals
import ChatRelay.Proofs.Session.Commits
import ChatRelay.Proofs.Session.CrashRecovery
import ChatRelay.Proofs.Session.FailureCauses
import ChatRelay.Proofs.Session.HandlerModels
import ChatRelay.Proofs.Session.Moves
import ChatRelay.Proofs.Session.NormalSettings
import ChatRelay.Proofs.Session.Operations
import ChatRelay.Proofs.Session.RefusedInput
import ChatRelay.Proofs.Session.SentReplies
import ChatRelay.Proofs.Session.SessionModels
import ChatRelay.Proofs.Session.SessionRecords
import ChatRelay.Proofs.Session.SessionRows
import ChatRelay.Proofs.Session.StoredCalls
import ChatRelay.Proofs.Session.StreamedText
import ChatRelay.Proofs.Session.TurnClosing
import ChatRelay.Proofs.Session.TurnLock
import ChatRelay.Proofs.Session.TurnModels
import ChatRelay.Proofs.Session.TurnPairs
import ChatRelay.Proofs.Session.TurnRequests
import ChatRelay.Proofs.Session.TurnStanding
import ChatRelay.Proofs.Session.WireTypes
import ChatRelay.Proofs.Startup.Credentials
import ChatRelay.Proofs.Startup.FailedLaunch
import ChatRelay.Proofs.Startup.LiveEndpoints
import ChatRelay.Proofs.Text.Decoding
import ChatRelay.Proofs.Text.Encoding
import ChatRelay.Proofs.Text.Leads
import ChatRelay.Proofs.Text.StrictTexts
import ChatRelay.Proofs.Text.Truncation
import ChatRelay.Proofs.Tools.Pages
import ChatRelay.Proofs.Turn.Chunks
import ChatRelay.Proofs.Turn.Effects
import ChatRelay.Proofs.Turn.FreshValues
import ChatRelay.Proofs.Turn.OfferedTools
import ChatRelay.Proofs.Turn.Outcomes
import ChatRelay.Proofs.Turn.RequestContext
import ChatRelay.Proofs.Turn.Requests
import ChatRelay.Proofs.Turn.SimulatedTurns
import ChatRelay.Proofs.Turn.Stages
import ChatRelay.Proofs.Turn.SteadyTools
import ChatRelay.Proofs.Turn.WellFormedCalls
import ChatRelay.Service.Payload
import ChatRelay.Service.Respond
import ChatRelay.Service.Route
import ChatRelay.Session.Agent
import ChatRelay.Session.Database
import ChatRelay.Session.Delivery
import ChatRelay.Session.Failure
import ChatRelay.Session.Interleaving
import ChatRelay.Session.State
import ChatRelay.Session.Store
import ChatRelay.Startup.Launch
import ChatRelay.Startup.Relay
import ChatRelay.Text.Blank
import ChatRelay.Text.LetterCase
import ChatRelay.Text.Utf8
import ChatRelay.Text.Utf8Fault
import ChatRelay.Tools.Catalog
import ChatRelay.Tools.Executor
import ChatRelay.Tools.Result
import ChatRelay.Tools.Search
import ChatRelay.Turn.Context
import ChatRelay.Turn.Handler
import ChatRelay.Turn.Script
import ChatRelay.Turn.Simulation
import ChatRelay.Web.Exchange
import ChatRelay.Web.SocketAddress
import ChatRelay.Web.Url
import ChatRelay.World
import ChatRelay.Yaml.Cursor
import ChatRelay.Yaml.Decode
import ChatRelay.Yaml.Node
import ChatRelay.Yaml.Scalar
import ChatRelay.Yaml.Token
