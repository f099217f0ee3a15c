import Troupe.Store.Pipeline
import Troupe.Store.Accumulation
import Troupe.Store.CueCapture
import Troupe.Store.Progress
import Troupe.Server.Stream
import Troupe.Server.Handoff
import Troupe.Sink.Seal
import Troupe.Sink.Eviction
import Troupe.Query.Events
import Troupe.Agent.Schema.Agreement
import Troupe.Agent.Schema.Unambiguous
import Troupe.Agent.Result.Issues
import Troupe.Agent.Result.ReadLimits
import Troupe.Agent.Session.FrameReader
import Troupe.Agent.Diagnostics.Tool
import Troupe.Agent.Diagnostics.MessageEvents
import Troupe.Agent.Diagnostics.PayloadExact
import Troupe.Orchestration.ActorRegistry
import Troupe.Runtime.UsageRuns
import Troupe.Web.Live
import Troupe.Web.State.Windows
import Troupe.Web.State.Freshness
import Troupe.Web.State.Pausing
import Troupe.Perfetto.Identities
import Troupe.Perfetto.Exactness
import Troupe.Perfetto.Dumped
import Troupe.Cli.Following
import Troupe.Cli.SseDecoding
import Troupe.Cli.CleanupSelection
