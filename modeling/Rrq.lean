import Rrq.Concurrent.Pool
import Rrq.Worker.Drain.Theorems
import Rrq.Worker.Execute.Theorems
import Rrq.Worker.Poll.Theorems
import Rrq.Worker.Routing.Theorems
import Rrq.Worker.Cron.Theorems
import Rrq.System.Exclusion
import Rrq.Wire.Theorems
import Rrq.Producer.Idempotency
import Rrq.Producer.Argv.Theorems
import Rrq.Runner.Connection.Theorems
import Rrq.Runner.Pool.Theorems
import Rrq.Protocol.Theorems
import Rrq.Dlq.Theorems
import Rrq.Runtime.TypeScript.Theorems
import Rrq.Runtime.Rust.Cleanup
import Rrq.Runtime.Rust.Responses
import Rrq.Runtime.Python.Theorems
import Rrq.Worker.Recover.Sweep
import Rrq.Unique.Lifetime
import Rrq.Unique.Ownership
import Rrq.Unique.Tick
import Rrq.Worker.Release.Theorems
import Rrq.Client.Coverage
import Rrq.Dlq.Hashes
import Rrq.System.Tracking.Theorems
import Rrq.System.Entries
import Rrq.System.Queueing
import Rrq.Producer.Debounce
import Rrq.Producer.Rejected
import Rrq.Producer.RateLimit
import Rrq.Producer.Waiting
import Rrq.Client.Atomic
import Rrq.Worker.Execute.Schedule
import Rrq.Worker.Execute.Tracking
import Rrq.Worker.Durations
import Rrq.Worker.Poll.Fair
import Rrq.Runner.Socket.Theorems
import Rrq.Config.Otlp
import Rrq.Config.TcpSocket.Theorems
import Rrq.CliUtils
import Rrq.Worker.Backoff
import Rrq.Protocol.Stream
import Rrq.Runtime.TypeScript.Parser
import Rrq.Runner.Socket.PortRange
import Rrq.Correlation.Theorems
import Rrq.Store.Serving
import Rrq.System.Announced
import Rrq.Worker.Capacity
import Rrq.System.Life
