import DurableTask.RuntimeState.Dedup
import DurableTask.Api.Propagation
import DurableTask.Task.Replayable
import DurableTask.Backend.Sqlite.Started
import DurableTask.Task.Detached
import DurableTask.Task.Generated
import DurableTask.Backend.Sqlite.Fifo
import DurableTask.Backend.Sqlite.Records
import DurableTask.Backend.Sqlite.Renewal
import DurableTask.Backend.Sqlite.Cascade
import DurableTask.Backend.Sqlite.Isolation
import DurableTask.Backend.Affinity
import DurableTask.Backend.Worker
import DurableTask.Client.Budget
import DurableTask.Client.Stateful
import DurableTask.Backend.Fencing
import DurableTask.Task.PendingIDs
import DurableTask.Task.Retry
import DurableTask.Task.Confluence
import DurableTask.Task.Carryover
