import Courier.Config.Loading
import Courier.Json.Access
import Courier.KeyLock
import Courier.Proofs.Alone.Deferral
import Courier.Proofs.Alone.Reports
import Courier.Proofs.Alone.Sweeps
import Courier.Proofs.Alone.Transitions
import Courier.Proofs.Backoff
import Courier.Proofs.Bus
import Courier.Proofs.Consumer
import Courier.Proofs.Draining.Reprocessing
import Courier.Proofs.Draining.Termination
import Courier.Proofs.GuardedChannel
import Courier.Proofs.Intake.ExactlyOnce
import Courier.Proofs.LockRoom
import Courier.Proofs.MaskedUrl
import Courier.Proofs.Postponement
import Courier.Proofs.Publication
import Courier.Proofs.RateLimiter
import Courier.Proofs.Retention
import Courier.Proofs.RetrySettings
import Courier.Proofs.Runs.Burial
import Courier.Proofs.Runs.Closed
import Courier.Proofs.Runs.Finality
import Courier.Proofs.Store.Promises
import Courier.Proofs.TrackedKeys
import Courier.Proofs.Turns.Accounting
import Courier.Proofs.Turns.Lifecycle
import Courier.Proofs.Turns.Redelivery
import Courier.Query
import Courier.Supervisor
import Courier.Text.Hex
import Courier.Wire.Config
