import Courier.Notification

/-!
What can go wrong, by cause. Store errors come from keeping records and from reading values;
delivery errors from everything between a request and its delivery. Each has a text, and delivery
errors a category. A delivery error may be a failed attempt, which counts against the
notification, or fatal, which ends the worker that meets it.
-/

namespace Courier

/-- An error of the store, or of a value that cannot be read. -/
inductive StoreError where
  | database (message : String)
  | notFound (message : String)
  | constraintViolation (message : String)
  | invalidInput (message : String)
  | serialization (message : String)
  deriving DecidableEq, Repr

namespace StoreError

def message : StoreError → String
  | .database m => "Database error: " ++ m
  | .notFound m => "Not found: " ++ m
  | .constraintViolation m => "Constraint violation: " ++ m
  | .invalidInput m => "Invalid input: " ++ m
  | .serialization m => "Serialization error: " ++ m

/-- The cause by name. -/
def kind : StoreError → String
  | .database _ => "Database"
  | .notFound _ => "NotFound"
  | .constraintViolation _ => "ConstraintViolation"
  | .invalidInput _ => "InvalidInput"
  | .serialization _ => "Serialization"

/-- The error of a cause named so. -/
def ofKind? (kind message : String) : Option StoreError :=
  [database message, notFound message, constraintViolation message, invalidInput message,
    serialization message].find? (·.kind == kind)

/-- Whether the store refused a record that conflicts with another. -/
def isConstraintViolation : StoreError → Bool
  | .constraintViolation _ => true
  | _ => false

end StoreError

/-- The constraint that a database says was broken. -/
inductive Constraint where
  | unique
  | foreignKey
  | check
  | notNull
  | other
  deriving DecidableEq, Repr

/-- What a database connection reports. -/
inductive DatabaseFault where
  | rowNotFound
  | poolTimedOut
  | poolClosed
  | workerCrashed
  | protocol (message : String)
  | configuration (message : String)
  | io (message : String)
  | columnNotFound (name : String)
  | decode (message : String)
  | columnDecode (index message : String)
  | database (constraint : Constraint) (message : String)
  deriving DecidableEq, Repr

/-- A report of the database as an error of the store. Broken constraints that a record can cause
are told apart from failures of the database itself. -/
def StoreError.ofDatabaseFault : DatabaseFault → StoreError
  | .rowNotFound => .notFound "requested entity not found"
  | .poolTimedOut => .database "pool timed out while waiting for an open connection"
  | .poolClosed => .database "attempted to acquire a connection on a closed pool"
  | .workerCrashed => .database "attempted to communicate with a crashed background worker"
  | .protocol m => .database ("encountered unexpected or invalid data: " ++ m)
  | .configuration m => .database ("error with configuration: " ++ m)
  | .io m => .database ("error communicating with database: " ++ m)
  | .columnNotFound name => .database ("no column found for name: " ++ name)
  | .decode m => .database ("error occurred while decoding: " ++ m)
  | .columnDecode index m => .serialization s!"column {index}: {m}"
  | .database .unique m => .constraintViolation ("unique constraint violation: " ++ m)
  | .database .foreignKey m => .constraintViolation ("foreign key constraint violation: " ++ m)
  | .database .check m => .constraintViolation ("check constraint violation: " ++ m)
  | .database _ m => .database ("error returned from database: " ++ m)

/-- The value with a name, or the error that there is none. -/
def lookupName {α : Type} (what : String) (named : List (String × α)) (name : String) :
    Except StoreError α :=
  match named.lookup name with
  | some a => .ok a
  | none => .error (.invalidInput s!"invalid {what}: {name}")

inductive Category where
  | admission
  | delivery
  | configuration
  | storage
  | messaging
  | integrity
  | internal
  deriving DecidableEq, Repr

def Category.name : Category → String
  | .admission => "ADMISSION"
  | .delivery => "DELIVERY"
  | .configuration => "CONFIGURATION"
  | .storage => "STORAGE"
  | .messaging => "MESSAGING"
  | .integrity => "INTEGRITY"
  | .internal => "INTERNAL"

/-- An error between a request and its delivery. -/
inductive DeliveryError where
  | rateLimited (key : String)
  | invalidPayload (message : String)
  | network (message : String)
  | httpStatus (code : Nat) (body : String)
  | timeout (millis : Nat)
  | circuitOpen (channel : String)
  | channel (message : String)
  | noChannel (medium : Medium)
  | configuration (message : String)
  | storage (message : String)
  | publish (topic message : String)
  | deserialization (message : String)
  | integrity (message : String)
  | workerPanic (worker : Nat) (error : String)
  | shutdownTimeout (budget : Duration)
  deriving DecidableEq

namespace DeliveryError

/-- The error of a call that outlasts its budget, told in whole milliseconds. -/
def timedOut (budget : Duration) : DeliveryError :=
  .timeout (min budget.millis 0xffff_ffff_ffff_ffff)

def message : DeliveryError → String
  | .rateLimited key => s!"rate limit exceeded for {key}"
  | .invalidPayload m => s!"invalid payload: {m}"
  | .network m => s!"network connection failed: {m}"
  | .httpStatus code _ => s!"unexpected HTTP status {code}"
  | .timeout millis => s!"channel call timed out after {millis}ms"
  | .circuitOpen c => s!"circuit breaker open for channel {c}"
  | .channel m => s!"channel failure: {m}"
  | .noChannel medium => s!"no channel registered for notification type {medium.name}"
  | .configuration m => s!"configuration error: {m}"
  | .storage m => s!"storage error: {m}"
  | .publish topic m => s!"failed to publish to {topic}: {m}"
  | .deserialization m => s!"failed to decode message: {m}"
  | .integrity m => s!"data integrity violation: {m}"
  | .workerPanic worker e => s!"worker {worker} panicked: {e}"
  | .shutdownTimeout budget => s!"shutdown timed out after {budget.text}"

def kind : DeliveryError → String
  | .rateLimited _ => "RateLimited"
  | .invalidPayload _ => "InvalidPayload"
  | .network _ => "Network"
  | .httpStatus _ _ => "HttpStatus"
  | .timeout _ => "Timeout"
  | .circuitOpen _ => "CircuitOpen"
  | .channel _ => "Channel"
  | .noChannel _ => "NoChannel"
  | .configuration _ => "Configuration"
  | .storage _ => "Storage"
  | .publish _ _ => "Publish"
  | .deserialization _ => "Deserialization"
  | .integrity _ => "Integrity"
  | .workerPanic _ _ => "WorkerPanic"
  | .shutdownTimeout _ => "ShutdownTimeout"

def category : DeliveryError → Category
  | .rateLimited _ => .admission
  | .invalidPayload _ | .network _ | .httpStatus _ _ | .timeout _ | .circuitOpen _
  | .channel _ => .delivery
  | .noChannel _ | .configuration _ => .configuration
  | .storage _ => .storage
  | .publish _ _ | .deserialization _ => .messaging
  | .integrity _ => .integrity
  | .workerPanic _ _ | .shutdownTimeout _ => .internal

/-- Whether the error is a failed attempt to deliver, to be retried or given up. -/
def isDeliveryFailure : DeliveryError → Bool
  | .invalidPayload _ | .network _ | .httpStatus _ _ | .timeout _ | .circuitOpen _
  | .channel _ => true
  | _ => false

/-- Whether going on makes no sense. -/
def isFatal : DeliveryError → Bool
  | .noChannel _ | .configuration _ | .integrity _ => true
  | _ => false

/-- The error as it is recorded on a notification. -/
def failure (e : DeliveryError) : Failure := ⟨e.message, e.category.name⟩

/-- A store error met on the way of a delivery. -/
def ofStore (e : StoreError) : DeliveryError := .storage e.message

end DeliveryError
end Courier
