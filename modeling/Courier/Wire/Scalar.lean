import Courier.Json.Codec
import Courier.OutboxEvent
import Courier.Time.Rfc3339

/-!
The written forms of single values: identifiers, moments, spans of time and the named states.
-/

namespace Courier.Wire

open Json

def uuid : Codec Uuid :=
  .parsed "a formatted UUID string"
    (fun s => (Uuid.ofText s).mapError fun f => "UUID parsing failed: " ++ f.message) Uuid.text

def instant : Codec Instant :=
  .parsed "an RFC 3339 formatted date and time string"
    (fun s => (Instant.ofText s).mapError Rfc3339.Fault.message) Instant.text

def medium : Codec Medium := .enumeration Medium.named Medium.name

def status : Codec Status := .enumeration Status.named Status.name

def outboxStatus : Codec OutboxStatus := .enumeration OutboxStatus.named OutboxStatus.name

/-- Spans are records of seconds and nanoseconds that tolerate no other field. Nanoseconds beyond
a second are carried over, as long as the seconds can take them. -/
def duration : Codec Duration :=
  .recordWith
    { expected := "struct Duration"
      expectedList := "struct Duration"
      unknown := fun name => Reader.failUnplaced (.unknownField name ["secs", "nanos"]) }
    (.cons (.required "secs" .uint64) (.cons (.required "nanos" .uint32) .nil))
    (fun (secs, nanos, _) =>
      let total := secs.toNat * 1_000_000_000 + nanos.toNat
      if h : total < 0x1_0000_0000_0000_0000 * 1_000_000_000 then .ok ⟨total, h⟩
      else .error "overflow deserializing Duration")
    (fun d => (UInt64.ofNat d.secs, UInt32.ofNat d.subsecNanos, ()))

end Courier.Wire
