import Courier.Proofs.Json.Records
import Courier.Proofs.Json.Yields
import Courier.Proofs.Time.Rfc3339
import Courier.Proofs.Uuid
import Courier.Wire.Envelope

/-!
What travels on the bus arrives as it was sent, as far as its texts can tell. Every notification is
read back from its envelope with all its fields, whatever its texts and counts are, and with its
moments, unless one of them has no text of its own: then it is read as the one whose text it has.
Envelopes are also read from texts that no envelope is written as, with blanks, unknown fields,
other escapes or lists for objects; what is read from those can be written and read again. Reports
on what cannot be read arrive in the same way.
-/

namespace Courier

/-! ## What can be told of a notification -/

namespace Notification

/-- The moments that a notification holds. -/
def moments (n : Notification) : List Instant :=
  n.nextRetryAt.toList ++ [n.createdAt, n.updatedAt]

/-- A notification with its moments as their texts tell them. -/
def told (n : Notification) : Notification :=
  { n with
    nextRetryAt := n.nextRetryAt.map Instant.told
    createdAt := n.createdAt.told
    updatedAt := n.updatedAt.told }

variable {n : Notification}

theorem forall_mem_moments {P : Instant → Prop} :
    (∀ t ∈ n.moments, P t) ↔ (∀ t ∈ n.nextRetryAt, P t) ∧ P n.createdAt ∧ P n.updatedAt := by
  simp [moments, or_imp, forall_and]

theorem isTold_told (n : Notification) : ∀ t ∈ n.told.moments, t.IsTold := by
  rw [forall_mem_moments]
  refine ⟨fun t ht => ?_, n.createdAt.isTold_told, n.updatedAt.isTold_told⟩
  obtain ⟨next, -, rfl⟩ := Option.map_eq_some_iff.mp ht
  exact next.isTold_told

theorem told_eq_self (h : ∀ t ∈ n.moments, t.IsTold) : n.told = n := by
  obtain ⟨hnext, hcreated, hupdated⟩ := forall_mem_moments.mp h
  have hmap : n.nextRetryAt.map Instant.told = n.nextRetryAt := by
    cases hvalue : n.nextRetryAt with
    | none => rfl
    | some t => exact congrArg some (Instant.told_eq_self (hnext t hvalue))
  rw [told, hmap, Instant.told_eq_self hcreated, Instant.told_eq_self hupdated]

theorem told_eq_self_iff : n.told = n ↔ ∀ t ∈ n.moments, t.IsTold :=
  ⟨fun h => h ▸ n.isTold_told, told_eq_self⟩

end Notification

namespace Wire

open Json

theorem uuid_readsBack (u : Uuid) : uuid.ReadsBack u :=
  Codec.readsBack_parsed (by rw [Uuid.ofText_text]; rfl)

theorem instant_readsBack {t : Instant} (h : t.IsTold) : instant.ReadsBack t :=
  Codec.readsBack_parsed (by rw [Instant.ofText_text, Instant.told_eq_self h]; rfl)

theorem medium_readsBack (m : Medium) : medium.ReadsBack m :=
  Codec.readsBack_enumeration (by cases m <;> decide)

theorem status_readsBack (s : Status) : status.ReadsBack s :=
  Codec.readsBack_enumeration (by cases s <;> decide)

/-- A required field gives every value back that its codec does. -/
private theorem required_readBack {α : Type} {codec : Codec α} {a : α} (name : String)
    (h : codec.ReadsBack a) :
    if (Field.required name codec).omitted a then (Field.required name codec).absent = some a
    else (Field.required name codec).codec.ReadsBack a := by
  rw [if_neg (by exact Bool.false_ne_true)]
  exact h

/-- An optional field gives a value back, and gives nothing back if it was left out. -/
private theorem optional_readBack {α : Type} {codec : Codec α} {value : Option α} (name : String)
    (h : ∀ a ∈ value, codec.ReadsBack a) :
    if (Field.optional name codec).omitted value then
      (Field.optional name codec).absent = some value
    else (Field.optional name codec).codec.ReadsBack value := by
  cases value with
  | none => rfl
  | some a => exact Codec.readsBack_some (h a rfl)

theorem carriedNotification_readsBack {n : Notification} (h : ∀ t ∈ n.moments, t.IsTold) :
    carriedNotification.ReadsBack n := by
  obtain ⟨hnext, hcreated, hupdated⟩ := Notification.forall_mem_moments.mp h
  have hstring (value : Option String) : ∀ s ∈ value, Codec.string.ReadsBack s :=
    fun s _ => Codec.readsBack_string s
  refine Codec.readsBack_record (by decide) ?_ rfl
  exact ⟨required_readBack _ (uuid_readsBack _), required_readBack _ (medium_readsBack _),
    required_readBack _ (Codec.readsBack_string _), required_readBack _ (Codec.readsBack_string _),
    required_readBack _ (Codec.readsBack_string _), required_readBack _ (Codec.readsBack_string _),
    required_readBack _ (status_readsBack _), required_readBack _ (Codec.readsBack_uint32 _),
    optional_readBack _ (hstring _), optional_readBack _ (hstring _),
    optional_readBack _ (hstring _), optional_readBack _ fun b _ => Codec.readsBack_boolean b,
    optional_readBack _ fun t ht => instant_readsBack (hnext t ht),
    required_readBack _ (instant_readsBack hcreated),
    required_readBack _ (instant_readsBack hupdated), trivial⟩

/-- A notification is written like the one that is told of it. -/
theorem write_told (n : Notification) :
    carriedNotification.write n.told = carriedNotification.write n := by
  have hinstant (t : Instant) : instant.write t.told = instant.write t :=
    congrArg quote t.text_told
  have hnext (value : Option Instant) :
      (value.map Instant.told).isNone = value.isNone ∧
        instant.optional.write (value.map Instant.told) = instant.optional.write value := by
    cases value with
    | none => exact ⟨rfl, rfl⟩
    | some t => exact ⟨rfl, hinstant t⟩
  exact Codec.write_record ⟨⟨rfl, rfl⟩, ⟨rfl, rfl⟩, ⟨rfl, rfl⟩, ⟨rfl, rfl⟩, ⟨rfl, rfl⟩, ⟨rfl, rfl⟩,
    ⟨rfl, rfl⟩, ⟨rfl, rfl⟩, ⟨rfl, rfl⟩, ⟨rfl, rfl⟩, ⟨rfl, rfl⟩, ⟨rfl, rfl⟩, hnext _,
    ⟨rfl, hinstant _⟩, ⟨rfl, hinstant _⟩, trivial⟩

/-- What is read of a moment can be told. -/
theorem isTold_of_yields {t : Instant} (h : instant.Yields t) : t.IsTold := by
  obtain ⟨s, hs⟩ := Codec.exists_of_yields_parsed h
  cases hread : Instant.ofText s with
  | error fault =>
      rw [hread] at hs
      exact nomatch hs
  | ok t' =>
      rw [hread] at hs
      obtain rfl := Except.ok.inj hs
      exact Instant.isTold_of_ofText hread

theorem moments_isTold_of_yields {n : Notification} (h : carriedNotification.Yields n) :
    ∀ t ∈ n.moments, t.IsTold := by
  obtain ⟨values, hvalues, rfl⟩ := Codec.exists_of_yields_record h
  obtain ⟨-, -, -, -, -, -, -, -, -, -, -, -, hnext, hcreated, hupdated, -⟩ := hvalues
  exact Notification.forall_mem_moments.mpr
    ⟨fun t ht => isTold_of_yields (Field.yields_of_optional hnext t ht),
      isTold_of_yields (Field.yields_of_required hcreated),
      isTold_of_yields (Field.yields_of_required hupdated)⟩

end Wire

/-- The milliseconds of any moment fit the field they are written to. -/
theorem Instant.timestampMillis_bounds (t : Instant) :
    -2 ^ 63 ≤ t.timestampMillis ∧ t.timestampMillis ≤ 2 ^ 63 - 1 := by
  have hfirst := t.first_le
  have hlast := t.le_last
  have hfrac := t.frac_lt
  unfold timestampMillis
  omega

/-! ## Envelopes -/

namespace Envelope

theorem codec_readsBack {e : Envelope} (htold : ∀ t ∈ e.notification.moments, t.IsTold)
    (hlow : -2 ^ 63 ≤ e.timestamp) (hhigh : e.timestamp ≤ 2 ^ 63 - 1) : codec.ReadsBack e := by
  refine Json.Codec.readsBack_record (by decide) ?_ rfl
  exact ⟨Wire.required_readBack _ (Json.Codec.readsBack_string _),
    Wire.required_readBack _ (Wire.carriedNotification_readsBack htold),
    Wire.required_readBack _ (Json.Codec.readsBack_int64 hlow hhigh), trivial⟩

theorem decode_encode {e : Envelope} (htold : ∀ t ∈ e.notification.moments, t.IsTold)
    (hlow : -2 ^ 63 ≤ e.timestamp) (hhigh : e.timestamp ≤ 2 ^ 63 - 1) :
    decode (encode e) = .ok e := by
  rw [decode, encode, Json.Codec.decode_write (codec_readsBack htold hlow hhigh)]
  rfl

theorem encode_told (n : Notification) (now : Instant) :
    (ofNotification n.told now).encode = (ofNotification n now).encode :=
  Json.Codec.write_record ⟨⟨rfl, rfl⟩, ⟨rfl, Wire.write_told n⟩, ⟨rfl, rfl⟩, trivial⟩

/-- What is sent of a notification at any moment is read back as it can be told. -/
theorem decode_ofNotification (n : Notification) (now : Instant) :
    decode (ofNotification n now).encode = .ok (ofNotification n.told now) := by
  obtain ⟨hlow, hhigh⟩ := now.timestampMillis_bounds
  rw [← encode_told]
  exact decode_encode n.isTold_told hlow hhigh

/-- The moments of an envelope that was read can be told, and its milliseconds fit the field they
are written to. -/
theorem bounds_of_decode {bytes : Bytes} {e : Envelope} (h : decode bytes = .ok e) :
    (∀ t ∈ e.notification.moments, t.IsTold) ∧
      -2 ^ 63 ≤ e.timestamp ∧ e.timestamp ≤ 2 ^ 63 - 1 := by
  have hcodec : codec.decode bytes = .ok e := by
    unfold decode at h
    cases hdecode : codec.decode bytes with
    | error fault =>
        rw [hdecode] at h
        exact nomatch h
    | ok e' =>
        rw [hdecode] at h
        exact congrArg Except.ok (Except.ok.inj h)
  obtain ⟨⟨eventType, n, timestamp, -⟩, ⟨-, hn, htimestamp, -⟩, rfl⟩ :=
    Json.Codec.exists_of_yields_record (Json.Codec.yields_of_decode hcodec)
  obtain ⟨i, hlow, hhigh, rfl⟩ :=
    Json.Codec.exists_of_yields_integer (Json.Field.yields_of_required htimestamp)
  exact ⟨Wire.moments_isTold_of_yields (Json.Field.yields_of_required hn), hlow, hhigh⟩

/-- Envelopes are read back as they were written: those of a notification at any moment with the
kind of event and the moment in milliseconds, and with the notification as it can be told. That is
the notification itself just if none of its moments lies in the second half of a leap second
elsewhere than at the end of a minute. Those that were themselves read, from whatever text that
was, are read again as they are. -/
theorem round_trips :
    (∀ (n : Notification) (now : Instant), ∃ e,
      decode (ofNotification n now).encode = .ok e ∧ e.notification = n.told ∧
        (e.notification = n ↔ ∀ t ∈ n.moments, 1_000_000_000 ≤ t.frac → t.secs % 60 = 59) ∧
        e.eventType = "NOTIFICATION" ∧ e.timestamp = now.timestampMillis) ∧
    ∀ (bytes : Bytes) (e : Envelope), decode bytes = .ok e → decode e.encode = .ok e := by
  refine ⟨fun n now => ⟨_, decode_ofNotification n now, rfl, ?_, rfl, rfl⟩, fun bytes e h => ?_⟩
  · exact Notification.told_eq_self_iff
  · obtain ⟨htold, hlow, hhigh⟩ := bounds_of_decode h
    exact decode_encode htold hlow hhigh

/-- A notification to be tried again a second and a half after second 58 of a minute began, and
before second 59. -/
private def lingering : Notification :=
  { Notification.ofRequest ⟨.email, "ada@example.com", "shop", "hello", "order"⟩ .nil .epoch with
    nextRetryAt := some ⟨58, 1_500_000_000, by decide, by decide, by decide⟩ }

/-- It is read back as one to be tried again in the middle of second 59. -/
theorem lingering_not_round_trips :
    ¬ ∀ (n : Notification) (now : Instant), ∃ e,
      decode (ofNotification n now).encode = .ok e ∧ e.notification = n := by
  intro h
  obtain ⟨e, hdecode, hsame⟩ := h lingering .epoch
  have hread : (decode (ofNotification lingering .epoch).encode).toOption.map
      (·.notification.nextRetryAt.map (·.secs)) = some (some 59) := by decide +kernel
  rw [hdecode] at hread
  have hsecs : e.notification.nextRetryAt.map (·.secs) = some 59 := Option.some.inj hread
  rw [hsame] at hsecs
  exact absurd hsecs (by decide)

/-- An envelope as others may write it: the entries in another order, with blanks, one entry that
is not known, and the notification as a list, which ends before the fields that it need not give. -/
private def foreign : Bytes := Bytes.ofString
  "\x7b \"timestamp\" : -5, \"x\": [1e9, null], \"notification\": [
    \"67E5504410B1426F9247BB680E5FE0C8\", \"EMAIL\", \"\\u00e9\", \"c\", \"p\", \"k\", \"SENT\", 3,
    null, null, null, false, null, \"2016-12-31T23:59:60.5Z\", \"-0042-01-01t00:00:00+01:00\"],
    \"eventType\": \"OTHER\" \x7d"

/-- Such an envelope is not written as it was read, and is read again as it was. -/
theorem round_trips_foreign :
    ∃ e, decode foreign = .ok e ∧ e.encode ≠ foreign ∧ decode e.encode = .ok e := by
  have hread : ∃ e ∈ (decode foreign).toOption, e.encode ≠ foreign := by decide +kernel
  obtain ⟨e, he, hne⟩ := hread
  have hdecode : decode foreign = .ok e := by
    cases h : decode foreign with
    | error fault =>
        rw [h] at he
        exact nomatch he
    | ok e' =>
        rw [h] at he
        exact congrArg Except.ok (Option.some.inj he)
  exact ⟨e, hdecode, hne, round_trips.2 foreign e hdecode⟩

end Envelope

namespace UnreadableReport

theorem codec_readsBack {r : UnreadableReport}
    (hpartition : -2 ^ 31 ≤ r.sourcePartition ∧ r.sourcePartition ≤ 2 ^ 31 - 1)
    (hoffset : -2 ^ 63 ≤ r.sourceOffset ∧ r.sourceOffset ≤ 2 ^ 63 - 1)
    (htimestamp : -2 ^ 63 ≤ r.timestamp ∧ r.timestamp ≤ 2 ^ 63 - 1) : codec.ReadsBack r := by
  refine Json.Codec.readsBack_record (by decide) ?_ rfl
  exact ⟨Wire.required_readBack _ (Json.Codec.readsBack_string _),
    Wire.required_readBack _ (Json.Codec.readsBack_string _),
    Wire.required_readBack _ (Json.Codec.readsBack_int32 hpartition.1 hpartition.2),
    Wire.required_readBack _ (Json.Codec.readsBack_int64 hoffset.1 hoffset.2),
    Wire.required_readBack _ (Json.Codec.readsBack_string _),
    Wire.required_readBack _ (Json.Codec.readsBack_int64 htimestamp.1 htimestamp.2), trivial⟩

/-- What is reported on a message is read back as it was, whatever the message consists of. -/
theorem decode_ofPayload (topic : String) {partition offset : Int} (payload : Bytes) (now : Instant)
    (hpartition : -2 ^ 31 ≤ partition ∧ partition ≤ 2 ^ 31 - 1)
    (hoffset : -2 ^ 63 ≤ offset ∧ offset ≤ 2 ^ 63 - 1) :
    codec.decode (ofPayload topic partition offset payload now).encode =
      .ok (ofPayload topic partition offset payload now) :=
  Json.Codec.decode_write (codec_readsBack hpartition hoffset now.timestampMillis_bounds)

end UnreadableReport
end Courier
