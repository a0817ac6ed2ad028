import LabBridge.Library.Json
import LabBridge.Server.Timestamps
import Mathlib.Data.List.TakeWhile

/-!
# The libraries the server runs on

PostgreSQL, the JSON library and the digest are code outside the repository. `Postgres`
names what the statements use of the database: the encoding it accepts and the casts to the
column types. A cast that answers `none` stands for a statement the database refuses. The
laws are documented behaviour; nothing else is assumed about a cast.
-/

namespace LabBridge.Server

open ByteText JsonText

/-- A stored instant, as a number of ticks from a fixed origin. -/
abbrev Timestamp := ℤ

/-- The database as its statements see it. -/
structure Postgres where
  /-- Whether a text is valid in the encoding of the database. -/
  validText : Bytes → Bool
  /-- `$1::bigint`. -/
  bigint : Bytes → Option ℤ
  /-- `$1::timestamptz`. -/
  timestamptz : Bytes → Option Timestamp
  /-- The text of an instant as the storage mapping reads it. -/
  utcText : Timestamp → Bytes
  /-- `$1::jsonb`, as the text it is read back with. -/
  jsonb : Bytes → Option Bytes
  /-- A text stored in a `VARCHAR` column of the given length. -/
  varchar : ℕ → Bytes → Option Bytes
  validText_ascii : ∀ {value : Bytes}, (∀ b ∈ value, 0 < b ∧ b < 128) → validText value = true
  validText_append : ∀ {first second : Bytes}, validText first = true →
    validText second = true → validText (first ++ second) = true
  bigint_decimal : ∀ id : ℕ, id < 2 ^ 63 → bigint (decimal id) = some id
  bigint_empty : bigint [] = none
  timestamptz_rfc3339 : ∀ {value : Bytes}, isRfc3339Utc value = true →
    ∃ instant, timestamptz value = some instant ∧ utcText instant = value
  varchar_short : ∀ {value : Bytes} {limit : ℕ}, value.length ≤ limit →
    varchar limit value = some value

/-- The bytes of a zero-terminated string. -/
def cString (value : Bytes) : Bytes := value.takeWhile fun b => b != 0

namespace Postgres

variable (pg : Postgres)

/-- The text that arrives for a parameter. The session hands parameters over as
zero-terminated strings, and the database refuses a text it cannot decode. -/
def receive (value : Bytes) : Option Bytes :=
  if pg.validText (cString value) then some (cString value) else none

/-- What arrives is the zero-terminated string. -/
theorem eq_cString_of_receive {value received : Bytes} (h : pg.receive value = some received) :
    received = cString value := by
  unfold receive at h
  split at h
  · exact (Option.some.inj h).symm
  · cases h

/-- A received text is not longer than what was sent. -/
theorem length_le_of_receive {value received : Bytes} (h : pg.receive value = some received) :
    received.length ≤ value.length := by
  rw [pg.eq_cString_of_receive h]
  exact (List.takeWhile_prefix _).length_le

/-- Plain ASCII arrives as it was sent. -/
theorem receive_ascii {value : Bytes} (h : ∀ b ∈ value, 0 < b ∧ b < 128) :
    pg.receive value = some value := by
  have hcut : cString value = value := by
    refine List.takeWhile_eq_self_iff.mpr fun b hb => ?_
    simpa using (UInt8.ne_of_lt (h b hb).1).symm
  simp [receive, hcut, pg.validText_ascii h]

/-- A received text arrives again as it is. -/
theorem receive_receive {value received : Bytes} (h : pg.receive value = some received) :
    pg.receive received = some received := by
  have hcut : cString (cString value) = cString value := List.takeWhile_idem
  unfold receive at h ⊢
  split at h
  · cases h
    rw [hcut]
    simp [*]
  · cases h

end Postgres

/-- A lower-case hexadecimal SHA-256 digest. -/
structure Digest where
  hex : Bytes
  length_hex : hex.length = 64
  ascii : ∀ b ∈ hex, 0 < b ∧ b < 128

/-- The libraries of one server process. -/
structure Runtime where
  postgres : Postgres
  json : JsonCodec
  sha256 : Bytes → Digest

end LabBridge.Server
