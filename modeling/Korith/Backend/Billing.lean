import Korith.Lib.Calendar
import Korith.Lib.FloatArith
import Korith.Lib.Python
import Korith.Platform.Coordinator

/-!
# Metering and billing

A client reports how many tokens it has processed (`ingest_metrics`), with a timestamp of its own. The summary of a customer
adds up the reports of its keys that lie in the month of today (`billing_summary`) and charges ten cents for a million
tokens, of trial keys only for those above ten million.

Times are in UTC without a time zone. The arithmetic is exact. Of a report only what the summary reads is kept, and of the
summary the savings are left out.
-/

namespace Korith.Billing

open Coordinator (Text Strings)

inductive Tier
  | trial
  | standard
  | enterprise
  deriving DecidableEq

inductive Status
  | trial
  | active
  | revoked
  deriving DecidableEq

structure ApiKey where
  id : Nat
  customerId : Nat
  key : Text
  status : Status
  tier : Tier
  expiresAt : Option DateTime

abbrev Keys : Type := Table Nat ApiKey ApiKey.id

structure Metric where
  apiKeyId : Nat
  timestamp : DateTime
  tokensProcessed : Int

/-! ### Reports -/

inductive Field
  | apiKey
  | timestamp
  | intervalSeconds
  | tokensProcessed
  | prefixSkipped
  | decodeAccelerated
  | amfHitRate
  | specAcceptanceRate
  | effectiveTps
  | baselineTps
  | computeSavedPct
  | gpuCount
  | modelFamily
  | modelSizeBucket
  | adapterType
  | sdkVersion
  | licenseId
  | heartbeat
  deriving DecidableEq

def Field.name : Field → String
  | apiKey => "api_key"
  | timestamp => "timestamp"
  | intervalSeconds => "interval_seconds"
  | tokensProcessed => "tokens_processed"
  | prefixSkipped => "prefix_skipped"
  | decodeAccelerated => "decode_accelerated"
  | amfHitRate => "amf_hit_rate"
  | specAcceptanceRate => "spec_acceptance_rate"
  | effectiveTps => "effective_tps"
  | baselineTps => "baseline_tps"
  | computeSavedPct => "compute_saved_pct"
  | gpuCount => "gpu_count"
  | modelFamily => "model_family"
  | modelSizeBucket => "model_size_bucket"
  | adapterType => "adapter_type"
  | sdkVersion => "sdk_version"
  | licenseId => "license_id"
  | heartbeat => "heartbeat"

def requiredFields : List Field :=
  [.amfHitRate, .apiKey, .baselineTps, .computeSavedPct, .decodeAccelerated, .effectiveTps, .intervalSeconds,
    .prefixSkipped, .sdkVersion, .specAcceptanceRate, .timestamp, .tokensProcessed]

/-- A value of the JSON body. A number that is not finite has denominator 0. -/
inductive Value
  | null
  | bool (b : Bool)
  | int (n : Int)
  | float (x : Frac)
  | str (t : Text)
  /-- an array or an object, with its text -/
  | other (t : Text)

structure Payload where
  get : Field → Option Value
  /-- the names of the other fields, sorted -/
  unknown : List String

structure HttpError where
  status : Nat
  detail : String

def internalError : HttpError := ⟨500, "Internal Server Error"⟩

/-- What the library does with texts and numbers. -/
structure Env extends Strings where
  /-- `str(value)` -/
  str : Value → Text
  /-- `float(n)`, none if it is too large -/
  float : Int → Option Frac
  float_of_le : ∀ n : Int, n.natAbs ≤ 2 ^ 53 → float n = some ⟨n, 1⟩
  /-- `datetime.fromisoformat`, with `astimezone` to UTC if there is an offset; none if one of them raises -/
  fromIsoFormat : Text → Option DateTime
  /-- one of `PATH_RE`, `IPV4_RE` and `MODEL_PATH_RE` is found -/
  leaks : Text → Bool

variable (env : Env)

def parseTimestamp (raw : Text) : Option DateTime :=
  let text := env.strip raw
  if text = [] then none
  else if text.getLast? = some 'Z' then env.fromIsoFormat (text.dropLast ++ "+00:00".toList)
  else env.fromIsoFormat text

def validateActiveKey (now : DateTime) (apiKey : Option ApiKey) : Except HttpError ApiKey :=
  match apiKey with
  | none => .error ⟨401, "Invalid API key"⟩
  | some key =>
    if key.status = .revoked then .error ⟨401, "API key revoked"⟩
    else if key.expiresAt.any fun t => decide (t.instant ≤ now.instant) then .error ⟨401, "API key expired"⟩
    else .ok key

def keyByValue (keys : Keys) (value : Text) : Option ApiKey := keys.rows.find? fun key => decide (key.key = value)

def isKeyText (value : Text) : Bool := "ax-".toList.isPrefixOf value

/-- How `ingest_metrics` gets its key. -/
def metricsKey (keys : Keys) (now : DateTime) (apiKey : Text) : Except HttpError ApiKey := do
  let keyValue := env.strip apiKey
  raiseIf (!isKeyText keyValue) ⟨400, "Invalid api_key format"⟩
  validateActiveKey now (keyByValue keys keyValue)

def asNumeric (field : Field) (value : Value) : Except HttpError Frac :=
  match value with
  | .int n =>
    match env.float n with
    | some x => .ok x
    | none => .error internalError
  | .float x => .ok x
  | _ => .error ⟨400, field.name ++ " must be numeric"⟩

def asInt (field : Field) (value : Value) : Except HttpError Int := do
  let x ← asNumeric env field value
  if x.den = 0 then .error internalError else .ok x.truncate

def isSafe (c : Char) : Bool := c.isAlphanum || c ∈ ['.', '_', ':', '-', '+']

def asSafeString (field : Field) (value : Value) : Except HttpError (Option Text) :=
  match value with
  | .null => .ok none
  | value =>
    let text := env.strip (env.str value)
    if text = [] then .ok none
    else if 128 < text.length ∨ ¬ text.all isSafe then .error ⟨400, field.name ++ " contains invalid characters"⟩
    else if env.leaks text then .error ⟨400, field.name ++ " contains unsafe string content"⟩
    else .ok (some text)

def Payload.value (p : Payload) (field : Field) : Value := (p.get field).getD .null

def Payload.missing (p : Payload) : List String :=
  (requiredFields.filter fun field => (p.get field).isNone).map Field.name

def checkOthers (p : Payload) : Except HttpError Unit := do
  for field in [Field.prefixSkipped, .decodeAccelerated] do
    let _ ← asInt env field (p.value field)
  for field in [Field.amfHitRate, .specAcceptanceRate, .effectiveTps, .baselineTps, .computeSavedPct] do
    let _ ← asNumeric env field (p.value field)
  let _ ← asInt env .gpuCount ((p.get .gpuCount).getD (.int 0))
  for field in [Field.modelFamily, .modelSizeBucket, .adapterType, .sdkVersion, .licenseId] do
    let _ ← asSafeString env field (p.value field)

def ingestMetrics (keys : Keys) (now : DateTime) (p : Payload) : Except HttpError Metric := do
  raiseIf (!p.unknown.isEmpty) ⟨400, "Non-whitelisted fields: " ++ ", ".intercalate p.unknown⟩
  raiseIf (!p.missing.isEmpty) ⟨400, "Missing required fields: " ++ ", ".intercalate p.missing⟩
  let apiKey ← metricsKey env keys now (env.str (p.value .apiKey))
  let ts ← (parseTimestamp env (env.str (p.value .timestamp))).elim (.error ⟨400, "Invalid timestamp"⟩) .ok
  let _ ← asInt env .intervalSeconds (p.value .intervalSeconds)
  let tokensProcessed ← asInt env .tokensProcessed (p.value .tokensProcessed)
  checkOthers env p
  return ⟨apiKey.id, ts, tokensProcessed⟩

/-! ### The summary -/

def periodBounds (now : DateTime) : Except String (Nat × Nat) :=
  let start := monthStart now.year now.month
  if now.month = 12 then
    if now.year + 1 ≤ maxYear then .ok (start, monthStart (now.year + 1) 1 - aSecond)
    else .error "year 10000 is out of range"
  else .ok (start, monthStart now.year (now.month + 1) - aSecond)

/-- A row of the join, if the report is one of the customer's and in the period. -/
def joined (keys : Keys) (customerId : Nat) (bounds : Nat × Nat) (m : Metric) : Option (Metric × Tier) :=
  match keys.find m.apiKeyId with
  | none => none
  | some key =>
    if key.customerId = customerId ∧ bounds.1 ≤ m.timestamp.instant ∧ m.timestamp.instant ≤ bounds.2 then
      some (m, key.tier)
    else none

structure Totals where
  total : Int
  trial : Int
  standard : Int
  enterprise : Int

def Totals.add (s : Totals) (row : Metric × Tier) : Totals :=
  let t := row.1.tokensProcessed
  match row.2 with
  | .trial => { s with total := s.total + t, trial := s.trial + t }
  | .enterprise => { s with total := s.total + t, enterprise := s.enterprise + t }
  | .standard => { s with total := s.total + t, standard := s.standard + t }

def trialFreeTokens : Int := 10000000

def Totals.billable (s : Totals) : Int := max 0 (s.trial - trialFreeTokens) + s.standard

def amountCents (billable : Int) : Int := Frac.roundHalfEven ⟨billable * 10, 1000000⟩

structure Summary where
  totalTokens : Int
  amountCents : Int
  pricing : String

def totals (keys : Keys) (metrics : List Metric) (customerId : Nat) (bounds : Nat × Nat) : Totals :=
  (metrics.filterMap (joined keys customerId bounds)).foldl Totals.add ⟨0, 0, 0, 0⟩

def billingSummary (keys : Keys) (metrics : List Metric) (customerId : Nat) (now : DateTime) :
    Except String Summary := do
  let bounds ← periodBounds now
  let s := totals keys metrics customerId bounds
  return ⟨s.total, amountCents s.billable,
    if 0 < s.enterprise ∧ s.billable = 0 then "Custom annual pricing" else "$0.10 per million tokens"⟩

end Korith.Billing
