import Korith.Amf.Key
import Korith.Lib.Format
import Korith.Lib.Utf8
import Korith.Platform.Coordinator

/-!
# Tenant ids

The gateway derives a tenant id from a header of the request, or from the organization of its key if the header is
missing, and overwrites what the body says. The router hashes it into `amf_lookup_hash` and asks the coordinator with
it. The worker gives it to the adapter, the adapter to the engine in `KORITH_TENANT_ID`, with a directory for its
entries. Each of them replaces the characters that are not safe and cuts what is left at 128, the engine byte by byte.
-/

namespace Korith.Tenants

open Coordinator (Text Strings orElse defaultTenant)

structure Tables extends Strings where
  isalnum_of_isspace : ∀ c, isspace c = true → isalnum c = false
  isspace_mark : ∀ c ∈ ['-', '_', '.'], isspace c = false
  isalnum_colon : isalnum ':' = false
  isalnum_ascii : ∀ c : Char, c.toNat < 128 → isalnum c = c.isAlphanum

structure JobSpec where
  ownerTenantId : Text
  tenantId : Text
  /-- as rendered -/
  prompt : Text

/-- A request that has been authenticated. A header that is missing is empty. -/
structure Submission where
  orgId : Text
  header : Text
  job : JobSpec

structure Env where
  tenantIsolation : Bool
  /-- the prompt has a shared prefix, as the adapter and as the engine see it -/
  sharedByAdapter : Text → Bool
  sharedByEngine : Text → Bool

variable (py : Tables)

def Tables.keeps (ch : Char) : Bool := py.isalnum ch || ch == '-' || ch == '_' || ch == '.'

def Tables.safe (t : Text) : Text := t.map fun ch => if py.keeps ch then ch else '_'

/-! ### Gateway and router -/

def tenantId (sub : Submission) : Text :=
  let tenant := orElse (py.strip (orElse sub.header (orElse sub.orgId defaultTenant))) defaultTenant
  let safe := py.safe tenant
  (orElse safe (orElse sub.orgId defaultTenant)).take 128

def doPost (sub : Submission) : JobSpec :=
  { sub.job with ownerTenantId := tenantId py sub, tenantId := tenantId py sub }

def extractTenantId (job : JobSpec) (defaultOrgId : Text) : Text :=
  let raw := orElse job.ownerTenantId (orElse job.tenantId (orElse defaultOrgId defaultTenant))
  let tenant := orElse (py.strip (orElse raw defaultTenant)) defaultTenant
  (orElse (py.safe tenant) defaultTenant).take 128

def resolvedTenantId (sub : Submission) : Text := orElse (tenantId py sub) (extractTenantId py (doPost py sub) sub.orgId)

def fnv1a64Str (data : Text) : Text :=
  hexPad 16 (Amf.hashBytes Amf.kFNVOffset ((utf8 data).map UInt8.toBitVec)).toNat

def amfLookupHash (sub : Submission) : Text := fnv1a64Str (resolvedTenantId py sub ++ ':' :: sub.job.prompt)

def coordinatorTenantId (sub : Submission) : Text := Coordinator.safeTenantId py.toStrings (resolvedTenantId py sub)

/-! ### Worker, adapter and engine -/

def workerTenantId (sub : Submission) : Text := orElse (resolvedTenantId py sub) sub.orgId

def adapterTenantId (sub : Submission) : Text :=
  let tenantRaw := py.strip (orElse (workerTenantId py sub) defaultTenant)
  orElse ((py.safe tenantRaw).take 128) defaultTenant

def sharedTenant : Text := ['_', '_', 's', 'h', 'a', 'r', 'e', 'd', '_', '_']

variable (env : Env)

def tenantDir (sub : Submission) : Option Text :=
  if env.tenantIsolation then
    some (if env.sharedByAdapter sub.job.prompt then sharedTenant else adapterTenantId py sub)
  else none

def underscore : UInt8 := 95

def okByte (ch : UInt8) : Bool :=
  (97 ≤ ch.toNat && ch.toNat ≤ 122) || (65 ≤ ch.toNat && ch.toNat ≤ 90) || (48 ≤ ch.toNat && ch.toNat ≤ 57) ||
    ch.toNat == 45 || ch.toNat == 95 || ch.toNat == 46

def okOrUnderscore (ch : UInt8) : UInt8 := if okByte ch then ch else underscore

def sanitizeTenantIdForAmf (t : List UInt8) : List UInt8 :=
  if t = [] then utf8 defaultTenant else (t.map okOrUnderscore).take 128

/-- The text that is hashed into `tenant_hash`; none if that stays 0. -/
def engineTenantId (sub : Submission) : Option (List UInt8) :=
  if env.sharedByEngine sub.job.prompt then some (utf8 sharedTenant)
  else if env.tenantIsolation then some (sanitizeTenantIdForAmf (utf8 (adapterTenantId py sub)))
  else none

def amfHashTenantId (t : List UInt8) : Amf.Hash := Amf.hashBytes Amf.kFNVOffset (t.map UInt8.toBitVec)

def tenantHash (sub : Submission) : Amf.Hash := ((engineTenantId py env sub).map amfHashTenantId).getD 0

end Korith.Tenants
