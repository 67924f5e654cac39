import Korith.Backend.Billing

/-!
# Requests with an API key

Besides the reports of `ingest_metrics`, an API key opens the proxy to the customer's node (`proxy_completions`,
`proxy_models`), and with it the node makes its address known (`register_node`). Each of them looks the key up and checks it
by itself. What the proxy does behind the address of the node is left out.
-/

namespace Korith.Access

open Billing
open Coordinator (Text)

inductive DeploymentStatus
  | pending
  | deploying
  | active
  | failed
  deriving DecidableEq

structure Deployment where
  id : Nat
  apiKeyId : Option Nat
  inferenceUrl : Option Text
  status : DeploymentStatus
  deployedAt : Option DateTime

abbrev Deployments : Type := Table Nat Deployment Deployment.id

variable (env : Env) (keys : Keys) (deployments : Deployments) (now : DateTime)

def isExpired (key : ApiKey) : Bool := key.expiresAt.any fun t => decide (t.instant ≤ now.instant)

def isKeyValid (key : ApiKey) : Bool :=
  if key.status = .revoked then false
  else if isExpired now key then false
  else true

/-! ### The proxy -/

def headerKey (auth : Text) : Text :=
  if "bearer ".toList.isPrefixOf (env.lower auth) then env.strip (auth.drop 7) else env.strip auth

def resolveApiKey (auth : Text) : Except HttpError ApiKey := do
  raiseIf (!isKeyText (headerKey env auth)) ⟨401, "Invalid API key format"⟩
  match keyByValue keys (headerKey env auth) with
  | none => .error ⟨401, "Invalid or revoked API key"⟩
  | some row =>
    if row.status = .revoked then .error ⟨401, "Invalid or revoked API key"⟩
    else if isExpired now row then .error ⟨401, "API key expired"⟩
    else .ok row

def getInferenceUrl (apiKey : ApiKey) : Except HttpError Text :=
  let rows := deployments.rows.filter fun d =>
    decide (d.apiKeyId = some apiKey.id) && decide (d.status = .active) && d.inferenceUrl.isSome
  match (sortedHead (fun d => [-(d.id : Int)]) rows).bind Deployment.inferenceUrl with
  | none | some [] => .error ⟨503, "No active deployment found. Deploy a node via the dashboard first."⟩
  | some (c :: cs) => .ok ((c :: cs).rdropWhile (· == '/'))

/-- Where `proxy_completions` sends a request for `path`; `proxy_models` is the same with its own path. -/
def proxyCompletions (auth path : Text) : Except HttpError Text := do
  let apiKey ← resolveApiKey env keys now auth
  let baseUrl ← getInferenceUrl deployments apiKey
  return baseUrl ++ path

def proxyModels (auth : Text) : Except HttpError Text :=
  proxyCompletions env keys deployments now auth "/v1/models".toList

/-! ### Nodes -/

structure RegisterNodeRequest where
  apiKey : Text
  inferenceUrl : Text

def registrationKey (apiKey : Text) : Except HttpError ApiKey := do
  let keyValue := env.strip apiKey
  raiseIf (!isKeyText keyValue) ⟨400, "Invalid api_key format"⟩
  match keyByValue keys keyValue with
  | none => .error ⟨401, "Invalid API key"⟩
  | some row => if row.status = .revoked then .error ⟨401, "Invalid API key"⟩ else .ok row

def Deployment.register (url : Text) (now : DateTime) (d : Deployment) : Deployment :=
  { d with inferenceUrl := some url, status := .active, deployedAt := some now }

def registerNode (deploymentId : Nat) (payload : RegisterNodeRequest) : Except HttpError Deployments := do
  let apiKey ← registrationKey env keys payload.apiKey
  let isRow := fun d : Deployment => decide (d.id = deploymentId) && decide (d.apiKeyId = some apiKey.id)
  raiseIf (!deployments.rows.any isRow) ⟨404, "Deployment not found"⟩
  let url := env.strip payload.inferenceUrl
  raiseIf (!"http://".toList.isPrefixOf url && !"https://".toList.isPrefixOf url)
    ⟨400, "inference_url must start with http(s)://"⟩
  return deployments.updateWhere isRow (Deployment.register url now) fun _ => rfl

end Korith.Access
