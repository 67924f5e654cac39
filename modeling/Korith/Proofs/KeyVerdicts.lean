import Korith.Backend.Access
import Korith.Proofs.BillingPeriods

/-!
# Whether a key is worth the same everywhere

Reports and the proxy refuse a key that is revoked or expired; the registration of a node does not look at the expiry. So the
endpoints agree on a key exactly if it is not one that has expired without being revoked.
-/

namespace Korith.Access

open Billing
open Coordinator (Text)

variable {env : Env} {keys : Keys} {deployments : Deployments} {now : DateTime} {auth text : Text} {key : ApiKey}

inductive Endpoint
  | metrics
  | inference
  | registration
  deriving DecidableEq

def Endpoint.authenticate (env : Env) (keys : Keys) (now : DateTime) (auth text : Text) :
    Endpoint → Except HttpError ApiKey
  | metrics => metricsKey env keys now text
  | inference => resolveApiKey env keys now auth
  | registration => registrationKey env keys text

def Endpoint.Accepts (env : Env) (keys : Keys) (now : DateTime) (auth text : Text) (e : Endpoint) : Prop :=
  ∃ key, e.authenticate env keys now auth text = .ok key

/-! ### No request gets past the check of its endpoint -/

theorem accepts_of_ingestMetrics {p : Payload} {m : Metric} (h : ingestMetrics env keys now p = .ok m) :
    Endpoint.metrics.Accepts env keys now auth (env.str (p.value .apiKey)) := by
  obtain ⟨key, ⟨-, -, hkey, -⟩, -⟩ := ingestMetrics_eq_ok.1 h
  exact ⟨key, hkey⟩

theorem accepts_of_proxyCompletions {path url : Text} (h : proxyCompletions env keys deployments now auth path = .ok url) :
    Endpoint.inference.Accepts env keys now auth text := by
  obtain ⟨key, hkey, -⟩ := bind_eq_ok.1 h
  exact ⟨key, hkey⟩

theorem accepts_of_registerNode {n : Nat} {payload : RegisterNodeRequest} {after : Deployments}
    (h : registerNode env keys deployments now n payload = .ok after) :
    Endpoint.registration.Accepts env keys now auth payload.apiKey := by
  obtain ⟨key, hkey, -⟩ := bind_eq_ok.1 h
  exact ⟨key, hkey⟩

/-! ### Verdicts -/

theorem isKeyValid_iff : isKeyValid now key = true ↔ key.status ≠ .revoked ∧ isExpired now key = false := by
  simp only [isKeyValid]
  split_ifs <;> simp_all

theorem metricsKey_eq_ok : metricsKey env keys now text = .ok key ↔
    isKeyText (env.strip text) = true ∧ keyByValue keys (env.strip text) = some key ∧ isKeyValid now key = true := by
  simp only [metricsKey, bind_eq_ok, raiseIf_eq_ok, Bool.not_eq_false', exists_const, isKeyValid_iff]
  refine and_congr_right fun _ => ?_
  cases keyByValue keys (env.strip text) with
  | none => simp [validateActiveKey]
  | some row =>
    simp only [validateActiveKey, isExpired]
    split_ifs <;> aesop

theorem resolveApiKey_eq_ok : resolveApiKey env keys now auth = .ok key ↔
    isKeyText (headerKey env auth) = true ∧ keyByValue keys (headerKey env auth) = some key ∧
      isKeyValid now key = true := by
  simp only [resolveApiKey, bind_eq_ok, raiseIf_eq_ok, Bool.not_eq_false', exists_const, isKeyValid_iff]
  refine and_congr_right fun _ => ?_
  cases keyByValue keys (headerKey env auth) with
  | none => simp
  | some row =>
    simp only
    split_ifs <;> aesop

theorem registrationKey_eq_ok : registrationKey env keys text = .ok key ↔
    isKeyText (env.strip text) = true ∧ keyByValue keys (env.strip text) = some key ∧ key.status ≠ .revoked := by
  simp only [registrationKey, bind_eq_ok, raiseIf_eq_ok, Bool.not_eq_false', exists_const]
  refine and_congr_right fun _ => ?_
  cases keyByValue keys (env.strip text) with
  | none => simp
  | some row =>
    simp only
    split_ifs <;> aesop

theorem verdicts_agree_iff (env : Env) (keys : Keys) (now : DateTime) {auth text : Text}
    (hsame : headerKey env auth = env.strip text) :
    ((∀ key, keyByValue keys (env.strip text) = some key → isKeyValid now key = false →
        ∀ e : Endpoint, ¬ e.Accepts env keys now auth text) ∧
      ∀ e e' : Endpoint, e.Accepts env keys now auth text ↔ e'.Accepts env keys now auth text) ↔
    ∀ key, isKeyText (env.strip text) = true → keyByValue keys (env.strip text) = some key →
      isExpired now key = true → key.status = .revoked := by
  constructor
  · rintro ⟨hrefused, -⟩ key htext hkey hexpired
    by_contra hstatus
    have hinvalid : isKeyValid now key = false := by
      rw [← Bool.not_eq_true, isKeyValid_iff, hexpired]
      simp
    exact hrefused key hkey hinvalid .registration ⟨key, registrationKey_eq_ok.2 ⟨htext, hkey, hstatus⟩⟩
  · intro h
    have hverdict : ∀ e : Endpoint, e.Accepts env keys now auth text ↔
        ∃ key, isKeyText (env.strip text) = true ∧ keyByValue keys (env.strip text) = some key ∧
          isKeyValid now key = true := by
      intro e
      refine exists_congr fun key => ?_
      cases e with
      | metrics => exact metricsKey_eq_ok
      | inference => exact hsame ▸ resolveApiKey_eq_ok
      | registration =>
        refine registrationKey_eq_ok.trans (and_congr_right fun htext => and_congr_right fun hkey => ?_)
        rw [isKeyValid_iff]
        refine ⟨fun hstatus => ⟨hstatus, ?_⟩, And.left⟩
        exact Bool.eq_false_iff.2 fun hexpired => hstatus (h key htext hkey hexpired)
    refine ⟨fun key hkey hinvalid e haccepts => ?_, fun e e' => (hverdict e).trans (hverdict e').symm⟩
    obtain ⟨key', -, hkey', hvalid⟩ := (hverdict e).1 haccepts
    cases hkey.symm.trans hkey'
    exact Bool.false_ne_true (hinvalid.symm.trans hvalid)

section Runs

theorem verdicts_agree_oneKey : Endpoint.metrics.Accepts asciiEnv oneKey noon "ax-1".toList "ax-1".toList ∧
    ∀ e e' : Endpoint, e.Accepts asciiEnv oneKey noon "ax-1".toList "ax-1".toList ↔
      e'.Accepts asciiEnv oneKey noon "ax-1".toList "ax-1".toList := by
  refine ⟨⟨_, rfl⟩, ((verdicts_agree_iff asciiEnv oneKey noon rfl).2 ?_).2⟩
  intro key _ hkey hexpired
  obtain rfl : (⟨1, 7, "ax-1".toList, .active, .standard, none⟩ : ApiKey) = key := Option.some.inj hkey
  cases hexpired

def trialKey : ApiKey := ⟨1, 7, "ax-1".toList, .trial, .trial, some noon⟩

def trialKeys : Keys := ⟨[trialKey], List.nodup_singleton _⟩

def pendingNode : Deployments := ⟨[⟨3, some 1, none, .pending, none⟩], List.nodup_singleton _⟩

theorem isKeyValid_trialKey : isKeyValid noon trialKey = false := by
  simp [isKeyValid, isExpired, trialKey]

/-- At that time its reports and requests are refused, and a node is registered with it. -/
theorem expired_key_registers_node : isKeyValid noon trialKey = false ∧
      ¬ Endpoint.metrics.Accepts asciiEnv trialKeys noon "ax-1".toList "ax-1".toList ∧
      ¬ Endpoint.inference.Accepts asciiEnv trialKeys noon "ax-1".toList "ax-1".toList ∧
      Endpoint.registration.Accepts asciiEnv trialKeys noon "ax-1".toList "ax-1".toList ∧
      (registerNode asciiEnv trialKeys pendingNode noon 3 ⟨"ax-1".toList, "http://n".toList⟩).map Table.rows =
        .ok [⟨3, some 1, some "http://n".toList, .active, some noon⟩] := by
  refine ⟨isKeyValid_trialKey, ?_, ?_, ⟨trialKey, rfl⟩, rfl⟩
  · rintro ⟨key, hkey⟩
    obtain ⟨-, hfind, hvalid⟩ := metricsKey_eq_ok.1 hkey
    obtain rfl : trialKey = key := Option.some.inj hfind
    exact Bool.false_ne_true (isKeyValid_trialKey.symm.trans hvalid)
  · rintro ⟨key, hkey⟩
    have hresolve : resolveApiKey asciiEnv trialKeys noon "ax-1".toList = .ok key := hkey
    obtain ⟨-, hfind, hvalid⟩ := resolveApiKey_eq_ok.1 hresolve
    obtain rfl : trialKey = key := Option.some.inj hfind
    exact Bool.false_ne_true (isKeyValid_trialKey.symm.trans hvalid)

end Runs

end Korith.Access
