import Korith.Backend.Billing

/-!
# Whether every report is billed

A period ends with the last whole second of its month, and timestamps are finer: what a client reports within that second
belongs to no period (`countedIn_iff`). For December of the last year that there is, there is no summary at all. A summary
only grows with a report that has no negative number of tokens, and the endpoint takes any number.
-/

namespace Korith.Billing

variable {env : Env} {keys : Keys} {now : DateTime} {p : Payload} {m : Metric} {key : ApiKey} {metrics : List Metric}
  {customerId : Nat} {bounds month : Nat × Nat} {n : Int}

/-! ### Reports -/

def Accepted (env : Env) (keys : Keys) (m : Metric) : Prop := ∃ now p, ingestMetrics env keys now p = .ok m

def Checked (env : Env) (keys : Keys) (now : DateTime) (p : Payload) (key : ApiKey) (ts : DateTime) : Prop :=
  p.unknown = [] ∧ p.missing = [] ∧ metricsKey env keys now (env.str (p.value .apiKey)) = .ok key ∧
    parseTimestamp env (env.str (p.value .timestamp)) = some ts ∧
    (∃ n, asInt env .intervalSeconds (p.value .intervalSeconds) = .ok n) ∧ checkOthers env p = .ok ()

theorem ingestMetrics_eq_ok : ingestMetrics env keys now p = .ok m ↔ ∃ key, Checked env keys now p key m.timestamp ∧
      asInt env .tokensProcessed (p.value .tokensProcessed) = .ok m.tokensProcessed ∧ m.apiKeyId = key.id := by
  have hts : ∀ {x : Option DateTime} {ts},
      x.elim (.error ⟨400, "Invalid timestamp"⟩) Except.ok = (.ok ts : Except HttpError DateTime) ↔ x = some ts := by
    intro x ts
    cases x <;> simp
  simp only [ingestMetrics, bind_eq_ok, raiseIf_eq_ok, Checked, hts, pure, Except.pure, Except.ok.injEq]
  constructor
  · rintro ⟨-, hunknown, -, hmissing, key, hkey, ts, hparse, n, hinterval, k, htokens, ⟨⟩, hothers, rfl⟩
    exact ⟨key, ⟨by simpa using hunknown, by simpa using hmissing, hkey, hparse, ⟨n, hinterval⟩, hothers⟩,
      htokens, rfl⟩
  · rintro ⟨key, ⟨hunknown, hmissing, hkey, hparse, ⟨n, hinterval⟩, hothers⟩, htokens, hid⟩
    refine ⟨(), by simpa using hunknown, (), by simpa using hmissing, key, hkey, _, hparse, n, hinterval,
      _, htokens, (), hothers, ?_⟩
    rw [← hid]

theorem Accepted.exists_key (h : Accepted env keys m) : ∃ key ∈ keys, key.id = m.apiKeyId := by
  obtain ⟨now, p, hp⟩ := h
  obtain ⟨key, ⟨-, -, hkey, -⟩, -, hid⟩ := ingestMetrics_eq_ok.1 hp
  obtain ⟨-, -, hactive⟩ := bind_eq_ok.1 hkey
  refine ⟨key, ?_, hid.symm⟩
  cases hfind : keyByValue keys (env.strip (env.str (p.value .apiKey))) with
  | none =>
    rw [hfind] at hactive
    cases hactive
  | some found =>
    rw [hfind] at hactive
    simp only [validateActiveKey] at hactive
    split_ifs at hactive
    cases hactive
    exact List.mem_of_find?_eq_some hfind

def Payload.withTokens (p : Payload) (n : Int) : Payload :=
  { p with get := Function.update p.get .tokensProcessed (some (.int n)) }

theorem missing_withTokens (h : p.missing = []) : (p.withTokens n).missing = [] := by
  simp only [Payload.missing, List.map_eq_nil_iff, List.filter_eq_nil_iff] at h ⊢
  intro field hfield
  by_cases htokens : field = .tokensProcessed
  · simp [Payload.withTokens, htokens]
  · simpa [Payload.withTokens, htokens] using h field hfield

theorem asInt_of_float {field : Field} (h : env.float n = some ⟨n, 1⟩) : asInt env field (.int n) = .ok n := by
  rw [asInt, bind_eq_ok]
  refine ⟨⟨n, 1⟩, ?_, ?_⟩
  · simp only [asNumeric, h]
  · simp [Frac.truncate]

theorem Accepted.withTokens (h : Accepted env keys m) (hn : n.natAbs ≤ 2 ^ 53) :
    Accepted env keys { m with tokensProcessed := n } := by
  obtain ⟨now, p, hp⟩ := h
  obtain ⟨key, ⟨hunknown, hmissing, hkey, hparse, hinterval, hothers⟩, -, hid⟩ := ingestMetrics_eq_ok.1 hp
  refine ⟨now, p.withTokens n, ingestMetrics_eq_ok.2 ⟨key, ?_, asInt_of_float (env.float_of_le n hn), hid⟩⟩
  exact ⟨hunknown, missing_withTokens hmissing, hkey, hparse, hinterval, hothers⟩

/-! ### Periods -/

/-- A time for which the summary has a period. -/
def Timely (t : DateTime) : Prop := ¬ (t.year = maxYear ∧ t.month = 12) ∧ ¬ t.AfterLastSecond
  deriving Decidable

def period (now : DateTime) : Nat × Nat :=
  (monthStart now.year now.month, monthStart now.year now.month + daysInMonth now.year now.month * aDay - aSecond)

theorem periodBounds_eq_ok :
    periodBounds now = .ok bounds ↔ ¬ (now.year = maxYear ∧ now.month = 12) ∧ bounds = period now := by
  obtain ⟨⟨hyear, hyear'⟩, ⟨hmonth, -⟩, -⟩ := now.valid
  rw [period, ← monthStart_nextMonth hyear hmonth, periodBounds]
  by_cases hlast : now.month = 12
  · by_cases hmax : now.year = maxYear
    · simp [hlast, hmax]
    · have hle : now.year + 1 ≤ maxYear := Nat.lt_of_le_of_ne hyear' hmax
      simp [hlast, hmax, hle, nextMonth, eq_comm]
  · simp [hlast, nextMonth, eq_comm]

def CountedIn (keys : Keys) (customerId : Nat) (m : Metric) (month : Nat × Nat) : Prop :=
  ∃ now bounds, (now.year, now.month) = month ∧ periodBounds now = .ok bounds ∧
    (joined keys customerId bounds m).isSome = true

theorem joined_of_mem (hkey : key ∈ keys) (hid : key.id = m.apiKeyId) : joined keys customerId bounds m =
    if key.customerId = customerId ∧ bounds.1 ≤ m.timestamp.instant ∧ m.timestamp.instant ≤ bounds.2 then
      some (m, key.tier)
    else none := by
  have hfind : keys.find m.apiKeyId = some key := Table.find_eq_some_iff.2 ⟨hkey, hid⟩
  simp [joined, hfind]

theorem aSecond_le (now : DateTime) : aSecond ≤ daysInMonth now.year now.month * aDay := by
  have hday : aSecond ≤ aDay := by decide
  exact hday.trans (Nat.le_mul_of_pos_left aDay daysInMonth_pos)

theorem same_month {t : DateTime} (hle : monthStart now.year now.month ≤ t.instant)
    (hlt : t.instant < monthStart now.year now.month + daysInMonth now.year now.month * aDay) :
    (now.year, now.month) = (t.year, t.month) := by
  obtain ⟨⟨hyear, -⟩, ⟨hmonth, hmonth'⟩, -⟩ := now.valid
  obtain ⟨⟨tyear, -⟩, ⟨tmonth, tmonth'⟩, -⟩ := t.valid
  rw [← nthMonthStart_monthIndex hyear hmonth hmonth'] at hle
  rw [← nthMonthStart_succ hyear hmonth hmonth'] at hlt
  have tle : nthMonthStart (monthIndex t.year t.month) ≤ t.instant := by
    rw [nthMonthStart_monthIndex tyear tmonth tmonth']
    exact DateTime.monthStart_le_instant
  have tlt : t.instant < nthMonthStart (monthIndex t.year t.month + 1) := by
    rw [nthMonthStart_succ tyear tmonth tmonth']
    exact DateTime.instant_lt
  have hindex := month_unique hle hlt tle tlt
  unfold monthIndex at hindex
  simp only [Prod.mk.injEq]
  omega

theorem joined_period (hkey : key ∈ keys) (hid : key.id = m.apiKeyId) (h : Timely m.timestamp) :
    joined keys key.customerId (period m.timestamp) m = some (m, key.tier) := by
  have hend := DateTime.instant_le_iff.2 h.2
  rw [joined_of_mem hkey hid, if_pos ⟨rfl, DateTime.monthStart_le_instant, Nat.le_sub_of_add_le hend⟩]

theorem countedIn_iff (hkey : key ∈ keys) (hid : key.id = m.apiKeyId) : CountedIn keys key.customerId m month ↔
    month = (m.timestamp.year, m.timestamp.month) ∧ Timely m.timestamp := by
  constructor
  · rintro ⟨now, bounds, rfl, hbounds, hjoined⟩
    obtain ⟨hmax, rfl⟩ := periodBounds_eq_ok.1 hbounds
    rw [joined_of_mem hkey hid] at hjoined
    split_ifs at hjoined with hin
    · obtain ⟨-, hstart, hend⟩ := hin
      rw [period] at hstart hend
      have hsecond := aSecond_le now
      have hpos : 0 < aSecond := by decide
      have hmonth := same_month hstart (by omega)
      obtain ⟨hyear, hmonth⟩ := Prod.mk.inj hmonth
      rw [hyear, hmonth] at hmax hend hsecond
      refine ⟨by rw [hyear, hmonth], hmax, ?_⟩
      rw [← DateTime.instant_le_iff]
      omega
    · cases hjoined
  · rintro ⟨rfl, htimely⟩
    refine ⟨m.timestamp, _, rfl, periodBounds_eq_ok.2 ⟨htimely.1, rfl⟩, ?_⟩
    rw [joined_period hkey hid htimely]
    rfl

def BilledOnce (keys : Keys) (m : Metric) : Prop :=
  ∀ key ∈ keys, key.id = m.apiKeyId → ∃! month, CountedIn keys key.customerId m month

theorem billedOnce_iff (hkey : key ∈ keys) (hid : key.id = m.apiKeyId) : BilledOnce keys m ↔ Timely m.timestamp := by
  constructor
  · intro h
    obtain ⟨month, hcounted, -⟩ := h key hkey hid
    exact ((countedIn_iff hkey hid).1 hcounted).2
  · intro htimely key' hkey' hid'
    refine ⟨_, (countedIn_iff hkey' hid').2 ⟨rfl, htimely⟩, ?_⟩
    intro month hcounted
    exact ((countedIn_iff hkey' hid').1 hcounted).1

/-! ### Amounts -/

theorem amountCents_mono {a b : Int} (h : a ≤ b) : amountCents a ≤ amountCents b :=
  Frac.roundHalfEven_mono (by decide) (by omega)

theorem billable_add (s : Totals) (tier : Tier) (h : 0 ≤ m.tokensProcessed ∨ tier = .enterprise) :
    s.billable ≤ (s.add (m, tier)).billable := by
  unfold Totals.billable
  cases tier with
  | trial =>
    have h : 0 ≤ m.tokensProcessed := h.resolve_right (by simp)
    simp only [Totals.add]
    omega
  | standard =>
    have h : 0 ≤ m.tokensProcessed := h.resolve_right (by simp)
    simp only [Totals.add]
    omega
  | enterprise => exact le_refl _

theorem totals_concat : totals keys (metrics ++ [m]) customerId bounds = match joined keys customerId bounds m with
    | none => totals keys metrics customerId bounds
    | some row => (totals keys metrics customerId bounds).add row := by
  rw [totals, List.filterMap_append, List.foldl_append]
  cases hrow : joined keys customerId bounds m with
  | none => simp [hrow, totals]
  | some row => simp [hrow, totals]

theorem billingSummary_eq_ok {s : Summary} (h : billingSummary keys metrics customerId now = .ok s) :
    ∃ bounds, periodBounds now = .ok bounds ∧
      s.amountCents = amountCents (totals keys metrics customerId bounds).billable := by
  obtain ⟨bounds, hbounds, hs⟩ := bind_eq_ok.1 h
  cases hs
  exact ⟨bounds, hbounds, rfl⟩

theorem billingSummary_of_ok (keys : Keys) (metrics : List Metric) (customerId : Nat)
    (h : periodBounds now = .ok bounds) : ∃ s, billingSummary keys metrics customerId now = .ok s ∧
      s.amountCents = amountCents (totals keys metrics customerId bounds).billable :=
  ⟨_, bind_eq_ok.2 ⟨bounds, h, rfl⟩, rfl⟩

def NeverLowers (env : Env) (keys : Keys) (m : Metric) : Prop :=
  ∀ metrics, (∀ x ∈ metrics, Accepted env keys x) → ∀ customerId now s s',
    billingSummary keys metrics customerId now = .ok s → billingSummary keys (metrics ++ [m]) customerId now = .ok s' →
      s.amountCents ≤ s'.amountCents

theorem neverLowers_of_nonneg (hkey : key ∈ keys) (hid : key.id = m.apiKeyId)
    (h : 0 ≤ m.tokensProcessed ∨ key.tier = .enterprise) : NeverLowers env keys m := by
  intro metrics _ customerId now s s' hs hs'
  obtain ⟨bounds, hbounds, hamount⟩ := billingSummary_eq_ok hs
  obtain ⟨bounds', hbounds', hamount'⟩ := billingSummary_eq_ok hs'
  cases hbounds.symm.trans hbounds'
  rw [hamount, hamount', totals_concat, joined_of_mem hkey hid]
  refine amountCents_mono ?_
  split_ifs
  · exact billable_add _ _ h
  · exact le_refl _

/-- Tokens for which one cent is charged, and none with one token less. -/
def centTokens (tier : Tier) : Int := if tier = .trial then trialFreeTokens + 50001 else 50001

theorem billable_centTokens (tier : Tier) (htier : tier ≠ .enterprise) (x : Metric)
    (hx : x.tokensProcessed = centTokens tier) : (Totals.add ⟨0, 0, 0, 0⟩ (x, tier)).billable = 50001 := by
  cases tier with
  | trial => simp [Totals.add, Totals.billable, hx, centTokens]
  | standard => simp [Totals.add, Totals.billable, hx, centTokens, trialFreeTokens]
  | enterprise => exact absurd rfl htier

theorem billable_lowered (tier : Tier) (htier : tier ≠ .enterprise) (x : Metric)
    (hx : x.tokensProcessed = centTokens tier) (hm : m.tokensProcessed < 0) :
    ((Totals.add ⟨0, 0, 0, 0⟩ (x, tier)).add (m, tier)).billable ≤ 50000 := by
  cases tier with
  | trial =>
    simp only [Totals.add, Totals.billable, hx, centTokens, if_true]
    omega
  | standard =>
    simp only [Totals.add, Totals.billable, hx, centTokens, trialFreeTokens, reduceCtorEq, if_false]
    omega
  | enterprise => exact absurd rfl htier

theorem nonneg_of_neverLowers (haccepted : Accepted env keys m) (hkey : key ∈ keys) (hid : key.id = m.apiKeyId)
    (htimely : Timely m.timestamp) (h : NeverLowers env keys m) : 0 ≤ m.tokensProcessed ∨ key.tier = .enterprise := by
  by_contra! hneg
  obtain ⟨hneg, htier⟩ := hneg
  -- the same report with just enough tokens for a cent comes first
  let x : Metric := { m with tokensProcessed := centTokens key.tier }
  have hx : Accepted env keys x := by
    refine haccepted.withTokens ?_
    unfold centTokens
    split_ifs <;> decide
  have hbounds := periodBounds_eq_ok.2 ⟨htimely.1, rfl⟩
  obtain ⟨s, hs, hamount⟩ := billingSummary_of_ok keys [x] key.customerId hbounds
  obtain ⟨s', hs', hamount'⟩ := billingSummary_of_ok keys ([x] ++ [m]) key.customerId hbounds
  have hle := h [x] (by simpa using hx) key.customerId m.timestamp s s' hs hs'
  have hrow : joined keys key.customerId (period m.timestamp) x = some (x, key.tier) := joined_period hkey hid htimely
  have hone : totals keys [x] key.customerId (period m.timestamp) = Totals.add ⟨0, 0, 0, 0⟩ (x, key.tier) := by
    simp [totals, hrow]
  rw [hamount, hamount', totals_concat, joined_period hkey hid htimely, hone, billable_centTokens _ htier x rfl] at hle
  have hlow := amountCents_mono (billable_lowered key.tier htier x rfl hneg)
  have habsurd : amountCents 50001 ≤ amountCents 50000 := hle.trans hlow
  exact absurd habsurd (by decide)

/-- Unless nothing is charged for the key, the report must not be of the end of the last second of a month (nor of the
last month of all) and must have no negative number of tokens. -/
theorem billed_once_and_upwards_iff (haccepted : Accepted env keys m) : BilledOnce keys m ∧ NeverLowers env keys m ↔
      Timely m.timestamp ∧
        (0 ≤ m.tokensProcessed ∨ ∃ key ∈ keys, key.id = m.apiKeyId ∧ key.tier = .enterprise) := by
  obtain ⟨key, hkey, hid⟩ := haccepted.exists_key
  rw [billedOnce_iff hkey hid]
  refine and_congr_right fun htimely => ?_
  constructor
  · intro h
    rcases nonneg_of_neverLowers haccepted hkey hid htimely h with hnonneg | htier
    · exact .inl hnonneg
    · exact .inr ⟨key, hkey, hid, htier⟩
  · rintro (hnonneg | ⟨key', hkey', hid', htier⟩)
    · exact neverLowers_of_nonneg hkey hid (.inl hnonneg)
    · exact neverLowers_of_nonneg hkey' hid' (.inr htier)

section Runs

theorem valid_lateStamp : ValidDateTime 2026 1 31 23 59 59 500000 := by decide

theorem valid_noon : ValidDateTime 2026 1 15 12 0 0 0 := by decide

def lateStamp : DateTime := ⟨2026, 1, 31, 23, 59, 59, 500000, valid_lateStamp⟩

def noon : DateTime := ⟨2026, 1, 15, 12, 0, 0, 0, valid_noon⟩

/-- `str(n)` -/
def digits (n : Int) : List Char := (if n < 0 then ['-'] else []) ++ Nat.toDigits 10 n.natAbs

/-- A float is written as a fraction. -/
def asciiEnv : Env where
  isalnum := Char.isAlphanum
  isspace := fun c => c == ' '
  lower := fun t => t
  str
    | .null => "None".toList
    | .bool b => (if b then "True" else "False").toList
    | .int n => digits n
    | .float x => digits x.num ++ '/' :: digits x.den
    | .str t | .other t => t
  float n := some ⟨n, 1⟩
  float_of_le := fun _ _ => rfl
  fromIsoFormat t := if t = "2026-01-31T23:59:59.5".toList then some lateStamp else some noon
  leaks _ := false

def oneKey : Keys := ⟨[⟨1, 7, "ax-1".toList, .active, .standard, none⟩], List.nodup_singleton _⟩

def report (timestamp : String) (tokens : Int) : Payload where
  get
    | .apiKey => some (.str "ax-1".toList)
    | .timestamp => some (.str timestamp.toList)
    | .tokensProcessed => some (.int tokens)
    | .sdkVersion => some (.str "1.0".toList)
    | _ => some (.int 1)
  unknown := []

def lateText : String := "2026-01-31T23:59:59.5"

def noonText : String := "2026-01-15T12:00:00"

theorem accepted_report {text : String} {ts : DateTime} (n : Int)
    (hts : parseTimestamp asciiEnv text.toList = some ts) : Accepted asciiEnv oneKey ⟨1, ts, n⟩ := by
  refine ⟨noon, report text n, ingestMetrics_eq_ok.2 ⟨⟨1, 7, "ax-1".toList, .active, .standard, none⟩, ?_, ?_, rfl⟩⟩
  · exact ⟨rfl, rfl, rfl, hts, ⟨1, rfl⟩, rfl⟩
  · exact asInt_of_float rfl

theorem parse_lateText : parseTimestamp asciiEnv lateText.toList = some lateStamp := by decide +kernel

theorem parse_noonText : parseTimestamp asciiEnv noonText.toList = some noon := by decide +kernel

theorem billed_once_and_upwards_noon : BilledOnce oneKey ⟨1, noon, 100⟩ ∧ NeverLowers asciiEnv oneKey ⟨1, noon, 100⟩ :=
  (billed_once_and_upwards_iff (accepted_report 100 parse_noonText)).2 ⟨by decide, .inl (by decide)⟩

theorem not_billed_once_and_upwards :
    (Accepted asciiEnv oneKey ⟨1, lateStamp, 100⟩ ∧ ∀ month, ¬ CountedIn oneKey 7 ⟨1, lateStamp, 100⟩ month) ∧
      Accepted asciiEnv oneKey ⟨1, noon, 50001⟩ ∧ Accepted asciiEnv oneKey ⟨1, noon, -1⟩ ∧
      (billingSummary oneKey [⟨1, noon, 50001⟩] 7 noon).map Summary.amountCents = .ok 1 ∧
      (billingSummary oneKey [⟨1, noon, 50001⟩, ⟨1, noon, -1⟩] 7 noon).map Summary.amountCents = .ok 0 := by
  refine ⟨⟨accepted_report 100 parse_lateText, ?_⟩, accepted_report 50001 parse_noonText,
    accepted_report (-1) parse_noonText, rfl, rfl⟩
  intro month hcounted
  obtain ⟨key, hkey, hid⟩ := (accepted_report 100 parse_lateText).exists_key
  obtain rfl := List.mem_singleton.1 hkey
  have htimely := ((countedIn_iff hkey hid).1 hcounted).2
  exact absurd htimely (by decide)

end Runs

end Korith.Billing
