import Korith.Platform.Tenants

/-!
# Whether two submissions have different tenants

Every id that is derived for a submission is a function of one text, the header or else the organization. The router,
the coordinator and the adapter all arrive at `clean`, since what has been cleaned once stays as it is; the engine
arrives at `masked`, in which a character outside of ASCII has left as many underscores as it has bytes.
-/

namespace Korith.Tenants

open Coordinator (Text orElse defaultTenant)

variable {py : Tables} {env : Env} {a b sub : Submission} {t : Text} {c : Char}

/-! ### Safe texts -/

def Safe (py : Tables) (t : Text) : Prop := ∀ c ∈ t, py.keeps c = true

theorem keeps_underscore : py.keeps '_' = true := by
  simp [Tables.keeps]

theorem safe_safe : Safe py (py.safe t) := by
  intro c hc
  obtain ⟨c₀, -, rfl⟩ := List.mem_map.1 hc
  split_ifs with hkeeps
  · exact hkeeps
  · exact keeps_underscore

theorem Safe.take {n : Nat} (h : Safe py t) : Safe py (t.take n) := fun c hc => h c (List.mem_of_mem_take hc)

theorem Safe.safe_eq (h : Safe py t) : py.safe t = t := by
  have hsame : ∀ c ∈ t, (if py.keeps c then c else '_') = id c := fun c hc => if_pos (h c hc)
  rw [Tables.safe, List.map_congr_left hsame, List.map_id]

theorem isspace_of_keeps (h : py.keeps c = true) : py.isspace c = false := by
  rw [Bool.eq_false_iff]
  intro hspace
  simp only [Tables.keeps, py.isalnum_of_isspace c hspace, Bool.false_or, Bool.or_eq_true, beq_iff_eq] at h
  have hmark : c ∈ ['-', '_', '.'] := by
    rcases h with (rfl | rfl) | rfl <;> simp
  rw [py.isspace_mark c hmark] at hspace
  cases hspace

theorem Safe.strip_eq (h : Safe py t) : py.strip t = t := by
  have hdrop : t.dropWhile py.isspace = t := by
    rw [List.dropWhile_eq_self_iff]
    intro hlen
    rw [isspace_of_keeps (h _ (List.getElem_mem hlen))]
    exact Bool.false_ne_true
  rw [Coordinator.Strings.strip, hdrop, List.rdropWhile_eq_self_iff]
  intro hne
  rw [isspace_of_keeps (h _ (List.getLast_mem hne))]
  exact Bool.false_ne_true

theorem orElse_of_ne {s : Text} (h : t ≠ []) : orElse t s = t := if_neg h

theorem orElse_ne_nil {s : Text} (h : s ≠ []) : orElse t s ≠ [] := by
  unfold orElse
  split_ifs with ht
  · exact h
  · exact ht

theorem defaultTenant_ne_nil : defaultTenant ≠ [] := List.cons_ne_nil _ _

/-! ### The ids -/

/-- The text from which the ids of a submission are derived. -/
def tenantText (py : Tables) (sub : Submission) : Text :=
  orElse (py.strip (orElse sub.header (orElse sub.orgId defaultTenant))) defaultTenant

def clean (py : Tables) (sub : Submission) : Text := (py.safe (tenantText py sub)).take 128

theorem safe_tenantText_ne_nil : py.safe (tenantText py sub) ≠ [] := by
  rw [Tables.safe, ne_eq, List.map_eq_nil_iff]
  exact orElse_ne_nil defaultTenant_ne_nil

theorem clean_ne_nil : clean py sub ≠ [] := by
  rw [clean, ne_eq, List.take_eq_nil_iff]
  rintro (h | h)
  · cases h
  · exact safe_tenantText_ne_nil h

theorem safe_clean : Safe py (clean py sub) := safe_safe.take

theorem take_clean : (clean py sub).take 128 = clean py sub := by
  rw [clean, List.take_take, Nat.min_self]

theorem resolvedTenantId_eq : resolvedTenantId py sub = clean py sub := by
  have htenant : tenantId py sub = clean py sub := by
    have hsafe : orElse (py.safe (tenantText py sub)) (orElse sub.orgId defaultTenant) = py.safe (tenantText py sub) :=
      orElse_of_ne safe_tenantText_ne_nil
    exact congrArg (List.take 128) hsafe
  rw [resolvedTenantId, htenant, orElse_of_ne clean_ne_nil]

theorem coordinatorTenantId_eq : coordinatorTenantId py sub = clean py sub := by
  have hmap : coordinatorTenantId py sub = orElse
      ((py.safe (orElse (py.strip (orElse (resolvedTenantId py sub) defaultTenant)) defaultTenant)).take 128)
      defaultTenant := rfl
  rw [hmap, resolvedTenantId_eq, orElse_of_ne clean_ne_nil, safe_clean.strip_eq, orElse_of_ne clean_ne_nil,
    safe_clean.safe_eq, take_clean, orElse_of_ne clean_ne_nil]

theorem adapterTenantId_eq : adapterTenantId py sub = clean py sub := by
  have hraw : py.strip (orElse (workerTenantId py sub) defaultTenant) = clean py sub := by
    rw [workerTenantId, resolvedTenantId_eq, orElse_of_ne clean_ne_nil, orElse_of_ne clean_ne_nil, safe_clean.strip_eq]
  rw [adapterTenantId, hraw, safe_clean.safe_eq, take_clean, orElse_of_ne clean_ne_nil]

def mask (py : Tables) (c : Char) : List UInt8 :=
  if c.toNat < 128 then [okOrUnderscore (UInt8.ofNat c.toNat)]
  else List.replicate (if py.isalnum c then c.utf8Size else 1) underscore

def masked (py : Tables) (sub : Submission) : List UInt8 := ((tenantText py sub).flatMap (mask py)).take 128

theorem okByte_ascii (hc : c.toNat < 128) :
    okByte (UInt8.ofNat c.toNat) = (c.isAlphanum || c == '-' || c == '_' || c == '.') := by
  revert hc
  exact ascii_forall (P := fun c => okByte (UInt8.ofNat c.toNat) = (c.isAlphanum || c == '-' || c == '_' || c == '.'))
    (by decide +kernel)

theorem okOrUnderscore_large {b : UInt8} (hb : 128 ≤ b.toNat) : okOrUnderscore b = underscore := by
  have hok : okByte b = false := by
    simp only [okByte, Bool.or_eq_false_iff, Bool.and_eq_false_iff, decide_eq_false_iff_not, beq_eq_false_iff_ne]
    omega
  rw [okOrUnderscore, hok]
  rfl

theorem map_utf8EncodeChar : (String.utf8EncodeChar (if py.keeps c then c else '_')).map okOrUnderscore = mask py c := by
  by_cases hc : c.toNat < 128
  · rw [mask, if_pos hc]
    by_cases hkeeps : py.keeps c = true
    · rw [if_pos hkeeps, utf8EncodeChar_ascii hc, List.map_singleton]
    · have hok : okByte (UInt8.ofNat c.toNat) = false := by
        rw [okByte_ascii hc, ← py.isalnum_ascii c hc]
        exact Bool.eq_false_iff.2 hkeeps
      rw [if_neg hkeeps, okOrUnderscore, hok]
      rfl
  · rw [mask, if_neg hc]
    have hkeeps : py.keeps c = py.isalnum c := by
      have hne : ∀ m : Char, m.toNat < 128 → (c == m) = false := by
        intro m hm
        rw [beq_eq_false_iff_ne]
        rintro rfl
        exact hc hm
      rw [Tables.keeps, hne '-' (by decide), hne '_' (by decide), hne '.' (by decide), Bool.or_false, Bool.or_false,
        Bool.or_false]
    rw [hkeeps]
    by_cases hal : py.isalnum c = true
    · rw [if_pos hal, if_pos hal, List.eq_replicate_iff, List.length_map, String.length_utf8EncodeChar]
      refine ⟨rfl, fun b hb => ?_⟩
      obtain ⟨b₀, hb₀, rfl⟩ := List.mem_map.1 hb
      exact okOrUnderscore_large (le_of_mem_utf8EncodeChar hc hb₀)
    · rw [if_neg hal, if_neg hal]
      rfl

theorem mask_ne_nil : mask py c ≠ [] := by
  rw [← map_utf8EncodeChar, ne_eq, List.map_eq_nil_iff]
  exact utf8EncodeChar_ne_nil

/-- The engine cuts bytes where the others have cut characters. -/
theorem sanitize_clean : sanitizeTenantIdForAmf (utf8 (clean py sub)) = masked py sub := by
  have hmap : (utf8 (clean py sub)).map okOrUnderscore = ((tenantText py sub).take 128).flatMap (mask py) := by
    rw [utf8, clean, Tables.safe, ← List.map_take, List.flatMap_map, List.map_flatMap]
    simp [map_utf8EncodeChar]
  rw [sanitizeTenantIdForAmf, if_neg (utf8_ne_nil clean_ne_nil), hmap, take_flatMap_take fun _ => mask_ne_nil, masked]

def space (py : Tables) (env : Env) (sub : Submission) : Option (List UInt8) :=
  if env.sharedByEngine sub.job.prompt then some (utf8 sharedTenant)
  else if env.tenantIsolation then some (masked py sub)
  else none

theorem engineTenantId_eq : engineTenantId py env sub = space py env sub := by
  rw [engineTenantId, adapterTenantId_eq, sanitize_clean, space]

/-! ### Two submissions -/

/-- The ids under which entries are looked up and stored all differ. -/
def Separated (py : Tables) (env : Env) (a b : Submission) : Prop :=
  resolvedTenantId py a ≠ resolvedTenantId py b ∧ coordinatorTenantId py a ≠ coordinatorTenantId py b ∧
    engineTenantId py env a ≠ engineTenantId py env b

/-- A lookup of one may have a key of the coordinator that the other has registered. -/
def SameKey (py : Tables) (a b : Submission) : Prop :=
  ∃ h h', Coordinator.composite py.toStrings (resolvedTenantId py a) h =
    Coordinator.composite py.toStrings (resolvedTenantId py b) h'

/-- The engine looks for the prefixes of both in one directory and under one hash. -/
def SameStore (py : Tables) (env : Env) (a b : Submission) : Prop :=
  tenantDir py env a = tenantDir py env b ∧ tenantHash py env a = tenantHash py env b

def Isolated (env : Env) (sub : Submission) : Prop :=
  env.tenantIsolation = true ∧ env.sharedByAdapter sub.job.prompt = false ∧ env.sharedByEngine sub.job.prompt = false

theorem colon_notMem_clean : ':' ∉ clean py sub := by
  intro hmem
  have hkeeps := safe_clean ':' hmem
  simp [Tables.keeps, py.isalnum_colon] at hkeeps

theorem colon_notMem_safeHash {h : Text} : ':' ∉ Coordinator.safeHash py.toStrings h := by
  intro hmem
  have halnum := List.of_mem_filter (List.mem_of_mem_take hmem)
  rw [py.isalnum_colon] at halnum
  cases halnum

theorem sameKey_iff : SameKey py a b ↔ clean py a = clean py b := by
  have hkey : ∀ sub h, Coordinator.composite py.toStrings (resolvedTenantId py sub) h =
      clean py sub ++ ':' :: Coordinator.safeHash py.toStrings h :=
    fun sub h => congrArg (· ++ ':' :: Coordinator.safeHash py.toStrings h) coordinatorTenantId_eq
  simp only [SameKey, hkey, List.append_cons_inj_of_notMem colon_notMem_clean colon_notMem_safeHash]
  constructor
  · rintro ⟨h, h', heq, -⟩
    exact heq
  · intro heq
    exact ⟨[], [], heq, trivial, rfl⟩

theorem sameStore_iff (ha : Isolated env a) (hb : Isolated env b) : SameStore py env a b ↔ clean py a = clean py b := by
  have hdir : ∀ sub, Isolated env sub → tenantDir py env sub = some (clean py sub) := by
    rintro sub ⟨hiso, hadapter, -⟩
    simp [tenantDir, hiso, hadapter, adapterTenantId_eq]
  have hengine : ∀ sub, Isolated env sub → engineTenantId py env sub = some (sanitizeTenantIdForAmf (utf8 (clean py sub))) := by
    rintro sub ⟨hiso, -, hshared⟩
    simp [engineTenantId, hiso, hshared, adapterTenantId_eq]
  rw [SameStore, hdir a ha, hdir b hb, tenantHash, tenantHash, hengine a ha, hengine b hb, Option.some.injEq]
  refine ⟨And.left, fun heq => ⟨heq, ?_⟩⟩
  rw [heq]

/-! ### Plain organizations -/

def Plain (t : Text) : Prop :=
  t ≠ [] ∧ t.length ≤ 128 ∧ ∀ c ∈ t, c.toNat < 128 ∧ okByte (UInt8.ofNat c.toNat) = true

def Unnamed (sub : Submission) : Prop := sub.header = [] ∧ Plain sub.orgId

theorem Plain.safe (h : Plain t) : Safe py t := by
  intro c hc
  obtain ⟨hascii, hok⟩ := h.2.2 c hc
  rwa [okByte_ascii hascii, ← py.isalnum_ascii c hascii] at hok

theorem Unnamed.tenantText_eq (h : Unnamed sub) : tenantText py sub = sub.orgId := by
  obtain ⟨hheader, hplain⟩ := h
  have hraw : orElse sub.header (orElse sub.orgId defaultTenant) = sub.orgId := by
    rw [hheader, orElse_of_ne hplain.1]
    rfl
  rw [tenantText, hraw, hplain.safe.strip_eq, orElse_of_ne hplain.1]

theorem Unnamed.clean_eq (h : Unnamed sub) : clean py sub = sub.orgId := by
  rw [clean, h.tenantText_eq, h.2.safe.safe_eq, List.take_of_length_le h.2.2.1]

theorem Unnamed.masked_eq (h : Unnamed sub) : masked py sub = sub.orgId.map fun c => UInt8.ofNat c.toNat := by
  have hmask : ∀ c ∈ sub.orgId, mask py c = [UInt8.ofNat c.toNat] := by
    intro c hc
    obtain ⟨hascii, hok⟩ := h.2.2.2 c hc
    rw [mask, if_pos hascii, okOrUnderscore, if_pos hok]
  have hmap : sub.orgId.flatMap (mask py) = sub.orgId.map fun c => UInt8.ofNat c.toNat := by
    rw [List.flatMap_congr hmask, ← List.map_eq_flatMap]
  rw [masked, h.tenantText_eq, hmap, List.take_of_length_le (by rw [List.length_map]; exact h.2.2.1)]

theorem Unnamed.orgId_eq (ha : Unnamed a) (hb : Unnamed b) (h : masked py a = masked py b) : a.orgId = b.orgId := by
  -- an ASCII character can be read back from its byte
  have hback : ∀ sub, Unnamed sub → (masked py sub).map (fun b => Char.ofNat b.toNat) = sub.orgId := by
    intro sub hsub
    rw [hsub.masked_eq, List.map_map]
    refine (List.map_congr_left fun c hc => ?_).trans (List.map_id _)
    have hascii := (hsub.2.2.2 c hc).1
    simp only [Function.comp_apply, UInt8.toNat_ofNat', id]
    rw [Nat.mod_eq_of_lt (by omega), Char.ofNat_toNat]
  rw [← hback a ha, ← hback b hb, h]

theorem separated_iff : Separated py env a b ↔ clean py a ≠ clean py b ∧ space py env a ≠ space py env b := by
  rw [Separated, resolvedTenantId_eq, resolvedTenantId_eq, coordinatorTenantId_eq, coordinatorTenantId_eq,
    engineTenantId_eq, engineTenantId_eq, ← and_assoc, and_self]

theorem separated_iff_orgId (ha : Isolated env a) (hb : Isolated env b) (hna : Unnamed a) (hnb : Unnamed b) :
    Separated py env a b ↔ a.orgId ≠ b.orgId := by
  have hspace : ∀ sub, Isolated env sub → space py env sub = some (masked py sub) := by
    rintro sub ⟨hiso, -, hshared⟩
    simp [space, hiso, hshared]
  rw [separated_iff, hspace a ha, hspace b hb, hna.clean_eq, hnb.clean_eq, ne_eq (some _), Option.some.injEq]
  refine ⟨And.left, fun hne => ⟨hne, fun heq => hne (hna.orgId_eq hnb heq)⟩⟩

/-- The ids differ with the organizations if tenants are isolated, no header is sent, and the organizations have plain
ids. -/
theorem tenants_separated_iff (py : Tables) (env : Env) (a b : Submission) :
    (Separated py env a b ↔ clean py a ≠ clean py b ∧ space py env a ≠ space py env b) ∧
      (SameKey py a b ↔ clean py a = clean py b) ∧
      (Isolated env a → Isolated env b →
        (SameStore py env a b ↔ clean py a = clean py b) ∧
          (Unnamed a → Unnamed b → (Separated py env a b ↔ a.orgId ≠ b.orgId))) :=
  ⟨separated_iff, sameKey_iff, fun ha hb => ⟨sameStore_iff ha hb, separated_iff_orgId ha hb⟩⟩

def ascii : Tables where
  isalnum := Char.isAlphanum
  isspace := Char.isWhitespace
  lower := List.map Char.toLower
  isalnum_of_isspace := by
    intro c hc
    simp only [Char.isWhitespace, Bool.or_eq_true, decide_eq_true_eq] at hc
    rcases hc with ((rfl | rfl) | rfl) | rfl <;> decide
  isspace_mark := by
    intro c hc
    simp only [List.mem_cons, List.not_mem_nil, or_false] at hc
    rcases hc with rfl | rfl | rfl <;> rfl
  isalnum_colon := rfl
  isalnum_ascii := fun _ _ => rfl

def isolating : Env := ⟨true, fun _ => false, fun _ => false⟩

def submission (orgId header : String) : Submission := ⟨orgId.toList, header.toList, ⟨[], [], ['h', 'i']⟩⟩

def Collide (py : Tables) (env : Env) (a b : Submission) : Prop :=
  a.orgId ≠ b.orgId ∧ ¬ Separated py env a b ∧ amfLookupHash py a = amfLookupHash py b ∧ SameKey py a b ∧
    SameStore py env a b

theorem collide_of_clean_eq (horg : a.orgId ≠ b.orgId) (hclean : clean py a = clean py b)
    (hprompt : a.job.prompt = b.job.prompt) (ha : Isolated env a) (hb : Isolated env b) : Collide py env a b := by
  refine ⟨horg, fun hsep => (separated_iff.1 hsep).1 hclean, ?_, sameKey_iff.2 hclean, (sameStore_iff ha hb).2 hclean⟩
  rw [amfLookupHash, amfLookupHash, resolvedTenantId_eq, resolvedTenantId_eq, hclean, hprompt]

/-- Two organizations that send one header, and two that send none but whose ids are cleaned to one. -/
theorem tenants_collide : Collide ascii isolating (submission "acme" "team") (submission "globex" "team") ∧
      Collide ascii isolating (submission "a b" "") (submission "a_b" "") := by
  constructor
  · exact collide_of_clean_eq (by decide) (by decide +kernel) rfl ⟨rfl, rfl, rfl⟩ ⟨rfl, rfl, rfl⟩
  · exact collide_of_clean_eq (by decide) (by decide +kernel) rfl ⟨rfl, rfl, rfl⟩ ⟨rfl, rfl, rfl⟩

end Korith.Tenants
