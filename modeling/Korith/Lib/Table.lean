import Mathlib.Data.List.Nodup

/-!
# Tables with a primary key

A table is a list of rows in the order of their insertion whose keys are distinct. The statements of SQL that write
one are total on it, and each has a lemma that says which rows are there afterwards.
-/

namespace Korith

structure Table (κ ρ : Type) (key : ρ → κ) where
  rows : List ρ
  nodup : (rows.map key).Nodup

namespace Table

variable {κ ρ : Type} {key : ρ → κ} {t t' : Table κ ρ key} {r r' : ρ} {k : κ} {p : ρ → Bool} {f : ρ → ρ}
  {hf : ∀ r, key (f r) = key r}

instance : Membership ρ (Table κ ρ key) := ⟨fun t r => r ∈ t.rows⟩

instance [DecidableEq ρ] : DecidableEq (Table κ ρ key) := fun t t' =>
  decidable_of_iff (t.rows = t'.rows) ⟨fun h => by cases t; cases t'; cases h; rfl, fun h => h ▸ rfl⟩

theorem mem_rows : r ∈ t.rows ↔ r ∈ t := Iff.rfl

theorem eq_of_key (hr : r ∈ t) (hr' : r' ∈ t) (h : key r = key r') : r = r' :=
  List.inj_on_of_nodup_map t.nodup hr hr' h

def empty : Table κ ρ key := ⟨[], List.nodup_nil⟩

@[simp] theorem notMem_empty : r ∉ (empty : Table κ ρ key) := List.not_mem_nil

def deleteWhere (p : ρ → Bool) (t : Table κ ρ key) : Table κ ρ key :=
  ⟨t.rows.filter fun r => !p r, t.nodup.sublist (List.filter_sublist.map key)⟩

@[simp] theorem mem_deleteWhere : r ∈ t.deleteWhere p ↔ r ∈ t ∧ p r = false := by
  rw [← mem_rows, deleteWhere, List.mem_filter, Bool.not_eq_eq_eq_not, Bool.not_true, mem_rows]

/-- `UPDATE ... SET f WHERE p`; the key of a row stays. -/
def updateWhere (p : ρ → Bool) (f : ρ → ρ) (hf : ∀ r, key (f r) = key r) (t : Table κ ρ key) : Table κ ρ key where
  rows := t.rows.map fun r => if p r then f r else r
  nodup := by
    have hkeys : (t.rows.map fun r => if p r then f r else r).map key = t.rows.map key := by
      rw [List.map_map]
      refine List.map_congr_left fun r _ => ?_
      by_cases hp : p r <;> simp [hp, hf]
    rw [hkeys]
    exact t.nodup

theorem mem_updateWhere : r ∈ t.updateWhere p f hf ↔ (r ∈ t ∧ p r = false) ∨ ∃ r₀ ∈ t, p r₀ = true ∧ f r₀ = r := by
  rw [← mem_rows, updateWhere, List.mem_map]
  constructor
  · rintro ⟨r₀, hr₀, rfl⟩
    by_cases hp : p r₀ = true
    · rw [if_pos hp]
      exact .inr ⟨r₀, hr₀, hp, rfl⟩
    · rw [if_neg hp]
      exact .inl ⟨hr₀, Bool.eq_false_iff.2 hp⟩
  · rintro (⟨hr, hp⟩ | ⟨r₀, hr₀, hp, rfl⟩)
    · exact ⟨r, hr, by simp [hp]⟩
    · exact ⟨r₀, hr₀, by simp [hp]⟩

theorem updateWhere_eq_self (h : ∀ r ∈ t, p r = true → f r = r) : t.updateWhere p f hf = t := by
  cases t with
  | mk rows nodup =>
    rw [updateWhere]
    congr 1
    refine (List.map_congr_left fun r hr => ?_).trans (List.map_id rows)
    by_cases hp : p r = true
    · rw [if_pos hp, h r hr hp]
      rfl
    · rw [if_neg hp]
      rfl

variable [DecidableEq κ]

def insertOrReplace (r : ρ) (t : Table κ ρ key) : Table κ ρ key where
  rows := (t.deleteWhere fun r' => decide (key r' = key r)).rows ++ [r]
  nodup := by
    rw [List.map_append, List.nodup_append]
    refine ⟨(t.deleteWhere _).nodup, List.nodup_singleton _, fun k hk k' hk' heq => ?_⟩
    obtain ⟨r', hr', rfl⟩ := List.mem_map.1 hk
    have hne : ¬ key r' = key r := by simpa using (mem_deleteWhere.1 hr').2
    rw [List.map_singleton, List.mem_singleton] at hk'
    exact hne (heq.trans hk')

@[simp] theorem mem_insertOrReplace : r' ∈ t.insertOrReplace r ↔ r' = r ∨ (r' ∈ t ∧ key r' ≠ key r) := by
  rw [← mem_rows, insertOrReplace, List.mem_append, List.mem_singleton, mem_rows, mem_deleteWhere,
    decide_eq_false_iff_not, or_comm]

def find (k : κ) (t : Table κ ρ key) : Option ρ := t.rows.find? fun r => decide (key r = k)

theorem find_eq_some_iff : t.find k = some r ↔ r ∈ t ∧ key r = k := by
  constructor
  · intro h
    exact ⟨List.mem_of_find?_eq_some h, by simpa using List.find?_some h⟩
  · rintro ⟨hr, rfl⟩
    cases hfind : t.find (key r) with
    | none =>
      have hnone := List.find?_eq_none.1 hfind r hr
      simp at hnone
    | some r' =>
      have hk : key r' = key r := by simpa using List.find?_some hfind
      rw [eq_of_key (List.mem_of_find?_eq_some hfind) hr hk]

theorem perm_deleteWhere (hr : r ∈ t) :
    t.rows.Perm (r :: (t.deleteWhere fun r' => decide (key r' = key r)).rows) := by
  have hown : (t.rows.filter fun r' => decide (key r' = key r)).Perm [r] := by
    refine (List.perm_ext_iff_of_nodup ((List.Nodup.of_map key t.nodup).filter _) (List.nodup_singleton r)).2 fun r' => ?_
    rw [List.mem_filter, decide_eq_true_eq, List.mem_singleton]
    constructor
    · rintro ⟨hr', hk⟩
      exact eq_of_key hr' hr hk
    · rintro rfl
      exact ⟨hr, rfl⟩
  exact ((hown.append_right _).symm.trans (List.filter_append_perm _ _)).symm

theorem find_deleteWhere : (t.deleteWhere p).find k = (t.find k).filter fun r => !p r := by
  ext r
  rw [find_eq_some_iff, mem_deleteWhere, Option.filter_eq_some_iff, find_eq_some_iff, Bool.not_eq_eq_eq_not,
    Bool.not_true]
  tauto

theorem find_insertOrReplace : (t.insertOrReplace r).find k = if key r = k then some r else t.find k := by
  ext r'
  rw [find_eq_some_iff, mem_insertOrReplace]
  split_ifs with hk
  · rw [Option.some.injEq]
    constructor
    · rintro ⟨rfl | ⟨-, hne⟩, hk'⟩
      · rfl
      · exact absurd (hk'.trans hk.symm) hne
    · rintro rfl
      exact ⟨.inl rfl, hk⟩
  · rw [find_eq_some_iff]
    constructor
    · rintro ⟨rfl | ⟨hr', -⟩, hk'⟩
      · exact absurd hk' hk
      · exact ⟨hr', hk'⟩
    · rintro ⟨hr', rfl⟩
      exact ⟨.inr ⟨hr', Ne.symm hk⟩, rfl⟩

theorem find_deleteKey {k' : κ} :
    (t.deleteWhere fun r => decide (key r = k)).find k' = if k' = k then none else t.find k' := by
  rw [find_deleteWhere]
  cases hfind : t.find k' with
  | none => rw [Option.filter_none, ite_self]
  | some r =>
    obtain ⟨-, rfl⟩ := find_eq_some_iff.1 hfind
    by_cases hk : key r = k <;> simp [hk]

theorem deleteKey_of_find_none (h : t.find k = none) : t.deleteWhere (fun r => decide (key r = k)) = t := by
  cases t with
  | mk rows nodup =>
    rw [deleteWhere]
    congr 1
    refine List.filter_eq_self.2 fun r hr => ?_
    simpa using List.find?_eq_none.1 h r hr

theorem rows_insertOrReplace (h : t.find (key r) = none) : (t.insertOrReplace r).rows = t.rows ++ [r] := by
  have hne : ∀ r' ∈ t.rows, (!decide (key r' = key r)) = true := by
    intro r' hr'
    simpa using List.find?_eq_none.1 h r' hr'
  exact congrArg (· ++ [r]) (List.filter_eq_self.2 hne)

theorem find_updateWhere : (t.updateWhere p f hf).find k = (t.find k).map fun r => if p r then f r else r := by
  ext r
  rw [find_eq_some_iff, mem_updateWhere, Option.map_eq_some_iff]
  constructor
  · rintro ⟨⟨hr, hp⟩ | ⟨r₀, hr₀, hp, rfl⟩, rfl⟩
    · exact ⟨r, find_eq_some_iff.2 ⟨hr, rfl⟩, by simp [hp]⟩
    · exact ⟨r₀, find_eq_some_iff.2 ⟨hr₀, (hf r₀).symm⟩, by simp [hp]⟩
  · rintro ⟨r₀, hfind, rfl⟩
    obtain ⟨hr₀, rfl⟩ := find_eq_some_iff.1 hfind
    by_cases hp : p r₀ = true
    · rw [if_pos hp]
      exact ⟨.inr ⟨r₀, hr₀, hp, rfl⟩, hf r₀⟩
    · rw [if_neg hp]
      exact ⟨.inl ⟨hr₀, Bool.eq_false_iff.2 hp⟩, rfl⟩

theorem find_updateKey {k' : κ} :
    (t.updateWhere (fun r => decide (key r = k)) f hf).find k' = if k' = k then (t.find k').map f else t.find k' := by
  rw [find_updateWhere]
  cases hfind : t.find k' with
  | none => rw [Option.map_none, Option.map_none, ite_self]
  | some r =>
    obtain ⟨-, rfl⟩ := find_eq_some_iff.1 hfind
    by_cases hk : key r = k <;> simp [hk]

theorem updateKey_of_find_none (h : t.find k = none) : t.updateWhere (fun r => decide (key r = k)) f hf = t :=
  updateWhere_eq_self fun r hr hk => absurd hk (List.find?_eq_none.1 h r hr)

/-- `d[key r] = r` of a Python dictionary: the row of the key is replaced where it stands, a new key comes last. -/
def assign (r : ρ) (t : Table κ ρ key) : Table κ ρ key :=
  if (t.find (key r)).isSome then
    ⟨t.rows.map fun r' => if key r' = key r then r else r', by
      have hkeys : (t.rows.map fun r' => if key r' = key r then r else r').map key = t.rows.map key := by
        rw [List.map_map]
        refine List.map_congr_left fun r' _ => ?_
        by_cases hk : key r' = key r <;> simp [hk]
      rw [hkeys]
      exact t.nodup⟩
  else t.insertOrReplace r

theorem find_assign : (t.assign r).find k = if key r = k then some r else t.find k := by
  unfold assign
  by_cases hold : (t.find (key r)).isSome = true
  · rw [if_pos hold]
    obtain ⟨r₀, hr₀⟩ := Option.isSome_iff_exists.1 hold
    obtain ⟨hmem, hkey⟩ := find_eq_some_iff.1 hr₀
    ext r'
    rw [find_eq_some_iff, ← mem_rows, List.mem_map]
    split_ifs with hk
    · rw [Option.some.injEq]
      constructor
      · rintro ⟨⟨r₁, -, rfl⟩, hk'⟩
        split_ifs with h₁
        · rfl
        · rw [if_neg h₁] at hk'
          exact absurd (hk'.trans hk.symm) h₁
      · rintro rfl
        exact ⟨⟨r₀, hmem, if_pos hkey⟩, hk⟩
    · rw [find_eq_some_iff]
      constructor
      · rintro ⟨⟨r₁, hr₁, rfl⟩, hk'⟩
        split_ifs at hk' with h₁
        · exact absurd hk' hk
        · rw [if_neg h₁]
          exact ⟨hr₁, hk'⟩
      · rintro ⟨hr', rfl⟩
        exact ⟨⟨r', hr', if_neg fun h => hk h.symm⟩, rfl⟩
  · rw [if_neg hold]
    exact find_insertOrReplace

end Table

end Korith
