import Korith.Platform.Coordinator
import Korith.Lib.Python
import Mathlib

/-!
# Which metadata a lookup survives

A lookup converts the metadata of all records of its key, so one record whose fields are no numbers makes the prefix
unavailable on every node. A hit rate that is not a number compares with nothing: as soon as there is another record, the
list is not in order.
-/

set_option linter.unusedSectionVars false

namespace Korith.Coordinator

variable {M T Q : Type} [LinearOrder Q] [LinearOrder T] {num : Numbers Q} {get : M → Text → Option (Value Q)}
  {rows : List (Record M T)} {keys : List (SortKey Q T)}

/-- The hit rate of a record, if it is a number. -/
def rate (num : Numbers Q) (get : M → Text → Option (Value Q)) (r : Record M T) : Option Q := (hitRate num get r).join

/-- The hit rates are numbers that do not increase. -/
def NonIncreasing (num : Numbers Q) (get : M → Text → Option (Value Q)) (rows : List (Record M T)) : Prop :=
  rows.Pairwise fun a b => ∃ x ∈ rate num get a, ∃ y ∈ rate num get b, y ≤ x

/-! ### The order of the keys -/

theorem before_iff {a b : SortKey Q T} {x y : Q} (ha : a.hitRate = some x) (hb : b.hitRate = some y) :
    a.before b = true ↔ toLex (y, toLex (b.cacheEntries, b.updatedAt)) < toLex (x, toLex (a.cacheEntries, a.updatedAt)) := by
  rw [Prod.Lex.toLex_lt_toLex, Prod.Lex.toLex_lt_toLex]
  unfold SortKey.before
  rw [ha, hb]
  dsimp only
  split_ifs with hxy hentries
  · simp [hxy, hentries]
  · simp [hxy, Ne.symm hentries]
  · simp [Ne.symm hxy]

theorem before_eq_false_iff {a b : SortKey Q T} {x y : Q} (ha : a.hitRate = some x) (hb : b.hitRate = some y) :
    a.before b = false ↔ toLex (x, toLex (a.cacheEntries, a.updatedAt)) ≤ toLex (y, toLex (b.cacheEntries, b.updatedAt)) := by
  rw [← Bool.not_eq_true, before_iff ha hb, not_lt]

theorem ordered_of_numbers {rows : List (SortKey Q T × Record M T)} (h : ∀ a ∈ rows, ∃ x, a.1.hitRate = some x) :
    Ordered (fun a b => a.1.before b.1) rows where
  asymm a ha b hb hab := by
    obtain ⟨x, hx⟩ := h a ha
    obtain ⟨y, hy⟩ := h b hb
    rw [before_iff hx hy] at hab
    rw [before_eq_false_iff hy hx]
    exact hab.le
  trans a ha b hb c hc hba hcb := by
    obtain ⟨x, hx⟩ := h a ha
    obtain ⟨y, hy⟩ := h b hb
    obtain ⟨z, hz⟩ := h c hc
    rw [before_eq_false_iff hy hx] at hba
    rw [before_eq_false_iff hz hy] at hcb
    rw [before_eq_false_iff hz hx]
    exact hcb.trans hba

theorem rate_of_sortKey {r : Record M T} {k : SortKey Q T} (h : sortKey num get r = some k) : rate num get r = k.hitRate := by
  obtain ⟨hitRate, hrate, h⟩ := Option.bind_eq_some_iff.1 h
  obtain ⟨entries, -, h⟩ := Option.bind_eq_some_iff.1 h
  cases h
  rw [rate, hrate]
  rfl

/-! ### Lookups -/

theorem lookup_cases (py : Strings) (list : Sorting (SortKey Q T × Record M T)) (tenantId prefixHash : Text)
    (s : Index M T) : (∃ r ∈ s.registered (composite py tenantId prefixHash), sortKey num get r = none) ∧
      lookup py num get list tenantId prefixHash s = none ∨
    ∃ rows, (∀ a ∈ rows, sortKey num get a.2 = some a.1) ∧
      rows.map Prod.snd = s.registered (composite py tenantId prefixHash) ∧
      lookup py num get list tenantId prefixHash s = some ((list.sort (fun a b => a.1.before b.1) rows).map Prod.snd) := by
  unfold lookup
  dsimp only
  generalize s.registered (composite py tenantId prefixHash) = rows
  cases hkeys : rows.mapM (sortKey num get) with
  | none => exact .inl ⟨exists_of_mapM_eq_none hkeys, rfl⟩
  | some keys =>
    have hpairs := forall₂_of_mapM hkeys
    refine .inr ⟨keys.zip rows, fun a ha => ?_, List.map_snd_zip hpairs.length_eq.le, rfl⟩
    exact (List.forall₂_iff_zip.1 hpairs.flip).2 ha

theorem NonIncreasing.rate_ne_none (h : NonIncreasing num get rows) (hlen : 1 < rows.length) :
    ∀ r ∈ rows, rate num get r ≠ none := by
  obtain _ | ⟨a, _ | ⟨b, rest⟩⟩ := rows
  · cases hlen
  · exact absurd hlen (Nat.lt_irrefl 1)
  obtain ⟨ha, -⟩ := List.pairwise_cons.1 h
  intro r hr hnone
  rcases List.mem_cons.1 hr with rfl | hr
  · obtain ⟨x, hx, -⟩ := ha b List.mem_cons_self
    rw [hnone] at hx
    cases hx
  · obtain ⟨-, -, y, hy, -⟩ := ha r hr
    rw [hnone] at hy
    cases hy

/-- A lookup returns the records of its key in the order of their hit rates exactly if the fields of each of them can be
converted and, where there is more than one, all hit rates are numbers. -/
theorem lookup_ordered_iff (py : Strings) (json : Json M) (num : Numbers Q) (get : M → Text → Option (Value Q))
    (list : Sorting (SortKey Q T × Record M T)) (ops : List (Op M T)) (tenantId prefixHash : Text) :
    (∃ rows, lookup py num get list tenantId prefixHash (run py json ops) = some rows ∧
      rows.Perm ((run py json ops).registered (composite py tenantId prefixHash)) ∧ NonIncreasing num get rows) ↔
    (∀ r ∈ (run py json ops).registered (composite py tenantId prefixHash), sortKey num get r ≠ none) ∧
      (1 < ((run py json ops).registered (composite py tenantId prefixHash)).length →
        ∀ r ∈ (run py json ops).registered (composite py tenantId prefixHash), rate num get r ≠ none) := by
  generalize run py json ops = s
  rcases lookup_cases py list tenantId prefixHash s with ⟨⟨r, hr, hnone⟩, hlookup⟩ | ⟨rows, hkeys, hrows, hlookup⟩
  · rw [hlookup]
    refine iff_of_false ?_ fun h => h.1 r hr hnone
    rintro ⟨rows, hsome, -⟩
    cases hsome
  rw [hlookup, ← hrows]
  have hperm := (list.perm (fun a b => a.1.before b.1) rows).map Prod.snd
  constructor
  · rintro ⟨sorted, hsorted, -, hinc⟩
    cases hsorted
    refine ⟨fun r hr hnone => ?_, fun hlen r hr => ?_⟩
    · obtain ⟨a, ha, rfl⟩ := List.mem_map.1 hr
      rw [hkeys a ha] at hnone
      cases hnone
    · exact hinc.rate_ne_none (hperm.length_eq ▸ hlen) r (hperm.mem_iff.2 hr)
  · rintro ⟨-, hnumbers⟩
    refine ⟨_, rfl, hperm, ?_⟩
    by_cases hlen : 1 < (rows.map Prod.snd).length
    · have hsome : ∀ a ∈ rows, ∃ x, a.1.hitRate = some x := by
        intro a ha
        rw [← rate_of_sortKey (hkeys a ha)]
        exact Option.ne_none_iff_exists'.1 (hnumbers hlen a.2 (List.mem_map_of_mem ha))
      refine List.pairwise_map.2 ((list.sorted _ rows (ordered_of_numbers hsome)).imp_of_mem fun {a b} ha hb hab => ?_)
      have ha' := (list.perm _ rows).mem_iff.1 ha
      have hb' := (list.perm _ rows).mem_iff.1 hb
      obtain ⟨x, hx⟩ := hsome a ha'
      obtain ⟨y, hy⟩ := hsome b hb'
      refine ⟨x, (rate_of_sortKey (hkeys a ha')).trans hx, y, (rate_of_sortKey (hkeys b hb')).trans hy, ?_⟩
      rw [before_eq_false_iff hy hx, Prod.Lex.toLex_le_toLex] at hab
      exact hab.elim le_of_lt fun heq => heq.1.le
    · rw [← hperm.length_eq] at hlen
      generalize (list.sort (fun a b => a.1.before b.1) rows).map Prod.snd = sorted at hlen
      obtain _ | ⟨a, _ | ⟨b, rest⟩⟩ := sorted
      · exact .nil
      · exact List.pairwise_singleton _ a
      · exact absurd (Nat.succ_lt_succ (Nat.succ_pos _)) hlen

def boolJson : Json Bool where
  dumps b := [if b then '1' else '0']
  loads t := if t = ['1'] then some true else if t = ['0'] then some false else none
  empty := false
  truthy := id
  loads_nil := rfl
  loads_dumps b := by cases b <;> rfl

def wholeNumbers : Numbers Int := ⟨0, 1, some, some, fun _ => none, fun _ => none⟩

/-- The metadata `true` has a word for its hit rate. -/
def highRate (metadata : Bool) (field : Text) : Option (Value Int) :=
  if metadata ∧ field = "hit_rate".toList then some (.str "high".toList) else none

/-- The prefix is found on a node until another node registers it with a word for its hit rate. -/
theorem lookup_lost_to_other_node :
    let find := fun ops => (lookup ⟨Char.isAlphanum, Char.isWhitespace, id⟩ wholeNumbers highRate
      ⟨stableSort, perm_stableSort, fun _ _ => pairwise_stableSort⟩ ['t'] ['1']
      (run ⟨Char.isAlphanum, Char.isWhitespace, id⟩ boolJson ops)).map fun rows => rows.map Record.nodeId
    let ops : List (Op Bool Nat) := [.register ['t'] ['1'] ['n'] ['w'] false 0]
    find ops = some [['n']] ∧ find (ops ++ [.register ['t'] ['1'] ['m'] ['w'] true 1]) = none := by
  decide

end Korith.Coordinator
