import Mathlib.Tactic.IntervalCases

/-!
# Numbers and fields in file names

Numbers as `printf` writes them: in decimal, or in hex with leading zeros up to a width. Reading the digits back
(`readDigits`) gives the number, so each form is injective. Fields joined by underscores can be told apart if none
contains one; fields with a mark before each character always can.
-/

namespace Korith

def dec (n : Nat) : List Char := Nat.toDigits 10 n

def hexPad (width n : Nat) : List Char :=
  List.replicate (width - (Nat.toDigits 16 n).length) '0' ++ Nat.toDigits 16 n

def digitVal (c : Char) : Nat := if c.toNat < 97 then c.toNat - 48 else c.toNat - 87

def readDigits (b : Nat) (cs : List Char) : Nat := cs.foldl (fun acc c => b * acc + digitVal c) 0

variable {b m n d w : Nat} {cs xs ys : List Char}

theorem digitVal_digitChar (hd : d < 16) : digitVal d.digitChar = d := by
  interval_cases d <;> rfl

theorem readDigits_snoc (c : Char) : readDigits b (cs ++ [c]) = b * readDigits b cs + digitVal c := by
  rw [readDigits, List.foldl_append]
  rfl

theorem readDigits_zeros (k : Nat) : readDigits b (List.replicate k '0' ++ cs) = readDigits b cs := by
  have hzero : ∀ k, (List.replicate k '0').foldl (fun acc c => b * acc + digitVal c) 0 = 0 := by
    intro k
    induction k with
    | zero => rfl
    | succ k ih =>
      rw [List.replicate_succ, List.foldl_cons]
      exact ih
  rw [readDigits, List.foldl_append, hzero, readDigits]

theorem readDigits_toDigits (hb : 1 < b) (hb' : b ≤ 16) (n : Nat) : readDigits b (Nat.toDigits b n) = n := by
  induction n using Nat.strongRecOn with
  | ind n ih =>
    rw [Nat.toDigits_eq_if hb]
    split_ifs with hn
    · show b * 0 + digitVal n.digitChar = n
      rw [digitVal_digitChar (by omega), Nat.mul_zero, Nat.zero_add]
    · have hpos : 0 < n := by omega
      rw [readDigits_snoc, ih (n / b) (Nat.div_lt_self hpos hb),
        digitVal_digitChar (Nat.lt_of_lt_of_le (Nat.mod_lt n (by omega)) hb'), Nat.div_add_mod]

theorem dec_injective : Function.Injective dec := by
  intro m n h
  have := congrArg (readDigits 10) h
  rwa [dec, dec, readDigits_toDigits (by decide) (by decide), readDigits_toDigits (by decide) (by decide)] at this

theorem readDigits_hexPad : readDigits 16 (hexPad w n) = n := by
  rw [hexPad, readDigits_zeros, readDigits_toDigits (by decide) (by decide)]

theorem hexPad_injective : Function.Injective (hexPad w) := by
  intro m n h
  have := congrArg (readDigits 16) h
  rwa [readDigits_hexPad, readDigits_hexPad] at this

theorem le_readDigits_dec (n : Nat) : n ≤ readDigits 16 (dec n) ∧ (10 ≤ n → n < readDigits 16 (dec n)) := by
  induction n using Nat.strongRecOn with
  | ind n ih =>
    rw [dec, Nat.toDigits_eq_if (by decide)]
    split_ifs with hn
    · have hread : readDigits 16 [n.digitChar] = n := by
        show 16 * 0 + digitVal n.digitChar = n
        rw [digitVal_digitChar (by omega), Nat.mul_zero, Nat.zero_add]
      omega
    · have hrest := (ih (n / 10) (Nat.div_lt_self (by omega) (by decide))).1
      rw [dec] at hrest
      rw [readDigits_snoc, digitVal_digitChar (by omega)]
      omega

theorem length_hexPad : w ≤ (hexPad w n).length := by
  rw [hexPad, List.length_append, List.length_replicate]
  omega

theorem dec_ne_hexPad (hw : 2 ≤ w) (n : Nat) : dec n ≠ hexPad w n := by
  intro h
  have hlen : 2 ≤ (dec n).length := Nat.le_trans hw (h ▸ length_hexPad)
  have hge : 10 ≤ n := by
    by_contra hlt
    have : (dec n).length ≤ 1 := (Nat.length_toDigits_le_iff (by decide) (by decide)).2 (by omega)
    omega
  have hlt := (le_readDigits_dec n).2 hge
  rw [h, readDigits_hexPad] at hlt
  exact Nat.lt_irrefl n hlt

/-! ### Separators -/

theorem notMem_toDigits {c : Char} (hc : ∀ d, Nat.digitChar d ≠ c) (hb : 1 < b) (n : Nat) : c ∉ Nat.toDigits b n := by
  induction n using Nat.strongRecOn with
  | ind n ih =>
    rw [Nat.toDigits_eq_if hb]
    split_ifs with hn
    · simp [(hc n).symm]
    · have hpos : 0 < n := by omega
      rw [List.mem_append, List.mem_singleton]
      rintro (h | h)
      · exact ih (n / b) (Nat.div_lt_self hpos hb) h
      · exact hc _ h.symm

theorem digitChar_ne_underscore (d : Nat) : d.digitChar ≠ '_' := Nat.digitChar_ne '_' (by decide)

theorem underscore_notMem_dec : '_' ∉ dec n := notMem_toDigits digitChar_ne_underscore (by decide) n

theorem colon_notMem_dec : ':' ∉ dec n := notMem_toDigits (fun _ => Nat.digitChar_ne ':' (by decide)) (by decide) n

theorem underscore_notMem_hexPad : '_' ∉ hexPad w n := by
  rw [hexPad, List.mem_append]
  rintro (h | h)
  · exact absurd (List.eq_of_mem_replicate h) (by decide)
  · exact notMem_toDigits digitChar_ne_underscore (by decide) n h

theorem append_cons_inj {c : Char} {d d' : List Char} (hd : c ∉ d) (hd' : c ∉ d')
    (h : xs ++ c :: d = ys ++ c :: d') : xs = ys ∧ d = d' := by
  rcases List.append_eq_append_iff.1 h with ⟨m, hys, hm⟩ | ⟨m, hxs, hm⟩
  · cases m with
    | nil => exact ⟨by rw [hys, List.append_nil], (List.cons.inj hm).2⟩
    | cons x m => exact absurd ((List.cons.inj hm).2 ▸ by simp) hd
  · cases m with
    | nil => exact ⟨by rw [hxs, List.append_nil], (List.cons.inj hm).2.symm⟩
    | cons x m => exact absurd ((List.cons.inj hm).2 ▸ by simp) hd'

def joinFields (fields : List (List Char)) : String := String.ofList (['_'].intercalate fields)

theorem joinFields_inj {fs gs : List (List Char)} (hf : ∀ f ∈ fs, '_' ∉ f) (hg : ∀ g ∈ gs, '_' ∉ g)
    (hfs : fs ≠ []) (hgs : gs ≠ []) (h : joinFields fs = joinFields gs) : fs = gs := by
  have hlist : ['_'].intercalate fs = ['_'].intercalate gs := String.ofList_injective h
  rw [← List.splitOn_intercalate '_' hf hfs, hlist, List.splitOn_intercalate '_' hg hgs]

/-- Fields of any characters: each character has a comma before it, and each field a semicolon behind it. -/
def delimit (fields : List (List Char)) : List Char := fields.flatMap fun f => f.flatMap (fun c => [',', c]) ++ [';']

theorem delimited_append_inj {f g : List Char}
    (h : f.flatMap (fun c => [',', c]) ++ ';' :: xs = g.flatMap (fun c => [',', c]) ++ ';' :: ys) : f = g ∧ xs = ys := by
  induction f generalizing g with
  | nil =>
    cases g with
    | nil => exact ⟨rfl, (List.cons.inj h).2⟩
    | cons d g => exact absurd (List.cons.inj h).1 (by decide)
  | cons c f ih =>
    cases g with
    | nil => exact absurd (List.cons.inj h).1 (by decide)
    | cons d g =>
      obtain ⟨-, htail⟩ := List.cons.inj h
      obtain ⟨rfl, hrest⟩ := List.cons.inj htail
      obtain ⟨rfl, rfl⟩ := ih hrest
      exact ⟨rfl, rfl⟩

theorem delimit_injective : Function.Injective delimit := by
  intro fs
  induction fs with
  | nil =>
    intro gs h
    cases gs with
    | nil => rfl
    | cons g gs => simp [delimit] at h
  | cons f fs ih =>
    intro gs h
    cases gs with
    | nil => simp [delimit] at h
    | cons g gs =>
      rw [delimit, delimit, List.flatMap_cons, List.flatMap_cons, List.append_assoc, List.append_assoc] at h
      obtain ⟨rfl, hrest⟩ := delimited_append_inj h
      rw [ih hrest]

end Korith
