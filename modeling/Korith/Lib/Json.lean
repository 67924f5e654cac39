import Korith.Lib.Format
import Mathlib.Data.List.Sort
import Mathlib.Order.Basic

/-!
# Strings of Python, and `json.dumps`

A string is a list of code points, lone surrogates included; a string with one of them has no UTF-8 form. With
`ensure_ascii` every code point above `~` is escaped, without it none is. The two texts are the same exactly if no
string of the value, and no key, has such a code point: DEL is one of them.
-/

namespace Korith

abbrev PyStr : Type := List Nat

def pyStr (s : String) : PyStr := s.toList.map Char.toNat

def encodable (s : PyStr) : Bool := s.all fun c => !(decide (0xd800 ≤ c) && decide (c ≤ 0xdfff))

def nulFree (s : PyStr) : Bool := s.all fun c => c != 0

def strLe : PyStr → PyStr → Bool
  | [], _ => true
  | _ :: _, [] => false
  | a :: as, b :: bs => decide (a < b) || (a == b && strLe as bs)

inductive Json
  | null
  | bool (b : Bool)
  /-- a number, as `repr` writes it -/
  | num (repr : PyStr)
  | str (s : PyStr)
  | arr (items : List Json)
  | obj (items : List (PyStr × Json))

namespace Json

def hexEscape (n : Nat) : PyStr := pyStr "\\u" ++ (hexPad 4 n).map Char.toNat

def escape (ensureAscii : Bool) (c : Nat) : PyStr :=
  if c = 0x22 then pyStr "\\\""
  else if c = 0x5c then pyStr "\\\\"
  else if c = 0x0a then pyStr "\\n"
  else if c = 0x0d then pyStr "\\r"
  else if c = 0x09 then pyStr "\\t"
  else if c = 0x0c then pyStr "\\f"
  else if c = 0x08 then pyStr "\\b"
  else if c < 0x20 ∨ (ensureAscii = true ∧ 0x7e < c) then
    if c < 0x10000 then hexEscape c
    else hexEscape (0xd800 + (c - 0x10000) / 0x400) ++ hexEscape (0xdc00 + (c - 0x10000) % 0x400)
  else [c]

def quote (ensureAscii : Bool) (s : PyStr) : PyStr := 0x22 :: s.flatMap (escape ensureAscii) ++ [0x22]

def pair (ensureAscii : Bool) (item : PyStr × PyStr) : PyStr := quote ensureAscii item.1 ++ pyStr ": " ++ item.2

def byKey (items : List (PyStr × PyStr)) : List (PyStr × PyStr) :=
  items.insertionSort fun a b => strLe a.1 b.1 = true

mutual

def dumps (ensureAscii sortKeys : Bool) : Json → PyStr
  | .null => pyStr "null"
  | .bool b => if b then pyStr "true" else pyStr "false"
  | .num repr => repr
  | .str s => quote ensureAscii s
  | .arr items => 0x5b :: (pyStr ", ").intercalate (dumpsItems ensureAscii sortKeys items) ++ [0x5d]
  | .obj items =>
    let written := dumpsPairs ensureAscii sortKeys items
    let sorted := if sortKeys then byKey written else written
    0x7b :: (pyStr ", ").intercalate (sorted.map (pair ensureAscii)) ++ [0x7d]

def dumpsItems (ensureAscii sortKeys : Bool) : List Json → List PyStr
  | [] => []
  | item :: items => dumps ensureAscii sortKeys item :: dumpsItems ensureAscii sortKeys items

def dumpsPairs (ensureAscii sortKeys : Bool) : List (PyStr × Json) → List (PyStr × PyStr)
  | [] => []
  | item :: items => dumpsPair ensureAscii sortKeys item :: dumpsPairs ensureAscii sortKeys items

def dumpsPair (ensureAscii sortKeys : Bool) : PyStr × Json → PyStr × PyStr
  | (key, value) => (key, dumps ensureAscii sortKeys value)

end

/-! ### When both ways of writing agree -/

def plainStr (s : PyStr) : Bool := s.all fun c => decide (c ≤ 0x7e)

mutual

/-- No string and no key has a code point above `~`. -/
def plain : Json → Bool
  | .null => true
  | .bool _ => true
  | .num _ => true
  | .str s => plainStr s
  | .arr items => plainItems items
  | .obj items => plainPairs items

def plainItems : List Json → Bool
  | [] => true
  | item :: items => plain item && plainItems items

def plainPairs : List (PyStr × Json) → Bool
  | [] => true
  | item :: items => plainPair item && plainPairs items

def plainPair : PyStr × Json → Bool
  | (key, value) => plainStr key && plain value

end

theorem ind {P : Json → Prop} (null : P .null) (bool : ∀ b, P (.bool b)) (num : ∀ repr, P (.num repr))
    (str : ∀ s, P (.str s)) (arr : ∀ items, (∀ j ∈ items, P j) → P (.arr items))
    (obj : ∀ items : List (PyStr × Json), (∀ p ∈ items, P p.2) → P (.obj items)) (j : Json) : P j := by
  refine @Json.rec P (fun items => ∀ j ∈ items, P j) (fun items => ∀ p ∈ items, P p.2) (fun p => P p.2) null bool num
    str arr obj ?_ ?_ ?_ ?_ ?_ j
  · exact fun j hj => absurd hj List.not_mem_nil
  · exact fun j items hj hitems => List.forall_mem_cons.2 ⟨hj, hitems⟩
  · exact fun p hp => absurd hp List.not_mem_nil
  · exact fun p items hp hitems => List.forall_mem_cons.2 ⟨hp, hitems⟩
  · exact fun key value hvalue => hvalue

variable {a k : Bool} {s : PyStr} {c : Nat} {items : List Json}

theorem dumpsItems_eq : dumpsItems a k items = items.map (dumps a k) := by
  induction items with
  | nil => rfl
  | cons item items ih => rw [dumpsItems, ih, List.map_cons]

theorem dumpsPairs_eq {items : List (PyStr × Json)} :
    dumpsPairs a k items = items.map fun p => (p.1, dumps a k p.2) := by
  induction items with
  | nil => rfl
  | cons item items ih => rw [dumpsPairs, ih, List.map_cons, dumpsPair]

theorem plainItems_iff : plainItems items = true ↔ ∀ j ∈ items, plain j = true := by
  induction items with
  | nil => exact iff_of_true rfl fun j hj => absurd hj List.not_mem_nil
  | cons item items ih => rw [plainItems, Bool.and_eq_true, ih, List.forall_mem_cons]

theorem plainPairs_iff {items : List (PyStr × Json)} :
    plainPairs items = true ↔ ∀ p ∈ items, plainStr p.1 = true ∧ plain p.2 = true := by
  induction items with
  | nil => exact iff_of_true rfl fun p hp => absurd hp List.not_mem_nil
  | cons item items ih => rw [plainPairs, plainPair, Bool.and_eq_true, Bool.and_eq_true, ih, List.forall_mem_cons]

theorem escape_of_le (hc : c ≤ 0x7e) : escape true c = escape false c := by
  have hhigh : ¬ 0x7e < c := Nat.not_lt.2 hc
  simp [escape, hhigh]

theorem length_escape_lt (hc : 0x7e < c) : (escape false c).length < (escape true c).length := by
  have hne : c ≠ 0x22 ∧ c ≠ 0x5c ∧ c ≠ 0x0a ∧ c ≠ 0x0d ∧ c ≠ 0x09 ∧ c ≠ 0x0c ∧ c ≠ 0x08 ∧ ¬ c < 0x20 := by omega
  obtain ⟨h₁, h₂, h₃, h₄, h₅, h₆, h₇, h₈⟩ := hne
  have hraw : escape false c = [c] := by simp [escape, h₁, h₂, h₃, h₄, h₅, h₆, h₇, h₈]
  have hhex : ∀ n, 2 ≤ (hexEscape n).length := by
    intro n
    rw [hexEscape, List.length_append]
    exact Nat.le_add_right 2 _
  rw [hraw]
  simp only [escape, h₁, h₂, h₃, h₄, h₅, h₆, h₇, hc, if_false, and_self, or_true, if_true]
  split_ifs
  · exact hhex c
  · rw [List.length_append]
    exact Nat.lt_of_lt_of_le (hhex _) (Nat.le_add_right _ _)

/-- The first text is no longer than the second, and shorter unless `p`. -/
def Shorter (p : Prop) (x y : PyStr) : Prop := x.length ≤ y.length ∧ (x.length = y.length → p)

theorem Shorter.append {p q : Prop} {x y x' y' : PyStr} (h : Shorter p x y) (h' : Shorter q x' y') :
    Shorter (p ∧ q) (x ++ x') (y ++ y') := by
  obtain ⟨hle, hp⟩ := h
  obtain ⟨hle', hq⟩ := h'
  constructor
  · rw [List.length_append, List.length_append]
    omega
  · intro heq
    rw [List.length_append, List.length_append] at heq
    exact ⟨hp (by omega), hq (by omega)⟩

theorem Shorter.same (x : PyStr) : Shorter True x x := ⟨Nat.le_refl _, fun _ => trivial⟩

theorem Shorter.imp {p q : Prop} {x y : PyStr} (h : Shorter p x y) (hpq : p → q) : Shorter q x y :=
  ⟨h.1, fun heq => hpq (h.2 heq)⟩

theorem shorter_quote (s : PyStr) : Shorter (plainStr s = true) (quote false s) (quote true s) := by
  have hbody : Shorter (plainStr s = true) (s.flatMap (escape false)) (s.flatMap (escape true)) := by
    induction s with
    | nil => exact (Shorter.same []).imp fun _ => rfl
    | cons c s ih =>
      rw [List.flatMap_cons, List.flatMap_cons]
      have hc : Shorter (c ≤ 0x7e) (escape false c) (escape true c) := by
        rcases Nat.lt_or_ge 0x7e c with hlt | hle
        · exact ⟨Nat.le_of_lt (length_escape_lt hlt), fun heq => absurd heq (Nat.ne_of_lt (length_escape_lt hlt))⟩
        · rw [escape_of_le hle]
          exact (Shorter.same _).imp fun _ => hle
      refine (hc.append ih).imp fun hboth => ?_
      rw [plainStr, List.all_cons, decide_eq_true hboth.1, Bool.true_and]
      exact hboth.2
  exact (((Shorter.same [0x22]).append hbody).append (Shorter.same [0x22])).imp fun h => h.1.2

theorem shorter_intercalate {α : Type} {p : α → Prop} {f g : α → PyStr} (sep : PyStr) {l : List α}
    (h : ∀ x ∈ l, Shorter (p x) (f x) (g x)) :
    Shorter (∀ x ∈ l, p x) (sep.intercalate (l.map f)) (sep.intercalate (l.map g)) := by
  induction l with
  | nil => exact (Shorter.same []).imp fun _ x hx => absurd hx List.not_mem_nil
  | cons x l ih =>
    obtain ⟨hx, hl⟩ := List.forall_mem_cons.1 h
    cases l with
    | nil =>
      rw [List.map_singleton, List.map_singleton, List.intercalate_singleton, List.intercalate_singleton]
      refine hx.imp fun hp y hy => ?_
      rwa [List.mem_singleton.1 hy]
    | cons y l =>
      have hrest := ih hl
      rw [List.map_cons, List.map_cons] at hrest ⊢
      rw [List.map_cons, List.map_cons, List.intercalate_cons_cons, List.intercalate_cons_cons]
      exact ((hx.append (Shorter.same sep)).append hrest).imp fun hall => List.forall_mem_cons.2 ⟨hall.1.1, hall.2⟩

theorem shorter_dumps (j : Json) : Shorter (plain j = true) (dumps false false j) (dumps true false j) := by
  induction j using ind with
  | null => exact (Shorter.same _).imp fun _ => rfl
  | bool b => exact (Shorter.same _).imp fun _ => rfl
  | num repr => exact (Shorter.same _).imp fun _ => rfl
  | str s => exact shorter_quote s
  | arr items ih =>
    rw [dumps, dumps, dumpsItems_eq, dumpsItems_eq]
    have hbody := shorter_intercalate (pyStr ", ") ih
    refine (((Shorter.same [0x5b]).append hbody).append (Shorter.same [0x5d])).imp fun h => ?_
    rw [plain]
    exact plainItems_iff.2 h.1.2
  | obj items ih =>
    rw [dumps, dumps, dumpsPairs_eq, dumpsPairs_eq]
    simp only [Bool.false_eq_true, if_false, List.map_map]
    have hbody := shorter_intercalate (pyStr ", ") fun p hp =>
      ((shorter_quote p.1).append (Shorter.same (pyStr ": "))).append (ih p hp)
    refine (((Shorter.same [0x7b]).append hbody).append (Shorter.same [0x7d])).imp fun h => ?_
    rw [plain]
    exact plainPairs_iff.2 fun p hp => ⟨(h.1.2 p hp).1.1, (h.1.2 p hp).2⟩

theorem quote_of_plain (h : plainStr s = true) : quote true s = quote false s := by
  have hbody : s.flatMap (escape true) = s.flatMap (escape false) := by
    refine List.flatMap_congr fun c hc => escape_of_le ?_
    exact of_decide_eq_true (List.all_eq_true.1 h c hc)
  rw [quote, quote, hbody]

theorem dumps_of_plain {j : Json} (h : plain j = true) : dumps true k j = dumps false k j := by
  induction j using ind with
  | null => rfl
  | bool b => rfl
  | num repr => rfl
  | str s => exact quote_of_plain h
  | arr items ih =>
    rw [plain, plainItems_iff] at h
    rw [dumps, dumps, dumpsItems_eq, dumpsItems_eq, List.map_congr_left fun j hj => ih j hj (h j hj)]
  | obj items ih =>
    rw [plain, plainPairs_iff] at h
    have hpairs : dumpsPairs true k items = dumpsPairs false k items := by
      rw [dumpsPairs_eq, dumpsPairs_eq]
      exact List.map_congr_left fun p hp => by rw [ih p hp (h p hp).2]
    have hkeys : ∀ q ∈ dumpsPairs false k items, plainStr q.1 = true := by
      intro q hq
      rw [dumpsPairs_eq] at hq
      obtain ⟨p, hp, rfl⟩ := List.mem_map.1 hq
      exact (h p hp).1
    have hsorted : ∀ q ∈ if k then byKey (dumpsPairs false k items) else dumpsPairs false k items,
        plainStr q.1 = true := by
      intro q hq
      split_ifs at hq
      · exact hkeys q ((List.mem_insertionSort _).1 hq)
      · exact hkeys q hq
    rw [dumps, dumps, hpairs,
      List.map_congr_left fun q hq => by rw [pair, quote_of_plain (hsorted q hq), ← pair]]

theorem dumps_eq_iff {j : Json} : dumps true false j = dumps false false j ↔ plain j = true :=
  ⟨fun h => (shorter_dumps j).2 (congrArg List.length h).symm, dumps_of_plain⟩

end Json

end Korith
