import Mathlib.Data.List.Infix
import Mathlib.Data.List.Induction

/-!
# Paths

A path as `pathlib` keeps it: whether it starts at the root, and its parts, among which there are no empty ones and no
`.`. A text that starts with a slash replaces the path it is joined to. Without symbolic links a path is resolved by
going along its parts, back at each `..`.

After `cancel` a list of parts goes up some levels and then down along some names. It stays in the directory exactly
if the names begin with the levels that it went up (`prefix_walk_iff`).
-/

namespace Korith

abbrev Place : Type := List (List Char)

structure Path where
  absolute : Bool
  parts : List (List Char)
  deriving DecidableEq

namespace Path

def isAbsolute (text : List Char) : Bool := decide (text.head? = some '/')

def components (text : List Char) : List (List Char) :=
  (text.splitOn '/').filter fun part => decide (part ≠ [] ∧ part ≠ ['.'])

def ofText (text : List Char) : Path := ⟨isAbsolute text, components text⟩

def join (path : Path) (text : List Char) : Path :=
  if isAbsolute text then ofText text else ⟨path.absolute, path.parts ++ components text⟩

def dotDot : List Char := ['.', '.']

def enter (dir : Place) (part : List Char) : Place := if part = dotDot then dir.dropLast else dir ++ [part]

def walk (dir : Place) (parts : List (List Char)) : Place := parts.foldl enter dir

def resolve (cwd : Place) (path : Path) : Place := walk (if path.absolute then [] else cwd) path.parts

variable {cwd dir loc : Place} {path : Path} {text name part : List Char} {parts : List (List Char)}

theorem walk_append {parts' : List (List Char)} : walk dir (parts ++ parts') = walk (walk dir parts) parts' :=
  List.foldl_append

theorem resolve_join (h : isAbsolute text = false) :
    resolve cwd (path.join text) = walk (resolve cwd path) (components text) := by
  simp [join, h, resolve, walk_append]

theorem resolve_join_absolute (h : isAbsolute text = true) :
    resolve cwd (path.join text) = walk [] (components text) := by
  simp [join, h, ofText, resolve]

/-! ### Plain names -/

/-- The text is one part, and does not go back. -/
def Plain (text : List Char) : Prop := '/' ∉ text ∧ text ≠ [] ∧ text ≠ ['.'] ∧ text ≠ dotDot
  deriving Decidable

theorem Plain.components_eq (h : Plain text) : components text = [text] := by
  obtain ⟨hslash, hne, hdot, -⟩ := h
  rw [components, List.splitOn_eq_singleton hslash]
  simp [hne, hdot]

theorem Plain.isAbsolute_eq (h : Plain text) : isAbsolute text = false := by
  refine decide_eq_false fun hhead => h.1 ?_
  exact List.mem_of_mem_head? hhead

theorem Plain.walk_eq (h : Plain text) : walk dir (components text) = dir ++ [text] := by
  rw [h.components_eq]
  exact if_neg h.2.2.2

theorem Plain.resolve_join (h : Plain text) : resolve cwd (path.join text) = resolve cwd path ++ [text] := by
  rw [Path.resolve_join h.isAbsolute_eq, h.walk_eq]

/-! ### Where parts lead -/

def cancelPart (acc : Nat × Place) (part : List Char) : Nat × Place :=
  if part = dotDot then
    if acc.2 = [] then (acc.1 + 1, []) else (acc.1, acc.2.dropLast)
  else (acc.1, acc.2 ++ [part])

/-- How many levels the parts go up, and the names along which they go down from there. -/
def cancel (parts : List (List Char)) : Nat × Place := parts.foldl cancelPart (0, [])

theorem cancel_concat : cancel (parts ++ [part]) = cancelPart (cancel parts) part := by
  rw [cancel, List.foldl_append]
  rfl

theorem walk_concat : walk dir (parts ++ [part]) = enter (walk dir parts) part := walk_append

def above (dir : Place) (up : Nat) : Place := dir.take (dir.length - up)

theorem dropLast_above {up : Nat} : (above dir up).dropLast = above dir (up + 1) := by
  rw [above, above, List.dropLast_eq_take, List.take_take, List.length_take]
  congr 1
  omega

theorem enter_above {acc : Nat × Place} :
    enter (above dir acc.1 ++ acc.2) part = above dir (cancelPart acc part).1 ++ (cancelPart acc part).2 := by
  obtain ⟨up, names⟩ := acc
  by_cases hpart : part = dotDot
  · by_cases hnames : names = []
    · simp [enter, cancelPart, hpart, hnames, dropLast_above]
    · simp [enter, cancelPart, hpart, hnames, List.dropLast_append_of_ne_nil]
  · simp [enter, cancelPart, hpart]

theorem walk_eq : walk dir parts = above dir (cancel parts).1 ++ (cancel parts).2 := by
  -- from the end: the last part is what changes what the others have given
  induction parts using List.reverseRecOn with
  | nil => simp [walk, cancel, above]
  | append_singleton parts part ih => rw [walk_concat, cancel_concat, ih, enter_above]

theorem prefix_walk_iff : dir <+: walk dir parts ↔ dir.drop (dir.length - (cancel parts).1) <+: (cancel parts).2 := by
  have hsplit : above dir (cancel parts).1 ++ dir.drop (dir.length - (cancel parts).1) = dir :=
    List.take_append_drop _ _
  calc dir <+: walk dir parts
      ↔ above dir (cancel parts).1 ++ dir.drop (dir.length - (cancel parts).1) <+:
          above dir (cancel parts).1 ++ (cancel parts).2 := by rw [walk_eq, hsplit]
    _ ↔ dir.drop (dir.length - (cancel parts).1) <+: (cancel parts).2 := List.prefix_append_right_inj _

/-! ### Directories -/

def Inside (dir loc : Place) : Prop := dir <+: loc ∧ dir ≠ loc
  deriving Decidable

theorem inside_concat : Inside dir (loc ++ [name]) ↔ dir <+: loc := by
  rw [Inside, List.prefix_concat_iff]
  constructor
  · rintro ⟨rfl | h, hne⟩
    · exact absurd rfl hne
    · exact h
  · intro h
    refine ⟨.inr h, ?_⟩
    rintro rfl
    have hlength := h.length_le
    rw [List.length_append] at hlength
    exact Nat.not_succ_le_self _ hlength

end Path

end Korith
