import Vx6.Go.Text

/-!
# Paths

`filepath.Clean` and `filepath.Join` of the language on a system with `/` as separator. A cleaned path is
its components with the last one first; `..` takes the component before it away, and stays where there is
none unless the path is rooted.
-/

set_option autoImplicit false

namespace Vx6.Go

/-- A cleaned path, with the last component first. -/
structure CleanPath where
  rooted : Bool
  stack : List String
  deriving DecidableEq

namespace CleanPath

/-- One component. -/
def push (rooted : Bool) (stack : List String) (part : String) : List String :=
  if part = "" ∨ part = "." then stack
  else if part = ".." then
    match stack with
    | [] => if rooted then [] else [".."]
    | top :: rest => if top = ".." then ".." :: top :: rest else rest
  else part :: stack

/-- `filepath.Join` of a cleaned path and an element. -/
def enter (p : CleanPath) (elem : String) : CleanPath :=
  { p with stack := (split elem '/').foldl (push p.rooted) p.stack }

/-- `filepath.Clean`. -/
def clean (s : String) : CleanPath := enter ⟨hasPrefix s "/", []⟩ s

/-- A single component that names an entry of a directory. -/
structure Proper (part : String) : Prop where
  ne_empty : part ≠ ""
  ne_dot : part ≠ "."
  ne_dots : part ≠ ".."
  slash : '/' ∉ part.toList

theorem enter_single (p : CleanPath) {part : String} (h : '/' ∉ part.toList) :
    p.enter part = { p with stack := push p.rooted p.stack part } := by
  rw [enter, split, splitChars_of_not_mem h, List.map_singleton, String.ofList_toList]
  rfl

theorem Proper.enter {part : String} (h : Proper part) (p : CleanPath) :
    p.enter part = { p with stack := part :: p.stack } := by
  have hpush : push p.rooted p.stack part = part :: p.stack := by
    simp [push, h.ne_empty, h.ne_dot, h.ne_dots]
  rw [enter_single p h.slash, hpush]

/-- The directory itself or a directory on the way to it. -/
def above (p dir : CleanPath) : Bool := p.rooted = dir.rooted && p.stack.isSuffixOf dir.stack

/-- An entry of the directory, or of a directory in it. -/
def Below (p dir : CleanPath) : Prop :=
  p.rooted = dir.rooted ∧ ∃ name front, p.stack = name :: (front ++ dir.stack)

theorem below_entry (dir : CleanPath) (name : String) : Below ⟨dir.rooted, name :: dir.stack⟩ dir :=
  ⟨rfl, name, [], rfl⟩

theorem above_iff {p dir : CleanPath} :
    p.above dir = true ↔ p.rooted = dir.rooted ∧ p.stack <:+ dir.stack := by
  simp [above]

theorem Below.length_lt {p dir : CleanPath} (h : p.Below dir) : dir.stack.length < p.stack.length := by
  obtain ⟨-, name, front, heq⟩ := h
  rw [heq, List.length_cons, List.length_append]
  omega

/-- What is below a directory is not on the way to an entry of the same parent. -/
theorem Below.not_above {p dir other : CleanPath} (h : p.Below dir)
    (hlength : other.stack.length ≤ dir.stack.length) : ¬ p.above other = true := by
  intro habove
  have hle := (above_iff.1 habove).2.length_le
  have hlt := h.length_lt
  omega

end CleanPath

end Vx6.Go
