import Vx6.Lib.Dict

/-!
# Replacing a file by a renamed one

A file is replaced by writing the new contents to a temporary file of the same directory and renaming
that file. Each stage may fail, and the first one that does ends the attempt; the temporary file is
then removed, which may fail too.

`lookup_replace`: apart from the temporary file, the directory is the one before the attempt, with the
new contents at the path when no stage failed. A reader of the path never sees what a failed write
left behind.
-/

set_option autoImplicit false

namespace Vx6.Lib.Replace

universe u v

variable {κ : Type u} {ν : Type v} [DecidableEq κ]

/-- The stages of an attempt. -/
inductive Stage where
  | create
  | chmod
  | write
  | sync
  | close
  | rename
  deriving DecidableEq

/-- The outcome of an attempt: the name of the temporary file, the stage that failed, what a failed
write left in the file, and whether the file could be removed. -/
structure Attempt (κ : Type u) (ν : Type v) where
  temp : κ
  failed : Option Stage
  torn : ν
  removed : Bool

/-- The deferred removal of the temporary file. -/
def Attempt.discard (a : Attempt κ ν) (dir : Dict κ ν) : Dict κ ν :=
  if a.removed then dir.erase a.temp else dir

/-- The attempt to replace the file `path`; a new file holds `empty`. -/
def replace (a : Attempt κ ν) (empty : ν) (dir : Dict κ ν) (path : κ) (data : ν) :
    Dict κ ν × Except Stage Unit :=
  let created := dir.insert a.temp empty
  let filled := created.insert a.temp data
  match a.failed with
  | some .create => (dir, .error .create)
  | some .chmod => (a.discard created, .error .chmod)
  | some .write => (a.discard (created.insert a.temp a.torn), .error .write)
  | some .sync => (a.discard filled, .error .sync)
  | some .close => (a.discard filled, .error .close)
  | some .rename => (a.discard filled, .error .rename)
  | none => (a.discard ((filled.erase a.temp).insert path data), .ok ())

variable {a : Attempt κ ν} {empty data : ν} {dir : Dict κ ν} {path name : κ}

theorem lookup_discard (h : name ≠ a.temp) : (a.discard dir).lookup name = dir.lookup name := by
  rw [Attempt.discard]
  split_ifs
  · rw [Dict.lookup_erase_eq, if_neg h]
  · rfl

/-- What an attempt does to the files, the temporary one apart. -/
theorem lookup_replace (h : name ≠ a.temp) :
    (replace a empty dir path data).1.lookup name =
      if a.failed = none ∧ name = path then some data else dir.lookup name := by
  unfold replace
  cases hfailed : a.failed with
  | none =>
    by_cases hpath : name = path
    · simp [lookup_discard h, Dict.lookup_insert_eq, hpath]
    · simp [lookup_discard h, hpath, h]
  | some stage =>
    rw [if_neg (by simp)]
    cases stage with
    | create => rfl
    | chmod | write | sync | close | rename =>
      simp [lookup_discard h, h]

/-- An attempt succeeds when no stage fails. -/
theorem isOk_replace : (replace a empty dir path data).2.isOk = a.failed.isNone := by
  unfold replace
  cases a.failed with
  | none => rfl
  | some stage => cases stage <;> rfl

end Vx6.Lib.Replace
