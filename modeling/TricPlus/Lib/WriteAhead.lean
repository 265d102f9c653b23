import Mathlib

/-!
A value kept in two places: a base, and beside it a log of the versions committed
since.  A reader sees the newest version; a checkpoint moves the oldest ones to the
base.
-/

namespace WriteAhead

structure Logged (α : Type) where
  base : α
  log : List α
  deriving DecidableEq

namespace Logged

variable {α : Type}

def current (logged : Logged α) : α :=
  logged.log.getLast?.getD logged.base

def commit (version : α) (logged : Logged α) : Logged α :=
  { logged with log := logged.log ++ [version] }

/-- The first `count` versions of the log go to the base. -/
def checkpoint (count : Nat) (logged : Logged α) : Logged α where
  base := (logged.log.take count).getLast?.getD logged.base
  log := logged.log.drop count

def versions (logged : Logged α) : List α :=
  logged.base :: logged.log

@[simp] theorem current_commit (version : α) (logged : Logged α) :
    (logged.commit version).current = version := by
  unfold current commit
  rw [List.getLast?_concat, Option.getD_some]

@[simp] theorem current_checkpoint (count : Nat) (logged : Logged α) :
    (logged.checkpoint count).current = logged.current := by
  unfold current checkpoint
  conv_rhs => rw [← List.take_append_drop count logged.log, List.getLast?_append]
  cases (logged.log.drop count).getLast? with
  | none => rfl
  | some version => rfl

theorem base_mem_versions (logged : Logged α) : logged.base ∈ logged.versions :=
  List.mem_cons_self ..

theorem mem_versions_commit {version other : α} {logged : Logged α} :
    other ∈ (logged.commit version).versions ↔ other ∈ logged.versions ∨ other = version := by
  unfold versions commit
  rw [List.mem_cons, List.mem_append, List.mem_singleton, List.mem_cons, or_assoc]

theorem mem_versions_of_checkpoint {count : Nat} {version : α} {logged : Logged α}
    (kept : version ∈ (logged.checkpoint count).versions) : version ∈ logged.versions := by
  unfold versions checkpoint at kept
  rcases List.mem_cons.mp kept with isBase | inLog
  · rw [isBase]
    cases last : (logged.log.take count).getLast? with
    | none => exact logged.base_mem_versions
    | some moved =>
        exact List.mem_cons_of_mem _ (List.mem_of_mem_take (List.mem_of_getLast? last))
  · exact List.mem_cons_of_mem _ (List.mem_of_mem_drop inLog)

end Logged

end WriteAhead
