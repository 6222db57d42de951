/-!
# Auto-commit

The state of one connection to a store whose contents have any type. With
auto-commit on, what a statement does stays. With auto-commit off the first
statement, even one that fails, saves the contents; a rollback puts the saved
contents back, and a commit, or switching auto-commit on, forgets them. The
committed contents are the saved ones if there are any.

## Main results

* `Transactional.committed_execute`: with auto-commit off a statement does not
  change what is committed;
* `Transactional.committed_rollback`, `Transactional.committed_commit`: the end
  of a transaction.
-/

namespace UnitOfWork

/-- A store with the auto-commit state of a connection to it. -/
structure Transactional (γ : Type) where
  content : γ
  /-- The contents at the start of the open transaction. -/
  saved : Option γ := none
  autoCommit : Bool := true

namespace Transactional

variable {γ ε α : Type}

/-- Whether a transaction is open. -/
def inTransaction (t : Transactional γ) : Bool := t.saved.isSome

/-- The contents that a rollback leaves. -/
def committed (t : Transactional γ) : γ := t.saved.getD t.content

/-- Opens a transaction if auto-commit is off and none is open. -/
def begin (t : Transactional γ) : Transactional γ :=
  if t.autoCommit then t
  else { t with saved := some t.committed }

/-- Runs a statement on the contents. -/
def execute (statement : γ → Except ε (α × γ)) (t : Transactional γ) :
    Except ε α × Transactional γ :=
  let t := t.begin
  match statement t.content with
  | .ok (a, content) => (.ok a, { t with content := content })
  | .error e => (.error e, t)

/-- Ends the open transaction for good. -/
def commit (t : Transactional γ) : Transactional γ := { t with saved := none }

/-- Takes back the open transaction. -/
def rollback (t : Transactional γ) : Transactional γ :=
  { t with content := t.committed, saved := none }

/-- Switches auto-commit; switching it on commits. -/
def setAutoCommit (on : Bool) (t : Transactional γ) : Transactional γ :=
  if on then { t.commit with autoCommit := true }
  else { t with autoCommit := false }

/-- With auto-commit off, a statement does not change what is committed. -/
theorem committed_execute {t : Transactional γ} (h : t.autoCommit = false)
    (statement : γ → Except ε (α × γ)) :
    (t.execute statement).2.committed = t.committed := by
  simp only [execute, begin, h]
  split <;> rfl

/-- A rollback leaves what was committed. -/
@[simp] theorem committed_rollback (t : Transactional γ) :
    t.rollback.committed = t.committed := rfl

/-- A commit leaves the contents. -/
@[simp] theorem committed_commit (t : Transactional γ) :
    t.commit.committed = t.content := rfl

/-- No transaction is open after a rollback. -/
@[simp] theorem inTransaction_rollback (t : Transactional γ) :
    t.rollback.inTransaction = false := rfl

/-- No transaction is open after a commit. -/
@[simp] theorem inTransaction_commit (t : Transactional γ) :
    t.commit.inTransaction = false := rfl

end Transactional

end UnitOfWork
