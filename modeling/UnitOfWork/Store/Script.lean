import UnitOfWork.Driver

/-!
# Scripted databases

A database that answers from a list: the first query gets the first reply, the
next one the next, and when the replies have run out a query finds nothing.
Every write touches one row and reports the same key.
-/

namespace UnitOfWork

/-- A database that answers from a list. -/
structure Script where
  /-- The replies to the queries to come. -/
  replies : List ResultSet := []
  /-- The key that every write reports. -/
  key : Value := .null

namespace Script

/-- Makes a call. -/
def call (_ : ConnId) : (c : Call) → Step Script c.Answer
  | .query _ _ => fun script =>
    (.ok (script.replies.headD {}),
      { script with replies := script.replies.tail })
  | .execute _ _ => pure 1
  | .insert _ _ => fun script => (.ok (1, some script.key), script)
  | .connect | .setAutoCommit _ | .commit | .rollback | .close => pure ()

instance : Driver Script where
  call := call
  autoCommit _ _ := true
  extent script :=
    script.replies.foldl (fun count reply => count + reply.rows.length) 0

end Script

end UnitOfWork
