import UnitOfWork.Session.Basic

/-!
# Sessions as text

The printed forms of a session and of its parts. The keys of a context are
printed in the order of their texts.
-/

namespace UnitOfWork

/-- The printed form of a context. -/
def Context.print (ctx : Context) : String :=
  let keys := (Assoc.keys ctx.entities).map Key.render
  Text.record "PersistenceContext"
    [("entities", Text.quoteList (keys.mergeSort fun a b => a ≤ b))]

/-- The printed form of a queue. -/
def Queue.print (q : Queue) : String :=
  Text.record "ActionQueue" [("pending", toString q.size)]

/-- The printed form of an action. -/
def Action.print (heap : Heap) (action : Action) : String :=
  Text.record "EntityAction"
    [("kind", Text.quote action.kind.name),
     ("entity", Text.quote (heap.get action.entity).type)]

/-- The printed form of a session. -/
def Session.print (s : Session) : String :=
  Text.record "Session"
    [("state", if s.isOpen then "Open" else "Closed"),
     ("transaction", if s.inTransaction then "Open" else "Closed"),
     ("context", s.context.print), ("actions", s.queue.print)]

end UnitOfWork
