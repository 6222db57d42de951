import UnitOfWork.Environment
import UnitOfWork.Mapping.Printer
import UnitOfWork.Settings

/-!
# Pools of connections

A pool keeps a fixed number of connections open and leases them out. Nobody
waits: without an idle connection a lease fails. The connection given back
last is leased first. Closing the pool closes the idle connections at once and
each leased one when it comes back; a connection that cannot be trusted any
more is discarded, that is, closed and not given back.

## Main results

* `Pool.lease_eq_ok_iff`: when a lease succeeds;
* `Pool.idle_putBack`: what giving back does to a pool that is open.
-/

namespace UnitOfWork

/-- A pool. -/
structure Pool where
  /-- The number of connections that the pool was opened with. -/
  size : Nat
  /-- The connections to lease, the next one first. -/
  idle : List ConnId
  /-- The connections on lease. -/
  leased : List ConnId := []
  closed : Bool := false
deriving DecidableEq

namespace Pool

/-- The pool of some connections; the last of them is leased first. -/
def ofConnections (conns : List ConnId) : Except Error Pool :=
  if conns.isEmpty then .error (.settings .noConnections)
  else .ok { size := conns.length, idle := conns.reverse }

/-- The number of connections to lease. -/
def available (pool : Pool) : Nat := pool.idle.length

/-- Takes a connection out on lease. -/
def lease (pool : Pool) : Except Error (ConnId × Pool) :=
  if pool.closed then .error .poolClosed
  else
    match pool.idle with
    | [] => .error (.poolExhausted pool.size)
    | conn :: rest =>
      .ok (conn, { pool with idle := rest, leased := conn :: pool.leased })

/-- Ends the lease of a connection. -/
def endLease (pool : Pool) (conn : ConnId) : Pool :=
  { pool with leased := pool.leased.erase conn }

/-- Ends the lease of a connection, which can then be leased again. -/
def putBack (pool : Pool) (conn : ConnId) : Pool :=
  { pool.endLease conn with idle := conn :: pool.idle }

/-- The error of somebody who waited for a connection in vain. -/
def waitedInVain : Error :=
  .connection ("pool error: Timeout occurred while waiting for an object " ++
    "to become available")

/-- The printed form of a pool. -/
def print (pool : Pool) : String :=
  "ConnectionPool \x7b size: " ++ toString pool.size ++ ", closed: " ++
    toString pool.closed ++ ", .. \x7d"

/-- A lease succeeds exactly when the pool is open and has an idle
connection, and takes the next one. -/
theorem lease_eq_ok_iff (pool : Pool) (conn : ConnId) (after : Pool) :
    pool.lease = .ok (conn, after) ↔
      pool.closed = false ∧ pool.idle = conn :: after.idle ∧
        after = { pool with
          idle := after.idle, leased := conn :: pool.leased } := by
  obtain ⟨size, idle, leased, closed⟩ := pool
  obtain ⟨size', idle', leased', closed'⟩ := after
  cases closed <;> cases idle <;> grind [lease]

/-- A connection given back is the next to be leased. -/
@[simp] theorem idle_putBack (pool : Pool) (conn : ConnId) :
    (pool.putBack conn).idle = conn :: pool.idle := rfl

end Pool

/-- The printed form of a connection on lease. -/
def printLease : String :=
  Text.record "PooledConnection" [("released", "false")]

/-- An environment and the pool of connections to its database. -/
structure Backend (σ : Type) where
  env : Env σ
  pool : Pool

namespace Backend

variable {σ α : Type}

/-- Works on the environment alone. -/
def onEnv (m : Step (Env σ) α) : Step (Backend σ) α :=
  Step.zoom Backend.env (fun env backend => { backend with env := env }) m

/-- Changes the pool. -/
def onPool (f : Pool → Pool) : Step (Backend σ) Unit :=
  Step.modify fun backend => { backend with pool := f backend.pool }

/-- Takes a connection out on lease. -/
def lease : Step (Backend σ) ConnId := fun backend =>
  match backend.pool.lease with
  | .ok (conn, pool) => (.ok conn, { backend with pool := pool })
  | .error e => (.error e, backend)

variable [Driver σ]

/-- Closes connections one after another, whether or not it fails for some;
gives the first failure. -/
def closeAll : List ConnId → Step (Env σ) (Option Error)
  | [] => pure none
  | conn :: rest => do
    let closed ← (Env.call conn .close).attempt
    let later ← closeAll rest
    match closed with
    | .ok _ => pure later
    | .error e => pure (some e)

/-- Opens so many more connections; if one cannot be opened, closes those that
were opened before. Connections are numbered as they are opened. -/
def openMore (opened : List ConnId) : Nat → Step (Env σ) (List ConnId)
  | 0 => pure opened
  | count + 1 => do
    match ← (Env.call opened.length .connect).attempt with
    | .ok _ => openMore (opened ++ [opened.length]) count
    | .error e => do
      let _ ← closeAll opened
      Step.fail e

/-- Opens the pool that some settings ask for. -/
def openPool (settings : Settings) : Step (Env σ) Pool := do
  if settings.poolSize = 0 then Step.fail (.settings .poolSizeZero)
  else do
    let conns ← openMore [] settings.poolSize
    Pool.ofConnections conns

/-- Closes a connection on lease for good, whatever comes of it. -/
def discard (conn : ConnId) : Step (Backend σ) Unit := do
  onPool fun pool => pool.endLease conn
  let _ ← (onEnv (Env.call conn .close)).attempt

/-- Gives a connection on lease back; if the pool is closed by now, the
connection is closed. -/
def release (conn : ConnId) : Step (Backend σ) Unit := do
  if (← Step.get).pool.closed then discard conn
  else onPool fun pool => pool.putBack conn

/-- Closes the pool, unless it is closed already; fails with the first failure
to close a connection, but is closed all the same. -/
def close : Step (Backend σ) Unit := do
  let pool := (← Step.get).pool
  if pool.closed then pure ()
  else do
    onPool fun pool => { pool with idle := [], closed := true }
    match ← onEnv (closeAll pool.idle) with
    | none => pure ()
    | some e => Step.fail e

end Backend

end UnitOfWork
