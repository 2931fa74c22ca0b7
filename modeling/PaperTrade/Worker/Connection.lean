import PaperTrade.Runtime.Serial
import PaperTrade.Worker.Tables

/-!
# The shared connection

One `aiosqlite` connection in the legacy transaction mode of `sqlite3`: a DML statement opens a
transaction when none is open, also when the statement then fails, `BEGIN` inside a transaction
raises, `rollback` undoes everything since the transaction began. The nesting counter `_tx_depth`
belongs to the `Database` object, so it is part of the state that the tasks share.

The operations of a connection run one after the other in a thread of their own, in the order in
which they were awaited: an await is one atomic operation.

Inside an open transaction of depth one or more a program only changes the current contents
(`Conn.within`): this is the setting in which the methods of `Database` and `Executor` are
specified.
-/

namespace PaperTrade.Worker

open PaperTrade.Runtime

/-- The state of a `Database`: what is durable, what the connection sees, whether a transaction is
open, and `_tx_depth`. -/
structure Conn where
  committed : Tables
  current : Tables
  inTransaction : Bool
  txDepth : ℕ

namespace Conn

def commit (c : Conn) : Conn := { c with committed := c.current, inTransaction := false }

def rollback (c : Conn) : Conn := { c with current := c.committed, inTransaction := false }

def enter (c : Conn) : Conn := { c with txDepth := c.txDepth + 1 }

def exit (c : Conn) : Conn := { c with txDepth := c.txDepth - 1 }

/-- No transaction open. -/
def idle (s : Tables) : Conn := ⟨s, s, false, 0⟩

/-- Inside `db.transaction()`. -/
def within (c s : Tables) : Conn := ⟨c, s, true, 1⟩

/-- The connection is inside some task's `db.transaction()`. -/
def locked (c : Conn) : Bool := 0 < c.txDepth

@[simp] theorem current_within (c s : Tables) : (within c s).current = s := rfl
@[simp] theorem current_idle (s : Tables) : (idle s).current = s := rfl
@[simp] theorem committed_idle (s : Tables) : (idle s).committed = s := rfl

end Conn

/-- A coroutine over the connection. -/
abbrev Db := Coro Conn PyError

/-- A DML statement. -/
def execute (stmt : Tables → Except PyError Tables) : Db Unit :=
  .await
    (fun c => { c with current := (stmt c.current).toOption.getD c.current, inTransaction := true })
    fun c => .done ((stmt c.current).map fun _ => ())

/-- A `SELECT`, followed by the fetch of its rows. -/
def query {α : Type} (read : Tables → α) : Db α :=
  .await id fun c => .await id fun _ => .done (.ok (read c.current))

/-- `await self._conn.execute("BEGIN IMMEDIATE")`. -/
def beginImmediate : Db Unit :=
  .await (fun c => { c with inTransaction := true }) fun c =>
    .done (if c.inTransaction then .error .nestedTransaction else .ok ())

/-- `await self._conn.commit()`. -/
def commitConn : Db Unit := .await Conn.commit fun _ => .done (.ok ())

/-- `await self._conn.rollback()`. -/
def rollbackConn : Db Unit := .await Conn.rollback fun _ => .done (.ok ())

/-- `Database._commit`. -/
def commit : Db Unit := .sync id fun c => if c.txDepth = 0 then commitConn else pure ()

/-- `Database.transaction`. -/
def transaction {α : Type} (body : Db α) : Db α :=
  .sync Conn.enter fun c => do
    let outermost := c.txDepth = 0
    let result ← Coro.attempt do
      if outermost then beginImmediate
      let a ← body
      if outermost then commitConn
      pure a
    match result with
    | .ok a => .sync Conn.exit fun _ => pure a
    | .error e =>
      if outermost then rollbackConn
      .sync Conn.exit fun _ => throw e

/-! ## Inside a transaction -/

section run

variable {α : Type} (c s : Tables)

theorem run_execute_ok {stmt : Tables → Except PyError Tables} {s' : Tables}
    (h : stmt s = .ok s') : (execute stmt).run (.within c s) = (.ok (), .within c s') := by
  simp [execute, h, Except.map, Except.toOption, Conn.within, Coro.run]

theorem run_execute_error {stmt : Tables → Except PyError Tables} {e : PyError}
    (h : stmt s = .error e) : (execute stmt).run (.within c s) = (.error e, .within c s) := by
  simp [execute, h, Except.map, Except.toOption, Conn.within, Coro.run]

@[simp] theorem run_query (read : Tables → α) (conn : Conn) :
    (query read).run conn = (.ok (read conn.current), conn) := rfl

@[simp] theorem run_commit : commit.run (.within c s) = (.ok (), .within c s) := rfl

/-- A transaction around a body that returns: its changes are durable. -/
theorem run_transaction_ok {body : Db α} {s' : Tables} {a : α}
    (h : body.run (.within s s) = (.ok a, .within s s')) :
    (transaction body).run (.idle s) = (.ok a, .idle s') := by
  have hbegin : (beginImmediate).run (Conn.idle s).enter = (.ok (), .within s s) := rfl
  have hbody : (do beginImmediate; let a ← body; commitConn; pure a : Db α).run (Conn.idle s).enter =
      (.ok a, ⟨s', s', false, 1⟩) := by
    rw [Coro.run_bind_ok hbegin, Coro.run_bind_ok h]
    rfl
  have hatt : (Coro.attempt (do beginImmediate; let a ← body; commitConn; pure a : Db α)).run
      (Conn.idle s).enter = (.ok (.ok a), ⟨s', s', false, 1⟩) := by
    rw [Coro.run_attempt, hbody]
  have hdepth : (Conn.idle s).txDepth = 0 := rfl
  simp only [transaction, Coro.run_sync, hdepth, if_true]
  rw [Coro.run_bind_ok hatt]
  rfl

/-- A transaction around a body that raises: nothing has changed. -/
theorem run_transaction_error {body : Db α} {s' : Tables} {e : PyError}
    (h : body.run (.within s s) = (.error e, .within s s')) :
    (transaction body).run (.idle s) = (.error e, .idle s) := by
  have hbegin : (beginImmediate).run (Conn.idle s).enter = (.ok (), .within s s) := rfl
  have hbody : (do beginImmediate; let a ← body; commitConn; pure a : Db α).run (Conn.idle s).enter =
      (.error e, .within s s') := by
    rw [Coro.run_bind_ok hbegin, Coro.run_bind_error h]
  have hatt : (Coro.attempt (do beginImmediate; let a ← body; commitConn; pure a : Db α)).run
      (Conn.idle s).enter = (.ok (.error e), .within s s') := by
    rw [Coro.run_attempt, hbody]
  have hdepth : (Conn.idle s).txDepth = 0 := rfl
  simp only [transaction, Coro.run_sync, hdepth, if_true]
  rw [Coro.run_bind_ok hatt]
  rfl

end run

end PaperTrade.Worker
