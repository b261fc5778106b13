import OttQuic.Db.Database

/-!
# A database connection

The functions above `database.c` run several statements one after the other. `Conn` is the connection
they run them on: the tables, the clock, and for each statement, in order, whether it executes.
-/

namespace OttQuic.Db

structure Conn where
  db : Database
  now : Int
  /-- Whether the `n`-th statement executes. -/
  fates : Nat → Bool
  executed : Nat

namespace Conn

/-- The fate of the next statement. -/
def stmt (conn : Conn) : Stmt := ⟨conn.fates conn.executed, conn.now⟩

def next (conn : Conn) (db : Database) : Conn := { conn with db := db, executed := conn.executed + 1 }

@[simp] theorem next_db (conn : Conn) (db : Database) : (conn.next db).db = db := rfl

@[simp] theorem next_now (conn : Conn) (db : Database) : (conn.next db).now = conn.now := rfl

@[simp] theorem next_fates (conn : Conn) (db : Database) : (conn.next db).fates = conn.fates := rfl

/-- The same connection, `n` statements later. -/
structure Later (conn conn' : Conn) (n : Nat) : Prop where
  now : conn'.now = conn.now
  fates : conn'.fates = conn.fates
  executed : conn'.executed = conn.executed + n

theorem Later.next {conn conn' : Conn} {n : Nat} (h : Later conn conn' n) (db : Database) :
    Later conn (conn'.next db) (n + 1) :=
  ⟨h.now, h.fates, congrArg (· + 1) h.executed⟩

theorem Later.fate {conn conn' : Conn} {n : Nat} (h : Later conn conn' n) :
    conn'.fates conn'.executed = conn.fates (conn.executed + n) := by
  rw [h.fates, h.executed]

/-- No statement fails. -/
def Reliable (conn : Conn) : Prop := ∀ n, conn.fates n = true

theorem Reliable.stmt {conn : Conn} (h : conn.Reliable) : conn.stmt = ⟨true, conn.now⟩ := by
  rw [Conn.stmt, h]

theorem Reliable.next {conn : Conn} (h : conn.Reliable) (db : Database) : (conn.next db).Reliable := h

/-- A `SELECT`. -/
def query {α : Type} (conn : Conn) (f : Database → Stmt → Except Rc α) : Except Rc α × Conn :=
  (f conn.db conn.stmt, conn.next conn.db)

/-- A statement that changes the tables; `false` when its code is not `SQLITE_OK`. -/
def exec (conn : Conn) (f : Database → Stmt → Except Rc Database) : Bool × Conn :=
  match f conn.db conn.stmt with
  | .ok db => (true, conn.next db)
  | .error _ => (false, conn.next conn.db)

/-- An `INSERT` that returns the id of the new row. -/
def insert (conn : Conn) (f : Database → Stmt → Except Rc (Int × Database)) : Option Int × Conn :=
  match f conn.db conn.stmt with
  | .ok (id, db) => (some id, conn.next db)
  | .error _ => (none, conn.next conn.db)

/-! ### Without failures -/

variable {conn : Conn} {α : Type}

theorem Reliable.query (h : conn.Reliable) (f : Database → Stmt → Except Rc α) :
    conn.query f = (f conn.db ⟨true, conn.now⟩, conn.next conn.db) := by
  rw [Conn.query, h.stmt]

theorem Reliable.exec_ok (h : conn.Reliable) {f : Database → Stmt → Except Rc Database} {db : Database}
    (hf : f conn.db ⟨true, conn.now⟩ = .ok db) : conn.exec f = (true, conn.next db) := by
  rw [Conn.exec, h.stmt, hf]

theorem Reliable.exec_error (h : conn.Reliable) {f : Database → Stmt → Except Rc Database} {rc : Rc}
    (hf : f conn.db ⟨true, conn.now⟩ = .error rc) : conn.exec f = (false, conn.next conn.db) := by
  rw [Conn.exec, h.stmt, hf]

theorem Reliable.insert_ok (h : conn.Reliable) {f : Database → Stmt → Except Rc (Int × Database)} {id : Int}
    {db : Database} (hf : f conn.db ⟨true, conn.now⟩ = .ok (id, db)) :
    conn.insert f = (some id, conn.next db) := by
  rw [Conn.insert, h.stmt, hf]

theorem Reliable.insert_error (h : conn.Reliable) {f : Database → Stmt → Except Rc (Int × Database)} {rc : Rc}
    (hf : f conn.db ⟨true, conn.now⟩ = .error rc) : conn.insert f = (none, conn.next conn.db) := by
  rw [Conn.insert, h.stmt, hf]

end Conn

end OttQuic.Db
