import Mathlib.Logic.Function.Basic
import OttQuic.Db.Statements

/-!
# Opening the database (`db_init`, `db_initialize_schema`)

A server may find no tables in its file, some of them, or the table `users` of an older version, without the column
`role`. It creates what is missing with one statement after the other, each of which may fail, and other servers may be
starting or running on the same file.

`DbFile.read` is what the file says about the rows, whatever its form. Starting changes the form alone, so the file is
the tables of the running servers all along, and a server that has started finds every table and column from then on
(`startup_refines`).
-/

namespace OttQuic.Db

open Transition

/-- A row of the table `users` without its column `role`. -/
structure LegacyUserRow where
  id : Int
  username : Bytes
  nickname : Bytes
  passwordHash : Bytes
  deriving DecidableEq

inductive UsersTable where
  | missing
  | legacy (rows : List LegacyUserRow)
  | current (rows : List UserRow)
  deriving DecidableEq

/-- The database file, with its `sqlite_sequence`. -/
structure DbFile where
  users : UsersTable
  sessions : Option (List SessionRow)
  videos : Option (List VideoRow)
  watchHistory : Option (List WatchRow)
  userSeq : Int
  videoSeq : Int
  videoChanges : Nat
  deriving DecidableEq

/-- The tables, in the order in which they are created. -/
inductive Table where
  | users
  | sessions
  | videos
  | watchHistory
  deriving DecidableEq

/-- `DEFAULT 'user'`. -/
def LegacyUserRow.withRole (row : LegacyUserRow) : UserRow :=
  ⟨row.id, row.username, row.nickname, row.passwordHash, .user⟩

namespace DbFile

/-- `CREATE TABLE IF NOT EXISTS`. -/
def create (file : DbFile) : Table → DbFile
  | .users => { file with users := if file.users = .missing then .current [] else file.users }
  | .sessions => { file with sessions := some (file.sessions.getD []) }
  | .videos => { file with videos := some (file.videos.getD []) }
  | .watchHistory => { file with watchHistory := some (file.watchHistory.getD []) }

/-- `PRAGMA table_info(users)` has a row for `role`. -/
def hasRole (file : DbFile) : Bool :=
  match file.users with
  | .current _ => true
  | _ => false

/-- `ALTER TABLE users ADD COLUMN role`: not without the table, and not twice. -/
def addRole (file : DbFile) : Option DbFile :=
  match file.users with
  | .legacy rows => some { file with users := .current (rows.map LegacyUserRow.withRole) }
  | _ => none

end DbFile

/-- The next statement of a server that starts. -/
inductive Startup where
  /-- `sqlite3_open`. -/
  | opening
  /-- `PRAGMA foreign_keys = ON`. -/
  | foreignKeys
  | create (table : Table)
  | tableInfo
  | alter
  /-- `db_init` and `db_initialize_schema` have both returned `SQLITE_OK`, or one of them has not. -/
  | returned (ok : Bool)
  deriving DecidableEq

/-- What comes after a table. -/
def Table.next : Table → Startup
  | users => .create .sessions
  | sessions => .create .videos
  | videos => .create .watchHistory
  | watchHistory => .tableInfo

/-- One statement; `ok` when nothing keeps it from executing. -/
def Startup.step (ok : Bool) (file : DbFile) : Startup → Option (Startup × DbFile)
  | opening => some (if ok then .foreignKeys else .returned false, file)
  | foreignKeys => some (if ok then .create .users else .returned false, file)
  | create table => some (if ok then (table.next, file.create table) else (.returned false, file))
  | tableInfo =>
    some (if ok = false then .returned false else if file.hasRole then .returned true else .alter, file)
  | alter =>
    match ok, file.addRole with
    | true, some file => some (.returned true, file)
    | _, _ => some (.returned false, file)
  | returned _ => none

/-- `db_init` and then `db_initialize_schema`, when no other server is there; `fates` are those of its statements. -/
def dbInitializeSchema (fates : Nat → Bool) (file : DbFile) : Bool × DbFile :=
  if fates 0 = false then (false, file)
  else if fates 1 = false then (false, file)
  else if fates 2 = false then (false, file)
  else
    let file := file.create .users
    if fates 3 = false then (false, file)
    else
      let file := file.create .sessions
      if fates 4 = false then (false, file)
      else
        let file := file.create .videos
        if fates 5 = false then (false, file)
        else
          let file := file.create .watchHistory
          if fates 6 = false then (false, file)
          else if file.hasRole then (true, file)
          else
            match fates 7, file.addRole with
            | true, some file => (true, file)
            | _, _ => (false, file)

/-! ### What a file says -/

/-- The rows of `users`. -/
def UsersTable.rows : UsersTable → List UserRow
  | missing => []
  | legacy rows => rows.map LegacyUserRow.withRole
  | current rows => rows

namespace DbFile

def read (file : DbFile) : Database where
  users := file.users.rows
  sessions := file.sessions.getD []
  videos := file.videos.getD []
  watchHistory := file.watchHistory.getD []
  userSeq := file.userSeq
  videoSeq := file.videoSeq
  videoChanges := file.videoChanges

def ofDatabase (db : Database) : DbFile :=
  ⟨.current db.users, some db.sessions, some db.videos, some db.watchHistory, db.userSeq, db.videoSeq, db.videoChanges⟩

/-- Every table is there, with its columns. -/
def Current (file : DbFile) : Prop := file = ofDatabase file.read

instance (file : DbFile) : Decidable file.Current := inferInstanceAs (Decidable (file = ofDatabase file.read))

/-- The table is there, in whatever form. -/
def has (file : DbFile) : Table → Prop
  | .users => file.users ≠ .missing
  | .sessions => file.sessions ≠ none
  | .videos => file.videos ≠ none
  | .watchHistory => file.watchHistory ≠ none

/-- The second file says the same, and lacks nothing that the first one has. -/
structure Leads (file file' : DbFile) : Prop where
  read : file'.read = file.read
  has : ∀ table, file.has table → file'.has table
  hasRole : file.hasRole = true → file'.hasRole = true

variable {file file' : DbFile} {table : Table}

@[simp] theorem read_ofDatabase (db : Database) : (ofDatabase db).read = db := rfl

theorem ofDatabase_current (db : Database) : (ofDatabase db).Current := rfl

theorem current_iff : file.Current ↔ file.hasRole = true ∧ ∀ table, file.has table := by
  constructor
  · intro h
    rw [h]
    refine ⟨rfl, fun table => ?_⟩
    cases table <;> simp [has, ofDatabase]
  · rintro ⟨hrole, hall⟩
    obtain ⟨rows, hrows⟩ : ∃ rows, file.users = .current rows := by
      unfold DbFile.hasRole at hrole
      split at hrole
      · exact ⟨_, ‹_›⟩
      · cases hrole
    obtain ⟨sessions, hsessions⟩ := Option.ne_none_iff_exists'.mp (hall .sessions)
    obtain ⟨videos, hvideos⟩ := Option.ne_none_iff_exists'.mp (hall .videos)
    obtain ⟨history, hhistory⟩ := Option.ne_none_iff_exists'.mp (hall .watchHistory)
    cases file
    simp only at hrows hsessions hvideos hhistory
    subst hrows hsessions hvideos hhistory
    rfl

theorem Leads.refl (file : DbFile) : file.Leads file := ⟨rfl, fun _ h => h, fun h => h⟩

theorem Leads.current (h : file.Leads file') (hcurrent : file.Current) : file'.Current := by
  rw [current_iff] at hcurrent ⊢
  exact ⟨h.hasRole hcurrent.1, fun table => h.has table (hcurrent.2 table)⟩

theorem create_leads (file : DbFile) (table : Table) : file.Leads (file.create table) ∧ (file.create table).has table := by
  cases table with
  | users =>
      by_cases hmissing : file.users = .missing
      · have hcreate : file.create .users = { file with users := .current [] } := by
          rw [create, if_pos hmissing]
        rw [hcreate]
        refine ⟨⟨by simp [DbFile.read, hmissing, UsersTable.rows], fun table h => ?_, fun _ => rfl⟩, by simp [has]⟩
        cases table with
        | users => simp [has]
        | _ => exact h
      · have hcreate : file.create .users = file := by
          rw [create, if_neg hmissing]
        rw [hcreate]
        exact ⟨.refl file, hmissing⟩
  | sessions =>
      refine ⟨⟨rfl, fun table h => ?_, fun h => h⟩, by simp [has, create]⟩
      cases table with
      | sessions => simp [has, create]
      | _ => exact h
  | videos =>
      refine ⟨⟨rfl, fun table h => ?_, fun h => h⟩, by simp [has, create]⟩
      cases table with
      | videos => simp [has, create]
      | _ => exact h
  | watchHistory =>
      refine ⟨⟨rfl, fun table h => ?_, fun h => h⟩, by simp [has, create]⟩
      cases table with
      | watchHistory => simp [has, create]
      | _ => exact h

theorem addRole_leads (h : file.addRole = some file') : file.Leads file' ∧ file'.hasRole = true := by
  unfold addRole at h
  split at h
  · rename_i rows husers
    obtain rfl := Option.some.inj h
    refine ⟨⟨by simp [DbFile.read, husers, UsersTable.rows], fun table h => ?_, fun _ => rfl⟩, rfl⟩
    cases table with
    | users => simp [has]
    | _ => exact h
  · cases h

end DbFile

/-! ### One server -/

def Table.index : Table → Nat
  | users => 0
  | sessions => 1
  | videos => 2
  | watchHistory => 3

/-- What a server that starts has already seen to. -/
def Startup.Done (file : DbFile) : Startup → Prop
  | opening | foreignKeys | returned false => True
  | create table => ∀ earlier : Table, earlier.index < table.index → file.has earlier
  | tableInfo | alter => ∀ table, file.has table
  | returned true => file.Current

variable {file file' : DbFile} {pc pc' : Startup} {ok : Bool}

theorem Startup.Done.leads (h : pc.Done file) (hleads : file.Leads file') : pc.Done file' := by
  cases pc with
  | create table => exact fun earlier hearlier => hleads.has earlier (h earlier hearlier)
  | tableInfo => exact fun table => hleads.has table (h table)
  | alter => exact fun table => hleads.has table (h table)
  | returned ok =>
      cases ok with
      | false => trivial
      | true => exact hleads.current h
  | _ => trivial

/-- **One statement of a start** leaves what the file says, and the server has done a little more. -/
theorem Startup.step_leads (h : Startup.step ok file pc = some (pc', file')) (hdone : pc.Done file) :
    file.Leads file' ∧ pc'.Done file' := by
  cases pc with
  | opening =>
      obtain ⟨rfl, rfl⟩ := Prod.mk.inj (Option.some.inj h)
      refine ⟨.refl _, ?_⟩
      cases ok <;> trivial
  | foreignKeys =>
      obtain ⟨rfl, rfl⟩ := Prod.mk.inj (Option.some.inj h)
      refine ⟨.refl _, ?_⟩
      cases ok with
      | false => trivial
      | true => exact fun earlier hearlier => absurd hearlier (Nat.not_lt_zero _)
  | create table =>
      cases ok with
      | false =>
          obtain ⟨rfl, rfl⟩ := Prod.mk.inj (Option.some.inj h)
          exact ⟨.refl _, trivial⟩
      | true =>
          obtain ⟨rfl, rfl⟩ := Prod.mk.inj (Option.some.inj h)
          obtain ⟨hleads, hcreated⟩ := file.create_leads table
          have hupTo : ∀ earlier : Table, earlier.index ≤ table.index → (file.create table).has earlier := by
            intro earlier hle
            rcases Nat.lt_or_eq_of_le hle with hlt | heq
            · exact hleads.has earlier (hdone earlier hlt)
            · obtain rfl : earlier = table := by
                cases earlier <;> cases table <;> first | rfl | cases heq
              exact hcreated
          refine ⟨hleads, ?_⟩
          cases table with
          | watchHistory => exact fun earlier => hupTo earlier (by cases earlier <;> decide)
          | _ => exact fun earlier hearlier => hupTo earlier (Nat.le_of_lt_succ hearlier)
  | tableInfo =>
      obtain ⟨rfl, rfl⟩ := Prod.mk.inj (Option.some.inj h)
      refine ⟨.refl _, ?_⟩
      split_ifs with hfailed hrole
      · trivial
      · exact DbFile.current_iff.mpr ⟨hrole, hdone⟩
      · exact hdone
  | alter =>
      simp only [step] at h
      split at h
      · rename_i added hadded
        obtain ⟨rfl, rfl⟩ := Prod.mk.inj (Option.some.inj h)
        obtain ⟨hleads, hrole⟩ := DbFile.addRole_leads hadded
        exact ⟨hleads, DbFile.current_iff.mpr ⟨hrole, fun table => hleads.has table (hdone table)⟩⟩
      · obtain ⟨rfl, rfl⟩ := Prod.mk.inj (Option.some.inj h)
        exact ⟨.refl _, trivial⟩
  | returned ok => cases h

/-- The statements of a start that no other server comes between. -/
def Startup.steps : List Bool → Startup × DbFile → Startup × DbFile
  | [], start => start
  | ok :: fates, (pc, file) =>
    match Startup.step ok file pc with
    | some start => Startup.steps fates start
    | none => (pc, file)

/-- **A start on its own takes its steps.** -/
theorem dbInitializeSchema_eq_steps (fates : Nat → Bool) (file : DbFile) :
    Startup.steps ((List.range 8).map fates) (.opening, file) =
      (.returned (dbInitializeSchema fates file).1, (dbInitializeSchema fates file).2) := by
  have hrange : (List.range 8).map fates =
      [fates 0, fates 1, fates 2, fates 3, fates 4, fates 5, fates 6, fates 7] := rfl
  rw [hrange, dbInitializeSchema]
  cases fates 0 with
  | false => rfl
  | true =>
  cases fates 1 with
  | false => rfl
  | true =>
  cases fates 2 with
  | false => rfl
  | true =>
  cases fates 3 with
  | false => rfl
  | true =>
  cases fates 4 with
  | false => rfl
  | true =>
  cases fates 5 with
  | false => rfl
  | true =>
  cases fates 6 with
  | false => rfl
  | true =>
  simp only [Startup.steps, Startup.step, Table.next, if_true, Bool.true_eq_false, if_false]
  generalize (((file.create .users).create .sessions).create .videos).create .watchHistory = created
  cases hrole : created.hasRole with
  | true => rfl
  | false =>
      simp only [Bool.false_eq_true, if_false]
      cases fates 7 with
      | false => rfl
      | true =>
          cases created.addRole with
          | none => rfl
          | some added => rfl

/-! ### All servers -/

/-- The file and the servers on it. -/
structure Servers where
  file : DbFile
  servers : Nat → Startup

inductive ServerEvent where
  | start (i : Nat) (ok : Bool)
  /-- A statement of a server that has started. -/
  | statement (i : Nat) (s : Statement) (stmt : Stmt)

/-- A statement on the file. It is not even prepared when a table or a column is not there. -/
def DbFile.execute (file : DbFile) (s : Statement) (stmt : Stmt) : DbFile :=
  if file.Current then .ofDatabase (s.after file.read stmt) else file

def Servers.step (t : Servers) : ServerEvent → Option Servers
  | .start i ok =>
    (Startup.step ok t.file (t.servers i)).map fun (pc, file) => ⟨file, Function.update t.servers i pc⟩
  | .statement i s stmt =>
    if t.servers i = .returned true then some { t with file := t.file.execute s stmt } else none

/-- From a file of any form, with all servers to be started. -/
def startup : System Servers ServerEvent where
  init t := ∀ i, t.servers i = .opening
  step t e t' := t.step e = some t'

/-- The statements of the servers that have started. -/
def ServerEvent.statement? : ServerEvent → Option (Statement × Stmt)
  | start _ _ => none
  | statement _ s stmt => some (s, stmt)

variable {t t' : Servers} {e : ServerEvent} {es : List ServerEvent}

/-- One event: a start does not change what the file says, and a statement does what it does to the tables. -/
theorem Servers.step_done (h : t.step e = some t') (hdone : ∀ i, (t.servers i).Done t.file) :
    (∀ i, (t'.servers i).Done t'.file) ∧ Db.tables.Run t.file.read e.statement?.toList t'.file.read := by
  cases e with
  | start i ok =>
      obtain ⟨⟨pc, file⟩, hstep, rfl⟩ := Option.map_eq_some_iff.mp h
      obtain ⟨hleads, hpc⟩ := Startup.step_leads hstep (hdone i)
      refine ⟨fun j => ?_, ?_⟩
      · show (Function.update t.servers i pc j).Done file
        by_cases hj : j = i
        · rw [hj, Function.update_self]
          exact hpc
        · rw [Function.update_of_ne hj]
          exact (hdone j).leads hleads
      · show Db.tables.Run t.file.read [] file.read
        rw [hleads.read]
        exact .nil
  | statement i s stmt =>
      simp only [step] at h
      split_ifs at h with hstarted
      obtain rfl := Option.some.inj h
      have hcurrent : t.file.Current := by
        have hi := hdone i
        rw [hstarted] at hi
        exact hi
      have hexecute : t.file.execute s stmt = .ofDatabase (s.after t.file.read stmt) := if_pos hcurrent
      refine ⟨fun j => ?_, ?_⟩
      · show (t.servers j).Done (t.file.execute s stmt)
        rw [hexecute]
        -- a file in the current form lacks nothing
        have hall (table : Table) := (DbFile.current_iff.mp (DbFile.ofDatabase_current (s.after t.file.read stmt))).2 table
        cases t.servers j with
        | create table => exact fun earlier _ => hall earlier
        | tableInfo => exact hall
        | alter => exact hall
        | returned ok =>
            cases ok with
            | false => trivial
            | true => exact DbFile.ofDatabase_current _
        | _ => trivial
      · show Db.tables.Run t.file.read [(s, stmt)] (t.file.execute s stmt).read
        rw [hexecute]
        exact System.Run.nil.snoc rfl

theorem startup_done (hinit : startup.init t) (h : startup.Run t es t') :
    (∀ i, (t'.servers i).Done t'.file) ∧ Db.tables.Run t.file.read (es.filterMap ServerEvent.statement?) t'.file.read := by
  induction h with
  | nil =>
      refine ⟨fun i => ?_, .nil⟩
      rw [hinit i]
      trivial
  | @snoc es u u' e _ hstep ih =>
      obtain ⟨hdone, hrun⟩ := Servers.step_done hstep ih.1
      refine ⟨hdone, ?_⟩
      have hlast : List.filterMap ServerEvent.statement? [e] = e.statement?.toList := by
        cases e <;> rfl
      rw [List.filterMap_append, hlast]
      exact ih.2.trans hrun

/-- **The file is the tables**, in every run: however many servers start, together or one after the other, and wherever
they fail, the rows are what the statements of those that have started make of them. The constraints are kept, and a
server that has started finds every table and column. -/
theorem startup_refines (hinit : startup.init t) (hschema : Schema t.file.read) (h : startup.Run t es t') :
    Db.tables.Run t.file.read (es.filterMap ServerEvent.statement?) t'.file.read ∧ Schema t'.file.read ∧
      ∀ i, t'.servers i = .returned true → t'.file = .ofDatabase t'.file.read := by
  obtain ⟨hdone, hrun⟩ := startup_done hinit h
  refine ⟨hrun, schema_run hrun hschema, fun i hi => ?_⟩
  have hcurrent := hdone i
  rw [hi] at hcurrent
  exact hcurrent

/-- Two servers start on the file of an older version, and one of them finds that the column has just been added. -/
theorem startup_refines_two :
    let t : Servers := ⟨⟨.legacy [⟨1, [97], [98], [99]⟩], some [], none, none, 1, 0, 0⟩, fun _ => .opening⟩
    let db : Database := ⟨[⟨1, [97], [98], [99], .user⟩], [], [], [], 1, 0, 0⟩
    ∃ es t', startup.Run t es t' ∧ t'.servers 0 = .returned true ∧ t'.servers 1 = .returned false ∧
      t'.file = .ofDatabase db ∧ Schema db := by
  intro t db
  let up (i : Nat) : List ServerEvent := List.replicate 7 (.start i true)
  let es : List ServerEvent := up 0 ++ up 1 ++ [.start 0 true, .start 1 true]
  have hmap : (es.foldlM Servers.step t).map (fun t' => (t'.servers 0, t'.servers 1, t'.file.read)) =
      some (.returned true, .returned false, db) := by decide
  obtain ⟨t', hfold, hservers⟩ := Option.map_eq_some_iff.mp hmap
  simp only [Prod.mk.injEq] at hservers
  obtain ⟨hfirst, hsecond, hread⟩ := hservers
  have hrun : startup.Run t es t' := System.run_of_foldlM (T := startup) (fun _ _ _ hstep => hstep) hfold
  have hschema : Schema t.file.read := by
    constructor <;> simp [t, DbFile.read, UsersTable.rows, LegacyUserRow.withRole, Database.UniqueSessions]
  obtain ⟨-, hkept, hstarted⟩ := startup_refines (fun _ => rfl) hschema hrun
  have hfile := hstarted 0 hfirst
  rw [hread] at hfile hkept
  exact ⟨es, t', hrun, hfirst, hsecond, hfile, hkept⟩

end OttQuic.Db
