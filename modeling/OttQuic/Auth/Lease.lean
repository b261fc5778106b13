import OttQuic.Auth.Session
import OttQuic.Db.Sessions

/-!
# Sessions as leases

What a session is, apart from the table: the user for whom it was created, and when it was last created or
extended. The lease is current until its time to live is over; nobody has to do anything for it to lapse.

The table backs the leases (`Backs`): a session without a lease has no row, and one with a lease has the
row that the last `INSERT` left, unless it has lapsed and a purge has taken it. Every statement keeps this
for the sessions it is not about.
-/

namespace OttQuic.Auth

open Db

structure Lease where
  userId : Int
  renewedAt : Int
  deriving DecidableEq

/-- The lease has not lapsed at second `now`. -/
def Lease.Current (ttlSeconds now : Int) (lease : Lease) : Prop := now < lease.renewedAt + ttlSeconds

instance (ttlSeconds now : Int) (lease : Lease) : Decidable (lease.Current ttlSeconds now) :=
  inferInstanceAs (Decidable (now < lease.renewedAt + ttlSeconds))

/-- The session can be extended: its user is there, and has an id that an `int` holds. -/
def Lease.Renewable (db : Database) (lease : Lease) : Prop :=
  CString.toInt lease.userId = lease.userId ∧ db.HasUser lease.userId

/-- The row the `INSERT` left. -/
def Lease.row (sessionId : Bytes) (ttlSeconds : Int) (lease : Lease) : SessionRow :=
  ⟨lease.userId, sessionId, lease.renewedAt + ttlSeconds⟩

/-- The rows of the session are those of its lease. -/
def Backs (ttlSeconds now : Int) (sessionId : Bytes) (db : Database) : Option Lease → Prop
  | none => db.rowsOf sessionId = []
  | some lease => db.rowsOf sessionId = [lease.row sessionId ttlSeconds] ∨
      (db.rowsOf sessionId = [] ∧ ¬ lease.Current ttlSeconds now)

/-- The session is in the table, unexpired, and owned by this user. -/
def Authorized (now : Int) (db : Database) (sessionId : Bytes) (userId : Int) : Prop :=
  ∃ row ∈ db.sessions, row.sessionId = sessionId ∧ row.userId = userId ∧ now < row.expiresAt

variable {db db' : Database} {stmt : Stmt} {sessionId other : Bytes} {userId ttlSeconds now later : Int}
  {lease : Option Lease}

/-! ### Statements -/

theorem Backs.clock (h : Backs ttlSeconds now sessionId db lease) (hle : now ≤ later) :
    Backs ttlSeconds later sessionId db lease := by
  cases lease with
  | none => exact h
  | some l =>
      refine h.imp_right fun ⟨hrows, hlapsed⟩ => ⟨hrows, ?_⟩
      unfold Lease.Current at hlapsed ⊢
      omega

theorem Backs.of_rowsOf_eq (h : Backs ttlSeconds now sessionId db lease)
    (hrows : db'.rowsOf sessionId = db.rowsOf sessionId) : Backs ttlSeconds now sessionId db' lease := by
  cases lease with
  | none => exact hrows.trans h
  | some l =>
      unfold Backs
      rwa [hrows]

theorem Backs.deleteExpired (h : Backs ttlSeconds stmt.now sessionId db lease)
    (hdelete : dbDeleteExpiredSessions db stmt = .ok db') :
    Backs ttlSeconds stmt.now sessionId db' lease := by
  obtain ⟨hrows, -⟩ := rowsOf_deleteExpired sessionId hdelete
  cases lease with
  | none =>
      unfold Backs at h ⊢
      rw [hrows, h]
      rfl
  | some l =>
      unfold Backs
      rw [hrows]
      rcases h with hrow | ⟨hempty, hlapsed⟩
      · by_cases hcurrent : l.Current ttlSeconds stmt.now
        · exact .inl (by rw [hrow]; exact List.filter_cons_of_pos (decide_eq_true hcurrent))
        · exact .inr ⟨by rw [hrow]; exact List.filter_cons_of_neg (mt of_decide_eq_true hcurrent), hcurrent⟩
      · exact .inr ⟨by rw [hempty]; rfl, hlapsed⟩

theorem backs_deleteSession (h : dbDeleteSession db stmt sessionId = .ok db') :
    Backs ttlSeconds now sessionId db' none := (rowsOf_deleteSession h).1

theorem backs_createSession (h : dbCreateSession db stmt userId sessionId ttlSeconds = .ok db') :
    Backs ttlSeconds now sessionId db' (some ⟨userId, stmt.now⟩) := .inl (rowsOf_createSession h).1

/-! ### What the table says -/

theorem Backs.authorized_iff (h : Backs ttlSeconds now sessionId db lease) :
    Authorized now db sessionId userId ↔
      ∃ l, lease = some l ∧ l.userId = userId ∧ l.Current ttlSeconds now := by
  constructor
  · rintro ⟨row, hmem, hid, huser, hlt⟩
    have hrow := mem_rowsOf.mpr ⟨hmem, hid⟩
    cases lease with
    | none =>
        rw [show db.rowsOf sessionId = [] from h] at hrow
        cases hrow
    | some l =>
        rcases h with hrows | ⟨hempty, -⟩
        · rw [hrows, List.mem_singleton] at hrow
          subst hrow
          exact ⟨l, rfl, huser, hlt⟩
        · rw [hempty] at hrow
          cases hrow
  · rintro ⟨l, rfl, huser, hcurrent⟩
    rcases h with hrows | ⟨-, hlapsed⟩
    · have hrow := mem_rowsOf.mp (hrows ▸ List.mem_singleton_self (l.row sessionId ttlSeconds))
      exact ⟨_, hrow.1, hrow.2, huser, hcurrent⟩
    · exact absurd hcurrent hlapsed

theorem Backs.getSession {l : Lease} (h : Backs ttlSeconds stmt.now sessionId db (some l)) (hok : stmt.ok = true)
    (hcurrent : l.Current ttlSeconds stmt.now) :
    dbGetSession db stmt sessionId = .ok (l.row sessionId ttlSeconds).read := by
  rcases h with hrows | ⟨-, hlapsed⟩
  · exact dbGetSession_of_rowsOf hok hrows hcurrent
  · exact absurd hcurrent hlapsed

theorem Backs.getSession_none (h : Backs ttlSeconds stmt.now sessionId db lease)
    (hlapsed : ∀ l, lease = some l → ¬ l.Current ttlSeconds stmt.now) :
    ∃ rc, dbGetSession db stmt sessionId = .error rc := by
  refine dbGetSession_of_expired fun row hrow => ?_
  by_contra hlt
  obtain ⟨hmem, hid⟩ := mem_rowsOf.mp hrow
  obtain ⟨l, hl, -, hcurrent⟩ := h.authorized_iff.mp ⟨row, hmem, hid, rfl, by omega⟩
  exact hlapsed l hl hcurrent

end OttQuic.Auth
