import OttQuic.Auth.Lease
import OttQuic.Auth.Logout

/-!
# Concurrent extensions of one session

Any number of `session_validate_and_extend` calls on one session, interleaved statement by statement. An
extension takes the session out of the table and puts it back, so a call between its `DELETE` and its
`INSERT` is in a window in which another call finds no session, or deletes nothing and then collides with
the `INSERT`.

`Serial` is the condition that no call looks at the session or deletes it inside another's window; and the
session can be put back only for a user who is there, by the id as an `int`, and not with a negative time to
live. The invariant is `Extending`: the session is in the table, or exactly one call is in its window and will put
it back.
-/

namespace OttQuic.Auth

open CString Db Transition

/-- The table, the calls and the clock. -/
structure Extensions (k : Nat) where
  db : Database
  calls : Fin k → Validate
  now : Int

inductive ExtensionEvent (k : Nat) where
  /-- The next statement of call `i`; only a constraint can refuse it. -/
  | statement (i : Fin k)
  | clock (now : Int)
  deriving DecidableEq

/-- The session is unexpired while it is in the table. -/
def Extensions.Unexpired {k : Nat} (sessionId : Bytes) (s : Extensions k) : Prop :=
  ∀ row ∈ s.db.sessions, row.sessionId = sessionId → s.now < row.expiresAt

def Extensions.step {k : Nat} (sessionId : Bytes) (ttlSeconds : Int) (s : Extensions k) :
    ExtensionEvent k → Option (Extensions k)
  | .statement i =>
    (Validate.step sessionId ttlSeconds s.db ⟨true, s.now⟩ (s.calls i)).map fun (pc, db) =>
      { s with db := db, calls := Function.update s.calls i pc }
  | .clock now => some { s with now := now }

/-- `k` calls on a session that is unexpired throughout. -/
def extensionSystem (k : Nat) (db : Database) (sessionId : Bytes) (ttlSeconds : Int) :
    System (Extensions k) (ExtensionEvent k) where
  init s := s.db = db ∧ (∀ i, s.calls i = .getSession) ∧ s.Unexpired sessionId
  step s e t := s.step sessionId ttlSeconds e = some t ∧ t.Unexpired sessionId

/-- Between the `DELETE` and the `INSERT`. -/
def Validate.InWindow : Validate → Prop
  | .createSession _ => True
  | _ => False

/-- The next statement reads or deletes the session. -/
def Validate.NeedsSession : Validate → Prop
  | .getSession | .deleteSession _ => True
  | _ => False

instance : DecidablePred Validate.InWindow := fun pc => by cases pc <;> unfold Validate.InWindow <;> infer_instance

instance : DecidablePred Validate.NeedsSession :=
  fun pc => by cases pc <;> unfold Validate.NeedsSession <;> infer_instance

/-- The condition on a step: a statement that reads or deletes the session is outside every window. -/
def Serial {k : Nat} (s : Extensions k) : ExtensionEvent k → Prop
  | .statement i => (s.calls i).NeedsSession → ∀ j, ¬ (s.calls j).InWindow
  | .clock _ => True

instance {k : Nat} (s : Extensions k) : DecidablePred (Serial s) := fun e => by
  cases e <;> unfold Serial <;> infer_instance

instance {k : Nat} (sessionId : Bytes) (s : Extensions k) : Decidable (s.Unexpired sessionId) := by
  unfold Extensions.Unexpired
  infer_instance

/-- A call that has executed `n` statements, none of them in vain. -/
def Validate.after (userId : Int) : Nat → Validate
  | 0 => .getSession
  | 1 => .deleteExpired userId
  | 2 => .deleteSession userId
  | 3 => .createSession userId
  | _ => .returned (some userId)

variable {k : Nat} {db : Database} {sessionId : Bytes} {ttlSeconds : Int} {userId : Int}
  {s t : Extensions k} {e : ExtensionEvent k}

/-! ### The invariant -/

/-- The session is in the table, unexpired, and its user's id is read as `userId`. -/
def Extensions.Live (sessionId : Bytes) (userId : Int) (s : Extensions k) : Prop :=
  ∃ row ∈ s.db.sessions, row.sessionId = sessionId ∧ toInt row.userId = userId ∧ s.now < row.expiresAt

/-- The session is in the table and no call is in its window, or exactly one call is and the session
is not in the table. -/
def Extending (sessionId : Bytes) (userId : Int) (s : Extensions k) : Prop :=
  (∃ row, s.db.rowsOf sessionId = [row] ∧ toInt row.userId = userId ∧ ∀ i, ¬ (s.calls i).InWindow) ∨
    (s.db.rowsOf sessionId = [] ∧ ∃ i, s.calls i = .createSession userId ∧
      ∀ j, (s.calls j).InWindow → j = i)

/-- What a run keeps, with the number of statements each call has executed. -/
structure Extensions.Sound (sessionId : Bytes) (userId : Int) (executed : Fin k → Nat) (s : Extensions k) :
    Prop where
  user : s.db.HasUser userId
  unexpired : s.Unexpired sessionId
  calls : ∀ i, s.calls i = .after userId (executed i)
  table : Extending sessionId userId s

theorem Extending.outside {i : Fin k} {pc : Validate} {db' : Database}
    (h : Extending sessionId userId s) (hi : ¬ (s.calls i).InWindow) (hpc : ¬ pc.InWindow)
    (hrows : db'.rowsOf sessionId = s.db.rowsOf sessionId) :
    Extending sessionId userId { s with db := db', calls := Function.update s.calls i pc } := by
  rcases h with ⟨row, hrow, hid, hnone⟩ | ⟨hempty, w, hw, honly⟩
  · refine .inl ⟨row, hrows.trans hrow, hid, ?_⟩
    exact (Function.forall_update_iff _ fun _ (pc : Validate) => ¬ pc.InWindow).mpr ⟨hpc, fun j _ => hnone j⟩
  · have hne : w ≠ i := by
      rintro rfl
      exact hi (by rw [hw]; trivial)
    refine .inr ⟨hrows.trans hempty, w, (Function.update_of_ne hne ..).trans hw, ?_⟩
    exact (Function.forall_update_iff _ fun j (pc : Validate) => pc.InWindow → j = w).mpr
      ⟨fun h => absurd h hpc, fun j _ => honly j⟩

theorem Extending.opened {i : Fin k} {db' : Database} (hnone : ∀ j, ¬ (s.calls j).InWindow)
    (hrows : db'.rowsOf sessionId = []) :
    Extending sessionId userId
      { s with db := db', calls := Function.update s.calls i (.createSession userId) } := by
  refine .inr ⟨hrows, i, Function.update_self .., ?_⟩
  exact (Function.forall_update_iff _ fun j (pc : Validate) => pc.InWindow → j = i).mpr
    ⟨fun _ => rfl, fun j _ h => absurd h (hnone j)⟩

theorem Extending.closed {i : Fin k} {db' : Database} {row : SessionRow}
    (honly : ∀ j, (s.calls j).InWindow → j = i) (hrows : db'.rowsOf sessionId = [row])
    (hid : toInt row.userId = userId) :
    Extending sessionId userId
      { s with db := db', calls := Function.update s.calls i (.returned (some userId)) } := by
  refine .inl ⟨row, hrows, hid, ?_⟩
  exact (Function.forall_update_iff _ fun _ (pc : Validate) => ¬ pc.InWindow).mpr
    ⟨id, fun j hne h => hne (honly j h)⟩

/-! ### One statement -/

theorem Extending.statement {i : Fin k} {n : Nat} {pc : Validate} {db' : Database}
    (h : Extending sessionId userId s) (huser : s.db.HasUser userId) (hint : toInt userId = userId)
    (httl : 0 ≤ ttlSeconds) (hlive : s.Unexpired sessionId)
    (hserial : Serial s (.statement i)) (hi : s.calls i = .after userId n)
    (hstep : Validate.step sessionId ttlSeconds s.db ⟨true, s.now⟩ (s.calls i) = some (pc, db')) :
    pc = .after userId (n + 1) ∧ db'.HasUser userId ∧
      Extending sessionId userId { s with db := db', calls := Function.update s.calls i pc } := by
  rw [hi] at hstep
  match n with
  | 0 =>
      -- the call reads the session outside every window, so it is there
      have hnone := hserial (by rw [hi]; trivial)
      obtain ⟨row, hrow, hid, -⟩ | ⟨-, w, hw, -⟩ := h
      · have hmem := mem_rowsOf.mp (hrow ▸ List.mem_singleton_self row)
        have hget : dbGetSession s.db ⟨true, s.now⟩ sessionId = .ok row.read :=
          dbGetSession_of_rowsOf rfl hrow (hlive row hmem.1 hmem.2)
        simp only [Validate.after, Validate.step, hget] at hstep
        cases hstep
        subst hid
        exact ⟨rfl, huser, Extending.outside (.inl ⟨row, hrow, rfl, hnone⟩) (hnone i) id rfl⟩
      · exact absurd (by rw [hw]; trivial) (hnone w)
  | 1 =>
      -- the session is not among the expired ones
      obtain ⟨db₁, hdelete⟩ : ∃ db₁, dbDeleteExpiredSessions s.db ⟨true, s.now⟩ = .ok db₁ := ⟨_, rfl⟩
      simp only [Validate.after, Validate.step, hdelete] at hstep
      cases hstep
      obtain ⟨hrows, husers⟩ := rowsOf_deleteExpired sessionId hdelete
      have hsame : db'.rowsOf sessionId = s.db.rowsOf sessionId := by
        rw [hrows]
        apply List.filter_eq_self.mpr
        intro row hrow
        obtain ⟨hmem, hid⟩ := mem_rowsOf.mp hrow
        simpa using hlive row hmem hid
      refine ⟨rfl, ?_, h.outside (by rw [hi]; exact id) id hsame⟩
      rwa [Database.HasUser, husers]
  | 2 =>
      obtain ⟨db₁, hdelete⟩ : ∃ db₁, dbDeleteSession s.db ⟨true, s.now⟩ sessionId = .ok db₁ := ⟨_, rfl⟩
      simp only [Validate.after, Validate.step, hdelete] at hstep
      cases hstep
      obtain ⟨hrows, husers⟩ := rowsOf_deleteSession hdelete
      refine ⟨rfl, ?_, Extending.opened (hserial (by rw [hi]; trivial)) hrows⟩
      rwa [Database.HasUser, husers]
  | 3 =>
      -- the call is the one in its window, so nobody has put the session back
      obtain ⟨row, -, -, hnone⟩ | ⟨hempty, w, -, honly⟩ := h
      · exact absurd (by rw [hi]; trivial) (hnone i)
      · obtain rfl : i = w := honly i (by rw [hi]; trivial)
        obtain ⟨db₁, hcreate⟩ : ∃ db₁,
            dbCreateSession s.db ⟨true, s.now⟩ userId sessionId ttlSeconds = .ok db₁ :=
          ⟨_, dbCreateSession_of_accepts rfl hempty huser httl⟩
        simp only [Validate.after, Validate.step, hcreate] at hstep
        cases hstep
        obtain ⟨hrows, husers⟩ := rowsOf_createSession hcreate
        refine ⟨rfl, ?_, Extending.closed honly hrows hint⟩
        rwa [Database.HasUser, husers]
  | n + 4 => cases hstep

/-- **One step** under the condition keeps the invariant, and counts the statement. -/
theorem Extensions.Sound.step {executed : Fin k → Nat} (h : s.Sound sessionId userId executed)
    (hint : toInt userId = userId) (httl : 0 ≤ ttlSeconds)
    (hserial : Serial s e) (hstep : s.step sessionId ttlSeconds e = some t)
    (hlive : t.Unexpired sessionId) :
    t.Sound sessionId userId fun i => executed i + [e].count (.statement i) := by
  cases e with
  | clock now =>
      cases hstep
      exact ⟨h.user, hlive, fun i => by simpa using h.calls i, h.table⟩
  | statement i =>
      simp only [Extensions.step, Option.map_eq_some_iff] at hstep
      obtain ⟨⟨pc, db'⟩, hpc, rfl⟩ := hstep
      obtain ⟨rfl, huser, htable⟩ := h.table.statement h.user hint httl h.unexpired hserial (h.calls i) hpc
      refine ⟨huser, hlive, ?_, htable⟩
      refine (Function.forall_update_iff _ fun j pc =>
        pc = Validate.after userId (executed j + [ExtensionEvent.statement i].count (.statement j))).mpr
          ⟨by simp, fun j hne => ?_⟩
      rw [h.calls j, List.count_singleton]
      simp [hne.symm]

/-! ### Runs -/

theorem sound_run {es : List (ExtensionEvent k)} (hs : s.Sound sessionId userId fun _ => 0)
    (hint : toInt userId = userId) (httl : 0 ≤ ttlSeconds)
    (h : ((extensionSystem k db sessionId ttlSeconds).restrict Serial).Run s es t) :
    t.Sound sessionId userId fun i => es.count (.statement i) := by
  induction h with
  | nil => exact hs
  | snoc _ hlast ih =>
      obtain ⟨hserial, hstep, hlive⟩ := hlast
      simpa only [List.count_append] using ih.step hint httl hserial hstep hlive

theorem sound_init {session : SessionRow} (hunique : db.UniqueSessions) (hmem : session ∈ db.sessions)
    (huser : db.HasUser (toInt session.userId))
    (hinit : (extensionSystem k db session.sessionId ttlSeconds).init s) :
    s.Sound session.sessionId (toInt session.userId) fun _ => 0 := by
  obtain ⟨rfl, hcalls, hlive⟩ := hinit
  refine ⟨huser, hlive, hcalls, .inl ⟨session, rowsOf_eq_singleton hunique hmem, rfl, fun i => ?_⟩⟩
  rw [hcalls i]
  exact id

theorem Extensions.Sound.live {executed : Fin k → Nat} (h : s.Sound sessionId userId executed)
    (hnone : ∀ i, ¬ (s.calls i).InWindow) : s.Live sessionId userId := by
  obtain ⟨row, hrow, hid, -⟩ | ⟨-, w, hw, -⟩ := h.table
  · obtain ⟨hmem, hsession⟩ := mem_rowsOf.mp (hrow ▸ List.mem_singleton_self row)
    exact ⟨row, hmem, hsession, hid, h.unexpired row hmem hsession⟩
  · exact absurd (by rw [hw]; trivial) (hnone w)

/-- **Concurrent extensions succeed when they are serial.** For every number of calls, in every run whose
steps all meet `Serial`, with a user of the session's id as an `int` and a time to live that is not negative: a call
that has executed its four statements has returned `0` with that user, no call returns anything else, and when all
calls have returned the session is in the table, unexpired. -/
theorem concurrent_extensions_succeed {session : SessionRow} {s₀ : Extensions k}
    {es : List (ExtensionEvent k)} (hunique : db.UniqueSessions) (hmem : session ∈ db.sessions)
    (huser : db.HasUser (toInt session.userId)) (httl : 0 ≤ ttlSeconds)
    (hinit : (extensionSystem k db session.sessionId ttlSeconds).init s₀)
    (h : ((extensionSystem k db session.sessionId ttlSeconds).restrict Serial).Run s₀ es s) :
    (∀ i, es.count (.statement i) = 4 → s.calls i = .returned (some (toInt session.userId))) ∧
      (∀ i result, s.calls i = .returned result → result = some (toInt session.userId)) ∧
        ((∀ i, ∃ result, s.calls i = .returned result) → s.Live session.sessionId (toInt session.userId)) := by
  have hsound := sound_run (sound_init hunique hmem huser hinit) (toInt_toInt _) httl h
  refine ⟨fun i hfour => ?_, fun i result hreturned => ?_, fun hall => hsound.live fun i => ?_⟩
  · rw [hsound.calls i, hfour]
    rfl
  · rw [hsound.calls i] at hreturned
    generalize es.count (.statement i) = n at hreturned
    match n with
    | 0 | 1 | 2 | 3 => cases hreturned
    | n + 4 => exact (Validate.returned.inj hreturned).symm
  · obtain ⟨result, hresult⟩ := hall i
    rw [hresult]
    exact id

/-- `k` calls that start while the user is logged in. -/
def Extensions.initial (k : Nat) : Extensions k := ⟨loggedIn [115], fun _ => .getSession, 0⟩

/-- Two calls, the second after the first. -/
theorem concurrent_extensions_succeed_two : ∃ s : Extensions 2,
    (∀ i, s.calls i = .returned (some 1)) ∧ s.Live [115] 1 := by
  let es : List (ExtensionEvent 2) := List.replicate 4 (.statement 0) ++ List.replicate 4 (.statement 1)
  let f (s : Extensions 2) (e : ExtensionEvent 2) : Option (Extensions 2) :=
    if Serial s e then (s.step [115] 1800 e).filter fun t => t.Unexpired [115] else none
  have hf (s : Extensions 2) (e : ExtensionEvent 2) (t : Extensions 2) (h : f s e = some t) :
      ((extensionSystem 2 (loggedIn [115]) [115] 1800).restrict Serial).step s e t := by
    dsimp only [f] at h
    split_ifs at h with hserial
    rw [Option.filter_eq_some_iff, decide_eq_true_eq] at h
    exact ⟨hserial, h⟩
  obtain ⟨s, hs⟩ : ∃ s, es.foldlM f (.initial 2) = some s := ⟨_, rfl⟩
  have hinit : (extensionSystem 2 (loggedIn [115]) [115] 1800).init (.initial 2) :=
    ⟨rfl, fun _ => rfl, by decide⟩
  have hmem : (⟨1, [115], 100⟩ : SessionRow) ∈ (loggedIn [115]).sessions := by decide
  obtain ⟨hfour, -, hlive⟩ :=
    concurrent_extensions_succeed (by decide) hmem (by decide) (by decide) hinit (System.run_of_foldlM hf hs)
  have hreturned : ∀ i, s.calls i = .returned (some 1) := fun i => hfour i (by revert i; decide)
  exact ⟨s, hreturned, hlive fun i => ⟨_, hreturned i⟩⟩

/-- The first call has deleted the session when the second looks for it. -/
theorem concurrent_extension_rejected :
    ¬ ∀ (k : Nat) (db : Database) (session : SessionRow) (ttlSeconds : Int) (s₀ s : Extensions k)
      (es : List (ExtensionEvent k)), 2 ≤ k → db.UniqueSessions → session ∈ db.sessions →
        db.HasUser session.userId → (extensionSystem k db session.sessionId ttlSeconds).init s₀ →
        (extensionSystem k db session.sessionId ttlSeconds).Run s₀ es s →
          ∃ userId, ∀ i result, s.calls i = .returned result → result = some userId := by
  intro h
  let es : List (ExtensionEvent 2) := [.statement 0, .statement 0, .statement 0, .statement 1]
  let f (s : Extensions 2) (e : ExtensionEvent 2) : Option (Extensions 2) :=
    (s.step [115] 1800 e).filter fun t => t.Unexpired [115]
  have hf (s : Extensions 2) (e : ExtensionEvent 2) (t : Extensions 2) (h : f s e = some t) :
      (extensionSystem 2 (loggedIn [115]) [115] 1800).step s e t := by
    dsimp only [f] at h
    rwa [Option.filter_eq_some_iff, decide_eq_true_eq] at h
  obtain ⟨s, hs, hnone⟩ : ∃ s, es.foldlM f (.initial 2) = some s ∧ s.calls 1 = .returned none :=
    ⟨_, rfl, rfl⟩
  obtain ⟨userId, hresult⟩ := h 2 (loggedIn [115]) ⟨1, [115], 100⟩ 1800 (.initial 2) s es le_rfl (by decide)
    (by decide) (by decide) ⟨rfl, fun _ => rfl, by decide⟩ (System.run_of_foldlM hf hs)
  cases hresult 1 none hnone

end OttQuic.Auth
