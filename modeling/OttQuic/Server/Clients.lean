import OttQuic.Lib.Transition

/-!
# Client accounting of the TCP server (`server.c`)

`accept_loop`, its `client_worker` threads and `server_join` as one transition system, for the build
with `ENABLE_TLS`. `client_count` goes up when a connection is admitted and must come down once for
each: after a failed `malloc` or `pthread_create` in the accept thread, or at the end of the worker.

The worker's two TLS failures leave by `goto done`, past the decrement and the signal. So what holds of
every run is `accounting`: the count is the number of live connections plus the number of workers that
left that way. `client_count_exact_iff` is the claim of exactness with its condition.
-/

namespace OttQuic.Server

open Transition

/-- Where the accept thread is. -/
inductive AcceptPc where
  /-- At `accept`. -/
  | accept
  /-- A connection has been accepted; next the count is compared. -/
  | canAccept
  /-- The server is busy: the connection is told so and closed. -/
  | busy
  | malloc
  | create
  /-- `malloc` or `pthread_create` has failed; next the count is taken back. -/
  | undo
  | detach
  | exited
  deriving DecidableEq

/-- Where a `client_worker` thread is. -/
inductive WorkerPc where
  | start
  | sslNew
  | sslAccept
  /-- In `websocket_handle_client`. -/
  | handle
  /-- At the lock before the decrement. -/
  | leave
  | finished
  /-- Returned by `goto done` after `SSL_new` or `SSL_accept` has failed. -/
  | failed
  deriving DecidableEq

/-- Where `server_join` is. -/
inductive JoinPc where
  | joining
  | checking
  | waiting
  | returned
  deriving DecidableEq

/-- The shared fields of `server_ctx_t` and the threads. -/
structure State where
  clientCount : Int
  maxClients : Int
  /-- `ctx->ssl_ctx` is not `NULL`. -/
  tls : Bool
  running : Bool
  acceptThread : AcceptPc
  workers : List WorkerPc
  join : JoinPc
  deriving DecidableEq

/-- A step of a worker, with the outcomes of its calls. -/
inductive WorkerEvent where
  | start
  | sslNew (ok : Bool)
  | sslAccept (ok : Bool)
  | handled
  | leave
  deriving DecidableEq

inductive Event where
  | acceptFailed
  | accepted
  | canAccept
  | rejected
  | malloc (ok : Bool)
  | create (ok : Bool)
  | undo
  | detach
  | worker (i : Nat) (e : WorkerEvent)
  | requestStop
  | joinAccept
  | joinCheck
  | wake
  deriving DecidableEq

/-- The worker after its step; the decrement of `leave` is in `step`. -/
def workerStep (tls : Bool) : WorkerPc → WorkerEvent → Option WorkerPc
  | .start, .start => some (if tls then .sslNew else .handle)
  | .sslNew, .sslNew ok => some (if ok then .sslAccept else .failed)
  | .sslAccept, .sslAccept ok => some (if ok then .handle else .failed)
  | .handle, .handled => some .leave
  | .leave, .leave => some .finished
  | _, _ => none

/-- `pthread_cond_signal`. -/
def signal : JoinPc → JoinPc
  | .waiting => .checking
  | pc => pc

def State.step (s : State) : Event → Option State
  | .acceptFailed =>
    if s.acceptThread = .accept then
      some { s with acceptThread := if s.running then .accept else .exited }
    else none
  | .accepted => if s.acceptThread = .accept then some { s with acceptThread := .canAccept } else none
  | .canAccept =>
    if s.acceptThread = .canAccept then
      if s.clientCount < s.maxClients then
        some { s with clientCount := s.clientCount + 1, acceptThread := .malloc }
      else some { s with acceptThread := .busy }
    else none
  | .rejected => if s.acceptThread = .busy then some { s with acceptThread := .accept } else none
  | .malloc ok =>
    if s.acceptThread = .malloc then some { s with acceptThread := if ok then .create else .undo }
    else none
  | .create ok =>
    if s.acceptThread = .create then
      if ok then some { s with acceptThread := .detach, workers := s.workers ++ [.start] }
      else some { s with acceptThread := .undo }
    else none
  | .undo =>
    if s.acceptThread = .undo then
      some { s with clientCount := s.clientCount - 1, acceptThread := .accept }
    else none
  | .detach => if s.acceptThread = .detach then some { s with acceptThread := .accept } else none
  | .worker i e =>
    match s.workers[i]? with
    | none => none
    | some pc =>
      match workerStep s.tls pc e with
      | none => none
      | some pc' =>
        let s' := { s with workers := s.workers.set i pc' }
        if e = .leave then
          some { s' with
            clientCount := if s.clientCount > 0 then s.clientCount - 1 else s.clientCount
            join := signal s.join }
        else some s'
  | .requestStop => some { s with running := false }
  | .joinAccept =>
    if s.join = .joining ∧ s.acceptThread = .exited then some { s with join := .checking } else none
  | .joinCheck =>
    if s.join = .checking then
      some { s with join := if s.clientCount > 0 then .waiting else .returned }
    else none
  -- a condition variable may also wake up without a signal
  | .wake => if s.join = .waiting then some { s with join := .checking } else none

def State.initial (tls : Bool) (maxClients : Int) : State :=
  ⟨0, maxClients, tls, true, .accept, [], .joining⟩

/-- The server after `server_start`; `server_init` has checked that `max_clients` is positive. -/
def system (tls : Bool) (maxClients : Int) : System State Event :=
  .ofPartial (.initial tls maxClients) State.step

/-- The worker has not returned. -/
def WorkerPc.live : WorkerPc → Bool
  | finished | failed => false
  | _ => true

/-- The accept thread holds a connection it has counted and has no worker for. -/
def AcceptPc.holds : AcceptPc → Bool
  | malloc | create | undo => true
  | _ => false

/-- The number of admitted connections whose worker has not finished. -/
def State.live (s : State) : Nat := s.acceptThread.holds.toNat + s.workers.countP WorkerPc.live

/-- The number of workers that returned after a TLS failure. -/
def State.leaked (s : State) : Nat := s.workers.countP fun pc => pc = .failed

/-- `SSL_new` or `SSL_accept` fails. -/
def WorkerEvent.tlsFailure : WorkerEvent → Bool
  | sslNew ok | sslAccept ok => !ok
  | _ => false

def Event.tlsFailure : Event → Bool
  | worker _ e => e.tlsFailure
  | _ => false

/-! ### One step -/

/-- What holds of every reachable state. -/
structure Accounting (maxClients : Int) (s : State) : Prop where
  max : s.maxClients = maxClients
  count : s.clientCount = s.live + s.leaked
  le : s.clientCount ≤ maxClients
  exited : s.join ≠ .joining → s.acceptThread = .exited
  waiting : s.join = .waiting → 0 < s.clientCount

theorem countP_set_worker {ws : List WorkerPc} {i : Nat} {pc : WorkerPc} (h : ws[i]? = some pc)
    (pc' : WorkerPc) (p : WorkerPc → Bool) :
    (ws.set i pc').countP p + (p pc).toNat = ws.countP p + (p pc').toNat := by
  obtain ⟨hi, hget⟩ := List.getElem?_eq_some_iff.mp h
  rw [List.countP_set hi, hget]
  have hpos : (p pc).toNat ≤ ws.countP p := by
    cases hp : p pc with
    | false => simp
    | true => exact List.countP_pos_iff.mpr ⟨pc, List.mem_of_getElem? h, hp⟩
  cases hp : p pc with
  | false => cases hp' : p pc' <;> simp
  | true =>
      rw [hp] at hpos
      simp only [Bool.toNat_true] at hpos
      cases hp' : p pc' <;> simp only [if_true, Bool.toNat_true, Bool.toNat_false, Bool.false_eq_true,
        if_false] <;> omega

theorem workerStep_counts {tls : Bool} {pc pc' : WorkerPc} {e : WorkerEvent}
    (h : workerStep tls pc e = some pc') :
    pc.live = true ∧ pc ≠ .failed ∧ (pc' = .failed ↔ e.tlsFailure = true) ∧
      (e = .leave → pc' = .finished) ∧ (e ≠ .leave → pc' = .failed ∨ pc'.live = true) := by
  cases pc <;> cases e <;> simp only [workerStep, Option.some.injEq, reduceCtorEq] at h
  case start.start => cases tls <;> subst h <;> simp [WorkerPc.live, WorkerEvent.tlsFailure]
  case sslNew.sslNew ok => cases ok <;> subst h <;> simp [WorkerPc.live, WorkerEvent.tlsFailure]
  case sslAccept.sslAccept ok => cases ok <;> subst h <;> simp [WorkerPc.live, WorkerEvent.tlsFailure]
  case handle.handled => subst h; simp [WorkerPc.live, WorkerEvent.tlsFailure]
  case leave.leave => subst h; simp [WorkerPc.live, WorkerEvent.tlsFailure]

theorem worker_counts {s : State} {i : Nat} {pc pc' : WorkerPc} {e : WorkerEvent}
    (hi : s.workers[i]? = some pc) (h : workerStep s.tls pc e = some pc') :
    (s.workers.set i pc').countP (fun w => w = .failed) = s.leaked + e.tlsFailure.toNat ∧
      (s.workers.set i pc').countP WorkerPc.live + e.tlsFailure.toNat + (decide (e = .leave)).toNat =
        s.workers.countP WorkerPc.live := by
  obtain ⟨hlive, hpc, hfailed, hleave, hstay⟩ := workerStep_counts h
  have hl := countP_set_worker hi pc' WorkerPc.live
  have hf := countP_set_worker hi pc' fun w => w = .failed
  simp only [hlive, hpc, decide_false, Bool.toNat_true, Bool.toNat_false, Nat.add_zero] at hl hf
  have hdec : decide (pc' = .failed) = e.tlsFailure := by
    cases he : e.tlsFailure <;> simp [hfailed, he]
  rw [hdec] at hf
  refine ⟨hf, ?_⟩
  by_cases he : e = .leave
  · have hpc' := hleave he
    subst hpc' he
    simp only [WorkerPc.live, Bool.toNat_false] at hl
    simp only [WorkerEvent.tlsFailure, decide_true, Bool.toNat_true, Bool.toNat_false]
    omega
  · rcases hstay he with hpc' | hpc'
    · have hfail := hfailed.mp hpc'
      simp only [hpc', WorkerPc.live, Bool.toNat_false] at hl
      simp only [he, hfail, decide_false, Bool.toNat_true, Bool.toNat_false]
      subst hpc'
      omega
    · have hfail : e.tlsFailure = false := by
        rw [← hdec]
        cases pc' <;> simp [WorkerPc.live] at hpc' ⊢
      simp only [hpc', Bool.toNat_true] at hl
      simp only [he, hfail, decide_false, Bool.toNat_false]
      omega

theorem Accounting.joining {m : Int} {s : State} (hI : Accounting m s)
    (h : s.acceptThread ≠ .exited) : s.join = .joining := by
  by_contra hj
  exact h (hI.exited hj)

theorem Accounting.accept_step {m count : Int} {s : State} {pc : AcceptPc} (hI : Accounting m s)
    (hpc : s.acceptThread ≠ .exited) (hle : count ≤ m)
    (hcount : count + s.acceptThread.holds.toNat = s.clientCount + pc.holds.toNat) :
    Accounting m { s with clientCount := count, acceptThread := pc } := by
  have hj := hI.joining hpc
  refine ⟨hI.max, ?_, hle, fun hne => absurd hj hne, ?_⟩
  · have hc := hI.count
    simp only [State.live, State.leaked] at hc ⊢
    omega
  · intro hw
    rw [show s.join = .joining from hj] at hw
    exact absurd hw (by decide)

theorem Accounting.create_step {m : Int} {s : State} (hI : Accounting m s) (hpc : s.acceptThread = .create) :
    Accounting m { s with acceptThread := .detach, workers := s.workers ++ [.start] } := by
  have hj := hI.joining (by rw [hpc]; decide)
  refine ⟨hI.max, ?_, hI.le, fun hne => absurd hj hne, fun hw => ?_⟩
  · have hc := hI.count
    simp only [State.live, State.leaked, hpc, List.countP_append, AcceptPc.holds] at hc ⊢
    simp [WorkerPc.live] at hc ⊢
    omega
  · rw [show s.join = .joining from hj] at hw
    exact absurd hw (by decide)

theorem Accounting.worker_step {m : Int} {s : State} {i : Nat} {pc pc' : WorkerPc} {e : WorkerEvent}
    (hI : Accounting m s) (hi : s.workers[i]? = some pc) (h : workerStep s.tls pc e = some pc') :
    ∀ t, s.step (.worker i e) = some t →
      Accounting m t ∧ t.leaked = s.leaked + e.tlsFailure.toNat := by
  intro t ht
  obtain ⟨hf, hl⟩ := worker_counts hi h
  have hc := hI.count
  have hle := hI.le
  simp only [State.live, State.leaked] at hc
  simp only [State.step, hi, h] at ht
  by_cases he : e = .leave
  · rw [if_pos he] at ht
    obtain rfl := Option.some.inj ht
    have hpos : s.clientCount > 0 := by
      simp only [he, decide_true, Bool.toNat_true] at hl
      omega
    have hfail : e.tlsFailure = false := by rw [he]; rfl
    simp only [he, decide_true, Bool.toNat_true] at hl hf
    refine ⟨⟨hI.max, ?_, ?_, ?_, ?_⟩, ?_⟩
    · simp only [hpos, if_true, State.live, State.leaked]
      rw [hf]
      simp only [State.leaked]
      omega
    · simp only [hpos, if_true]
      omega
    · intro hj
      apply hI.exited
      intro hj'
      simp only [hj', signal] at hj
      exact hj rfl
    · intro hw
      cases hj : s.join <;> simp [hj, signal] at hw
    · rw [hfail]
      exact hf
  · rw [if_neg he] at ht
    obtain rfl := Option.some.inj ht
    simp only [he, decide_false, Bool.toNat_false] at hl
    refine ⟨⟨hI.max, ?_, hle, hI.exited, hI.waiting⟩, hf⟩
    simp only [State.live, State.leaked]
    rw [hf]
    simp only [State.leaked]
    omega

/-- **One step keeps the accounting**, and leaks one unit exactly when it is a TLS failure. -/
theorem Accounting.step {m : Int} {s t : State} {e : Event} (hI : Accounting m s)
    (h : s.step e = some t) : Accounting m t ∧ t.leaked = s.leaked + e.tlsFailure.toNat := by
  have hle := hI.le
  have hmax := hI.max
  cases e with
  | acceptFailed =>
      obtain ⟨hpc, rfl⟩ : s.acceptThread = .accept ∧
          { s with acceptThread := if s.running then .accept else .exited } = t := by
        simpa [State.step] using h
      refine ⟨hI.accept_step (by rw [hpc]; decide) hle ?_, rfl⟩
      cases hr : s.running <;> simp [hpc, AcceptPc.holds]
  | accepted =>
      obtain ⟨hpc, rfl⟩ : s.acceptThread = .accept ∧ { s with acceptThread := .canAccept } = t := by
        simpa [State.step] using h
      exact ⟨hI.accept_step (by rw [hpc]; decide) hle (by rw [hpc]; rfl), rfl⟩
  | canAccept =>
      by_cases hpc : s.acceptThread = .canAccept
      · by_cases hlt : s.clientCount < s.maxClients
        · simp only [State.step, hpc, hlt, if_true, Option.some.injEq] at h
          subst h
          exact ⟨hI.accept_step (by rw [hpc]; decide) (by omega)
            (by rw [hpc]; simp [AcceptPc.holds]), rfl⟩
        · simp only [State.step, hpc, hlt, if_true, if_false, Option.some.injEq] at h
          subst h
          exact ⟨hI.accept_step (by rw [hpc]; decide) hle (by rw [hpc]; rfl), rfl⟩
      · simp [State.step, hpc] at h
  | rejected =>
      obtain ⟨hpc, rfl⟩ : s.acceptThread = .busy ∧ { s with acceptThread := .accept } = t := by
        simpa [State.step] using h
      exact ⟨hI.accept_step (by rw [hpc]; decide) hle (by rw [hpc]; rfl), rfl⟩
  | malloc ok =>
      obtain ⟨hpc, rfl⟩ : s.acceptThread = .malloc ∧
          { s with acceptThread := if ok then .create else .undo } = t := by
        simpa [State.step] using h
      refine ⟨hI.accept_step (by rw [hpc]; decide) hle ?_, rfl⟩
      cases ok <;> simp [hpc, AcceptPc.holds]
  | create ok =>
      by_cases hpc : s.acceptThread = .create
      · cases ok with
        | false =>
            simp only [State.step, hpc, if_true, Bool.false_eq_true, if_false, Option.some.injEq] at h
            subst h
            exact ⟨hI.accept_step (by rw [hpc]; decide) hle (by rw [hpc]; rfl), rfl⟩
        | true =>
            simp only [State.step, hpc, if_true, Option.some.injEq] at h
            subst h
            exact ⟨hI.create_step hpc, by simp [State.leaked, Event.tlsFailure]⟩
      · simp [State.step, hpc] at h
  | undo =>
      obtain ⟨hpc, rfl⟩ : s.acceptThread = .undo ∧
          { s with clientCount := s.clientCount - 1, acceptThread := .accept } = t := by
        simpa [State.step] using h
      exact ⟨hI.accept_step (by rw [hpc]; decide) (by omega)
        (by rw [hpc]; simp [AcceptPc.holds]), rfl⟩
  | detach =>
      obtain ⟨hpc, rfl⟩ : s.acceptThread = .detach ∧ { s with acceptThread := .accept } = t := by
        simpa [State.step] using h
      exact ⟨hI.accept_step (by rw [hpc]; decide) hle (by rw [hpc]; rfl), rfl⟩
  | worker i e =>
      have h' := h
      unfold State.step at h
      cases hi : s.workers[i]? with
      | none => simp [hi] at h
      | some pc =>
          cases hw : workerStep s.tls pc e with
          | none => simp [hi, hw] at h
          | some pc' => exact hI.worker_step hi hw t h'
  | requestStop =>
      obtain rfl : { s with running := false } = t := by simpa [State.step] using h
      exact ⟨⟨hmax, hI.count, hle, hI.exited, hI.waiting⟩, rfl⟩
  | joinAccept =>
      obtain ⟨⟨-, hpc⟩, rfl⟩ : (s.join = .joining ∧ s.acceptThread = .exited) ∧
          { s with join := .checking } = t := by
        simpa [State.step] using h
      exact ⟨⟨hmax, hI.count, hle, fun _ => hpc, fun hw => absurd hw (by simp)⟩, rfl⟩
  | joinCheck =>
      obtain ⟨hj, rfl⟩ : s.join = .checking ∧
          { s with join := if s.clientCount > 0 then .waiting else .returned } = t := by
        simpa [State.step] using h
      have hexit := hI.exited (by rw [hj]; decide)
      refine ⟨⟨hmax, hI.count, hle, fun _ => hexit, fun hw => ?_⟩, rfl⟩
      by_contra hpos
      simp [show ¬ s.clientCount > 0 from hpos] at hw
  | wake =>
      obtain ⟨hj, rfl⟩ : s.join = .waiting ∧ { s with join := .checking } = t := by
        simpa [State.step] using h
      have hexit := hI.exited (by rw [hj]; decide)
      exact ⟨⟨hmax, hI.count, hle, fun _ => hexit, fun hw => absurd hw (by simp)⟩, rfl⟩

/-! ### Runs -/

/-- **The accounting over a run**: it holds in every state, and what has leaked is the number of TLS
failures so far. -/
theorem accounting_run {tls : Bool} {m : Int} (hm : 0 < m) {es : List Event} {s : State}
    (h : (system tls m).Run (.initial tls m) es s) :
    Accounting m s ∧ s.leaked = es.countP Event.tlsFailure := by
  induction h with
  | nil =>
      refine ⟨⟨rfl, rfl, Int.le_of_lt hm, fun hj => absurd rfl hj, fun hw => ?_⟩, rfl⟩
      exact absurd hw (by simp [State.initial])
  | @snoc es s t e _ hstep ih =>
      obtain ⟨hI, hleak⟩ := ih
      obtain ⟨hI', hleak'⟩ := hI.step hstep
      refine ⟨hI', ?_⟩
      rw [hleak', hleak, List.countP_append, List.countP_singleton]
      cases e.tlsFailure <;> rfl

/-- **When the client count is exact.** In every run the count is between `0` and `max_clients`, and it
is the number of admitted connections whose worker has not finished if and only if no `SSL_new` and no
`SSL_accept` of the run has failed. Then, once every worker has finished, the count is `0`:
`server_join` is not left waiting, its check returns, and the next connection is admitted. -/
theorem client_count_exact_iff {tls : Bool} {maxClients : Int} (hmax : 0 < maxClients)
    {es : List Event} {s : State} (h : (system tls maxClients).Run (.initial tls maxClients) es s) :
    0 ≤ s.clientCount ∧ s.clientCount ≤ maxClients ∧
      (s.clientCount = s.live ↔ ∀ e ∈ es, e.tlsFailure = false) ∧
      ((∀ e ∈ es, e.tlsFailure = false) → s.live = 0 →
        s.clientCount = 0 ∧ s.join ≠ .waiting ∧
          (s.join = .checking → s.step .joinCheck = some { s with join := .returned }) ∧
          (s.acceptThread = .canAccept →
            s.step .canAccept = some { s with clientCount := 1, acceptThread := .malloc })) := by
  obtain ⟨hI, hleak⟩ := accounting_run hmax h
  have hcount := hI.count
  have hexact : s.clientCount = s.live ↔ ∀ e ∈ es, e.tlsFailure = false := by
    have hzero : s.leaked = 0 ↔ ∀ e ∈ es, e.tlsFailure = false := by
      rw [hleak, List.countP_eq_zero]
      simp
    rw [← hzero]
    omega
  refine ⟨by omega, hI.le, hexact, fun hok hlive => ?_⟩
  have hnone : s.clientCount = 0 := by
    rw [hexact.mpr hok, hlive]
    rfl
  refine ⟨hnone, fun hw => ?_, fun hj => ?_, fun hpc => ?_⟩
  · have hpos := hI.waiting hw
    omega
  · simp [State.step, hj, hnone]
  · have hroom : s.clientCount < s.maxClients := by
      rw [hnone, hI.max]
      exact hmax
    simp [State.step, hpc, hnone, hI.max, hmax]

/-- A TLS client that is served and leaves, with another at the door of a server of one client. -/
theorem client_count_exact_one :
    ∃ es s, (system true 1).Run (.initial true 1) es s ∧ s.workers = [.finished] ∧
      s.clientCount = 0 ∧ s.step .canAccept = some { s with clientCount := 1, acceptThread := .malloc } := by
  let es : List Event :=
    [.accepted, .canAccept, .malloc true, .create true, .detach, .worker 0 .start,
      .worker 0 (.sslNew true), .worker 0 (.sslAccept true), .worker 0 .handled, .worker 0 .leave,
      .accepted]
  let s : State := ⟨0, 1, true, true, .canAccept, [.finished], .joining⟩
  have hrun : (system true 1).Run (.initial true 1) es s := System.run_ofPartial.mpr (by decide)
  obtain ⟨-, -, -, hdone⟩ := client_count_exact_iff (by decide) hrun
  obtain ⟨hzero, -, -, hnext⟩ := hdone (by decide) (by decide)
  exact ⟨es, s, hrun, rfl, hzero, hnext rfl⟩

/-- After one failed handshake the only unit of the server is gone: no worker is left, yet the count is
`1`, the next connection is rejected and `server_join` waits. -/
theorem client_count_leaks :
    ¬ ∀ (tls : Bool) (maxClients : Int) (es : List Event) (s : State), 0 < maxClients →
      (system tls maxClients).Run (.initial tls maxClients) es s → s.clientCount = s.live := by
  intro h
  let es : List Event :=
    [.accepted, .canAccept, .malloc true, .create true, .detach, .worker 0 .start,
      .worker 0 (.sslNew true), .worker 0 (.sslAccept false), .accepted, .canAccept, .rejected,
      .requestStop, .acceptFailed, .joinAccept, .joinCheck]
  let s : State := ⟨1, 1, true, false, .exited, [.failed], .waiting⟩
  have hrun : (system true 1).Run (.initial true 1) es s := System.run_ofPartial.mpr (by decide)
  exact absurd (h true 1 es s (by decide) hrun) (by decide)

end OttQuic.Server
