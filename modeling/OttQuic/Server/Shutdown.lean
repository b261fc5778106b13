import Mathlib.Algebra.Order.Ring.Nat
import OttQuic.Server.Clients

/-!
# Shutting down and letting in

`server_join` waits for the accept thread and then for `client_count` to come down; `main` closes the database and
frees the context when it has returned. `join_returned` says that this is safe: by then no thread of the server runs,
and none will.

What a failed TLS handshake leaks is lost for good. `shutdown_completes_iff` says that a server can still be shut down
if and only if nothing has leaked, and `admission_possible_iff` that a running server can still let a client in if and
only if less than `max_clients` has. Both are possible from wherever the threads happen to be.
-/

namespace OttQuic.Server

open Transition

/-! ### After `server_join` -/

/-- `server_join` returns on a count of `0`. -/
def CountedOut (s : State) : Prop := s.join = .returned → s.clientCount = 0

theorem Accounting.none_left {m : Int} {s : State} (hI : Accounting m s) (hzero : s.clientCount = 0) :
    ∀ pc ∈ s.workers, pc = .finished := by
  have hcount := hI.count
  have hlive : s.workers.countP WorkerPc.live = 0 := by
    simp only [State.live] at hcount
    omega
  have hleaked : s.workers.countP (fun pc => pc = .failed) = 0 := by
    simp only [State.leaked] at hcount
    omega
  rw [List.countP_eq_zero] at hlive hleaked
  intro pc hpc
  have hdead := hlive pc hpc
  have hok := hleaked pc hpc
  cases pc <;> simp [WorkerPc.live] at hdead hok ⊢

theorem workerStep_finished (tls : Bool) (e : WorkerEvent) : workerStep tls .finished e = none := by
  cases e <;> rfl

theorem step_returned {m : Int} {s t : State} {e : Event} (hI : Accounting m s) (hout : CountedOut s)
    (hreturned : s.join = .returned) (h : s.step e = some t) :
    t.join = .returned ∧ t.clientCount = 0 ∧ t.acceptThread = .exited ∧ t.workers = s.workers := by
  have hexited := hI.exited (by rw [hreturned]; decide)
  have hzero := hout hreturned
  have hfinished := hI.none_left hzero
  cases e with
  | worker i e =>
      unfold State.step at h
      cases hi : s.workers[i]? with
      | none => simp [hi] at h
      | some pc =>
          rw [hfinished pc (List.mem_of_getElem? hi)] at hi
          simp [hi, workerStep_finished] at h
  | requestStop =>
      obtain rfl : { s with running := false } = t := by simpa [State.step] using h
      exact ⟨hreturned, hzero, hexited, rfl⟩
  | _ => simp [State.step, hexited, hreturned] at h

theorem join_of_step {s t : State} {e : Event} (h : s.step e = some t) (ht : t.join = .returned) :
    s.join = .returned ∨ e = .joinCheck := by
  cases e with
  | joinCheck => exact .inr rfl
  | worker i e =>
      left
      unfold State.step at h
      cases hi : s.workers[i]? with
      | none => simp [hi] at h
      | some pc =>
          cases hw : workerStep s.tls pc e with
          | none => simp [hi, hw] at h
          | some pc' =>
              simp only [hi, hw] at h
              by_cases he : e = .leave
              · rw [if_pos he] at h
                obtain rfl := Option.some.inj h
                cases hj : s.join <;> simp [hj, signal] at ht ⊢
              · rw [if_neg he] at h
                obtain rfl := Option.some.inj h
                exact ht
  | requestStop =>
      obtain rfl : { s with running := false } = t := by simpa [State.step] using h
      exact .inl ht
  | _ =>
      left
      simp only [State.step] at h
      split_ifs at h <;> cases h <;> first | exact ht | cases ht

theorem CountedOut.step {m : Int} {s t : State} {e : Event} (hout : CountedOut s) (hI : Accounting m s)
    (h : s.step e = some t) : CountedOut t := by
  intro ht
  rcases join_of_step h ht with hreturned | rfl
  · exact (step_returned hI hout hreturned h).2.1
  · obtain ⟨hj, rfl⟩ : s.join = .checking ∧
        { s with join := if s.clientCount > 0 then .waiting else .returned } = t := by
      simpa [State.step] using h
    have hcount := hI.count
    by_cases hpos : s.clientCount > 0
    · simp [hpos] at ht
    · show s.clientCount = 0
      omega

section

variable {tls : Bool} {maxClients : Int} {s t : State} {es : List Event}

theorem reachable_accounting (hmax : 0 < maxClients) (h : (system tls maxClients).Reachable s) :
    Accounting maxClients s := by
  obtain ⟨s₀, es, rfl, hrun⟩ := h
  exact (accounting_run hmax hrun).1

theorem reachable_countedOut (hmax : 0 < maxClients) (h : (system tls maxClients).Reachable s) : CountedOut s := by
  refine (System.invariant (I := fun s => Accounting maxClients s ∧ CountedOut s) ?_ ?_ h).2
  · rintro s rfl
    refine ⟨(accounting_run hmax .nil).1, fun hreturned => ?_⟩
    cases hreturned
  · intro s e t hs hstep
    exact ⟨(hs.1.step hstep).1, hs.2.step hs.1 hstep⟩

/-- **After `server_join`.** Once it has returned, the accept thread has exited and every worker has finished, and this
does not change any more. -/
theorem join_returned (hmax : 0 < maxClients) (h : (system tls maxClients).Reachable s)
    (hreturned : s.join = .returned) :
    s.acceptThread = .exited ∧ (∀ pc ∈ s.workers, pc = .finished) ∧
      ∀ es t, (system tls maxClients).Run s es t →
        t.join = .returned ∧ t.acceptThread = .exited ∧ t.workers = s.workers := by
  have hI := reachable_accounting hmax h
  have hout := reachable_countedOut hmax h
  refine ⟨hI.exited (by rw [hreturned]; decide), hI.none_left (hout hreturned), fun es t hrun => ?_⟩
  induction hrun with
  | nil => exact ⟨hreturned, hI.exited (by rw [hreturned]; decide), rfl⟩
  | snoc hbefore hstep ih =>
      have hu := h.run hbefore
      obtain ⟨hjoin, -, haccept, hworkers⟩ :=
        step_returned (reachable_accounting hmax hu) (reachable_countedOut hmax hu) ih.1 hstep
      exact ⟨hjoin, haccept, hworkers.trans ih.2.2⟩

/-- A TLS client is served, the server is stopped while it is, and `server_join` returns. -/
theorem join_returned_one :
    ∃ s, (system true 1).Reachable s ∧ s.workers = [.finished] ∧
      ∀ es t, (system true 1).Run s es t → t.join = .returned ∧ t.acceptThread = .exited ∧ t.workers = s.workers := by
  let es : List Event :=
    [.accepted, .canAccept, .malloc true, .create true, .detach, .worker 0 .start, .worker 0 (.sslNew true),
      .worker 0 (.sslAccept true), .requestStop, .acceptFailed, .joinAccept, .joinCheck, .worker 0 .handled,
      .worker 0 .leave, .joinCheck]
  let s : State := ⟨0, 1, true, false, .exited, [.finished], .returned⟩
  have hs : (system true 1).Reachable s := ⟨_, es, rfl, System.run_ofPartial.mpr (by decide)⟩
  exact ⟨s, hs, rfl, (join_returned (by decide) hs rfl).2.2⟩

end

/-! ### How far the threads are from the end -/

/-- The steps from here to `exited`, when `malloc` fails. -/
def AcceptPc.toExit : AcceptPc → Nat
  | exited => 0
  | accept => 1
  | busy | undo | detach => 2
  | malloc | create => 3
  | canAccept => 4

/-- The steps from here to `pthread_create`. -/
def AcceptPc.toCreate : AcceptPc → Nat
  | exited | create => 0
  | malloc => 1
  | canAccept => 2
  | accept => 3
  | busy | undo | detach => 4

/-- The steps from here to the end of the worker. -/
def WorkerPc.toFinish : WorkerPc → Nat
  | finished | failed => 0
  | leave => 1
  | handle => 2
  | sslAccept => 3
  | sslNew => 4
  | start => 5

def JoinPc.toReturn : JoinPc → Nat
  | returned => 0
  | checking | waiting => 1
  | joining => 2

/-- The steps of all workers. -/
def State.work (s : State) : Nat := (s.workers.map WorkerPc.toFinish).sum

theorem work_set {ws : List WorkerPc} {i : Nat} {pc : WorkerPc} (h : ws[i]? = some pc) (pc' : WorkerPc) :
    ((ws.set i pc').map WorkerPc.toFinish).sum + pc.toFinish = (ws.map WorkerPc.toFinish).sum + pc'.toFinish := by
  induction ws generalizing i with
  | nil => cases h
  | cons w ws ih =>
      cases i with
      | zero =>
          obtain rfl := Option.some.inj h
          simp only [List.set_cons_zero, List.map_cons, List.sum_cons]
          omega
      | succ i =>
          have hrest := ih (i := i) (by simpa using h)
          simp only [List.set_cons_succ, List.map_cons, List.sum_cons]
          omega

theorem signal_toReturn (pc : JoinPc) : (signal pc).toReturn = pc.toReturn := by
  cases pc <;> rfl

/-- **A live worker can go on**, without a failure: what it does brings it closer to its end and leaves the accept
thread where it is. -/
theorem worker_goes_on {s : State} {pc : WorkerPc} (hpc : pc ∈ s.workers) (hlive : pc.live = true) :
    ∃ e t, s.step e = some t ∧ e.tlsFailure = false ∧ t.work < s.work ∧ t.acceptThread = s.acceptThread ∧
      t.running = s.running ∧ t.join.toReturn = s.join.toReturn ∧ t.workers.length = s.workers.length := by
  obtain ⟨i, hi⟩ := List.mem_iff_getElem?.mp hpc
  obtain ⟨e, pc', hstep, hok, hcloser⟩ : ∃ e pc', workerStep s.tls pc e = some pc' ∧ e.tlsFailure = false ∧
      pc'.toFinish < pc.toFinish := by
    cases pc with
    | start =>
        refine ⟨.start, _, rfl, rfl, ?_⟩
        cases s.tls <;> decide
    | sslNew => exact ⟨.sslNew true, _, rfl, rfl, by decide⟩
    | sslAccept => exact ⟨.sslAccept true, _, rfl, rfl, by decide⟩
    | handle => exact ⟨.handled, _, rfl, rfl, by decide⟩
    | leave => exact ⟨.leave, _, rfl, rfl, by decide⟩
    | finished => cases hlive
    | failed => cases hlive
  have hwork := work_set hi pc'
  obtain ⟨t, ht, hworkers, haccept, hrunning, hjoin⟩ : ∃ t, s.step (.worker i e) = some t ∧
      t.workers = s.workers.set i pc' ∧ t.acceptThread = s.acceptThread ∧ t.running = s.running ∧
      t.join.toReturn = s.join.toReturn := by
    by_cases he : e = .leave
    · exact ⟨{ s with
        clientCount := if s.clientCount > 0 then s.clientCount - 1 else s.clientCount
        workers := s.workers.set i pc'
        join := signal s.join }, by simp only [State.step, hi, hstep, if_pos he], rfl, rfl, rfl, signal_toReturn s.join⟩
    · exact ⟨{ s with workers := s.workers.set i pc' }, by simp only [State.step, hi, hstep, if_neg he], rfl, rfl, rfl,
        rfl⟩
  refine ⟨.worker i e, t, ht, hok, ?_, haccept, hrunning, hjoin, ?_⟩
  · rw [State.work, hworkers, State.work]
    omega
  · rw [hworkers, List.length_set]

/-- **After a stop the accept thread can go on** until it exits, and leaves the workers and `server_join` where they
are. -/
theorem accept_goes_on {s : State} (hrunning : s.running = false) (hexited : s.acceptThread ≠ .exited) :
    ∃ e t, s.step e = some t ∧ e.tlsFailure = false ∧ t.acceptThread.toExit < s.acceptThread.toExit ∧
      t.workers = s.workers ∧ t.running = s.running ∧ t.join = s.join := by
  cases hpc : s.acceptThread with
  | accept =>
      refine ⟨.acceptFailed, { s with acceptThread := .exited }, by simp [State.step, hpc, hrunning], rfl, ?_, rfl, rfl,
        rfl⟩
      simp [AcceptPc.toExit]
  | canAccept =>
      by_cases hroom : s.clientCount < s.maxClients
      · refine ⟨.canAccept, { s with clientCount := s.clientCount + 1, acceptThread := .malloc },
          by simp [State.step, hpc, hroom], rfl, ?_, rfl, rfl, rfl⟩
        simp [AcceptPc.toExit]
      · refine ⟨.canAccept, { s with acceptThread := .busy }, by simp [State.step, hpc, hroom], rfl, ?_, rfl, rfl, rfl⟩
        simp [AcceptPc.toExit]
  | busy =>
      refine ⟨.rejected, { s with acceptThread := .accept }, by simp [State.step, hpc], rfl, ?_, rfl, rfl, rfl⟩
      simp [AcceptPc.toExit]
  | malloc =>
      refine ⟨.malloc false, { s with acceptThread := .undo }, by simp [State.step, hpc], rfl, ?_, rfl, rfl, rfl⟩
      simp [AcceptPc.toExit]
  | create =>
      refine ⟨.create false, { s with acceptThread := .undo }, by simp [State.step, hpc], rfl, ?_, rfl, rfl, rfl⟩
      simp [AcceptPc.toExit]
  | undo =>
      refine ⟨.undo, { s with clientCount := s.clientCount - 1, acceptThread := .accept }, by simp [State.step, hpc],
        rfl, ?_, rfl, rfl, rfl⟩
      simp [AcceptPc.toExit]
  | detach =>
      refine ⟨.detach, { s with acceptThread := .accept }, by simp [State.step, hpc], rfl, ?_, rfl, rfl, rfl⟩
      simp [AcceptPc.toExit]
  | exited => exact absurd hpc hexited

/-- The steps of all threads to the return of `server_join`. -/
def State.toReturn (s : State) : Nat := s.running.toNat + s.acceptThread.toExit + s.work + s.join.toReturn

theorem countP_live {s : State} (h : ¬ ∃ pc ∈ s.workers, pc.live = true) : s.workers.countP WorkerPc.live = 0 := by
  rw [List.countP_eq_zero]
  intro pc hpc hlive
  exact h ⟨pc, hpc, hlive⟩

theorem Accounting.zero {m : Int} {s : State} (hI : Accounting m s) (hleaked : s.leaked = 0)
    (hexited : s.acceptThread = .exited) (hlive : ¬ ∃ pc ∈ s.workers, pc.live = true) : s.clientCount = 0 := by
  have hcount := hI.count
  simp only [State.live, hexited, AcceptPc.holds, Bool.toNat_false, countP_live hlive] at hcount
  omega

/-- **Closer to the end.** If nothing has leaked, the stop, the accept thread, a worker or `server_join` can take a step
towards the return, and nothing leaks by it. -/
theorem closer_to_return {m : Int} {s : State} (hI : Accounting m s) (hleaked : s.leaked = 0)
    (hjoin : s.join ≠ .returned) :
    ∃ e t, s.step e = some t ∧ e.tlsFailure = false ∧ t.toReturn < s.toReturn := by
  unfold State.toReturn
  cases hrunning : s.running with
  | true =>
      refine ⟨.requestStop, _, rfl, rfl, ?_⟩
      show (false).toNat + s.acceptThread.toExit + s.work + s.join.toReturn < _
      simp only [Bool.toNat_false, Bool.toNat_true]
      omega
  | false =>
      -- the accept thread first, then the workers, then `server_join`
      by_cases hexited : s.acceptThread = .exited
      · by_cases hlive : ∃ pc ∈ s.workers, pc.live = true
        · obtain ⟨pc, hpc, hpclive⟩ := hlive
          obtain ⟨e, t, hstep, hok, hwork, haccept, hrun, hret, -⟩ := worker_goes_on hpc hpclive
          refine ⟨e, t, hstep, hok, ?_⟩
          rw [haccept, hrun, hret, hrunning]
          omega
        · have hzero := hI.zero hleaked hexited hlive
          cases hj : s.join with
          | joining =>
              refine ⟨.joinAccept, { s with join := .checking }, by simp [State.step, hj, hexited], rfl, ?_⟩
              simp [hrunning, JoinPc.toReturn, State.work]
          | checking =>
              refine ⟨.joinCheck, { s with join := .returned }, by simp [State.step, hj, hzero], rfl, ?_⟩
              simp [hrunning, JoinPc.toReturn, State.work]
          | waiting =>
              have hpos := hI.waiting hj
              omega
          | returned => exact absurd hj hjoin
      · obtain ⟨e, t, hstep, hok, hexit, hworkers, hrun, hret⟩ := accept_goes_on hrunning hexited
        refine ⟨e, t, hstep, hok, ?_⟩
        rw [State.work, hworkers, hrun, hret, hrunning, State.work]
        omega

theorem leaked_mono {m : Int} {s t : State} {tls : Bool} {es : List Event} (hI : Accounting m s)
    (h : (system tls m).Run s es t) : Accounting m t ∧ s.leaked ≤ t.leaked := by
  induction h with
  | nil => exact ⟨hI, Nat.le_refl _⟩
  | snoc _ hstep ih =>
      obtain ⟨hI', hleak⟩ := ih.1.step hstep
      exact ⟨hI', by omega⟩

section

variable {tls : Bool} {maxClients : Int} {s : State}

/-- **When a server can be shut down.** From any state of any run there is a way to the return of `server_join` if and
only if no worker has left by `goto done`. -/
theorem shutdown_completes_iff (hmax : 0 < maxClients) (h : (system tls maxClients).Reachable s) :
    (∃ es t, (system tls maxClients).Run s es t ∧ t.join = .returned) ↔ s.leaked = 0 := by
  have hI := reachable_accounting hmax h
  constructor
  · rintro ⟨es, t, hrun, hreturned⟩
    obtain ⟨hI', hle⟩ := leaked_mono hI hrun
    have hzero := reachable_countedOut hmax (h.run hrun) hreturned
    have hcount := hI'.count
    omega
  · intro hleaked
    refine System.exists_run (I := fun s => Accounting maxClients s ∧ s.leaked = 0) State.toReturn ?_ ⟨hI, hleaked⟩
    rintro s ⟨hI, hleaked⟩ hjoin
    obtain ⟨e, t, hstep, hok, hcloser⟩ := closer_to_return hI hleaked hjoin
    obtain ⟨hI', hleak⟩ := hI.step hstep
    refine ⟨e, t, hstep, ⟨hI', ?_⟩, .inr hcloser⟩
    rw [hleak, hleaked, hok]
    rfl

/-- A full server, with its client in the handshake, can still be shut down. -/
theorem shutdown_completes_full :
    ∃ s, (system true 1).Reachable s ∧ s.workers = [.sslAccept] ∧
      ∃ es t, (system true 1).Run s es t ∧ t.join = .returned := by
  let es : List Event :=
    [.accepted, .canAccept, .malloc true, .create true, .detach, .worker 0 .start, .worker 0 (.sslNew true)]
  let s : State := ⟨1, 1, true, true, .accept, [.sslAccept], .joining⟩
  have hs : (system true 1).Reachable s := ⟨_, es, rfl, System.run_ofPartial.mpr (by decide)⟩
  exact ⟨s, hs, rfl, (shutdown_completes_iff (by decide) hs).mpr (by decide)⟩

end

/-! ### Letting in -/

theorem running_of_step {s t : State} {e : Event} (hexit : s.acceptThread = .exited → s.running = false)
    (h : s.step e = some t) : t.acceptThread = .exited → t.running = false := by
  cases e with
  | worker i e =>
      unfold State.step at h
      cases hi : s.workers[i]? with
      | none => simp [hi] at h
      | some pc =>
          cases hw : workerStep s.tls pc e with
          | none => simp [hi, hw] at h
          | some pc' =>
              simp only [hi, hw] at h
              split_ifs at h <;> cases h <;> exact hexit
  | requestStop =>
      obtain rfl : { s with running := false } = t := by simpa [State.step] using h
      exact fun _ => rfl
  | acceptFailed =>
      obtain ⟨-, rfl⟩ : s.acceptThread = .accept ∧
          { s with acceptThread := if s.running then .accept else .exited } = t := by
        simpa [State.step] using h
      intro ht
      cases hr : s.running with
      | false => rfl
      | true => simp [hr] at ht
  | malloc ok => cases ok <;> simp only [State.step] at h <;> split_ifs at h <;> cases h <;> intro ht <;> cases ht
  | _ =>
      simp only [State.step] at h
      split_ifs at h <;> cases h <;> first | exact hexit | exact fun ht => by cases ht

theorem grows_of_step {s t : State} {e : Event} (h : s.step e = some t) :
    t.workers.length = s.workers.length ∨ s.acceptThread = .create := by
  cases e with
  | worker i e =>
      unfold State.step at h
      cases hi : s.workers[i]? with
      | none => simp [hi] at h
      | some pc =>
          cases hw : workerStep s.tls pc e with
          | none => simp [hi, hw] at h
          | some pc' =>
              simp only [hi, hw] at h
              left
              split_ifs at h <;> cases h <;> exact List.length_set
  | create ok =>
      right
      by_contra hpc
      simp [State.step, hpc] at h
  | requestStop =>
      obtain rfl : { s with running := false } = t := by simpa [State.step] using h
      exact .inl rfl
  | malloc ok =>
      simp only [State.step] at h
      split_ifs at h <;> cases h <;> exact .inl rfl
  | _ =>
      simp only [State.step] at h
      split_ifs at h <;> cases h <;> exact .inl rfl

/-- **Closer to the next client.** If less than `max_clients` has leaked, a worker or the accept thread of a running
server can take a step towards `pthread_create`, or make the thread. -/
theorem closer_to_create {m : Int} {s : State} (hI : Accounting m s) (hroom : (s.leaked : Int) < m)
    (hexited : s.acceptThread ≠ .exited) :
    ∃ e t, s.step e = some t ∧ e.tlsFailure = false ∧ t.running = s.running ∧
      (s.workers.length < t.workers.length ∨ t.workers.length = s.workers.length ∧
        t.work + t.acceptThread.toCreate < s.work + s.acceptThread.toCreate) := by
  -- the workers first, so that their places are free
  by_cases hlive : ∃ pc ∈ s.workers, pc.live = true
  · obtain ⟨pc, hpc, hpclive⟩ := hlive
    obtain ⟨e, t, hstep, hok, hwork, haccept, hrun, -, hlength⟩ := worker_goes_on hpc hpclive
    refine ⟨e, t, hstep, hok, hrun, .inr ⟨hlength, ?_⟩⟩
    rw [haccept]
    omega
  · have hcount := hI.count
    rw [State.live, countP_live hlive] at hcount
    cases hpc : s.acceptThread with
    | accept =>
        refine ⟨.accepted, { s with acceptThread := .canAccept }, by simp [State.step, hpc], rfl, rfl, .inr ⟨rfl, ?_⟩⟩
        simp [AcceptPc.toCreate, State.work]
    | canAccept =>
        have hfree : s.clientCount < s.maxClients := by
          rw [hI.max]
          simp only [hpc, AcceptPc.holds, Bool.toNat_false] at hcount
          omega
        refine ⟨.canAccept, { s with clientCount := s.clientCount + 1, acceptThread := .malloc },
          by simp [State.step, hpc, hfree], rfl, rfl, .inr ⟨rfl, ?_⟩⟩
        simp [AcceptPc.toCreate, State.work]
    | busy =>
        refine ⟨.rejected, { s with acceptThread := .accept }, by simp [State.step, hpc], rfl, rfl, .inr ⟨rfl, ?_⟩⟩
        simp [AcceptPc.toCreate, State.work]
    | malloc =>
        refine ⟨.malloc true, { s with acceptThread := .create }, by simp [State.step, hpc], rfl, rfl,
          .inr ⟨rfl, ?_⟩⟩
        simp [AcceptPc.toCreate, State.work]
    | create =>
        refine ⟨.create true, { s with acceptThread := .detach, workers := s.workers ++ [.start] },
          by simp [State.step, hpc], rfl, rfl, .inl ?_⟩
        simp
    | undo =>
        refine ⟨.undo, { s with clientCount := s.clientCount - 1, acceptThread := .accept },
          by simp [State.step, hpc], rfl, rfl, .inr ⟨rfl, ?_⟩⟩
        simp [AcceptPc.toCreate, State.work]
    | detach =>
        refine ⟨.detach, { s with acceptThread := .accept }, by simp [State.step, hpc], rfl, rfl, .inr ⟨rfl, ?_⟩⟩
        simp [AcceptPc.toCreate, State.work]
    | exited => exact absurd hpc hexited

section

variable {tls : Bool} {maxClients : Int} {s : State}

theorem reachable_running (h : (system tls maxClients).Reachable s) : s.acceptThread = .exited → s.running = false := by
  refine System.invariant (I := fun s => s.acceptThread = .exited → s.running = false) ?_ ?_ h
  · rintro s rfl hexited
    cases hexited
  · intro s e t hs hstep
    exact running_of_step hs hstep

/-- **When a server can let a client in.** A running server can come to make one more worker if and only if fewer than
`max_clients` workers have left by `goto done`, whatever the workers it has are doing. -/
theorem admission_possible_iff (hmax : 0 < maxClients) (h : (system tls maxClients).Reachable s)
    (hrunning : s.running = true) :
    (∃ es t, (system tls maxClients).Run s es t ∧ s.workers.length < t.workers.length) ↔
      (s.leaked : Int) < maxClients := by
  have hI := reachable_accounting hmax h
  constructor
  · rintro ⟨es, t, hrun, hgrown⟩
    induction hrun with
    | nil => exact absurd hgrown (Nat.lt_irrefl _)
    | @snoc _ u _ _ hbefore hstep ih =>
        rcases grows_of_step hstep with hlength | hpc
        · exact ih (by omega)
        · -- the connection of the new worker is one of the `max_clients`
          obtain ⟨hI', hle⟩ := leaked_mono hI hbefore
          have hcount := hI'.count
          have hbound := hI'.le
          simp only [State.live, hpc, AcceptPc.holds, Bool.toNat_true] at hcount
          omega
  · intro hroom
    have hexited : s.acceptThread ≠ .exited := fun hpc => by
      rw [reachable_running h hpc] at hrunning
      cases hrunning
    refine System.exists_run (I := fun t => Accounting maxClients t ∧ t.leaked = s.leaked ∧ t.running = true ∧
      (t.acceptThread = .exited → t.running = false) ∧ s.workers.length ≤ t.workers.length)
      (fun t => t.work + t.acceptThread.toCreate) ?_ ⟨hI, rfl, hrunning, reachable_running h, Nat.le_refl _⟩
    rintro u ⟨hIu, hleaked, hrun, hexit, hlength⟩ hgoal
    have hon : u.acceptThread ≠ .exited := fun hpc => by
      rw [hexit hpc] at hrun
      cases hrun
    obtain ⟨e, t, hstep, hok, hrunt, hcloser⟩ := closer_to_create hIu (by rw [hleaked]; exact hroom) hon
    obtain ⟨hIt, hleak⟩ := hIu.step hstep
    refine ⟨e, t, hstep, ⟨hIt, ?_, hrunt.trans hrun, running_of_step hexit hstep, ?_⟩, ?_⟩
    · rw [hleak, hleaked, hok]
      rfl
    · rcases hcloser with hgrown | ⟨hsame, -⟩ <;> omega
    · rcases hcloser with hgrown | ⟨hsame, hdistance⟩
      · exact .inl (by omega)
      · exact .inr hdistance

/-- After one failed handshake a server of two clients can let one in, and a server of one cannot. -/
theorem admission_possible_two :
    (∃ s, (system true 2).Reachable s ∧ s.workers = [.failed] ∧
      ∃ es t, (system true 2).Run s es t ∧ 1 < t.workers.length) ∧
    ∃ s, (system true 1).Reachable s ∧ s.workers = [.failed] ∧
      ¬ ∃ es t, (system true 1).Run s es t ∧ 1 < t.workers.length := by
  let es : List Event :=
    [.accepted, .canAccept, .malloc true, .create true, .detach, .worker 0 .start, .worker 0 (.sslNew true),
      .worker 0 (.sslAccept false)]
  let s : Int → State := fun maxClients => ⟨1, maxClients, true, true, .accept, [.failed], .joining⟩
  have htwo : (system true 2).Reachable (s 2) := ⟨_, es, rfl, System.run_ofPartial.mpr (by decide)⟩
  have hone : (system true 1).Reachable (s 1) := ⟨_, es, rfl, System.run_ofPartial.mpr (by decide)⟩
  refine ⟨⟨s 2, htwo, rfl, (admission_possible_iff (by decide) htwo rfl).mpr (by decide)⟩, s 1, hone, rfl, fun h => ?_⟩
  exact absurd ((admission_possible_iff (by decide) hone rfl).mp h) (by decide)

end

end OttQuic.Server
