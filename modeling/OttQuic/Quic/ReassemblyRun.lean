import OttQuic.Quic.StreamManager

/-!
# Reassembly over whole runs of a manager

A run is any list of operations on one manager: fragments for any streams, resets and the destruction
of the table. `emittedOn s` and `receivedOn s` are what a run writes for the stream `s` and which
fragments of `s` it accepts. If the stream is fresh when the run starts, the run does not reset it and
its fragments carry one byte stream (`FeedsStream`), then the stream stays in the reassembly relation
(`reassembling_run`), and `reassembly_correct` reads the two laws of the interface off it.
-/

namespace OttQuic

open QuicStreamManager Coverage

inductive ManagerOp where
  | onData (call : StreamCall)
  | reset (streamId : UInt32)
  | destroy

namespace ManagerOp

def step (mgr : QuicStreamManager) : ManagerOp → QuicStreamManager
  | onData call => (call.run mgr).2
  | reset streamId => (quicStreamReset mgr streamId).getD mgr
  | destroy => quicStreamManagerDestroy mgr

/-- The bytes the operation writes for the stream. -/
def emitted (s : UInt32) (mgr : QuicStreamManager) : ManagerOp → Bytes
  | onData call => if call.streamId = s then (call.run mgr).1.out.getD [] else []
  | _ => []

/-- The fragment of the stream the operation accepts. -/
def received (s : UInt32) (mgr : QuicStreamManager) : ManagerOp → List Span
  | onData call => if call.streamId = s ∧ (call.run mgr).1.rc = 0 then [call.node.span] else []
  | _ => []

end ManagerOp

def runOps (mgr : QuicStreamManager) (ops : List ManagerOp) : QuicStreamManager :=
  ops.foldl ManagerOp.step mgr

def emittedOn (s : UInt32) : QuicStreamManager → List ManagerOp → Bytes
  | _, [] => []
  | mgr, op :: ops => op.emitted s mgr ++ emittedOn s (op.step mgr) ops

def receivedOn (s : UInt32) : QuicStreamManager → List ManagerOp → List Span
  | _, [] => []
  | mgr, op :: ops => op.received s mgr ++ receivedOn s (op.step mgr) ops

theorem runOps_append (mgr : QuicStreamManager) (ops ops' : List ManagerOp) :
    runOps mgr (ops ++ ops') = runOps (runOps mgr ops) ops' :=
  List.foldl_append

theorem emittedOn_append (s : UInt32) (mgr : QuicStreamManager) (ops ops' : List ManagerOp) :
    emittedOn s mgr (ops ++ ops') = emittedOn s mgr ops ++ emittedOn s (runOps mgr ops) ops' := by
  induction ops generalizing mgr with
  | nil => rfl
  | cons op ops ih =>
      simp only [List.cons_append, emittedOn, ih, List.append_assoc]
      rfl

theorem receivedOn_append (s : UInt32) (mgr : QuicStreamManager) (ops ops' : List ManagerOp) :
    receivedOn s mgr (ops ++ ops') = receivedOn s mgr ops ++ receivedOn s (runOps mgr ops) ops' := by
  induction ops generalizing mgr with
  | nil => rfl
  | cons op ops ih =>
      simp only [List.cons_append, receivedOn, ih, List.append_assoc]
      rfl

/-! ### Resets -/

theorem reset_spec {mgr : QuicStreamManager} (hu : mgr.Unique) (s : UInt32) :
    ((quicStreamReset mgr s).getD mgr).Unique ∧
      (((quicStreamReset mgr s).getD mgr).stateOf s).Fresh ∧
      ∀ t, t ≠ s → ((quicStreamReset mgr s).getD mgr).stateOf t = mgr.stateOf t := by
  rw [quicStreamReset]
  cases hfind : mgr.find s with
  | none =>
      have huse : (mgr.stateOf s).inUse = false := by rw [stateOf_of_not_found hfind]
      exact ⟨hu, fresh_of_not_inUse huse, fun _ _ => rfl⟩
  | some i =>
      obtain ⟨hused, hid⟩ := SlotTable.findKey_some hfind
      have havail : mgr.Available s i := Or.inl hfind
      refine ⟨write_unique hu havail hid, ?_, fun t ht => write_stateOf_ne havail hid ht⟩
      have hstate : (⟨Function.update mgr.streams i
          { mgr.streams i with segments := [], nextOffset := 0 }⟩ : QuicStreamManager).stateOf s
            = { mgr.streams i with segments := [], nextOffset := 0 } :=
        write_stateOf hu havail hid hused
      simp only [Option.getD_some]
      rw [hstate]
      exact ⟨rfl, rfl⟩

theorem step_unique {mgr : QuicStreamManager} (hu : mgr.Unique) (op : ManagerOp) :
    (op.step mgr).Unique := by
  cases op with
  | onData call => exact (onData_cases hu call).1
  | reset s => exact (reset_spec hu s).1
  | destroy => exact destroy_unique

theorem runOps_unique {mgr : QuicStreamManager} (hu : mgr.Unique) (ops : List ManagerOp) :
    (runOps mgr ops).Unique := by
  induction ops generalizing mgr with
  | nil => exact hu
  | cons op ops ih => exact ih (step_unique hu op)

/-! ### One stream -/

/-- The operation neither resets the stream nor destroys the table. -/
def LeavesStream (s : UInt32) : ManagerOp → Prop
  | .onData _ => True
  | .reset t => t ≠ s
  | .destroy => False

instance (s : UInt32) (op : ManagerOp) : Decidable (LeavesStream s op) :=
  match op with
  | .onData _ => inferInstanceAs (Decidable True)
  | .reset t => inferInstanceAs (Decidable (t ≠ s))
  | .destroy => inferInstanceAs (Decidable False)

theorem stream_step {mgr : QuicStreamManager} (hu : mgr.Unique) {s : UInt32} {op : ManagerOp}
    (hop : LeavesStream s op) :
    (op.received s mgr = [] ∧ op.emitted s mgr = [] ∧
        ((op.step mgr).stateOf s).nextOffset = (mgr.stateOf s).nextOffset ∧
        ((op.step mgr).stateOf s).segments = (mgr.stateOf s).segments) ∨
      ∃ call : StreamCall, op = .onData call ∧ call.streamId = s ∧
        (call.Accepted ∧ mgr.HasSlot s ∧ call.Allocates) ∧
        op.received s mgr = [call.node.span] ∧ op.emitted s mgr = (call.consumed mgr).out ∧
        ((op.step mgr).stateOf s).nextOffset = (call.consumed mgr).nextOffset ∧
        ((op.step mgr).stateOf s).segments = (call.consumed mgr).segments := by
  cases op with
  | onData call =>
      obtain ⟨_, hframe, hno, hyes⟩ := onData_cases hu call
      by_cases hs : call.streamId = s
      · subst hs
        by_cases hall : call.Accepted ∧ mgr.HasSlot call.streamId ∧ call.Allocates
        · obtain ⟨hres, hstate⟩ := hyes hall.1 hall.2.1 hall.2.2
          refine .inr ⟨call, rfl, rfl, hall, ?_⟩
          simp only [ManagerOp.received, ManagerOp.emitted, ManagerOp.step, hres, hstate, and_self,
            if_true, Option.getD_some]
          exact ⟨trivial, trivial, rfl, rfl⟩
        · obtain ⟨hrc, hout, hstate⟩ := hno hall
          have hrefused : ¬ ((-1 : Int) = 0) := by decide
          left
          simp only [ManagerOp.received, ManagerOp.emitted, ManagerOp.step, hrc, hout, hrefused, and_false,
            if_true, if_false, Option.getD_none, true_and]
          rcases hstate with hstate | hstate
          · rw [hstate]
            exact ⟨rfl, rfl⟩
          · rw [hstate]
            exact ⟨rfl, rfl⟩
      · have hkeep := hframe s (Ne.symm hs)
        left
        simp only [ManagerOp.received, ManagerOp.emitted, ManagerOp.step, hs, false_and, if_false, hkeep,
          and_self]
  | reset t =>
      have hkeep := (reset_spec hu t).2.2 s (Ne.symm hop)
      left
      simp only [ManagerOp.received, ManagerOp.emitted, ManagerOp.step, hkeep, and_self]
  | destroy => exact hop.elim

/-! ### The run lemma -/

/-- The operation leaves the stream `s` alone or gives it a fragment of `S`, with room in the buffer
and memory to hold it. -/
def FeedsStream (S : Bytes) (s : UInt32) : ManagerOp → Prop
  | .onData call => call.streamId = s →
      call.Accepted ∧ call.Allocates ∧ Carries S call.node
  | .reset t => t ≠ s
  | .destroy => False

instance (S : Bytes) (s : UInt32) (op : ManagerOp) : Decidable (FeedsStream S s op) :=
  match op with
  | .onData call => inferInstanceAs (Decidable (call.streamId = s → _))
  | .reset t => inferInstanceAs (Decidable (t ≠ s))
  | .destroy => inferInstanceAs (Decidable False)

theorem Reassembling.congr {S : Bytes} {spans : List Span} {emitted : Bytes}
    {state state' : QuicStreamState} (h : Reassembling S spans emitted state)
    (hnext : state'.nextOffset = state.nextOffset) (hsegs : state'.segments = state.segments) :
    Reassembling S spans emitted state' := by
  obtain ⟨h1, h2, h3, h4, h5, h6⟩ := h
  refine ⟨?_, ?_, ?_, ?_, ?_, ?_⟩ <;> simp only [hnext, hsegs] <;> assumption

section Run

variable {S : Bytes} {s : UInt32} {spans : List Span} {emitted : Bytes} {mgr : QuicStreamManager}

theorem FeedsStream.leaves {op : ManagerOp} (h : FeedsStream S s op) : LeavesStream s op := by
  cases op with
  | onData call => trivial
  | reset t => exact h
  | destroy => exact h

theorem feedsStream_step (hS : S.length < 2 ^ 32) (hu : mgr.Unique) {op : ManagerOp}
    (hop : FeedsStream S s op) (h : Reassembling S spans emitted (mgr.stateOf s)) :
    Reassembling S (spans ++ op.received s mgr) (emitted ++ op.emitted s mgr)
      ((op.step mgr).stateOf s) := by
  obtain ⟨hrec, hemit, hnext, hsegs⟩ | ⟨call, rfl, rfl, -, hrec, hemit, hnext, hsegs⟩ := stream_step hu hop.leaves
  · rw [hrec, hemit, List.append_nil, List.append_nil]
    exact h.congr hnext hsegs
  · obtain ⟨-, -, hcarries⟩ := hop rfl
    rw [hrec, hemit]
    exact (reassembling_step call.outBufSize h hS hcarries).congr hnext hsegs

theorem reassembling_run (hS : S.length < 2 ^ 32) (hu : mgr.Unique) (ops : List ManagerOp)
    (hops : ∀ op ∈ ops, FeedsStream S s op) (h : Reassembling S spans emitted (mgr.stateOf s)) :
    Reassembling S (spans ++ receivedOn s mgr ops) (emitted ++ emittedOn s mgr ops)
      ((runOps mgr ops).stateOf s) := by
  induction ops generalizing mgr spans emitted with
  | nil => simpa [receivedOn, emittedOn, runOps] using h
  | cons op ops ih =>
      have hstep := feedsStream_step hS hu (hops op List.mem_cons_self) h
      have hrest := ih (step_unique hu op) (fun op' h' => hops op' (List.mem_cons_of_mem _ h')) hstep
      rw [List.append_assoc, List.append_assoc] at hrest
      exact hrest

end Run

/-- The stream has no slot yet, or the last operation reset it. -/
def StartsFresh (pre : List ManagerOp) (s : UInt32) : Prop :=
  ((runOps quicStreamManagerInit pre).stateOf s).inUse = false ∨ ∃ ops, pre = ops ++ [.reset s]

theorem fresh_of_startsFresh {pre : List ManagerOp} {s : UInt32} (h : StartsFresh pre s) :
    ((runOps quicStreamManagerInit pre).stateOf s).Fresh := by
  rcases h with hunused | ⟨ops, rfl⟩
  · exact fresh_of_not_inUse hunused
  · rw [runOps_append]
    exact (reset_spec (runOps_unique init_unique ops) s).2.1

/-- **Stream reassembly is correct.** After any operations `pre` that leave the stream `s` fresh, let
the operations `calls` give it fragments of `S` only. The bytes written for `s` are the prefix of `S`
up to the next offset; and each call among them that is not refused for want of a slot reports as its
offset the number of bytes written before it, and, if it leaves room in its buffer, stops at the end
of the longest prefix of `S` that the fragments received so far cover, with every segment still
buffered strictly beyond. -/
theorem reassembly_correct (S : Bytes) (hS : S.length < 2 ^ 32) (s : UInt32)
    (pre calls : List ManagerOp) (hfresh : StartsFresh pre s)
    (hcalls : ∀ op ∈ calls, FeedsStream S s op) :
    let mgr := runOps quicStreamManagerInit pre
    emittedOn s mgr calls = S.take ((runOps mgr calls).stateOf s).nextOffset.toNat ∧
      (emittedOn s mgr calls).length = ((runOps mgr calls).stateOf s).nextOffset.toNat ∧
      ∀ before call after, calls = before ++ .onData call :: after → call.streamId = s →
        let r := call.run (runOps mgr before)
        ¬ (runOps mgr before).HasSlot s ∧ r.1 = .refused none ∨
          ∃ out, r.1 = ⟨0, some (UInt32.ofNat (emittedOn s mgr before).length), some out⟩ ∧
            (out.length < call.outBufSize →
              IsGreatest {n | CoversUpTo (receivedOn s mgr (before ++ [.onData call])) n}
                (r.2.stateOf s).nextOffset.toNat ∧
              ∀ seg ∈ (r.2.stateOf s).segments, (r.2.stateOf s).nextOffset < seg.offset) := by
  intro mgr
  have hu : mgr.Unique := runOps_unique init_unique pre
  have hstart := reassembling_fresh S (fresh_of_startsFresh hfresh)
  have hall := reassembling_run hS hu calls hcalls hstart
  rw [List.nil_append, List.nil_append] at hall
  refine ⟨hall.emitted, hall.emitted_length, ?_⟩
  rintro before call after rfl rfl r
  have hbefore := reassembling_run hS hu before
    (fun op hop => hcalls op (List.mem_append_left _ hop)) hstart
  rw [List.nil_append, List.nil_append] at hbefore
  obtain ⟨hacc, halloc, hcarries⟩ := hcalls (.onData call) (by simp) rfl
  have hub := runOps_unique hu before
  by_cases hslot : (runOps mgr before).HasSlot call.streamId
  · right
    obtain ⟨hres, hstate⟩ := (onData_cases hub call).2.2.2 hacc hslot halloc
    have hoff : UInt32.ofNat (emittedOn call.streamId mgr before).length
        = ((runOps mgr before).stateOf call.streamId).nextOffset := by
      rw [hbefore.emitted_length, UInt32.ofNat_toNat]
    refine ⟨(call.consumed (runOps mgr before)).out, ?_, fun hroom => ?_⟩
    · rw [hoff]
      exact hres
    · have hrecv : receivedOn call.streamId mgr (before ++ [.onData call])
          = receivedOn call.streamId mgr before ++ [call.node.span] := by
        simp [receivedOn_append, receivedOn, ManagerOp.received, hres]
      have hgap := hbefore.gap call.outBufSize hS hcarries hroom
      have hnow := reassembling_step call.outBufSize hbefore hS hcarries
      have hspec := hbefore.spec call.outBufSize hS hcarries
      rw [hrecv, hstate]
      exact ⟨isGreatest_of_gap hnow.received hgap, hspec.gap hroom⟩
  · left
    exact ⟨hslot, congrArg Prod.fst (StreamCall.run_of_full hacc hslot)⟩

/-- The out-of-order case of the stream tests: "DEF" at 3, then "ABC" at 0. -/
theorem reassembly_correct_out_of_order :
    emittedOn 2 quicStreamManagerInit
      [.onData ⟨2, 3, ⟨[0x44, 0x45, 0x46], by decide⟩, 64, ⟨true, true⟩⟩,
        .onData ⟨2, 0, ⟨[0x41, 0x42, 0x43], by decide⟩, 64, ⟨true, true⟩⟩]
      = [0x41, 0x42, 0x43, 0x44, 0x45, 0x46] := by
  have h := reassembly_correct [0x41, 0x42, 0x43, 0x44, 0x45, 0x46] (by decide) 2 []
    [.onData ⟨2, 3, ⟨[0x44, 0x45, 0x46], by decide⟩, 64, ⟨true, true⟩⟩,
      .onData ⟨2, 0, ⟨[0x41, 0x42, 0x43], by decide⟩, 64, ⟨true, true⟩⟩]
    (Or.inl (by decide +kernel)) (by decide +kernel)
  exact h.1.trans (by decide +kernel)

end OttQuic
