import OttQuic.Lib.Pledge
import OttQuic.Web.Stream

/-!
# Seeks

`reloadFromSegment` makes the segment of the seek the next one, and whatever requests a segment requests
the next one. In between the next segment can be overwritten: by a segment that was requested before the
seek, by a reply to `ws_init` with a position to start from, and by the recovery of the stream.
`seek_honoured` says that the seek is honoured in every run in which nothing of the kind happens, and
`late_segment_not_honoured` that a late segment is enough to spoil it.
-/

namespace OttQuic.Web

open CString BigEndian Transition Pledge

/-- A call of `reloadFromSegment` promises a segment, and a request for a segment delivers one. -/
def mark : Action → Mark Int
  | .seek _ targetSegment => .promise targetSegment
  | .send (.wsSegment segment) => .deliver segment
  | .send _ => .other

/-- The first segment requested after a seek is the one of the seek. -/
def SeeksHonoured (log : List Action) : Prop :=
  ∀ after mid before seekTime targetSegment segment,
    log = after ++ .send (.wsSegment segment) :: (mid ++ .seek seekTime targetSegment :: before) →
      (∀ action ∈ mid, mark action = .other) → segment = targetSegment

theorem seeksHonoured_of_kept {log : List Action} (h : Kept mark log) : SeeksHonoured log :=
  fun after mid before _ _ _ hlog hmid => kept_iff.mp h after _ mid _ before _ _ hlog rfl hmid rfl

/-! ### The functions of the page -/

theorem Watch.readInfo_frame (s : Watch) (info : InitInfo) :
    (s.readInfo info).nextSegment = s.nextSegment ∧ (s.readInfo info).log = s.log ∧
      (s.readInfo info).mediaSource = s.mediaSource ∧ (s.readInfo info).requests = s.requests ∧
      (s.readInfo info).desiredStartTime = s.desiredStartTime := by
  unfold Watch.readInfo
  dsimp only
  split
  · exact ⟨rfl, rfl, rfl, rfl, rfl⟩
  split
  · exact ⟨rfl, rfl, rfl, rfl, rfl⟩
  · exact ⟨rfl, rfl, rfl, rfl, rfl⟩

/-- What holds between the handlers of a page that has started its stream. -/
structure Aligned (s : Watch) : Prop where
  faithful : Faithful mark s.nextSegment s.log
  started : s.mediaSource = true
  asked : .watchGet ∉ s.requests

/-- What holds inside a handler that finds `b`. -/
structure Steady (b : Browser) (s : Watch) : Prop extends Aligned s where
  /-- A recovery would be from the segment that is pending. -/
  recovers : b.append = some .invalidState →
    ∀ k, pending mark s.log = some k → s.findSegmentForTime b.currentTime = k

variable {b : Browser} {s t : Watch}

namespace Aligned

theorem send (h : Aligned s) : Aligned (s.send .wsInit) where
  faithful := h.faithful.other rfl
  started := h.started
  asked hmem := by
    obtain hold | hnew := List.mem_append.mp hmem
    · exact h.asked hold
    · cases List.mem_singleton.mp hnew

theorem recoverStream (h : Aligned s)
    (hrecover : ∀ k, pending mark s.log = some k → s.findSegmentForTime b.currentTime = k) :
    Aligned (s.recoverStream b) :=
  send ⟨h.faithful.redirect hrecover, rfl, h.asked⟩

theorem reloadFromSegment (h : Aligned s) {seekTime : Float}
    (hclear : b.removeFails = true → s.findSegmentForTime b.currentTime = s.findSegmentForTime seekTime) :
    Aligned (s.reloadFromSegment b seekTime) := by
  let t := { s with
    seeking := true
    segmentQueue := []
    nextSegment := s.findSegmentForTime seekTime
    requesting := false
    log := .seek seekTime (s.findSegmentForTime seekTime) :: s.log }
  have ht : Aligned t := ⟨h.faithful.promise rfl, h.started, h.asked⟩
  have hpending : pending mark t.log = some (s.findSegmentForTime seekTime) := pending_promise rfl
  unfold Watch.reloadFromSegment
  dsimp only
  split
  · split
    · split
      · rename_i hfails
        apply ht.recoverStream
        intro k hk
        rw [hpending, Option.some.injEq] at hk
        rw [← hk]
        exact hclear hfails
      · exact ⟨ht.faithful, ht.started, ht.asked⟩
    · exact ht.send
  · exact ht.send

theorem onplaying (h : Aligned s) (isTrusted : Bool) : Aligned (s.onplaying isTrusted) := by
  unfold Watch.onplaying
  split
  · exact ⟨h.faithful, h.started, h.asked⟩
  · exact h

theorem onseeking (h : Aligned s) : Aligned (s.onseeking b) := by
  unfold Watch.onseeking
  dsimp only
  split
  · split
    · exact ⟨h.faithful, h.started, h.asked⟩
    · exact ⟨h.faithful, h.started, h.asked⟩
  · refine reloadFromSegment ?_ fun _ => rfl
    exact ⟨h.faithful, h.started, h.asked⟩

theorem steady (h : Aligned s) (b : Browser) : Steady { b with append := none } s :=
  ⟨h, fun happend => by cases happend⟩

end Aligned

namespace Steady

theorem congr (h : Steady b s) (hnext : t.nextSegment = s.nextSegment) (hlog : t.log = s.log)
    (hfind : t.findSegmentForTime = s.findSegmentForTime) (hsource : t.mediaSource = s.mediaSource)
    (hrequests : t.requests = s.requests) : Steady b t where
  faithful := by
    rw [hnext, hlog]
    exact h.faithful
  started := by
    rw [hsource]
    exact h.started
  asked := by
    rw [hrequests]
    exact h.asked
  recovers := by
    rw [hfind, hlog]
    exact h.recovers

theorem redirect (h : Steady b s) {segment : Int} (hsegment : ∀ k, pending mark s.log = some k → segment = k) :
    Steady b { s with nextSegment := segment } :=
  ⟨⟨h.faithful.redirect hsegment, h.started, h.asked⟩, h.recovers⟩

theorem send (h : Steady b s) : Steady b (s.send .wsInit) :=
  ⟨h.toAligned.send, fun happend k hk => h.recovers happend k ((pending_other rfl).symm.trans hk)⟩

theorem sendSegmentRequest (h : Steady b s) : Steady b s.sendSegmentRequest where
  faithful := h.faithful.deliver rfl s.nextSegment
  started := h.started
  asked hmem := by
    obtain hold | hnew := List.mem_append.mp hmem
    · exact h.asked hold
    · cases List.mem_singleton.mp hnew
  recovers happend k hk := by
    have hnone : pending mark s.sendSegmentRequest.log = none := pending_deliver rfl
    rw [hnone] at hk
    cases hk

theorem recoverStream (h : Steady b s) (happend : b.append = some .invalidState) : Steady b (s.recoverStream b) :=
  ⟨h.toAligned.recoverStream (h.recovers happend),
    fun happend k hk => h.recovers happend k ((pending_other rfl).symm.trans hk)⟩

theorem cleanupBuffer (h : Steady b s) : Steady b (s.cleanupBuffer b) := by
  unfold Watch.cleanupBuffer
  split
  · exact h
  split
  · exact h
  split
  · exact h
  split
  · dsimp only
    split
    · exact h.congr rfl rfl rfl rfl rfl
    · exact h
  · exact h

theorem appendNext (h : Steady b s) : Steady b (s.appendNext b) := by
  unfold Watch.appendNext
  split
  · exact h
  · rename_i hblocked
    split
    · exact h
    · rename_i seg queue hqueue
      split
      · -- a valid source buffer has an open media source
        rename_i hended
        simp [Watch.isSourceBufferValid, hended] at hblocked
      · split
        · exact h.congr rfl rfl rfl rfl rfl
        · split
          · have hput : Steady b
                { s with appending := false, retryCount := s.retryCount + 1, segmentQueue := seg :: queue } :=
              h.congr rfl rfl rfl rfl rfl
            exact hput.cleanupBuffer.congr rfl rfl rfl rfl rfl
          · exact h.congr rfl rfl rfl rfl rfl
        · rename_i happend
          have htaken : Steady b { s with appending := false, segmentQueue := queue } :=
            h.congr rfl rfl rfl rfl rfl
          exact htaken.recoverStream happend
        · exact h.congr rfl rfl rfl rfl rfl

theorem appendSegment (h : Steady b s) (buffer : Bytes) : Steady b (s.appendSegment b buffer) := by
  unfold Watch.appendSegment
  split
  · exact h
  · dsimp only
    split
    · exact h.congr rfl rfl rfl rfl rfl
    · apply appendNext
      exact h.congr rfl rfl rfl rfl rfl

theorem requestSegment (h : Steady b s) : Steady b (s.requestSegment b) := by
  unfold Watch.requestSegment
  split
  · exact h
  split
  · exact h
  split
  · exact h
  split
  · dsimp only
    split
    · exact h.congr rfl rfl rfl rfl rfl
    split
    · split
      · exact h
      · exact h.congr rfl rfl rfl rfl rfl
    · exact h.sendSegmentRequest
  · exact h.sendSegmentRequest

theorem processQueue (h : Steady b s) : Steady b (s.processQueue b) := by
  unfold Watch.processQueue
  split
  · exact h.appendNext
  split
  · exact h.requestSegment
  · exact h

theorem handleUpdateend (h : Steady b s) : Steady b (s.handleUpdateend b) := by
  have hdone : Steady b { s with appending := false } := h.congr rfl rfl rfl rfl rfl
  unfold Watch.handleUpdateend
  dsimp only
  split
  · split
    · exact hdone
    split
    · exact hdone.processQueue
    split
    · split
      · exact h.congr rfl rfl rfl rfl rfl
      · exact hdone
    · apply processQueue
      exact h.congr rfl rfl rfl rfl rfl
  · exact hdone.processQueue

theorem runListener (h : Steady b s) (listener : Nat × Listener) : Steady b (s.runListener b listener) := by
  unfold Watch.runListener
  split
  · exact h
  split
  · exact h.send
  · apply appendNext
    exact h.congr rfl rfl rfl rfl rfl

theorem onUpdateend (h : Steady b s) (buffer : Nat) : Steady b (s.onUpdateend b buffer) := by
  have hlisteners (called : List (Nat × Listener)) {t : Watch} (ht : Steady b t) :
      Steady b (called.foldl (fun s listener => s.runListener b listener) t) := by
    induction called generalizing t with
    | nil => exact ht
    | cons listener called ih => exact ih (ht.runListener listener)
  apply hlisteners
  apply handleUpdateend
  exact h.congr rfl rfl rfl rfl rfl

theorem createSourceBuffer (h : Steady b s) : Steady b (s.createSourceBuffer b).2 := by
  unfold Watch.createSourceBuffer
  split
  · exact h
  split
  · exact h
  split
  · exact h.congr rfl rfl rfl rfl rfl
  · exact h

theorem appendPendingInit (h : Steady b s) : Steady b (s.appendPendingInit b) := by
  have hcreated := h.createSourceBuffer
  unfold Watch.appendPendingInit
  split
  · rename_i t heq
    rw [heq] at hcreated
    exact hcreated
  · rename_i t heq
    rw [heq] at hcreated
    split
    · exact hcreated
    · rename_i init _
      exact (hcreated.appendSegment init).congr rfl rfl rfl rfl rfl

theorem onSourceopen (h : Steady b s) : Steady b (s.onSourceopen b) := by
  have hready : Steady b { s with mediaSourceReady := true } := h.congr rfl rfl rfl rfl rfl
  unfold Watch.onSourceopen
  dsimp only
  split
  · exact hready.appendPendingInit
  · exact hready

theorem onwaiting (h : Steady b s) : Steady b (s.onwaiting b) := by
  unfold Watch.onwaiting
  split
  · exact h.requestSegment
  · exact h

theorem onpause (h : Steady b s) (isTrusted : Bool) : Steady b (s.onpause b isTrusted) := by
  unfold Watch.onpause
  split
  · exact h.congr rfl rfl rfl rfl rfl
  split
  · exact h.congr rfl rfl rfl rfl rfl
  · exact h

theorem onseeked (h : Steady b s) : Steady b (s.onseeked b) := by
  unfold Watch.onseeked
  split
  · exact h
  split
  · split
    · exact h.congr rfl rfl rfl rfl rfl
    · exact h
  split
  · exact h.congr rfl rfl rfl rfl rfl
  · exact h

theorem receiveInit (h : Steady b s) (payload : Bytes) : Steady b (s.receiveInit b payload) := by
  unfold Watch.receiveInit
  split
  · exact (h.appendSegment payload).congr rfl rfl rfl rfl rfl
  · exact h.congr rfl rfl rfl rfl rfl

theorem handleBinary (h : Steady b s) {data : Bytes}
    (hsegment : 8 ≤ data.length ∧ data.take 4 = ascii "SEGM" →
      ∀ k, pending mark s.log = some k → toInt (ofBigEndian ((data.drop 4).take 4)) + 1 = k) :
    Steady b (s.handleBinary b data) := by
  have hinit := h.receiveInit (data.drop 8)
  unfold Watch.handleBinary
  split
  · exact h
  rename_i hlength
  dsimp only
  split
  · split
    · exact hinit.requestSegment
    · exact hinit
  split
  · rename_i hmagic
    apply appendSegment
    exact (h.redirect (hsegment ⟨Nat.not_lt.mp hlength, hmagic⟩)).congr rfl rfl rfl rfl rfl
  · exact h

theorem handleInit (h : Aligned s) {info : InitInfo}
    (hrecovers : b.append = some .invalidState →
      ∀ k, pending mark s.log = some k → (s.readInfo info).findSegmentForTime b.currentTime = k)
    (hstart : info.segments.isSome ∧ s.desiredStartTime > 0 →
      ∀ k, pending mark s.log = some k → (s.readInfo info).findSegmentForTime s.desiredStartTime = k) :
    Steady b (s.handleInit b info) := by
  obtain ⟨hnext, hlog, hsource, hrequests, hdesired⟩ := s.readInfo_frame info
  rw [← hlog] at hrecovers hstart
  rw [← hdesired] at hstart
  have hread : Steady b (s.readInfo info) := by
    refine ⟨⟨?_, ?_, ?_⟩, hrecovers⟩
    · rw [hnext, hlog]
      exact h.faithful
    · rw [hsource]
      exact h.started
    · rw [hrequests]
      exact h.asked
  have hfrom : Steady b (s.startFrom info) := by
    unfold Watch.startFrom
    dsimp only
    split
    · rename_i hpos
      exact (hread.redirect (hstart hpos)).congr rfl rfl rfl rfl rfl
    · exact hread
  unfold Watch.handleInit
  dsimp only
  split
  · exact hfrom.appendPendingInit
  · exact hfrom

end Steady

/-! ### Steps -/

/-- The segments that a page makes the next one, each with the one that is pending. -/
def Watch.against (page : Watch) (segments : List Int) : List (Int × Int) :=
  (pending mark page.log).toList.flatMap fun k => segments.map fun segment => (segment, k)

theorem Watch.eq_of_against {page : Watch} {segments : List Int} {segment k : Int}
    (h : ∀ pair ∈ page.against segments, pair.1 = pair.2) (hpending : pending mark page.log = some k)
    (hsegment : segment ∈ segments) : segment = k := by
  have hmem : (segment, k) ∈ page.against segments := by
    rw [against, hpending]
    simpa using hsegment
  exact h (segment, k) hmem

/-- The segment from which the stream is recovered after a failed append. -/
def Watch.recovery (page : Watch) (b : Browser) : List Int :=
  if b.append = some .invalidState then [page.findSegmentForTime b.currentTime] else []

/-- The segment that a reply makes the next one. -/
def Watch.replySegment (page : Watch) : Reply → List Int
  | .binary data =>
    if 8 ≤ data.length ∧ data.take 4 = ascii "SEGM" then [toInt (ofBigEndian ((data.drop 4).take 4)) + 1] else []
  | .wsInit info =>
    if info.segments.isSome ∧ page.desiredStartTime > 0 then
      [(page.readInfo info).findSegmentForTime page.desiredStartTime]
    else []
  | _ => []

/-- The page with the segments a reply tells. -/
def Watch.informed (page : Watch) : Reply → Watch
  | .wsInit info => page.readInfo info
  | _ => page

def Timer.overwrites (page : Watch) (b : Browser) : Timer → List (Int × Int)
  | .append => page.against (page.recovery b)
  | .recheck seekTime =>
    if b.removeFails then [(page.findSegmentForTime b.currentTime, page.findSegmentForTime seekTime)] else []
  | _ => []

/-- The segments that a step makes the next one in place of another, each with the other. -/
def Event.overwrites (stream : Stream) : Event → List (Int × Int)
  | .message b =>
    match stream.replies with
    | [] => []
    | reply :: _ =>
      stream.page.against (stream.page.replySegment reply ++ (stream.page.informed reply).recovery b)
  | .updateend _ b => stream.page.against (stream.page.recovery b)
  | .sourceopen b => stream.page.against (stream.page.recovery b)
  | .timer n b => (stream.page.timers[n]?.map (Timer.overwrites stream.page b)).getD []
  | _ => []

/-- The step overwrites no segment of a seek with another one. -/
def Undisturbed (stream : Stream) (e : Event) : Prop := ∀ segments ∈ e.overwrites stream, segments.1 = segments.2

instance {stream : Stream} {e : Event} : Decidable (Undisturbed stream e) :=
  inferInstanceAs (Decidable (∀ _ ∈ _, _))

variable {e : Event}

theorem mem_recovery (happend : b.append = some .invalidState) : t.findSegmentForTime b.currentTime ∈ t.recovery b := by
  rw [Watch.recovery, if_pos happend]
  exact List.mem_singleton.mpr rfl

theorem Aligned.recovering (h : Aligned s) (hrecovery : ∀ pair ∈ s.against (s.recovery b), pair.1 = pair.2) :
    Steady b s :=
  ⟨h, fun happend _ hk => Watch.eq_of_against hrecovery hk (mem_recovery happend)⟩

theorem Aligned.runTimer {timer : Timer} (h : Aligned s)
    (hundisturbed : ∀ pair ∈ timer.overwrites s b, pair.1 = pair.2) : Aligned (s.runTimer b timer) := by
  cases timer with
  | request =>
      have hidle : Steady { b with append := none } { s with requesting := false } :=
        (h.steady b).congr rfl rfl rfl rfl rfl
      exact hidle.requestSegment.toAligned
  | afterInit =>
      unfold Watch.runTimer
      dsimp only
      split
      · exact (h.steady b).requestSegment.toAligned
      · exact h
  | append => exact (h.recovering hundisturbed).appendNext.toAligned
  | recheck seekTime =>
      unfold Watch.runTimer
      dsimp only
      split
      · exact h
      · refine h.reloadFromSegment fun hfails => ?_
        rw [Timer.overwrites, if_pos hfails] at hundisturbed
        exact hundisturbed _ (List.mem_singleton.mpr rfl)

theorem Aligned.handle {page page' : Watch} {replies : List Reply} (h : Aligned page)
    (hundisturbed : Undisturbed ⟨page, replies⟩ e) (hhandle : e.handle page = some page') : Aligned page' := by
  cases e with
  | serve files => cases hhandle
  | message b => cases hhandle
  | updateend buffer b =>
      rw [Event.handle] at hhandle
      split_ifs at hhandle
      obtain rfl := Option.some.inj hhandle
      exact ((h.recovering hundisturbed).onUpdateend buffer).toAligned
  | sourceopen b =>
      obtain rfl := Option.some.inj hhandle
      exact (h.recovering hundisturbed).onSourceopen.toAligned
  | waiting b =>
      obtain rfl := Option.some.inj hhandle
      exact (h.steady b).onwaiting.toAligned
  | playing isTrusted =>
      obtain rfl := Option.some.inj hhandle
      exact h.onplaying isTrusted
  | pause isTrusted b =>
      obtain rfl := Option.some.inj hhandle
      exact ((h.steady b).onpause isTrusted).toAligned
  | ended =>
      obtain rfl := Option.some.inj hhandle
      exact ⟨h.faithful, h.started, h.asked⟩
  | seeking b =>
      obtain rfl := Option.some.inj hhandle
      exact h.onseeking
  | seeked b =>
      obtain rfl := Option.some.inj hhandle
      exact (h.steady b).onseeked.toAligned
  | cleanup b =>
      obtain rfl := Option.some.inj hhandle
      exact (h.steady b).cleanupBuffer.toAligned
  | timer n b =>
      rw [Event.handle, Option.map_eq_some_iff] at hhandle
      obtain ⟨timer, htimer, rfl⟩ := hhandle
      have hrest : Aligned { page with timers := page.timers.eraseIdx n } := ⟨h.faithful, h.started, h.asked⟩
      rw [Undisturbed, Event.overwrites] at hundisturbed
      dsimp only at hundisturbed
      rw [htimer, Option.map_some, Option.getD_some] at hundisturbed
      exact hrest.runTimer hundisturbed

theorem Aligned.onmessage {reply : Reply} (h : Aligned s) (startTimeParam : Option Nat)
    (hreply : ∀ position, reply ≠ .watchGet position)
    (hundisturbed : ∀ pair ∈ s.against (s.replySegment reply ++ (s.informed reply).recovery b), pair.1 = pair.2) :
    Aligned (s.onmessage b startTimeParam reply) := by
  have hrecovers (happend : b.append = some .invalidState) (k : Int) (hk : pending mark s.log = some k) :
      (s.informed reply).findSegmentForTime b.currentTime = k :=
    Watch.eq_of_against hundisturbed hk (List.mem_append_right _ (mem_recovery happend))
  have hsegment {segment : Int} (hmem : segment ∈ s.replySegment reply) (k : Int) (hk : pending mark s.log = some k) :
      segment = k :=
    Watch.eq_of_against hundisturbed hk (List.mem_append_left _ hmem)
  cases reply with
  | binary data =>
      have hsteady : Steady b s := ⟨h, hrecovers⟩
      refine (hsteady.handleBinary fun hmagic => hsegment ?_).toAligned
      rw [Watch.replySegment, if_pos hmagic]
      exact List.mem_singleton_self _
  | watchGet position => exact absurd rfl (hreply position)
  | wsInit info =>
      refine (Steady.handleInit h hrecovers fun hstart => hsegment ?_).toAligned
      rw [Watch.replySegment, if_pos hstart]
      exact List.mem_singleton_self _
  | other => exact h

/-! ### Runs -/

/-- What holds between the steps of a run. Until the page has started its stream, it asks for the last
position and waits for the reply. -/
inductive Between : Stream → Prop where
  | asking : Between ⟨Watch.initial, []⟩
  | waiting (reply : Option Reply) (hreply : ∀ data info, reply ≠ some (.binary data) ∧ reply ≠ some (.wsInit info)) :
      Between ⟨{ Watch.initial with requests := [] }, reply.toList⟩
  | started {page : Watch} {replies : List Reply} (hpage : Aligned page)
      (hreplies : ∀ position, .watchGet position ∉ replies) : Between ⟨page, replies⟩

theorem aligned_startStream (position : Float) :
    Aligned (Watch.startStream { Watch.initial with requests := [] } position) := by
  have hquiet (next : Int) : Faithful mark next [.send .watchGet] :=
    ⟨⟨trivial, fun k hk => by cases hk⟩, fun p hp => by cases hp⟩
  unfold Watch.startStream
  dsimp only
  split
  · exact Aligned.send ⟨hquiet _, rfl, List.not_mem_nil⟩
  · exact Aligned.send ⟨hquiet _, rfl, List.not_mem_nil⟩

theorem watchGet_not_mem_serve {request : Request} (h : request ≠ .watchGet) (files : Files) (position : Int) :
    .watchGet position ∉ serve files request := by
  have hfile (content : Option Bytes) (magic : String) (index : UInt32) {next : Reply}
      (hnext : .watchGet position ≠ next) :
      .watchGet position ∉ fileReplies content magic index next := by
    unfold fileReplies
    split
    · simp
    split
    · simp
    · simp [hnext]
  cases request with
  | watchGet => exact absurd rfl h
  | wsInit => exact hfile _ _ _ (by simp)
  | wsSegment segment => exact hfile _ _ _ (by simp)

theorem step_handle {startTimeParam : Option Nat} {stream stream' : Stream}
    (hstep : step startTimeParam stream e = some stream') :
    (∃ files, e = .serve files) ∨ (∃ b, e = .message b) ∨
      stream.page.mediaSource = true ∧
      ∃ page, e.handle stream.page = some page ∧ stream' = { stream with page := page } := by
  have hhandle (hother : step startTimeParam stream e = if stream.page.mediaSource then
        (e.handle stream.page).map fun page => { stream with page := page } else none) :
      stream.page.mediaSource = true ∧
        ∃ page, e.handle stream.page = some page ∧ stream' = { stream with page := page } := by
    rw [hother] at hstep
    split_ifs at hstep with hsource
    obtain ⟨page, hpage, rfl⟩ := Option.map_eq_some_iff.mp hstep
    exact ⟨hsource, page, hpage, rfl⟩
  cases e with
  | serve files => exact .inl ⟨files, rfl⟩
  | message b => exact .inr (.inl ⟨b, rfl⟩)
  | updateend | sourceopen | waiting | playing | pause | ended | seeking | seeked | cleanup | timer =>
      exact .inr (.inr (hhandle rfl))

theorem Between.step {startTimeParam : Option Nat} {stream stream' : Stream} (h : Between stream)
    (hundisturbed : Undisturbed stream e) (hstep : step startTimeParam stream e = some stream') : Between stream' := by
  have hkind := step_handle hstep
  cases h with
  | asking =>
      obtain ⟨files, rfl⟩ | ⟨b, rfl⟩ | ⟨hsource, -⟩ := hkind
      · obtain rfl := Option.some.inj hstep
        show Between ⟨{ Watch.initial with requests := [] }, serve files .watchGet⟩
        rw [serve]
        split
        · exact .waiting (some (.watchGet _)) fun data info => by simp
        · exact .waiting (some .other) fun data info => by simp
      · cases hstep
      · cases hsource
  | waiting reply hreply =>
      obtain ⟨files, rfl⟩ | ⟨b, rfl⟩ | ⟨hsource, -⟩ := hkind
      · cases hstep
      · cases reply with
        | none => cases hstep
        | some reply =>
            obtain rfl := Option.some.inj hstep
            cases reply with
            | binary data => exact absurd rfl (hreply data ⟨none, none, none, none, none⟩).1
            | wsInit info => exact absurd rfl (hreply [] info).2
            | watchGet position => exact .started (aligned_startStream _) fun _ => List.not_mem_nil
            | other => exact .waiting none fun _ _ => by simp
      · cases hsource
  | @started page replies hpage hreplies =>
      obtain ⟨files, rfl⟩ | ⟨b, rfl⟩ | ⟨-, next, hhandle, rfl⟩ := hkind
      · rw [Web.step] at hstep
        split at hstep
        · cases hstep
        · rename_i request requests hrequests
          obtain rfl := Option.some.inj hstep
          have hasked : .watchGet ∉ request :: requests := hrequests ▸ hpage.asked
          obtain ⟨hrequest, hrest⟩ := not_or.mp (mt List.mem_cons.mpr hasked)
          refine .started ⟨hpage.faithful, hpage.started, hrest⟩ fun position hmem => ?_
          obtain hold | hnew := List.mem_append.mp hmem
          · exact hreplies position hold
          · exact watchGet_not_mem_serve (Ne.symm hrequest) files position hnew
      · cases replies with
        | nil => cases hstep
        | cons reply replies =>
            obtain rfl := Option.some.inj hstep
            have hreply (position : Int) : reply ≠ .watchGet position := fun heq =>
              hreplies position (heq ▸ List.mem_cons_self)
            exact .started (hpage.onmessage startTimeParam hreply hundisturbed) fun position hmem =>
              hreplies position (List.mem_cons_of_mem _ hmem)
      · exact .started (hpage.handle hundisturbed hhandle) hreplies

theorem Between.kept {stream : Stream} (h : Between stream) : Kept mark stream.page.log := by
  have hquiet : Kept mark Watch.initial.log := ⟨trivial, fun k hk => by cases hk⟩
  cases h with
  | asking => exact hquiet
  | waiting reply hreply => exact hquiet
  | started hpage hreplies => exact hpage.faithful.kept

/-- **A seek is honoured** in every run whose steps overwrite no segment of a seek. -/
theorem seek_honoured {startTimeParam : Option Nat} {stream : Stream}
    (h : ((streaming startTimeParam).restrict Undisturbed).Reachable stream) : SeeksHonoured stream.page.log := by
  have hinit (s : Stream) (hs : s = ⟨Watch.initial, []⟩) : Between s := hs ▸ .asking
  have hstep (s : Stream) (e : Event) (t : Stream) (hs : Between s)
      (hst : Undisturbed s e ∧ step startTimeParam s e = some t) : Between t :=
    hs.step hst.1 hst.2
  have hbetween : Between stream := System.invariant hinit hstep h
  exact seeksHonoured_of_kept hbetween.kept

/-! ### Two runs -/

def sampleSegments : List SegmentInfo :=
  (List.range 10).map fun (i : Nat) => ⟨i, Float.ofNat (2 * i), Float.ofNat (2 * i + 2), 2⟩

/-- A video of ten segments, with or without a table of them. -/
def sampleFiles (segments : Option (List SegmentInfo)) (duration : Float) : Files where
  initSegment := some [1]
  segment _ := some [2]
  info := ⟨some "avc1.64001f", none, some 10, segments, some duration⟩
  position := some 0

/-- A browser in which nothing fails. -/
def sampleBrowser (currentTime : Float) (buffered : List (Float × Float)) : Browser where
  readyState := .open
  updating := false
  buffered := buffered
  currentTime := currentTime
  paused := false
  videoReadyState := 4
  append := none
  removeFails := false
  addSourceBuffer _ := true

/-- The page has appended the init segment and asked for the first segment, which is on its way. -/
def sampleStart (files : Files) : List Event :=
  let b := sampleBrowser 0 []
  [.serve files, .message b, .sourceopen b, .serve files, .message b, .message b, .updateend 0 b, .serve files]

/-- The first segment arrives, and then the user goes elsewhere. -/
def earlySegment (files : Files) (time : Float) : List Event :=
  sampleStart files ++ [.message (sampleBrowser 0 []), .message (sampleBrowser 0 []),
    .seeking (sampleBrowser time [(0, 2)]), .updateend 0 (sampleBrowser time [])]

/-- The user goes to nine seconds, and then the first segment arrives. -/
def lateSegment : List Event :=
  sampleStart (sampleFiles (some sampleSegments) 20) ++
    [.seeking (sampleBrowser 9 []), .message (sampleBrowser 9 []), .updateend 0 (sampleBrowser 9 [(0, 2)])]

theorem reachable_earlySegment (files : Files) (time : Float) (log : List Action)
    (h : (((earlySegment files time).foldlM (fun stream e => if Undisturbed stream e then step none stream e else none)
      ⟨Watch.initial, []⟩).map fun stream => stream.page.log.take 3) = some log) :
    ∃ stream : Stream, stream.page.log.take 3 = log ∧ ((streaming none).restrict Undisturbed).Reachable stream := by
  obtain ⟨stream, hfold, hstream⟩ := Option.map_eq_some_iff.mp h
  refine ⟨stream, hstream, _, earlySegment files time, rfl, System.run_of_foldlM (fun s e t hst => ?_) hfold⟩
  split_ifs at hst with hundisturbed
  exact ⟨hundisturbed, hst⟩

/-- With a table of the segments, and without: the double next to `6.3`, divided by the one next to `2.1`, is `3`. -/
theorem seek_honoured_sample :
    (∃ stream : Stream, stream.page.log.take 3 = [.send .wsInit, .send (.wsSegment 4), .seek 9 4] ∧
        SeeksHonoured stream.page.log) ∧
      ∃ stream : Stream, stream.page.log.take 3 = [.send .wsInit, .send (.wsSegment 3), .seek 6.3 3] ∧
        SeeksHonoured stream.page.log := by
  constructor
  · obtain ⟨stream, hlog, hreachable⟩ := reachable_earlySegment (sampleFiles (some sampleSegments) 20) 9
      [.send .wsInit, .send (.wsSegment 4), .seek 9 4] (by decide +kernel)
    exact ⟨stream, hlog, seek_honoured hreachable⟩
  · obtain ⟨stream, hlog, hreachable⟩ := reachable_earlySegment (sampleFiles none 21) 6.3
      [.send .wsInit, .send (.wsSegment 3), .seek 6.3 3] (by decide +kernel)
    exact ⟨stream, hlog, seek_honoured hreachable⟩

/-- With a segment on its way, the page asks for the one after it. -/
theorem late_segment_not_honoured :
    ¬ ∀ stream, (streaming none).Reachable stream → SeeksHonoured stream.page.log := by
  intro h
  have hlog : ((lateSegment.foldlM (step none) ⟨Watch.initial, []⟩).map fun stream => stream.page.log) =
      some [.send (.wsSegment 1), .send .wsInit, .seek 9 4, .send (.wsSegment 0), .send .wsInit, .send .watchGet] := by
    decide +kernel
  obtain ⟨stream, hfold, hstream⟩ := Option.map_eq_some_iff.mp hlog
  have hhonoured := h stream ⟨_, lateSegment, rfl, System.run_of_foldlM (fun _ _ _ hstep => hstep) hfold⟩
  rw [hstream] at hhonoured
  have hbetween (action : Action) (haction : action ∈ [Action.send .wsInit]) : mark action = .other := by
    rw [List.mem_singleton.mp haction]
    rfl
  have hwrong : (1 : Int) = 4 := hhonoured [] [.send .wsInit] _ 9 4 1 rfl hbetween
  exact absurd hwrong (by decide)

end OttQuic.Web
