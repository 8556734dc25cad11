import Rrq.Redis.EventLog
import Rrq.Producer
import Rrq.Store.Atomic
import Rrq.Store.Outcome

-- Waiting for a job to end: the status is read, then the events of the job, until one of them
-- says that it has ended or the time is up. Each read is one step, and so is the end of the job.

namespace Rrq.Producer

-- What a waiting call can see of its job: the status in its hash, and its stream of events.
structure Board where
  status : Option String
  events : EventLog Event

inductive Ending where
  | completed
  | failed
deriving DecidableEq

def Ending.status : Ending → JobStatus
  | completed => .Completed
  | failed => .Failed

def Ending.event (id : JobId) : Ending → Event
  | completed => Pipelines.completedEvent id
  | failed => Scripts.failedEvent id

-- The ending that a status stands for, if the call takes it for one.
def Board.ending (board : Board) : Option Ending :=
  match board.status.bind JobStatus.parse with
  | some .Completed => some .completed
  | some .Failed => some .failed
  | _ => none

-- Where a read of the stream starts: at its end, or after an entry.
inductive Offset where
  | newest
  | after (id : Nat)
deriving DecidableEq

def Offset.resolve (events : EventLog Event) : Offset → Nat
  | newest => events.last
  | after id => id

-- The streams of a reply, each with its key and entries. There are none if the read timed out.
abbrev StreamReply := Option (List (String × List (Nat × Event)))

def extractLatestStreamEntryId (reply : StreamReply) : Option Nat := do
  let streams ← reply
  let stream ← streams.getLast?
  let lastEntry ← stream.2.getLast?
  some lastEntry.1

inductive WaitPhase where
  | checking
  | timing
  | asking (waitMs : Nat)
  | blocked (start expiry : Nat)
  | answered (reply : StreamReply)
  | returned (result : Option Ending)
  | failed

structure Waiter where
  -- In nanoseconds.
  now : Nat
  deadline : Nat
  board : Board
  offset : Offset := .newest
  phase : WaitPhase := .checking
  -- The last id of the stream when the status was read last. No step depends on it.
  seen : Nat := 0

structure WaitCall where
  jobId : JobId
  timeout : Nat
  blockInterval : Nat

def WaitCall.start (call : WaitCall) (now : Nat) (board : Board) : Waiter where
  now
  deadline := now + call.timeout
  board

-- Time that is left, cut to the block interval if there is one, in whole milliseconds.
def WaitCall.waitMs (call : WaitCall) (remaining : Nat) : Nat :=
  let waitFor := if call.blockInterval = 0 then remaining else min call.blockInterval remaining
  max 1 (min (waitFor / 1000000) I64_MAX.toNat)

def formatJobEventsKey (id : JobId) : String := "rrq:events:job:" ++ id

-- The reply to a read from the given id, if there is an entry to answer with. It holds one.
def xread (key : String) (start : Nat) (events : EventLog Event) : Option StreamReply :=
  (events.after start).head?.map fun entry => some [(key, [entry])]

inductive Act where
  | tick (nanos : Nat)
  -- The job ends: its status is written and its event is published.
  | finish (ending : Ending) (id : Nat)
  | checkStatus
  | readClock
  | read
  | timeOut
  | receive
  -- A command of the call fails.
  | fail

namespace WaitCall

variable (call : WaitCall)

-- A blocked read is answered as soon as there is an entry for it.
def serve (events : EventLog Event) : WaitPhase → WaitPhase
  | .blocked start expiry =>
      match xread (formatJobEventsKey call.jobId) start events with
      | some reply => .answered reply
      | none => .blocked start expiry
  | phase => phase

def finish (w : Waiter) (ending : Ending) (id : Nat) : Option Waiter :=
  if h : w.board.events.last < id then
    let events := w.board.events.add id (ending.event call.jobId) h
    some { w with
      board := { status := some ending.status.asStr, events }
      phase := call.serve events w.phase }
  else none

def step (w : Waiter) : Act → Option Waiter
  | .tick nanos => some { w with now := w.now + nanos }
  | .finish ending id => call.finish w ending id
  | .checkStatus =>
      match w.phase with
      | .checking => some { w with
          seen := w.board.events.last
          phase := match w.board.ending with
            | some ending => .returned (some ending)
            | none => .timing }
      | _ => none
  | .readClock =>
      match w.phase with
      | .timing => some { w with
          phase := if w.deadline ≤ w.now then .returned none
            else .asking (call.waitMs (w.deadline - w.now)) }
      | _ => none
  | .read =>
      match w.phase with
      | .asking waitMs =>
          let start := w.offset.resolve w.board.events
          some { w with
            phase := call.serve w.board.events (.blocked start (w.now + waitMs * 1000000)) }
      | _ => none
  | .timeOut =>
      match w.phase with
      | .blocked _ expiry => if expiry ≤ w.now then some { w with phase := .answered none } else none
      | _ => none
  | .receive =>
      match w.phase with
      | .answered reply => some { w with
          offset := ((extractLatestStreamEntryId reply).map Offset.after).getD w.offset
          phase := .checking }
      | _ => none
  | .fail =>
      match w.phase with
      | .checking | .asking _ | .blocked _ _ => some { w with phase := .failed }
      | _ => none

-- The states of a call whose steps all are as stated.
inductive Reached (meets : Act → Waiter → Prop) : Waiter → Prop
  | start (now : Nat) (board : Board) : Reached meets (call.start now board)
  | step {w w' : Waiter} {act : Act} : Reached meets w → meets act w → call.step w act = some w' →
      Reached meets w'

end WaitCall

-- The status has been read and the stream not yet, and that read will start at its end.
def Waiter.InGap (w : Waiter) : Prop :=
  w.offset = .newest ∧ (w.phase = .timing ∨ ∃ waitMs, w.phase = .asking waitMs)

-- The job does not end in the gap.
def Covered (act : Act) (w : Waiter) : Prop := ∀ ending id, act = .finish ending id → ¬ w.InGap

-- An event was published since the status was read.
def Waiter.News (w : Waiter) : Prop := ∃ entry ∈ w.board.events.entries, w.seen < entry.1

-- No read is left blocked on an event that is there, and none times out on it. A read answers
-- with it at once, or as soon as it is published.
structure Attentive (call : WaitCall) (w : Waiter) : Prop where
  blocked : ∀ start expiry, w.phase = .blocked start expiry → ¬ w.News
  timeOut : ∀ w', call.step w .timeOut = some w' → ¬ w.News
  read : ∀ w', call.step w .read = some w' → w.News →
    ∃ entry, w'.phase = .answered (some [(formatJobEventsKey call.jobId, [entry])])
  finish : ∀ w' ending id start expiry, w.phase = .blocked start expiry →
    call.step w (.finish ending id) = some w' →
      w'.phase = .answered
        (some [(formatJobEventsKey call.jobId, [(id, ending.event call.jobId)])])

-- What a phase relies on: an offset from before the last status read, or nothing published since.
def Waiter.Sound (w : Waiter) : WaitPhase → Prop
  | .timing | .asking _ =>
      (∀ id, w.offset = .after id → id ≤ w.seen) ∧ (w.offset = .newest → ¬ w.News)
  | .blocked start _ =>
      start ≤ w.board.events.last ∧ w.board.events.after start = [] ∧ ¬ w.News
  | .answered reply =>
      ∀ id, extractLatestStreamEntryId reply = some id → id ≤ w.board.events.last
  | _ => True

structure Waiter.Invariant (w : Waiter) : Prop where
  offset : ∀ id, w.offset = .after id → id ≤ w.board.events.last
  sound : w.Sound w.phase

section Steps

variable {call : WaitCall} {w w' : Waiter}

theorem not_news_of_last {w : Waiter} (h : w.board.events.last = w.seen) : ¬ w.News := by
  rintro ⟨entry, hentry, hless⟩
  have := w.board.events.le_last entry hentry
  omega

-- What a blocked read is answered with when the job ends.
theorem serve_finish {start expiry id : Nat} {ending : Ending} {events : EventLog Event}
    (hnone : events.after start = []) (hstart : start ≤ events.last) (hnew : events.last < id) :
    call.serve (events.add id (ending.event call.jobId) hnew) (.blocked start expiry) =
      .answered (some [(formatJobEventsKey call.jobId, [(id, ending.event call.jobId)])]) := by
  have hafter : (events.add id (ending.event call.jobId) hnew).after start =
      [(id, ending.event call.jobId)] := EventLog.after_add hnone (hstart.trans_lt hnew)
  simp only [WaitCall.serve, xread, hafter, List.head?_cons, Option.map_some]

theorem Waiter.Invariant.finish (hw : w.Invariant) {ending : Ending} {id : Nat}
    (hcovered : ¬ w.InGap) (h : call.finish w ending id = some w') : w'.Invariant := by
  unfold WaitCall.finish at h
  split at h
  · rename_i hnew
    cases h
    refine ⟨fun other heq => ((hw.offset other heq).trans_lt hnew).le, ?_⟩
    have hsound := hw.sound
    cases hphase : w.phase with
    | timing =>
        rw [hphase] at hsound
        exact ⟨hsound.1, fun hnewest => absurd ⟨hnewest, .inl hphase⟩ hcovered⟩
    | asking waitMs =>
        rw [hphase] at hsound
        exact ⟨hsound.1, fun hnewest => absurd ⟨hnewest, .inr ⟨waitMs, hphase⟩⟩ hcovered⟩
    | blocked start expiry =>
        rw [hphase] at hsound
        obtain ⟨hstart, hnone, -⟩ := hsound
        simp only [serve_finish hnone hstart hnew]
        rintro other hlast
        cases hlast
        exact le_rfl
    | answered reply =>
        rw [hphase] at hsound
        exact fun other hlast => ((hsound other hlast).trans_lt hnew).le
    | checking => trivial
    | returned result => trivial
    | failed => trivial
  · cases h

-- A read blocks only if nothing is there to answer it with.
theorem serve_blocked (call : WaitCall) (start expiry : Nat) (events : EventLog Event) :
    (events.after start = [] ∧ call.serve events (.blocked start expiry) = .blocked start expiry) ∨
      ∃ entry, start < entry.1 ∧ entry.1 ≤ events.last ∧
        call.serve events (.blocked start expiry) =
          .answered (some [(formatJobEventsKey call.jobId, [entry])]) := by
  cases hread : xread (formatJobEventsKey call.jobId) start events with
  | none =>
      have hnone : events.after start = [] := by simpa [xread] using hread
      exact .inl ⟨hnone, by simp only [WaitCall.serve, hread]⟩
  | some reply =>
      obtain ⟨entry, hhead, rfl⟩ := Option.map_eq_some_iff.mp hread
      obtain ⟨hless, hle⟩ := EventLog.head_after hhead
      exact .inr ⟨entry, hless, hle, by simp only [WaitCall.serve, hread]⟩

theorem Waiter.Invariant.resolve_le (hw : w.Invariant) :
    w.offset.resolve w.board.events ≤ w.board.events.last := by
  cases hoffset : w.offset with
  | newest => exact le_rfl
  | after id => exact hw.offset id hoffset

-- A read in order that finds nothing to answer it with has missed nothing.
theorem Waiter.Invariant.quiet (hw : w.Invariant) {waitMs : Nat}
    (hphase : w.phase = .asking waitMs)
    (hnone : w.board.events.after (w.offset.resolve w.board.events) = []) : ¬ w.News := by
  have hsound := hw.sound
  rw [hphase] at hsound
  cases hoffset : w.offset with
  | newest => exact hsound.2 hoffset
  | after id =>
      rw [hoffset] at hnone
      rintro ⟨entry, hentry, hless⟩
      have hmem : entry ∈ w.board.events.after id :=
        EventLog.mem_after.mpr ⟨hentry, (hsound.1 id hoffset).trans_lt hless⟩
      rw [show w.board.events.after id = [] from hnone] at hmem
      exact List.not_mem_nil hmem

theorem Waiter.Invariant.read (hw : w.Invariant) (h : call.step w .read = some w') :
    w'.Invariant := by
  simp only [WaitCall.step] at h
  split at h
  · rename_i waitMs hphase
    cases h
    refine ⟨hw.offset, ?_⟩
    obtain ⟨hnone, hserve⟩ | ⟨entry, -, hle, hserve⟩ := serve_blocked call
      (w.offset.resolve w.board.events) (w.now + waitMs * 1000000) w.board.events
    · simp only [hserve]
      exact ⟨hw.resolve_le, hnone, hw.quiet hphase hnone⟩
    · simp only [hserve]
      rintro other hlast
      cases hlast
      exact hle
  · cases h

theorem invariant_step (hw : w.Invariant) {act : Act} (hcovered : Covered act w)
    (h : call.step w act = some w') : w'.Invariant := by
  cases act with
  | finish ending id => exact hw.finish (hcovered ending id rfl) h
  | read => exact hw.read h
  | tick nanos =>
      cases h
      refine ⟨hw.offset, ?_⟩
      have hsound := hw.sound
      cases hphase : w.phase <;> rw [hphase] at hsound <;> exact hsound
  | checkStatus =>
      simp only [WaitCall.step] at h
      split at h
      · cases h
        refine ⟨hw.offset, ?_⟩
        cases w.board.ending with
        | some ending => trivial
        | none => exact ⟨hw.offset, fun _ => not_news_of_last rfl⟩
      · cases h
  | readClock =>
      simp only [WaitCall.step] at h
      split at h
      · rename_i hphase
        cases h
        have hsound := hw.sound
        rw [hphase] at hsound
        refine ⟨hw.offset, ?_⟩
        by_cases hlate : w.deadline ≤ w.now
        · simp only [if_pos hlate]
          trivial
        · simp only [if_neg hlate]
          exact hsound
      · cases h
  | timeOut =>
      simp only [WaitCall.step] at h
      split at h
      · split at h
        · cases h
          exact ⟨hw.offset, nofun⟩
        · cases h
      · cases h
  | receive =>
      simp only [WaitCall.step] at h
      split at h
      · rename_i reply hphase
        cases h
        have hsound := hw.sound
        rw [hphase] at hsound
        refine ⟨fun id heq => ?_, trivial⟩
        cases hlast : extractLatestStreamEntryId reply with
        | none =>
            rw [hlast] at heq
            exact hw.offset id heq
        | some last =>
            rw [hlast] at heq
            cases heq
            exact hsound id hlast
      · cases h
  | fail =>
      simp only [WaitCall.step] at h
      split at h
      all_goals cases h
      all_goals exact ⟨hw.offset, trivial⟩

theorem invariant_reached (h : call.Reached Covered w) : w.Invariant := by
  induction h with
  | start now board => exact ⟨nofun, trivial⟩
  | step _ hcovered hstep ih => exact invariant_step ih hcovered hstep

theorem Waiter.Invariant.attentive (hw : w.Invariant) : Attentive call w where
  blocked start expiry hphase := by
    have hsound := hw.sound
    rw [hphase] at hsound
    exact hsound.2.2
  timeOut w' h := by
    simp only [WaitCall.step] at h
    split at h
    · rename_i start expiry hphase
      have hsound := hw.sound
      rw [hphase] at hsound
      exact hsound.2.2
    · cases h
  read w' h hnews := by
    simp only [WaitCall.step] at h
    split at h
    · rename_i waitMs hphase
      cases h
      obtain ⟨hnone, -⟩ | ⟨entry, -, -, hserve⟩ := serve_blocked call
        (w.offset.resolve w.board.events) (w.now + waitMs * 1000000) w.board.events
      · exact absurd hnews (hw.quiet hphase hnone)
      · exact ⟨entry, hserve⟩
    · cases h
  finish w' ending id start expiry hphase h := by
    have hsound := hw.sound
    rw [hphase] at hsound
    obtain ⟨hstart, hnone, -⟩ := hsound
    simp only [WaitCall.step, WaitCall.finish] at h
    split at h
    · rename_i hnew
      cases h
      simp only [hphase]
      exact serve_finish hnone hstart hnew
    · cases h

-- An event in the gap is behind the read that follows.
theorem not_attentive_of_gap {w₁ w₂ : Waiter} {ending : Ending} {id : Nat}
    (hseen : w.seen ≤ w.board.events.last) (hgap : w.InGap)
    (hfinish : call.step w (.finish ending id) = some w₁) (hread : call.step w₁ .read = some w₂) :
    ¬ Attentive call w₂ := by
  intro hattentive
  simp only [WaitCall.step, WaitCall.finish] at hfinish
  split at hfinish
  · rename_i hnew
    cases hfinish
    obtain ⟨hnewest, htiming | ⟨waitMs, hasking⟩⟩ := hgap
    · simp only [WaitCall.step, htiming, WaitCall.serve] at hread
      cases hread
    · simp only [WaitCall.step, hasking, WaitCall.serve, hnewest, Offset.resolve] at hread
      cases hread
      have hnone : xread (formatJobEventsKey call.jobId) id
          (w.board.events.add id (ending.event call.jobId) hnew) = none := by
        have hlast := EventLog.after_last (w.board.events.add id (ending.event call.jobId) hnew)
        rw [EventLog.add_last] at hlast
        rw [xread, hlast]
        rfl
      refine hattentive.blocked id (w.now + waitMs * 1000000) ?_ ⟨(id, ending.event call.jobId), ?_, ?_⟩
      · simp only [EventLog.add_last, hnone]
      · exact List.mem_append_right _ (List.mem_singleton.mpr rfl)
      · exact hseen.trans_lt hnew
  · cases hfinish

theorem seen_le_last {meets : Act → Waiter → Prop} (h : call.Reached meets w) :
    w.seen ≤ w.board.events.last := by
  induction h with
  | start now board => exact Nat.zero_le _
  | @step w w' act _ _ hstep ih =>
      cases act with
      | finish ending id =>
          simp only [WaitCall.step, WaitCall.finish] at hstep
          split at hstep
          · rename_i hnew
            cases hstep
            exact (ih.trans_lt hnew).le
          · cases hstep
      | tick nanos =>
          cases hstep
          exact ih
      | checkStatus =>
          simp only [WaitCall.step] at hstep
          split at hstep <;> cases hstep
          exact le_rfl
      | timeOut =>
          simp only [WaitCall.step] at hstep
          split at hstep
          · split at hstep <;> cases hstep
            exact ih
          · cases hstep
      | _ =>
          simp only [WaitCall.step] at hstep
          split at hstep <;> cases hstep <;> exact ih

end Steps

-- In a run in which the job does not end in the gap, no read misses its end. Where the job does
-- and a read follows, that read misses it.
theorem waitForCompletion_attentive (call : WaitCall) :
    (∀ w, call.Reached Covered w → Attentive call w) ∧
      ∀ w w₁ w₂ ending id, call.Reached (fun _ _ => True) w → w.InGap →
        call.step w (.finish ending id) = some w₁ → call.step w₁ .read = some w₂ →
          ¬ Attentive call w₂ :=
  ⟨fun _ h => (invariant_reached h).attentive, fun _ _ _ _ _ h hgap hfinish hread =>
    not_attentive_of_gap (seen_le_last h) hgap hfinish hread⟩

section Example

def exampleCall : WaitCall := ⟨"j", 30000000000, 100000000⟩

def exampleStart : Waiter := exampleCall.start 0 ⟨some "PENDING", .empty⟩

def exampleAsking : Waiter := { exampleStart with phase := .asking 100 }

def exampleBoard : Board :=
  ⟨some "COMPLETED", EventLog.empty.add 1 (Ending.completed.event "j") Nat.one_pos⟩

theorem exampleAsking_reached {meets : Act → Waiter → Prop} (hcheck : ∀ w, meets .checkStatus w)
    (hclock : ∀ w, meets .readClock w) : exampleCall.Reached meets exampleAsking :=
  .step (.step (.start 0 ⟨some "PENDING", .empty⟩) (hcheck _) rfl) (hclock _) rfl

-- The job ends while the call is blocked: the read is answered, and the call returns the ending.
def exampleBlocked : Waiter := { exampleStart with phase := .blocked 0 100000000 }

def exampleReply : StreamReply :=
  some [("rrq:events:job:j", [(1, Ending.completed.event "j")])]

def exampleAnswered : Waiter :=
  { exampleStart with
    board := exampleBoard
    phase := .answered exampleReply }

def exampleReturned : Waiter :=
  { exampleAnswered with
    offset := .after 1
    phase := .returned (some .completed)
    seen := 1 }

theorem exampleBlocked_reached : exampleCall.Reached Covered exampleBlocked := by
  have hasking : exampleCall.Reached Covered exampleAsking :=
    exampleAsking_reached (fun _ _ _ h => nomatch h) (fun _ _ _ h => nomatch h)
  have hread : Covered .read exampleAsking := fun _ _ h => nomatch h
  exact .step hasking hread rfl

theorem exampleReturned_reached (h : exampleCall.Reached Covered exampleAnswered) :
    exampleCall.Reached Covered exampleReturned := by
  have hreceive : Covered .receive exampleAnswered := fun _ _ h => nomatch h
  have hcheck : ∀ w, Covered .checkStatus w := fun _ _ _ h => nomatch h
  exact .step (.step h hreceive rfl) (hcheck _) rfl

-- The job ends in the gap: the read that follows blocks for the whole interval.
def exampleEnded : Waiter := { exampleAsking with board := exampleBoard }

def exampleMissed : Waiter :=
  { exampleStart with
    board := exampleBoard
    phase := .blocked 1 100000000 }

theorem exampleEnded_step :
    exampleCall.step exampleAsking (.finish .completed 1) = some exampleEnded := rfl

theorem exampleMissed_step : exampleCall.step exampleEnded .read = some exampleMissed := rfl

theorem exampleAsking_inGap : exampleAsking.InGap := ⟨rfl, .inr ⟨100, rfl⟩⟩

end Example

theorem waitForCompletion_attentive_example :
    (exampleCall.Reached Covered exampleReturned ∧ exampleAnswered.phase = .answered exampleReply) ∧
      ¬ Attentive exampleCall exampleMissed := by
  obtain ⟨hattentive, hmissed⟩ := waitForCompletion_attentive exampleCall
  have hanswered : exampleCall.step exampleBlocked (.finish .completed 1) = some exampleAnswered :=
    rfl
  have hcovered : Covered (.finish .completed 1) exampleBlocked := by
    rintro _ _ - ⟨-, hphase | ⟨_, hphase⟩⟩ <;> cases hphase
  refine ⟨⟨exampleReturned_reached (.step exampleBlocked_reached hcovered hanswered), ?_⟩, ?_⟩
  · exact (hattentive exampleBlocked exampleBlocked_reached).finish exampleAnswered .completed 1 0
      100000000 rfl hanswered
  · exact hmissed exampleAsking exampleEnded exampleMissed .completed 1
      (exampleAsking_reached (fun _ => trivial) (fun _ => trivial)) exampleAsking_inGap
      exampleEnded_step exampleMissed_step

theorem waitForCompletion_misses : ¬ ∀ (call : WaitCall) (w : Waiter),
    call.Reached (fun _ _ => True) w → Attentive call w := by
  intro h
  have hasking : exampleCall.Reached (fun _ _ => True) exampleAsking :=
    exampleAsking_reached (fun _ => trivial) (fun _ => trivial)
  have hended : exampleCall.Reached (fun _ _ => True) exampleEnded :=
    .step hasking trivial exampleEnded_step
  have hmissed : exampleCall.Reached (fun _ _ => True) exampleMissed :=
    .step hended trivial exampleMissed_step
  exact not_attentive_of_gap (seen_le_last hasking) exampleAsking_inGap exampleEnded_step
    exampleMissed_step (h exampleCall exampleMissed hmissed)

-- The steps that end a job on a worker are such steps.
section Worker

variable {id : JobId} {s t : Store} {board : Board}

def publishedEvents (s : Store) (id : JobId) : List Event :=
  ((s.events id).map Volatile.value).getD []

-- The board of a job, in the store.
structure Board.Shows (board : Board) (s : Store) (id : JobId) : Prop where
  status : board.status = s.status id
  events : board.events.entries.map Prod.snd = publishedEvents s id

theorem publishedEvents_xadd (event : Event) :
    publishedEvents (s.xadd id event) id = publishedEvents s id ++ [event] := by
  unfold Store.xadd publishedEvents
  cases s.events id <;> simp

theorem publishedEvents_expireEvents (seconds : Int) :
    publishedEvents (s.expireEvents id seconds) id = publishedEvents s id := by
  unfold Store.expireEvents publishedEvents
  cases h : s.events id <;> simp [h]

theorem publishedEvents_persistEvents :
    publishedEvents (s.persistEvents id) id = publishedEvents s id := by
  unfold Store.persistEvents publishedEvents
  cases h : s.events id <;> simp [h]

theorem publishedEvents_congr (h : t.events = s.events) : publishedEvents t id = publishedEvents s id := by
  unfold publishedEvents
  rw [h]

theorem publishedEvents_lpush (name : String) :
    publishedEvents (s.lpush name id) id = publishedEvents s id := publishedEvents_congr rfl

theorem publishedEvents_hset (update : JobHash → JobHash) :
    publishedEvents (s.hset id update) id = publishedEvents s id := by
  refine publishedEvents_congr ?_
  unfold Store.hset
  split <;> rfl

theorem publishedEvents_expireJob (seconds : Int) :
    publishedEvents (s.expireJob id seconds) id = publishedEvents s id := by
  refine publishedEvents_congr ?_
  unfold Store.expireJob
  split <;> rfl

theorem publishedEvents_persistJob : publishedEvents (s.persistJob id) id = publishedEvents s id := by
  refine publishedEvents_congr ?_
  unfold Store.persistJob
  split <;> rfl

theorem Board.Shows.finish (h : board.Shows s id) (ending : Ending) {n : Nat}
    (hnew : board.events.last < n) (hstatus : t.status id = some ending.status.asStr)
    (hevents : publishedEvents t id = publishedEvents s id ++ [ending.event id]) :
    Board.Shows
      { status := some ending.status.asStr, events := board.events.add n (ending.event id) hnew }
      t id where
  status := hstatus.symm
  events := by
    rw [hevents, ← h.events]
    exact List.map_append

theorem Board.Shows.saveJobResult (h : board.Shows s id) {n : Nat} (hnew : board.events.last < n)
    (value : Json) (ttlSeconds : Int) (time : DateTime) :
    Board.Shows
      { status := some JobStatus.Completed.asStr
        events := board.events.add n (Pipelines.completedEvent id) hnew }
      (Pipelines.saveJobResult id value ttlSeconds time s).2 id := by
  refine h.finish .completed hnew
    (Store.completed_saveJobResult id value ttlSeconds time s).status ?_
  have hrecord : publishedEvents (Pipelines.recordResult id value time s) id =
      publishedEvents s id ++ [Pipelines.completedEvent id] := by
    rw [Pipelines.recordResult, publishedEvents_xadd, publishedEvents_hset]
  simp only [Pipelines.saveJobResult]
  split_ifs
  · rw [publishedEvents_expireEvents, publishedEvents_expireJob, hrecord]
    rfl
  · exact hrecord
  · rw [publishedEvents_persistEvents, publishedEvents_persistJob, hrecord]
    rfl
  · exact hrecord

theorem Board.Shows.moveToDlq (h : board.Shows s id) {n : Nat} (hnew : board.events.last < n)
    {count : Int} (hcount : s.nextRetries id = some count) (dlqKey message : String)
    (time : DateTime) (uniqueKey : Option String) :
    Board.Shows
      { status := some JobStatus.Failed.asStr
        events := board.events.add n (Scripts.failedEvent id) hnew }
      ((Scripts.moveToDlq id dlqKey message time DEFAULT_DLQ_RESULT_TTL_SECONDS uniqueKey).run none
        s).2 id := by
  have hdead := Store.dead_moveToDlq id dlqKey message time DEFAULT_DLQ_RESULT_TTL_SECONDS uniqueKey
    none s
  refine h.finish .failed hnew (hdead.failed ⟨by rw [hcount]; rfl, trivial⟩) ?_
  have hincr : s.hincrby id =
      some (count, s.hset id fun h => { h with currentRetries := some (.int count) }) := by
    simp [Store.hincrby, hcount]
  have hmoved : publishedEvents (Pipelines.moveJobToDlq id dlqKey message time
      (s.hset id fun h => { h with currentRetries := some (.int count) })) id =
        publishedEvents s id ++ [Scripts.failedEvent id] := by
    rw [Pipelines.moveJobToDlq, publishedEvents_expireEvents, publishedEvents_expireJob,
      publishedEvents_lpush, publishedEvents_xadd,
      publishedEvents_hset, publishedEvents_hset]
  rw [Cmd.run_moveToDlq hincr]
  cases uniqueKey with
  | none => exact hmoved
  | some key => exact (publishedEvents_congr rfl).trans hmoved

end Worker

end Rrq.Producer
