import Rrq.Concurrent.Amid
import Rrq.Worker.Poll.Theorems
import Rrq.Worker.Release.Issues
import Rrq.Worker.Run

-- The permits of a worker. The poll loop takes one for every job that it hands to a task, and
-- the task gives it back when it ends.

namespace Rrq

open Prog Conduct Setting

structure Semaphore where
  available : Nat
  -- What the poll loop has acquired and not yet handed on, and what tasks hold.
  inHand : Nat := 0
  tasks : Nat := 0

namespace Semaphore

def acquire (s : Semaphore) : Semaphore :=
  { s with available := s.available - 1, inHand := s.inHand + 1 }

def handOn (s : Semaphore) : Semaphore :=
  { s with inHand := s.inHand - 1, tasks := s.tasks + 1 }

def giveBack (s : Semaphore) : Semaphore :=
  { s with available := s.available + 1, tasks := s.tasks - 1 }

structure Conserved (concurrency : Nat) (s : Semaphore) : Prop where
  sum : s.available + s.inHand + s.tasks = concurrency

end Semaphore

structure Station where
  world : World
  semaphore : Semaphore

-- The poll loop of a worker with so many permits. Nobody closes the semaphore.
def Station.exec (concurrency : Nat) (pid : Pid) (role : Role) :
    (op : Op) → Chance → Station → op.Reply × Station
  | .fetchCount _, _, s =>
      let running := concurrency - s.semaphore.available
      (concurrency - running, s)
  | .acquirePermit _, _, s => (true, { s with semaphore := s.semaphore.acquire })
  | .spawnTask self job queueName, chance, s =>
      let (task, world) := World.exec pid role (.spawnTask self job queueName) chance s.world
      (task, ⟨world, s.semaphore.handOn⟩)
  | op, chance, s =>
      let (reply, world) := World.exec pid role op chance s.world
      (reply, { s with world })

-- Tasks end, and others change the rest of the world as they like.
inductive Station.Moves : Station → Station → Prop
  | taskEnds (s : Station) : 0 < s.semaphore.tasks →
      Moves s { s with semaphore := s.semaphore.giveBack }
  | others (s : Station) (world : World) : Moves s { s with world }

def station (concurrency : Nat) (pid : Pid) (role : Role) : Setting Op Op.Reply Chance Station where
  exec := Station.exec concurrency pid role
  ready
    | .acquirePermit _, s => decide (0 < s.semaphore.available)
    | _, _ => true
  moves := Station.Moves

-- What the poll loop knows of the permits: how many are there at least, and whether it has one.
structure Holding where
  room : Nat := 0
  inHand : Bool := false

def permitConduct : Conduct Op Op.Reply Holding where
  allows
    | h, .acquirePermit _ => 0 < h.room ∧ h.inHand = false
    | h, .spawnTask _ _ _ => h.inHand = true
    | _, _ => True
  possible
    | _, .acquirePermit _, permit => permit = true
    | _, _, _ => True
  next
    | h, .fetchCount _, count => { h with room := count }
    | h, .acquirePermit _, _ => { room := h.room - 1, inHand := true }
    | h, .spawnTask _ _ _, _ => { h with inHand := false }
    | h, _, _ => h

structure Holding.Fits (concurrency : Nat) (h : Holding) (s : Station) : Prop where
  room : h.room ≤ s.semaphore.available
  inHand : s.semaphore.inHand = h.inHand.toNat
  conserved : s.semaphore.Conserved concurrency

theorem station_fits (concurrency : Nat) (pid : Pid) (role : Role) :
    (station concurrency pid role).Fits permitConduct (Holding.Fits concurrency) where
  moves h s after hs hm := by
    cases hm with
    | taskEnds htasks =>
        have hroom := hs.room
        have hsum := hs.conserved.sum
        refine ⟨?_, hs.inHand, ⟨?_⟩⟩ <;> simp only [Semaphore.giveBack] <;> omega
    | others world => exact ⟨hs.room, hs.inHand, hs.conserved⟩
  exec h op chance s hs ha hready := by
    have hroom := hs.room
    have hsum := hs.conserved.sum
    have hhand := hs.inHand
    cases op with
    | fetchCount worker =>
        refine ⟨trivial, ?_, hhand, ⟨hsum⟩⟩
        simp only [station, Station.exec, permitConduct]
        omega
    | acquirePermit worker =>
        have hfree : 0 < s.semaphore.available := of_decide_eq_true hready
        obtain ⟨-, hempty⟩ : 0 < h.room ∧ h.inHand = false := ha
        rw [hempty] at hhand
        refine ⟨rfl, ?_, ?_, ⟨?_⟩⟩
        all_goals
          simp only [station, Station.exec, permitConduct, Semaphore.acquire, Bool.toNat_true,
            Bool.toNat_false] at hhand ⊢
          omega
    | spawnTask owner job queueName =>
        have hheld : h.inHand = true := ha
        rw [hheld] at hhand
        refine ⟨trivial, hroom, ?_, ⟨?_⟩⟩
        all_goals
          simp only [station, Station.exec, permitConduct, Semaphore.handOn, Bool.toNat_true,
            Bool.toNat_false] at hhand ⊢
          omega
    | _ => exact ⟨trivial, hroom, hhand, ⟨hsum⟩⟩

-- The operations that have nothing to do with permits.
def Permitless : Op → Prop
  | .fetchCount _ => False
  | .acquirePermit _ => False
  | .spawnTask _ _ _ => False
  | _ => True

section Permitless

variable {α β : Type} {h : Holding} {post : α → Holding → Prop}

theorem permitless_step {op : Op} (hop : Permitless op) :
    permitConduct.allows h op ∧ ∀ reply, permitConduct.possible h op reply →
      True ∧ permitConduct.next h op reply = h := by
  cases op <;> first | exact hop.elim | exact ⟨trivial, fun _ _ => ⟨trivial, rfl⟩⟩

theorem conforms_permitless_call {op : Op} {next : op.Reply → Proc α} (hop : Permitless op)
    (hn : ∀ reply, permitConduct.Conforms post (next reply) h) :
    permitConduct.Conforms post (perform op >>= next) h := by
  obtain ⟨ha, hstep⟩ := permitless_step (h := h) hop
  refine conforms_call ha fun reply hreply => ?_
  rw [(hstep reply hreply).2]
  exact hn reply

theorem conforms_permitless_bind {prog : Proc β} {rest : β → Proc α}
    (hp : prog.Issues Permitless fun _ _ => True)
    (hr : ∀ value, permitConduct.Conforms post (rest value) h) :
    permitConduct.Conforms post (prog >>= rest) h := by
  refine conforms_bind (conforms_of_issues hp fun _ => permitless_step) fun value last hlast => ?_
  rw [hlast]
  exact hr value

theorem permitless_release (self : RRQWorker) :
    ReleaseCode self Permitless fun _ _ => True where
  commands _ _ := trivial
  clock := trivial
  force _ _ := trivial

end Permitless

-- A poll that has fetched so many has permits for the rest, and none that it has not handed on.
structure Holding.Spares (h : Holding) (count fetched : Nat) : Prop where
  room : count - fetched ≤ h.room
  inHand : h.inHand = false

-- What an answer of a poll says on permits.
def PollLeaves (count : Nat) : Except PollError (Nat × Bool) → Holding → Prop
  | .ok (fetched, _), h => h.Spares count fetched
  | .error error, _ => error ≠ .permitClosed

section Poll

variable {self : RRQWorker} {count : Nat} {h : Holding}

theorem dispatchBatch_spares (queueName : QueueKey) (claimStartTime : DateTime)
    (batch : List (JobId × Option Job)) (fetched : Nat) (hs : h.Spares count fetched) :
    permitConduct.Conforms (PollLeaves count)
      (self.dispatchBatch queueName count claimStartTime batch fetched) h := by
  have hrelease := permitless_release self
  induction batch generalizing fetched h with
  | nil => exact conforms_ret hs
  | cons entry batch ih =>
      obtain ⟨id, jobOpt⟩ := entry
      have hfail : ∀ (error : PollError) (message : Option String), error ≠ .permitClosed →
          permitConduct.Conforms (PollLeaves count)
            (self.releaseClaimedJobsFromIndex queueName message ((id, jobOpt) :: batch) >>= fun _ =>
              pure (.error error : Except PollError (Nat × Bool))) h :=
        fun error message herror => conforms_permitless_bind
          (releaseClaimedJobsFromIndex_issues hrelease queueName message _)
          fun _ => conforms_ret herror
      refine conforms_permitless_call trivial fun shutdown => ?_
      by_cases hstop : count ≤ fetched ∨ shutdown = true
      · rw [if_pos hstop]
        exact conforms_permitless_bind
          (releaseRemainingClaimedJobs_issues hrelease queueName _ _) fun _ => conforms_ret hs
      rw [if_neg hstop]
      cases jobOpt with
      | none =>
          exact conforms_permitless_bind
            (quarantineClaimedJobWithoutDefinition_issues hrelease queueName id _) fun _ =>
              ih fetched hs
      | some job =>
      cases htimeout : RRQWorker.jobLockTimeoutMs self.settings job with
      | none =>
          simp only [htimeout]
          exact hfail _ _ nofun
      | some lockTimeoutMs =>
      simp only [htimeout]
      split_ifs
      · exact hfail _ _ nofun
      refine conforms_permitless_call trivial fun reply => ?_
      split
      · exact hfail _ _ nofun
      · exact conforms_permitless_bind (releaseClaimedJob_issues hrelease queueName _ job _)
          fun _ => ih fetched hs
      -- There is room, as the poll has not fetched all that it asked for.
      · have hroom := hs.room
        have hfree : 0 < h.room := by omega
        refine conforms_call ⟨hfree, hs.inHand⟩ fun permit hpermit => ?_
        rw [if_pos (show permit = true from hpermit)]
        refine conforms_permitless_call trivial fun _ => conforms_call rfl fun task _ => ?_
        refine conforms_permitless_call trivial fun _ => ih (fetched + 1) ⟨?_, rfl⟩
        change count - (fetched + 1) ≤ h.room - 1
        omega

theorem atomicClaimReadyJobs_issues {permits : Op → Prop} {possible : (op : Op) → op.Reply → Prop}
    (args : Scripts.ClaimArgs) (hclaim : permits (.redis (.atomicClaimReadyJobs args))) :
    (JobStore.atomicClaimReadyJobs args).Issues permits possible := by
  unfold JobStore.atomicClaimReadyJobs
  split_ifs
  · trivial
  · trivial
  · trivial
  · refine issues_call hclaim fun reply _ => ?_
    split <;> trivial

theorem atomicClaimReadyJobs_opens (args : Scripts.ClaimArgs) :
    (JobStore.atomicClaimReadyJobs args).Yields
      fun answer => answer ≠ .error .permitClosed := by
  unfold JobStore.atomicClaimReadyJobs
  split_ifs
  · exact nofun
  · exact nofun
  · exact nofun
  · refine yields_call fun reply => ?_
    split <;> exact nofun

theorem pollQueue_spares (queueName : QueueKey) (requestCount fetched : Nat)
    (hs : h.Spares count fetched) :
    permitConduct.Conforms (PollLeaves count)
      (self.pollQueue queueName count requestCount fetched) h := by
  have hrelease := permitless_release self
  refine conforms_permitless_call trivial fun claimStartTime => ?_
  refine conforms_permitless_call trivial fun now => ?_
  refine conforms_bind ((conforms_of_issues (atomicClaimReadyJobs_issues _ trivial)
    fun _ => permitless_step).yields (atomicClaimReadyJobs_opens _)) fun claimed last hlast => ?_
  obtain ⟨rfl, hopen⟩ := hlast
  split
  · rename_i error
    refine conforms_ret (show error ≠ .permitClosed from ?_)
    rintro rfl
    exact hopen rfl
  · exact conforms_ret hs
  · refine conforms_permitless_bind (getJobDefinitions_issues hrelease _ _) fun batch => ?_
    split
    · exact conforms_permitless_bind
        (releaseRemainingClaimedJobsWithoutDefinitions_issues hrelease queueName _) fun _ =>
          conforms_ret nofun
    · exact dispatchBatch_spares queueName claimStartTime _ fetched hs

-- What an answer of a whole poll says on permits.
structure PolledOut (answer : Except PollError Nat) (h : Holding) : Prop where
  opens : answer ≠ .error .permitClosed
  inHand : ∀ fetched, answer = .ok fetched → h.inHand = false

theorem pollSlots_spares (fairShare : Nat) (slots : List (Nat × QueueKey)) (fetched : Nat)
    (hs : h.Spares count fetched) :
    permitConduct.Conforms PolledOut (self.pollSlots count fairShare slots fetched) h := by
  induction slots generalizing fetched h with
  | nil => exact conforms_ret ⟨nofun, fun _ _ => hs.inHand⟩
  | cons slot slots ih =>
      obtain ⟨pass, queueName⟩ := slot
      refine conforms_permitless_call trivial fun shutdown => ?_
      dsimp only
      generalize (if pass = 0 then min (count - fetched) fairShare else count - fetched) =
        requestCount
      split_ifs
      · exact conforms_ret ⟨nofun, fun _ _ => hs.inHand⟩
      · exact ih fetched hs
      · refine conforms_bind (pollQueue_spares queueName requestCount fetched hs) ?_
        intro answer last hlast
        split
        · refine conforms_ret ⟨?_, nofun⟩
          rintro ⟨⟩
          exact hlast rfl
        · exact ih _ hlast
        · exact conforms_ret ⟨nofun, fun _ _ => hlast.inHand⟩

theorem pollLoop_spares (fuel cursor : Nat) (hempty : h.inHand = false) :
    permitConduct.Conforms (fun finish _ => finish ≠ .failed .permitClosed)
      (self.pollLoop fuel cursor) h := by
  induction fuel generalizing cursor h with
  | zero => exact conforms_ret nofun
  | succ fuel ih =>
      refine conforms_permitless_call trivial fun shutdown => ?_
      split_ifs
      · exact conforms_ret nofun
      refine conforms_call trivial fun fetchCount _ => ?_
      split_ifs
      · exact ih cursor hempty
      refine conforms_bind (pollSlots_spares _ _ 0 ⟨Nat.sub_le _ _, hempty⟩) ?_
      intro answer last hlast
      split
      · refine conforms_ret ?_
        rintro ⟨⟩
        exact hlast.opens rfl
      · refine conforms_permitless_call trivial fun running => ?_
        split_ifs
        · exact conforms_ret nofun
        · exact ih (cursor + 1) (hlast.inHand _ rfl)
      · exact ih (cursor + 1) (hlast.inHand _ rfl)

end Poll

-- The program is about to take a permit, which it may have to wait for.
def AcquiresNext {α : Type} : Proc α → Bool
  | .call (.acquirePermit _) _ => true
  | _ => false

theorem room_of_acquiresNext {α : Type} {prog : Proc α} {post : α → Holding → Prop} {h : Holding}
    (hp : permitConduct.Conforms post prog h) (ha : AcquiresNext prog = true) : 0 < h.room := by
  cases prog with
  | ret value => cases ha
  | call op next =>
      cases op with
      | acquirePermit worker => exact hp.1.1
      | _ => cases ha

-- However tasks end and whatever else happens meanwhile, the poll loop never has to wait for a
-- permit with claimed jobs in hand, and the tasks are never more than the worker has permits.
theorem pollLoop_never_waits (self : RRQWorker) (concurrency fuel cursor : Nat) (pid : Pid)
    (world : World) {prog : Proc RRQWorker.RunEnd} {s : Station}
    (hr : (station concurrency pid (.main self.workerId)).Reach (self.pollLoop fuel cursor)
      ⟨world, { available := concurrency }⟩ prog s) :
    s.semaphore.available + s.semaphore.inHand + s.semaphore.tasks = concurrency ∧
      s.semaphore.inHand ≤ 1 ∧ (AcquiresNext prog = true → 0 < s.semaphore.available) ∧
        prog ≠ .ret (.failed .permitClosed) := by
  have hstart : Holding.Fits concurrency {} ⟨world, { available := concurrency }⟩ :=
    ⟨Nat.zero_le _, rfl, ⟨rfl⟩⟩
  obtain ⟨h, hcode, hfits⟩ :=
    conforms_reach (station_fits concurrency pid _) (pollLoop_spares fuel cursor rfl) hstart hr
  refine ⟨hfits.conserved.sum, ?_, ?_, ?_⟩
  · rw [hfits.inHand]
    exact Bool.toNat_le h.inHand
  · intro hnext
    exact (room_of_acquiresNext hcode hnext).trans_le hfits.room
  · rintro rfl
    exact hcode rfl

-- A worker with a single permit, and a job for it.
theorem pollLoop_never_waits_single :
    ∃ prog s, AcquiresNext prog = true ∧ (station 1 0 (.main "w0")).Reach
      ((RRQWorker.ofDefaults "w0").pollLoop 1 0)
      ⟨⟨RRQWorker.queuedStore, fun _ => {}, {}⟩, { available := 1 }⟩ prog s ∧
        0 < s.semaphore.available := by
  have hrun : ((station 1 0 (.main "w0")).follow (List.replicate 9 {})
      ((RRQWorker.ofDefaults "w0").pollLoop 1 0)
      ⟨⟨RRQWorker.queuedStore, fun _ => {}, {}⟩, { available := 1 }⟩).map
        (fun later => AcquiresNext later.1) = some true := by
    decide +kernel
  obtain ⟨prog, s, hreach, hnext⟩ := exists_reach .start hrun
  exact ⟨prog, s, hnext, hreach,
    (pollLoop_never_waits (.ofDefaults "w0") 1 1 0 0 _ hreach).2.2.1 hnext⟩

end Rrq
