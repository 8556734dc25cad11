import Rrq.Concurrent.Conduct
import Rrq.Worker.Release.Issues
import Rrq.Worker.Routing.Theorems

-- How a poll goes round the queues, and when it stops short of what it was asked for.

namespace Rrq

open Prog Conduct

-- One claim of a poll: what the poll still wanted, what it requested, and what came of it.
structure PollClaim where
  queue : QueueKey
  requested : Nat
  wanted : Nat
  ids : List JobId
  -- What the hashes of the claimed jobs were read as.
  loaded : List (JobId × Option Job) := []
  -- The jobs whose lock turned out to be the worker's no longer.
  refused : List JobId := []
  dispatched : Nat := 0

namespace PollClaim

def returned (claim : PollClaim) : Nat := claim.ids.length

-- The claim with more jobs dispatched and more locks found lost.
def noted (claim : PollClaim) (more : Nat) (refused : List JobId) : PollClaim :=
  { claim with dispatched := claim.dispatched + more, refused := claim.refused ++ refused }

theorem noted_none (claim : PollClaim) : claim.noted 0 [] = claim := by
  rw [noted, List.append_nil]
  rfl

theorem noted_noted (claim : PollClaim) (more other : Nat) (refused later : List JobId) :
    (claim.noted more refused).noted other later = claim.noted (more + other) (refused ++ later) := by
  simp only [noted, Nat.add_assoc, List.append_assoc]

def load (claim : PollClaim) (batch : List (JobId × Option Job)) : PollClaim :=
  { claim with loaded := claim.loaded ++ batch }

theorem load_nil (claim : PollClaim) : claim.load [] = claim := by
  rw [load, List.append_nil]

theorem load_load (claim : PollClaim) (batch more : List (JobId × Option Job)) :
    (claim.load batch).load more = claim.load (batch ++ more) := by
  simp only [load, List.append_assoc]

-- A job with no definition, or with no lock, cannot be dispatched.
def Undispatchable (refused : List JobId) (entry : JobId × Option Job) : Prop :=
  entry.2 = none ∨ ∃ job, entry.2 = some job ∧ job.id ∈ refused

-- The claim returned less than was wanted, or a job that could not be dispatched.
def Exhausted (claim : PollClaim) : Prop :=
  claim.returned < claim.wanted ∨
    ∃ entry ∈ claim.loaded, entry.1 ∈ claim.ids ∧ Undispatchable claim.refused entry

end PollClaim

def dispatchedBy (claims : List PollClaim) : Nat := (claims.map PollClaim.dispatched).sum

-- The claims of a poll, the latest first. No shutdown is requested meanwhile.
def pollRecord (self : RRQWorker) (count : Nat) : Conduct Op Op.Reply (List PollClaim) where
  allows _ _ := True
  possible
    | _, .shutdownRequested _, shutdown => shutdown = false
    | _, _, _ => True
  next
    | claims, .redis (.atomicClaimReadyJobs args), .ok ids =>
        { queue := args.queueKey, requested := args.maxClaims
          wanted := count - dispatchedBy claims, ids } :: claims
    | claim :: claims, .redis (.getJobDataMap id), .ok map =>
        -- The first maps that are read after the claim are those of its jobs.
        if claim.loaded.length < claim.ids.length then
          claim.load [(id, map.bind fun raw =>
            (parseJobMap raw id self.settings.defaultMaxRetries).toOption)] :: claims
        else claim :: claims
    | claim :: claims, .redis (.refreshJobLockTimeout id _ _), .ok false =>
        claim.noted 0 [id] :: claims
    | claim :: claims, .spawnTask _ _ _, _ => claim.noted 1 [] :: claims
    | claims, _, _ => claims

namespace RRQWorker

-- Every poll moves the cursor to the queue after the one it began with.
def nextCursor (self : RRQWorker) (cursor : Nat) : Nat :=
  (cursor % self.queues.length + 1) % self.queues.length

-- The cursor of a poll that so many polls precede.
def cursorAfter (self : RRQWorker) (start polls : Nat) : Nat := self.nextCursor^[polls] start

-- A poll that ends without an error, with the number it has fetched and the claims it has made.
def Polled (self : RRQWorker) (cursor count fetched : Nat) (claims : List PollClaim) : Prop :=
  (pollRecord self count).Runs (self.pollForJobs cursor count) [] (.ok fetched) claims

structure Conserving (owner : RRQWorker) (count fetched : Nat) (claims : List PollClaim) : Prop where
  fetched_eq : fetched = dispatchedBy claims
  le : fetched ≤ count
  exhausted : fetched < count → ∀ queue ∈ owner.queues,
    ∃ claim, claims.find? (·.queue = queue) = some claim ∧ claim.Exhausted

-- The operations that the record of a poll takes no note of.
def Quiet : Op → Prop
  | .redis (.atomicClaimReadyJobs _) => False
  | .redis (.getJobDataMap _) => False
  | .redis (.refreshJobLockTimeout _ _ _) => False
  | .spawnTask _ _ _ => False
  | _ => True

-- The jobs of the latest claim have been loaded.
def Loaded (claims : List PollClaim) : Prop :=
  ∀ claim ∈ claims.head?, claim.ids.length ≤ claim.loaded.length

-- Giving claimed jobs back may read hashes again.
def GivesBack (op : Op) : Prop := Quiet op ∨ ∃ id, op = .redis (.getJobDataMap id)

section Quiet

variable {α : Type} {self : RRQWorker} {count : Nat} {claims : List PollClaim}
  {post : α → List PollClaim → Prop}

theorem next_quiet {op : Op} (hop : Quiet op) (reply : op.Reply) :
    (pollRecord self count).next claims op reply = claims := by
  cases op with
  | redis c => cases c <;> first | exact hop.elim | (cases claims <;> rfl)
  | spawnTask owner job queueName => exact hop.elim
  | _ => cases claims <;> rfl

theorem next_givesBack (hl : Loaded claims) {op : Op} (hop : GivesBack op) (reply : op.Reply) :
    (pollRecord self count).next claims op reply = claims := by
  rcases hop with hquiet | ⟨id, rfl⟩
  · exact next_quiet hquiet reply
  · cases claims with
    | nil => rfl
    | cons claim claims =>
        cases reply with
        | error error => rfl
        | ok map => exact if_neg (Nat.not_lt.mpr (hl claim rfl))

def PollClaim.of (count : Nat) (claims : List PollClaim) (args : Scripts.ClaimArgs)
    (ids : List JobId) : PollClaim where
  queue := args.queueKey
  requested := args.maxClaims
  wanted := count - dispatchedBy claims
  ids

theorem next_claim (args : Scripts.ClaimArgs) (ids : List JobId) :
    (pollRecord self count).next claims (.redis (.atomicClaimReadyJobs args)) (.ok ids) =
      PollClaim.of count claims args ids :: claims := by
  cases claims <;> rfl

theorem conforms_quiet_call {op : Op} {next : op.Reply → Proc α} (hop : Quiet op)
    (h : ∀ reply, (pollRecord self count).possible claims op reply →
      (pollRecord self count).Conforms post (next reply) claims) :
    (pollRecord self count).Conforms post (perform op >>= next) claims := by
  refine conforms_call trivial fun reply hreply => ?_
  rw [next_quiet hop]
  exact h reply hreply

theorem conforms_givesBack (hl : Loaded claims) {β : Type} {prog : Proc β} {rest : β → Proc α}
    (hp : prog.Issues GivesBack (fun _ _ => True))
    (hr : ∀ value, (pollRecord self count).Conforms post (rest value) claims) :
    (pollRecord self count).Conforms post (prog >>= rest) claims := by
  have hsame : (pollRecord self count).Conforms (fun _ last => last = claims) prog claims :=
    conforms_of_issues hp fun _ hop =>
      ⟨trivial, fun reply _ => ⟨trivial, next_givesBack hl hop reply⟩⟩
  refine conforms_bind hsame fun value last hlast => ?_
  rw [hlast]
  exact hr value

theorem givesBack_releases (self : RRQWorker) :
    ReleaseCode self GivesBack (fun _ _ => True) where
  commands c hc := by
    cases c <;> first | exact hc.elim | exact .inl trivial | exact .inr ⟨_, rfl⟩
  clock := .inl trivial
  force _ _ := .inl trivial

-- Of what follows a failure nothing is said.
theorem conforms_failed {β : Type} {prog : Proc β} {rest : β → Proc α}
    (hr : ∀ value last, (pollRecord self count).Conforms post (rest value) last) :
    (pollRecord self count).Conforms post (prog >>= rest) claims := by
  induction prog generalizing claims with
  | ret value => exact hr value claims
  | call op next ih => exact ⟨trivial, fun reply _ => ih reply⟩

end Quiet

-- What dispatching a batch makes of the claim it came from.
structure Batched (count : Nat) (batch : List (JobId × Option Job)) (fetched : Nat)
    (claim : PollClaim) (claims : List PollClaim) (answer : Except PollError (Nat × Bool))
    (last : List PollClaim) : Prop where
  ok : ∀ total goes, answer = .ok (total, goes) → ∃ more refused, total = fetched + more ∧
    total ≤ count ∧ (goes = false → total = count) ∧ last = claim.noted more refused :: claims ∧
      (total < count →
        more = batch.length ∨ ∃ entry ∈ batch, PollClaim.Undispatchable refused entry)

section Batch

variable {self : RRQWorker} {count fetched : Nat} {batch : List (JobId × Option Job)}
  {claim : PollClaim} {claims last : List PollClaim} {answer : Except PollError (Nat × Bool)}

theorem batched_error (error : PollError) :
    Batched count batch fetched claim claims (.error error) last := ⟨fun _ _ h => by cases h⟩

theorem batched_full (hle : fetched ≤ count) (hfull : count ≤ fetched) :
    Batched count batch fetched claim claims (.ok (fetched, false)) (claim :: claims) := by
  refine ⟨fun total goes heq => ?_⟩
  cases heq
  exact ⟨0, [], rfl, hle, fun _ => le_antisymm hle hfull, by rw [claim.noted_none], by omega⟩

theorem Batched.missing (h : Batched count batch fetched claim claims answer last) (id : JobId) :
    Batched count ((id, none) :: batch) fetched claim claims answer last := by
  refine ⟨fun total goes heq => ?_⟩
  obtain ⟨more, refused, htotal, hle, hgoes, hlast, -⟩ := h.ok total goes heq
  exact ⟨more, refused, htotal, hle, hgoes, hlast,
    fun _ => .inr ⟨(id, none), List.mem_cons_self, .inl rfl⟩⟩

theorem Batched.refused {job : Job}
    (h : Batched count batch fetched (claim.noted 0 [job.id]) claims answer last) (id : JobId) :
    Batched count ((id, some job) :: batch) fetched claim claims answer last := by
  refine ⟨fun total goes heq => ?_⟩
  obtain ⟨more, refused, htotal, hle, hgoes, hlast, -⟩ := h.ok total goes heq
  rw [claim.noted_noted, Nat.zero_add] at hlast
  exact ⟨more, [job.id] ++ refused, htotal, hle, hgoes, hlast,
    fun _ => .inr ⟨(id, some job), List.mem_cons_self, .inr ⟨job, rfl, List.mem_cons_self⟩⟩⟩

theorem Batched.dispatched
    (h : Batched count batch (fetched + 1) (claim.noted 1 []) claims answer last)
    (entry : JobId × Option Job) :
    Batched count (entry :: batch) fetched claim claims answer last := by
  refine ⟨fun total goes heq => ?_⟩
  obtain ⟨more, refused, htotal, hle, hgoes, hlast, hleft⟩ := h.ok total goes heq
  rw [claim.noted_noted, List.nil_append] at hlast
  refine ⟨1 + more, refused, by omega, hle, hgoes, hlast, fun hless => ?_⟩
  rcases hleft hless with hall | ⟨other, hother, hnot⟩
  · exact .inl (by rw [hall, List.length_cons, Nat.add_comm])
  · exact .inr ⟨other, List.mem_cons_of_mem _ hother, hnot⟩

theorem dispatchBatch_batched (queueName : QueueKey) (claimStartTime : DateTime)
    (batch : List (JobId × Option Job)) (fetched : Nat) (claim : PollClaim)
    (hloaded : claim.ids.length ≤ claim.loaded.length) (hle : fetched ≤ count) :
    (pollRecord self count).Conforms (Batched count batch fetched claim claims)
      (self.dispatchBatch queueName count claimStartTime batch fetched) (claim :: claims) := by
  have hreleases := givesBack_releases self
  induction batch generalizing fetched claim with
  | nil =>
      refine conforms_ret ⟨fun total goes heq => ?_⟩
      cases heq
      exact ⟨0, [], rfl, hle, nofun, by rw [claim.noted_none], fun _ => .inl rfl⟩
  | cons entry batch ih =>
      obtain ⟨id, jobOpt⟩ := entry
      have hl : Loaded (claim :: claims) := by
        rintro _ ⟨⟩
        exact hloaded
      have hfail : ∀ (error : PollError) (message : Option String),
          (pollRecord self count).Conforms
            (Batched count ((id, jobOpt) :: batch) fetched claim claims)
            (self.releaseClaimedJobsFromIndex queueName message ((id, jobOpt) :: batch)
              >>= fun _ => pure (.error error : Except PollError (Nat × Bool))) (claim :: claims) :=
        fun error message => conforms_failed fun _ _ => conforms_ret (batched_error error)
      refine conforms_quiet_call trivial fun shutdown hshutdown => ?_
      have hrunning : shutdown = false := hshutdown
      by_cases hfull : count ≤ fetched
      · rw [if_pos (.inl hfull)]
        exact conforms_givesBack hl (releaseRemainingClaimedJobs_issues hreleases queueName _ _)
          fun _ => conforms_ret (batched_full hle hfull)
      rw [if_neg (by simp [hfull, hrunning])]
      cases jobOpt with
      | none =>
          refine conforms_givesBack hl
            (quarantineClaimedJobWithoutDefinition_issues hreleases queueName id _) fun _ => ?_
          exact (ih fetched claim hloaded hle).mono fun _ _ h => h.missing id
      | some job =>
      cases htimeout : RRQWorker.jobLockTimeoutMs self.settings job with
      | none =>
          simp only [htimeout]
          exact hfail _ _
      | some lockTimeoutMs =>
      simp only [htimeout]
      split_ifs
      · exact hfail _ _
      refine conforms_call trivial fun reply _ => ?_
      match reply with
      | .error error => exact conforms_failed fun _ _ => conforms_ret (batched_error _)
      | .ok false =>
          have hlost : Loaded (claim.noted 0 [job.id] :: claims) := by
            rintro _ ⟨⟩
            exact hloaded
          exact conforms_givesBack hlost (releaseClaimedJob_issues hreleases queueName _ job _)
            fun _ => (ih fetched (claim.noted 0 [job.id]) hloaded hle).mono
              fun _ _ h => h.refused id
      | .ok true =>
          change (pollRecord self count).Conforms _ (perform (.acquirePermit self.workerId) >>= _)
            (claim :: claims)
          refine conforms_quiet_call trivial fun permit _ => ?_
          split_ifs
          · refine conforms_quiet_call trivial fun _ _ => ?_
            refine conforms_call trivial fun task _ => conforms_quiet_call trivial fun _ _ => ?_
            exact (ih (fetched + 1) (claim.noted 1 []) hloaded (not_le.mp hfull)).mono
              fun _ _ h => h.dispatched (id, some job)
          · exact hfail _ _

end Batch

-- What one claim of a poll comes to.
structure Claiming (queue : QueueKey) (count requested : Nat) (claims : List PollClaim)
    (answer : Except PollError (Nat × Bool)) (last : List PollClaim) : Prop where
  ok : ∀ total goes, answer = .ok (total, goes) → ∃ claim, last = claim :: claims ∧
    claim.queue = queue ∧ claim.requested = requested ∧ total = dispatchedBy last ∧
    total ≤ count ∧ (goes = false → total = count) ∧ (total < count → claim.Exhausted)

section Queue

variable {self : RRQWorker} {count : Nat} {claims : List PollClaim}

theorem atomicClaimReadyJobs_claims {args : Scripts.ClaimArgs} (hmax : args.maxClaims ≠ 0) :
    (pollRecord self count).Conforms
      (fun answer last => ∀ ids, answer = .ok ids → last = PollClaim.of count claims args ids :: claims)
      (JobStore.atomicClaimReadyJobs args) claims := by
  unfold JobStore.atomicClaimReadyJobs
  rw [if_neg hmax]
  split_ifs
  · exact conforms_ret fun _ h => by cases h
  · exact conforms_ret fun _ h => by cases h
  refine conforms_call trivial fun reply _ => ?_
  cases reply with
  | error error => exact conforms_ret fun _ h => by cases h
  | ok found =>
      refine conforms_ret fun ids h => ?_
      cases h
      exact next_claim args found

-- The definitions of the claimed jobs, one after the other.
theorem getJobDefinitions_loads (ids : List JobId) (claim : PollClaim)
    (hroom : claim.loaded.length + ids.length ≤ claim.ids.length) :
    (pollRecord self count).Conforms
      (fun answer last => ∀ batch, answer = .ok batch →
        batch.map Prod.fst = ids ∧ last = claim.load batch :: claims)
      (JobStore.getJobDefinitions self.settings.defaultMaxRetries ids) (claim :: claims) := by
  induction ids generalizing claim with
  | nil =>
      refine conforms_ret fun batch h => ?_
      cases h
      exact ⟨rfl, by rw [claim.load_nil]⟩
  | cons id ids ih =>
      rw [List.length_cons] at hroom
      refine conforms_call trivial fun reply _ => ?_
      match reply with
      | .error error => exact conforms_ret fun _ h => by cases h
      | .ok map =>
          let entry : JobId × Option Job := (id, map.bind fun raw =>
            (parseJobMap raw id self.settings.defaultMaxRetries).toOption)
          have hnext : (pollRecord self count).next (claim :: claims) (.redis (.getJobDataMap id))
              (.ok map) = claim.load [entry] :: claims := if_pos (by omega)
          have hrest : (claim.load [entry]).loaded.length + ids.length ≤
              (claim.load [entry]).ids.length := by
            simp only [PollClaim.load, List.length_append, List.length_singleton]
            omega
          rw [hnext]
          refine conforms_bind (ih (claim.load [entry]) hrest) fun answer last hlast => ?_
          match answer with
          | .error error => exact conforms_ret fun _ h => by cases h
          | .ok jobs =>
              refine conforms_ret fun batch h => ?_
              cases h
              obtain ⟨hids, rfl⟩ := hlast jobs rfl
              exact ⟨congrArg (List.cons id) hids, by rw [claim.load_load, List.singleton_append]⟩

-- A batch that is dispatched whole and leaves something to be wanted was a small one.
theorem Batched.claiming {args : Scripts.ClaimArgs} {ids : List JobId}
    {batch : List (JobId × Option Job)} (hids : batch.map Prod.fst = ids)
    {answer : Except PollError (Nat × Bool)} {last : List PollClaim}
    (h : Batched count batch (dispatchedBy claims) ((PollClaim.of count claims args ids).load batch)
      claims answer last) : Claiming args.queueKey count args.maxClaims claims answer last := by
  refine ⟨fun total goes heq => ?_⟩
  obtain ⟨more, refused, htotal, htop, hgoes, rfl, hleft⟩ := h.ok total goes heq
  refine ⟨_, rfl, rfl, rfl, ?_, htop, hgoes, fun hless => ?_⟩
  · simp only [dispatchedBy, PollClaim.of, PollClaim.load, PollClaim.noted, List.map_cons,
      List.sum_cons] at htotal ⊢
    omega
  · rcases hleft hless with hall | ⟨entry, hentry, hnot⟩
    · left
      have hlength : ids.length = batch.length := by rw [← hids, List.length_map]
      show ids.length < count - dispatchedBy claims
      omega
    · right
      have hid : entry.1 ∈ ids := hids ▸ List.mem_map_of_mem hentry
      exact ⟨entry, hentry, hid, hnot⟩

theorem pollQueue_claiming {queueName : QueueKey} (hqueue : normalizeQueueName queueName = queueName)
    {requestCount fetched : Nat} (hrequest : requestCount ≠ 0)
    (hfetched : fetched = dispatchedBy claims) (hless : fetched < count) :
    (pollRecord self count).Conforms (Claiming queueName count requestCount claims)
      (self.pollQueue queueName count requestCount fetched) claims := by
  subst hfetched
  refine conforms_quiet_call trivial fun claimStartTime _ => ?_
  refine conforms_quiet_call trivial fun now _ => ?_
  refine conforms_bind (atomicClaimReadyJobs_claims hrequest) fun answer last hlast => ?_
  match answer with
  | .error error => exact conforms_ret ⟨fun _ _ h => by cases h⟩
  | .ok [] =>
      obtain rfl := hlast [] rfl
      refine conforms_ret ⟨fun total goes heq => ?_⟩
      cases heq
      refine ⟨_, rfl, hqueue, rfl, ?_, hless.le, nofun, fun _ => .inl ?_⟩
      · simp [dispatchedBy, PollClaim.of]
      · exact Nat.sub_pos_of_lt hless
  | .ok (id :: ids) =>
      obtain rfl := hlast (id :: ids) rfl
      refine conforms_bind (getJobDefinitions_loads (id :: ids) _ (Nat.zero_add _).le)
        fun loaded last hloads => ?_
      match loaded with
      | .error error => exact conforms_failed fun _ _ => conforms_ret ⟨fun _ _ h => by cases h⟩
      | .ok batch =>
          obtain ⟨hids, rfl⟩ := hloads batch rfl
          have hloaded : (id :: ids).length ≤ batch.length := by rw [← hids, List.length_map]
          refine (dispatchBatch_batched queueName claimStartTime batch (dispatchedBy claims) _
            hloaded hless.le).mono fun _ _ h => ?_
          have hclaiming := h.claiming hids
          dsimp only at hclaiming
          rwa [hqueue] at hclaiming

end Queue

-- What the rest of a poll comes to, from the slots that are left.
structure Polling (slots : List (Nat × QueueKey)) (count : Nat) (claims : List PollClaim)
    (answer : Except PollError Nat) (last : List PollClaim) : Prop where
  ok : ∀ total, answer = .ok total → ∃ made, last = made ++ claims ∧ total = dispatchedBy last ∧
    dispatchedBy claims ≤ total ∧ total ≤ count ∧
    (total < count → (∀ claim ∈ made, claim.Exhausted) ∧
      ∀ slot ∈ slots, ∃ claim ∈ made, claim.queue = slot.2) ∧
    (dispatchedBy claims < count → ∀ slot rest, slots = slot :: rest →
      ∃ claim, made.getLast? = some claim ∧ claim.queue = slot.2 ∧ 1 ≤ claim.requested)

section Slots

variable {self : RRQWorker} {count fairShare : Nat}

theorem dispatchedBy_le (made claims : List PollClaim) :
    dispatchedBy claims ≤ dispatchedBy (made ++ claims) := by
  simp [dispatchedBy]

theorem polling_full {slots : List (Nat × QueueKey)} {claims : List PollClaim} {fetched : Nat}
    (hfetched : fetched = dispatchedBy claims) (hfull : fetched = count) :
    Polling slots count claims (.ok fetched) claims := by
  refine ⟨fun total heq => ?_⟩
  cases heq
  refine ⟨[], rfl, hfetched, hfetched.ge, hfull.le, fun hless => ?_, fun hless => ?_⟩
  · omega
  · omega

-- A claim, and then the slots after it.
theorem Polling.cons {slot : Nat × QueueKey} {slots : List (Nat × QueueKey)}
    {claims last : List PollClaim} {claim : PollClaim} {answer : Except PollError Nat}
    (hqueue : claim.queue = slot.2) (hrequested : 1 ≤ claim.requested)
    (hexhausted : dispatchedBy (claim :: claims) < count → claim.Exhausted)
    (h : Polling slots count (claim :: claims) answer last) :
    Polling (slot :: slots) count claims answer last := by
  refine ⟨fun total heq => ?_⟩
  obtain ⟨made, rfl, htotal, hmore, hle, hleft, -⟩ := h.ok total heq
  have hclaims : dispatchedBy claims ≤ dispatchedBy (claim :: claims) :=
    dispatchedBy_le [claim] claims
  refine ⟨made ++ [claim], by simp, htotal, hclaims.trans hmore, hle, fun hless => ?_,
    fun _ first rest hfirst => ?_⟩
  · obtain ⟨hall, hslots⟩ := hleft hless
    constructor
    · intro other hother
      rcases List.mem_append.mp hother with hmade | hnew
      · exact hall other hmade
      · obtain rfl := List.mem_singleton.mp hnew
        exact hexhausted (hmore.trans_lt hless)
    · intro other hother
      rcases List.mem_cons.mp hother with rfl | hrest
      · exact ⟨claim, List.mem_append_right _ (List.mem_singleton.mpr rfl), hqueue⟩
      · obtain ⟨found, hfound, hsame⟩ := hslots other hrest
        exact ⟨found, List.mem_append_left _ hfound, hsame⟩
  · cases hfirst
    exact ⟨claim, by simp, hqueue, hrequested⟩

theorem pollSlots_polling (hshare : 1 ≤ fairShare) (slots : List (Nat × QueueKey))
    (hslots : ∀ slot ∈ slots, normalizeQueueName slot.2 = slot.2) (fetched : Nat)
    (claims : List PollClaim) (hfetched : fetched = dispatchedBy claims) (hle : fetched ≤ count) :
    (pollRecord self count).Conforms (Polling slots count claims)
      (self.pollSlots count fairShare slots fetched) claims := by
  induction slots generalizing fetched claims with
  | nil =>
      refine conforms_ret ⟨fun total heq => ?_⟩
      cases heq
      exact ⟨[], rfl, hfetched, hfetched.ge, hle, fun _ => ⟨nofun, nofun⟩, nofun⟩
  | cons slot slots ih =>
      obtain ⟨pass, queueName⟩ := slot
      refine conforms_quiet_call trivial fun shutdown hshutdown => ?_
      have hrunning : shutdown = false := hshutdown
      by_cases hfull : count ≤ fetched
      · rw [if_pos (.inl hfull)]
        exact conforms_ret (polling_full hfetched (le_antisymm hle hfull))
      rw [if_neg (by simp [hfull, hrunning])]
      dsimp only
      have hless : fetched < count := not_le.mp hfull
      generalize hrequest : (if pass = 0 then min (count - fetched) fairShare else
        count - fetched) = requestCount
      have hpos : 1 ≤ requestCount := by
        subst hrequest
        split_ifs <;> omega
      rw [if_neg (by omega)]
      refine conforms_bind (pollQueue_claiming (hslots _ List.mem_cons_self) (by omega) hfetched
        hless) fun answer last hclaiming => ?_
      match answer with
      | .error error => exact conforms_ret ⟨fun _ h => by cases h⟩
      | .ok (total, goes) =>
          obtain ⟨claim, rfl, hqueue, hrequested, htotal, htop, hgoes, hexhausted⟩ :=
            hclaiming.ok total goes rfl
          rw [htotal] at hexhausted
          have hcons : ∀ answer last, Polling slots count (claim :: claims) answer last →
              Polling ((pass, queueName) :: slots) count claims answer last :=
            fun _ _ h => h.cons hqueue (hrequested ▸ hpos) hexhausted
          cases goes with
          | true =>
              exact (ih (fun other hother => hslots other (List.mem_cons_of_mem _ hother)) total _
                htotal htop).mono hcons
          | false => exact conforms_ret (hcons _ _ (polling_full htotal (hgoes rfl)))

end Slots

-- The first claim of a poll is made of the queue, for one job at least.
def AsksFirst (claims : List PollClaim) (queue : QueueKey) : Prop :=
  ∃ claim, claims.getLast? = some claim ∧ claim.queue = queue ∧ 1 ≤ claim.requested

section Poll

variable {self : RRQWorker} {cursor count fetched : Nat} {claims : List PollClaim}

theorem queues_pos (self : RRQWorker) : 0 < self.queues.length :=
  List.length_pos_iff.mpr self.queues_ne

theorem head_queueOrder (self : RRQWorker) (cursor : Nat) :
    (self.queueOrder cursor).head? = self.queues[cursor % self.queues.length]? :=
  List.head?_rotate (Nat.mod_lt _ self.queues_pos)

-- The slots of a poll, in order.
def pollOrder (self : RRQWorker) (cursor : Nat) : List (Nat × QueueKey) :=
  (self.queueOrder cursor).map (fun queueName => (0, queueName)) ++
    (self.queueOrder cursor).map fun queueName => (1, queueName)

theorem Polled.polling (h : self.Polled cursor count fetched claims) :
    Polling (self.pollOrder cursor) count [] (.ok fetched) claims := by
  refine Conforms.of_runs (pollSlots_polling (le_max_right _ 1) _ ?_ 0 [] rfl (Nat.zero_le _)) h
  intro slot hslot
  refine self.queues_normal _ ?_
  rcases List.mem_append.mp hslot with hfirst | hsecond
  · obtain ⟨queue, hqueue, rfl⟩ := List.mem_map.mp hfirst
    exact List.mem_rotate.mp hqueue
  · obtain ⟨queue, hqueue, rfl⟩ := List.mem_map.mp hsecond
    exact List.mem_rotate.mp hqueue

theorem Polled.asksFirst (h : self.Polled cursor count fetched claims) (hcount : 1 ≤ count)
    {queue : QueueKey} (hqueue : self.queues[cursor % self.queues.length]? = some queue) :
    AsksFirst claims queue := by
  obtain ⟨made, rfl, -, -, -, -, hfirst⟩ := h.polling.ok fetched rfl
  obtain ⟨rest, hrest⟩ := List.head?_eq_some_iff.mp ((head_queueOrder self cursor).trans hqueue)
  obtain ⟨claim, hlast, hsame, hrequested⟩ := hfirst hcount (0, queue) _ (by
    rw [pollOrder, hrest, List.map_cons, List.cons_append])
  exact ⟨claim, by rwa [List.append_nil], hsame, hrequested⟩

theorem Polled.conserving (h : self.Polled cursor count fetched claims) :
    Conserving self count fetched claims := by
  obtain ⟨made, rfl, htotal, -, hle, hleft, -⟩ := h.polling.ok fetched rfl
  refine ⟨htotal, hle, fun hless queue hqueue => ?_⟩
  obtain ⟨hall, hslots⟩ := hleft hless
  have hslot : (1, queue) ∈ self.pollOrder cursor :=
    List.mem_append_right _ (List.mem_map_of_mem (List.mem_rotate.mpr hqueue))
  obtain ⟨claim, hclaim, hsame⟩ := hslots (1, queue) hslot
  rw [List.append_nil]
  cases hfind : made.find? (·.queue = queue) with
  | none =>
      have hnot := List.find?_eq_none.mp hfind claim hclaim
      exact absurd (decide_eq_true hsame) hnot
  | some found => exact ⟨found, rfl, hall found (List.mem_of_find?_eq_some hfind)⟩

theorem cursorAfter_mod (self : RRQWorker) (start polls : Nat) :
    self.cursorAfter start polls % self.queues.length = (start + polls) % self.queues.length := by
  induction polls with
  | zero => rfl
  | succ polls ih =>
      rw [cursorAfter, Function.iterate_succ_apply', ← cursorAfter, nextCursor, Nat.mod_mod, ih,
        Nat.mod_add_mod, Nat.add_assoc]

-- In a full turn every position is the first one once.
theorem existsUnique_turn {size : Nat} (start : Nat) {position : Nat} (h : position < size) :
    ∃! turn, turn < size ∧ (start + turn) % size = position := by
  have hsize : 0 < size := Nat.zero_lt_of_lt h
  have hstart : start % size < size := Nat.mod_lt _ hsize
  have hturn (turn : Nat) (hless : turn < size) : (start + turn) % size =
      if start % size + turn < size then start % size + turn else start % size + turn - size := by
    rw [← Nat.mod_add_mod]
    split_ifs with hinside
    · exact Nat.mod_eq_of_lt hinside
    · rw [Nat.mod_eq_sub_mod (not_lt.mp hinside), Nat.mod_eq_of_lt (by omega)]
  refine ⟨if start % size ≤ position then position - start % size else
    position + size - start % size, ⟨?_, ?_⟩, ?_⟩
  · split_ifs <;> omega
  · rw [hturn _ (by split_ifs <;> omega)]
    split_ifs <;> omega
  · rintro turn ⟨hless, heq⟩
    rw [hturn turn hless] at heq
    split_ifs at heq ⊢ <;> omega

theorem AsksFirst.unique {queue other : QueueKey} (h : AsksFirst claims queue)
    (ho : AsksFirst claims other) : queue = other := by
  obtain ⟨claim, hlast, hqueue, -⟩ := h
  obtain ⟨_, hother, hsame, -⟩ := ho
  cases hlast.symm.trans hother
  exact hqueue.symm.trans hsame

theorem nodup_of_new {settings : RRQSettings} {queues : Option (List String)}
    {workerId : WorkerId} {runners : List String} {burst : Bool} {concurrency : Nat}
    (h : RRQWorker.new settings queues workerId runners burst concurrency = .ok self) :
    self.queues.Nodup := by
  rw [(new_ok h).2.1]
  exact List.nodup_dedup _

end Poll

-- Of as many polls in a row as there are queues, each queue is asked first by one. A queue that
-- answers with a job whenever it is asked is served by one of them. No poll fetches more than it
-- was asked for, or less while a queue may have more to give.
theorem pollForJobs_fair (settings : RRQSettings) (queues : Option (List String))
    (workerId : WorkerId) (runners : List String) (burst : Bool) (concurrency : Nat)
    (self : RRQWorker)
    (hnew : RRQWorker.new settings queues workerId runners burst concurrency = .ok self)
    (start : Nat) (counts fetched : Nat → Nat) (claims : Nat → List PollClaim)
    (hcounts : ∀ call < self.queues.length, 1 ≤ counts call)
    (hpolled : ∀ call < self.queues.length,
      self.Polled (self.cursorAfter start call) (counts call) (fetched call) (claims call)) :
    (∀ queue ∈ self.queues, ∃! call, call < self.queues.length ∧ AsksFirst (claims call) queue) ∧
    (∀ queue ∈ self.queues, (∀ call < self.queues.length, ∀ claim ∈ claims call,
      claim.queue = queue → 1 ≤ claim.returned) →
        ∃ call < self.queues.length, ∃ claim ∈ claims call,
          claim.queue = queue ∧ 1 ≤ claim.returned) ∧
    ∀ call < self.queues.length, Conserving self (counts call) (fetched call) (claims call) := by
  have hfirst (call : Nat) (hcall : call < self.queues.length) :
      AsksFirst (claims call)
        (self.queues.get ⟨(start + call) % self.queues.length, Nat.mod_lt _ self.queues_pos⟩) := by
    refine (hpolled call hcall).asksFirst (hcounts call hcall) ?_
    rw [cursorAfter_mod]
    exact List.getElem?_eq_getElem _
  have hturns (queue : QueueKey) (hqueue : queue ∈ self.queues) :
      ∃! call, call < self.queues.length ∧ AsksFirst (claims call) queue := by
    obtain ⟨position, hposition, hat⟩ := List.getElem_of_mem hqueue
    obtain ⟨turn, ⟨hturn, heq⟩, hunique⟩ := existsUnique_turn start hposition
    refine ⟨turn, ⟨hturn, ?_⟩, ?_⟩
    · have hasks := hfirst turn hturn
      simp only [heq] at hasks
      rwa [← hat]
    · rintro call ⟨hcall, hasks⟩
      refine hunique call ⟨hcall, ?_⟩
      have hsame := hasks.unique (hfirst call hcall)
      rw [← hat] at hsame
      exact ((nodup_of_new hnew).getElem_inj_iff.mp hsame).symm
  refine ⟨hturns, fun queue hqueue hgives => ?_, fun call hcall => (hpolled call hcall).conserving⟩
  obtain ⟨call, ⟨hcall, claim, hlast, hsame, -⟩, -⟩ := hturns queue hqueue
  have hmem : claim ∈ claims call := List.mem_of_getLast? hlast
  exact ⟨call, hcall, claim, hmem, hsame, hgives call hcall claim hmem hsame⟩

-- Two polls of a worker with two queues. The first takes a job from each, the second the job that
-- is left.
section Turns

def turnWorker : RRQWorker :=
  (RRQWorker.new {} (some ["a", "b"]) "w" ["python"] false 2).toOption.getD (.ofDefaults "w")

def readyHash (id : JobId) : JobHash where
  id := some id
  status := some JobStatus.Pending.asStr
  enqueueTime := some (.val ⟨0⟩)

def readyStore : Store :=
  ((((((Store.empty.hset "i" fun _ => readyHash "i").hset "j" fun _ => readyHash "j").hset "k"
    fun _ => readyHash "k").zadd "rrq:queue:a" "i" 0).zadd "rrq:queue:a" "j" 0).zadd "rrq:queue:b"
      "k" 0)

-- Every shutdown flag that is read says that the worker goes on.
def goesOn : (op : Op) → op.Reply → Bool
  | .shutdownRequested _, shutdown => !shutdown
  | _, _ => true

theorem possible_of_goesOn {self : RRQWorker} {count : Nat} (claims : List PollClaim) (op : Op)
    (reply : op.Reply) (h : goesOn op reply = true) :
    (pollRecord self count).possible claims op reply := by
  cases op with
  | shutdownRequested worker =>
      show reply = false
      simpa [goesOn] using h
  | _ => trivial

def turnProgram (turn : Nat) : Proc (Except PollError Nat) :=
  turnWorker.pollForJobs (turnWorker.cursorAfter 0 turn) 2

def turnWorld : Nat → World
  | 0 => .ofStore readyStore
  | turn + 1 => (Prog.run (World.exec 0 (.main "w")) (fun _ _ => {}) (turnProgram turn) 0
      (turnWorld turn)).2.2

def turnClaims (turn : Nat) : Option (List PollClaim) :=
  (pollRecord turnWorker 2).follow (World.exec 0 (.main "w")) goesOn (fun _ _ => {})
    (turnProgram turn) 0 (turnWorld turn) []

def turnFetched (turn : Nat) : Nat := if turn = 0 then 2 else 1

theorem polled_turn {turn : Nat} (hturn : turn < 2) :
    turnWorker.Polled (turnWorker.cursorAfter 0 turn) 2 (turnFetched turn)
      ((turnClaims turn).getD []) := by
  have hsome : (turnClaims turn).isSome ∧ (Prog.run (World.exec 0 (.main "w")) (fun _ _ => {})
      (turnProgram turn) 0 (turnWorld turn)).1 = .ok (turnFetched turn) := by
    obtain rfl | rfl : turn = 0 ∨ turn = 1 := by omega
    · exact ⟨by decide +kernel, by decide +kernel⟩
    · exact ⟨by decide +kernel, by decide +kernel⟩
  obtain ⟨claims, hclaims⟩ := Option.isSome_iff_exists.mp hsome.1
  have hruns := runs_of_follow possible_of_goesOn hclaims
  rw [hsome.2] at hruns
  rw [hclaims]
  exact hruns

theorem pollForJobs_fair_turns :
    (turnClaims 0).map (List.map fun claim => (claim.queue, claim.ids, claim.dispatched)) =
        some [("rrq:queue:b", ["k"], 1), ("rrq:queue:a", ["i"], 1)] ∧
      (turnClaims 1).map (List.map fun claim => (claim.queue, claim.ids, claim.dispatched)) =
        some [("rrq:queue:a", [], 0), ("rrq:queue:b", [], 0), ("rrq:queue:a", ["j"], 1),
          ("rrq:queue:b", [], 0)] ∧
      (∀ queue ∈ turnWorker.queues, ∃! turn, turn < turnWorker.queues.length ∧
        AsksFirst ((turnClaims turn).getD []) queue) ∧
      ∀ turn < turnWorker.queues.length,
        Conserving turnWorker 2 (turnFetched turn) ((turnClaims turn).getD []) := by
  have hnew : RRQWorker.new {} (some ["a", "b"]) "w" ["python"] false 2 = .ok turnWorker := by
    have hok : (RRQWorker.new {} (some ["a", "b"]) "w" ["python"] false 2).toBool = true := by
      decide +kernel
    obtain ⟨worker, hworker⟩ := exists_ok hok
    rw [turnWorker, hworker]
    rfl
  have hlength : turnWorker.queues.length = 2 := by decide +kernel
  obtain ⟨hfirst, -, hconserving⟩ := pollForJobs_fair {} (some ["a", "b"]) "w" ["python"] false 2
    turnWorker hnew 0 (fun _ => 2) turnFetched (fun turn => (turnClaims turn).getD [])
    (fun _ _ => by decide) fun turn hturn => polled_turn (hlength ▸ hturn)
  exact ⟨by decide +kernel, by decide +kernel, hfirst, hconserving⟩

end Turns

end RRQWorker

end Rrq
