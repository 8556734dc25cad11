import Rrq.Dlq.Theorems
import Rrq.Store.Ghosts
import Rrq.Store.Lasting

-- What becomes of the hashes of jobs while dead letters are put back among workers.

namespace Rrq.JobStore

-- HSET of a map of fields. An empty map sends nothing.
def updateJobFields (id : JobId) (fields : Option (JobHash → JobHash)) (s : Store) : Store :=
  match fields with
  | none => s
  | some update => s.hset id update

end Rrq.JobStore

namespace Rrq.Dlq

open Machine Store

-- The steps of a run, as far as they concern the store.

theorem step_store {pool after : System} {label : Label Chance Pid EnvEvent}
    (h : system.step pool label = some after) :
    (∃ pid chance role op next, label = .run pid chance ∧
        pool.procs pid = some (role, .call op next) ∧
        after.state.store = (State.exec pid op chance pool.state).2.store) ∨
      ∃ event state, label = .env event ∧ event.move pool.state = some state ∧
        after.state.store = state.store := by
  cases label with
  | run pid chance =>
      simp only [Machine.step] at h
      split at h
      case h_2 => cases h
      case h_1 role op next hp =>
        obtain ⟨procs, -, rfl⟩ := Option.map_eq_some_iff.mp h
        exact .inl ⟨pid, chance, role, op, next, rfl, hp, rfl⟩
  | env event =>
      obtain ⟨state, hmove, h⟩ := Option.bind_eq_some_iff.mp h
      obtain ⟨procs, -, rfl⟩ := Option.map_eq_some_iff.mp h
      exact .inr ⟨event, state, rfl, hmove, rfl⟩

-- Jobs that are queued or running, and their expiry.

-- No step gives a live status to a job whose hash carries an expiry.
def unrevived : Assume Op Chance State Pid Unit EnvEvent where
  run
    | _, _, .updateJobFields id status _, chance, st =>
        chance.fault = .none → status.Live → st.store.Undying id
    | _, _, _, _, _ => True
  env
    | .worker command _ _, st, _ => ¬ command.Revives st.store
    | .client command _ _, st, _ => ¬ command.Revives st.store
    | _, _, _ => True

theorem lasts_op {op : Op} {chance : Chance} {st : State} (hs : st.store.LiveLasts)
    (h : ∀ id status queue, op = .updateJobFields id status queue → chance.fault = .none →
      status.Live → st.store.Undying id) (pid : Pid) :
    (State.exec pid op chance st).2.store.LiveLasts := by
  cases op with
  | utcNow => exact hs
  | getDlqJobIds key =>
      simp only [State.exec]
      split <;> exact hs
  | getJobDataMap id =>
      simp only [State.exec]
      split <;> exact hs
  | dlqRemoveJob key id =>
      simp only [State.exec]
      split
      · split
        · exact hs.of_jobs rfl
        · exact hs
      · exact hs
  | addJobToQueue queue id score =>
      simp only [State.exec]
      split
      · exact hs.of_jobs rfl
      · exact hs
  | updateJobFields id status queue =>
      simp only [State.exec]
      split
      · rename_i hfault
        by_cases hl : status.Live
        · exact hs.hset_undying (h id status queue rfl hfault hl) _
        · exact hs.hset_final hl (by intro; rfl)
      · exact hs

theorem lasts_move {event : EnvEvent} {st after : State} (hs : st.store.LiveLasts)
    (h : unrevived.env event st after) (hm : event.move st = some after) :
    after.store.LiveLasts := by
  cases event with
  | call pid settings options =>
      obtain rfl := Option.some.inj hm
      exact hs
  | crash pid =>
      obtain rfl := Option.some.inj hm
      exact hs
  | advance now =>
      obtain ⟨-, hafter⟩ := Option.ite_none_right_eq_some.mp hm
      obtain rfl := Option.some.inj hafter
      exact hs.advance now
  | worker command fault page =>
      obtain rfl := Option.some.inj hm
      exact Cmd.lasts_exec hs h fault page
  | client command fault page =>
      obtain rfl := Option.some.inj hm
      exact Cmd.lasts_exec hs h fault page

-- In every run of that kind no job that is queued or running expires.
theorem liveLasts_reach {pool : System}
    (hr : Reach system unrevived (System.idle .empty) pool) : pool.state.store.LiveLasts := by
  induction hr with
  | start => exact fun id _ => undying_of_missing rfl
  | step label _ ha hs ih =>
      rcases step_store hs with ⟨pid, chance, role, op, next, rfl, hp, hstore⟩ |
        ⟨event, state, rfl, hmove, hstore⟩
      · rw [hstore]
        refine lasts_op ih ?_ pid
        rintro id status queue rfl
        exact ha role _ next hp
      · rw [hstore]
        exact lasts_move ih (ha state hmove) hmove

-- A job on its way through the store.

def enqueueJob : EnvEvent :=
  .client (.atomicEnqueueJob "j" "rrq:queue:default" {
    id := some "j"
    status := some JobStatus.Pending.asStr } 0)

def failJob : EnvEvent :=
  .worker (.atomicMoveJobToDlq "j" "rrq:dlq:default" "boom" ⟨0⟩ DEFAULT_DLQ_RESULT_TTL_SECONDS none)

-- The job fails, and is put back into its queue.
def requeueRun : List (Label Chance Pid EnvEvent) :=
  [.env enqueueJob, .env claimNext, .env failJob, .env (.call 0 {} everything)] ++ completeRun

-- The status of the job and the time at which its hash expires.
def lifeOf (pool : System) : Option (Option String × Option Int) :=
  (pool.state.store.jobs "j").map fun cell => (cell.value.status, cell.expireAt)

-- A test that admits no step that writes a status to a job that expires.

def lasting (s : Store) (id : JobId) : Bool := (s.jobs id).all fun cell => cell.expireAt.isNone

theorem undying_of_lasting {s : Store} {id : JobId} (h : lasting s id = true) : s.Undying id := by
  intro cell hcell
  simpa [lasting, hcell] using h

def sparing (s : Store) : Cmd → Bool
  | .atomicClaimReadyJobs args => (window args s).all (lasting s)
  | .markJobPending id _ | .updateJobStatus id _ | .atomicRetryJob id _ _ _ _ => lasting s id
  | _ => true

theorem not_revives_of_sparing {s : Store} {c : Cmd} (h : sparing s c = true) : ¬ c.Revives s := by
  cases c
  case atomicClaimReadyJobs args =>
    rintro ⟨id, hid, -, hdying⟩
    exact hdying (undying_of_lasting (List.all_eq_true.mp h id hid))
  case markJobPending id lastError => exact fun hdying => hdying (undying_of_lasting h)
  case updateJobStatus id status => exact fun hrevives => hrevives.2 (undying_of_lasting h)
  case atomicRetryJob id queue score message status =>
    exact fun hrevives => hrevives.2 (undying_of_lasting h)
  all_goals exact not_false

def sparingStep (pool : System) : Label Chance Pid EnvEvent → Bool
  | .run pid _ =>
      match pool.procs pid with
      | some (_, .call (.updateJobFields id _ _) _) => lasting pool.state.store id
      | _ => true
  | .env (.worker command _ _) | .env (.client command _ _) => sparing pool.state.store command
  | .env _ => true

theorem admitted_of_sparingStep (pool : System) (label : Label Chance Pid EnvEvent)
    (h : sparingStep pool label = true) : system.Admitted unrevived pool label := by
  cases label with
  | run pid chance =>
      intro role op next hp
      cases op with
      | updateJobFields id status queue =>
          intro _ _
          exact undying_of_lasting (by simpa [sparingStep, hp] using h)
      | _ => trivial
  | env event =>
      intro _ _
      cases event with
      | worker command fault page => exact not_revives_of_sparing h
      | client command fault page => exact not_revives_of_sparing h
      | _ => trivial

-- The job is claimed and is to be retried, and meanwhile another one fails for good.
def retryRun : List (Label Chance Pid EnvEvent) :=
  [.env enqueueJob, .env claimNext,
    .env (.worker (.atomicRetryJob "j" "rrq:queue:default" 5000 "boom" .Retrying)),
    .env (.client (.atomicEnqueueJob "k" "rrq:queue:default" {
      id := some "k"
      status := some JobStatus.Pending.asStr } 0)),
    .env claimNext,
    .env (.worker (.atomicMoveJobToDlq "k" "rrq:dlq:default" "boom" ⟨0⟩
      DEFAULT_DLQ_RESULT_TTL_SECONDS none))]

theorem liveLasts_reach_retried : ∃ pool, Reach system unrevived (System.idle .empty) pool ∧
    ("j" ∈ pool.state.store.active "w" ∧ "k" ∈ pool.state.store.active "w") ∧
    pool.state.store.status "j" = some JobStatus.Retrying.asStr ∧
    pool.state.store.Undying "j" ∧ ¬ pool.state.store.Undying "k" := by
  have htest : (system.stepsWhere sparingStep retryRun (System.idle .empty)).map (fun pool =>
      decide ("j" ∈ pool.state.store.active "w" ∧ "k" ∈ pool.state.store.active "w") &&
        decide (pool.state.store.status "j" = some JobStatus.Retrying.asStr) &&
          !lasting pool.state.store "k") = some true := by decide +kernel
  obtain ⟨pool, hreach, htest⟩ := exists_reach_where .start admitted_of_sparingStep htest
  simp only [Bool.and_eq_true, decide_eq_true_eq, Bool.not_eq_true'] at htest
  obtain ⟨⟨hclaimed, hstatus⟩, hdying⟩ := htest
  have hlive : pool.state.store.Live "j" := ⟨.Retrying, hstatus, by decide⟩
  refine ⟨pool, hreach, hclaimed, hstatus, liveLasts_reach hreach "j" hlive, fun hundying => ?_⟩
  have hlasting : lasting pool.state.store "k" = true := by
    cases hcell : pool.state.store.jobs "k" with
    | none => simp [lasting, hcell]
    | some cell => simp [lasting, hcell, hundying cell hcell]
  rw [hlasting] at hdying
  cases hdying

theorem unrestricted_admits (labels : List (Label Chance Pid EnvEvent)) :
    ∀ label ∈ labels, ∀ pool, system.Admitted unrestricted pool label := by
  intro label _ pool
  cases label with
  | run pid chance => exact fun _ _ _ _ => trivial
  | env event => exact fun _ _ => trivial

-- The job waits in its queue and is to be deleted in a week.
theorem liveLasts_fails : ¬ ∀ pool : System,
    Reach system unrestricted (System.idle .empty) pool → pool.state.store.LiveLasts := by
  intro h
  have htest : (system.steps requeueRun (System.idle .empty)).map (fun pool =>
      decide (lifeOf pool = some (some JobStatus.Pending.asStr, some 604800000))) = some true := by
    decide +kernel
  obtain ⟨pool, hreach, hlife⟩ := exists_reach .start (unrestricted_admits requeueRun) htest
  obtain ⟨cell, hcell, heq⟩ := Option.map_eq_some_iff.mp (of_decide_eq_true hlife)
  obtain ⟨hstatus, hexpire⟩ := Prod.mk.injEq .. ▸ heq
  have hlive : pool.state.store.Live "j" :=
    ⟨.Pending, by simp [Store.status, Store.hash, hcell, hstatus], by decide⟩
  have hnone := h pool hreach "j" hlive cell hcell
  rw [hexpire] at hnone
  cases hnone

-- Jobs without a hash.

-- No step is to create the job, and none writes about a job that is not there without a look.
def grounded (id : JobId) : Assume Op Chance State Pid Unit EnvEvent where
  run
    | _, _, .addJobToQueue queue other _, chance, st => chance.fault = .none →
        (st.store.jobs other).isSome ∨ other ∈ st.store.queues queue
    | _, _, .updateJobFields other _ _, chance, st => chance.fault = .none →
        (st.store.jobs other).isSome
    | _, _, _, _, _ => True
  env
    | .worker command _ _, st, _ => ¬ command.creates id ∧ command.Grounded st.store
    | .client command _ _, st, _ => ¬ command.creates id ∧ command.Grounded st.store
    | _, _, _ => True

theorem ne_of_present {s : Store} {id other : JobId} (hs : s.jobs id = none)
    (ho : (s.jobs other).isSome) : id ≠ other := by
  rintro rfl
  rw [hs] at ho
  cases ho

theorem unseen_op {op : Op} {pid : Pid} {chance : Chance} {st : State} {id : JobId}
    (hs : st.store.jobs id = none) (h : (grounded id).run pid () op chance st) :
    Unseen id st.store (State.exec pid op chance st).2.store := by
  cases op with
  | utcNow => exact .refl hs
  | getDlqJobIds key =>
      simp only [State.exec]
      split <;> exact .refl hs
  | getJobDataMap other =>
      simp only [State.exec]
      split <;> exact .refl hs
  | dlqRemoveJob key other =>
      simp only [State.exec]
      split
      · split
        · refine ⟨hs, fun _ hq => hq, fun name hd => ?_⟩
          by_cases hn : name = key
          · subst hn
            simp only [State.setWatch, setDlq_dlq, Function.update_self] at hd
            exact List.mem_of_mem_erase hd
          · simpa [State.setWatch, hn] using hd
        · exact .refl hs
      · exact .refl hs
  | addJobToQueue queue other score =>
      simp only [State.exec]
      split
      · rename_i hfault
        rcases h hfault with hpresent | hqueued
        · exact (frame_unseen id).zadd trivial st.store queue other score
            (ne_of_present hs hpresent) hs
        · exact unseen_zadd score hs hqueued
      · exact .refl hs
  | updateJobFields other status queue =>
      simp only [State.exec]
      split
      · rename_i hfault
        dsimp only
        exact (frame_unseen id).define trivial st.store other _ (ne_of_present hs (h hfault)) hs
      · exact .refl hs

theorem unseen_move {event : EnvEvent} {st after : State} {id : JobId}
    (hs : st.store.jobs id = none) (h : (grounded id).env event st after)
    (hm : event.move st = some after) : Unseen id st.store after.store := by
  cases event with
  | call pid settings options =>
      obtain rfl := Option.some.inj hm
      exact .refl hs
  | crash pid =>
      obtain rfl := Option.some.inj hm
      exact .refl hs
  | advance now =>
      obtain ⟨-, hafter⟩ := Option.ite_none_right_eq_some.mp hm
      obtain rfl := Option.some.inj hafter
      exact ⟨by simp [Store.advance, hs], fun _ hq => hq, fun _ hd => hd⟩
  | worker command fault page =>
      obtain rfl := Option.some.inj hm
      exact Cmd.unseen_exec hs h.1 h.2 fault page
  | client command fault page =>
      obtain rfl := Option.some.inj hm
      exact Cmd.unseen_exec hs h.1 h.2 fault page

-- What is missing at the start of such a run is missing at its end.
theorem unseen_reach {start pool : System} {id : JobId} (hr : Reach system (grounded id) start pool)
    (hs : start.state.store.jobs id = none) : Unseen id start.state.store pool.state.store := by
  induction hr with
  | start => exact .refl hs
  | step label _ ha hstep ih =>
      rcases step_store hstep with ⟨pid, chance, role, op, next, rfl, hp, hstore⟩ |
        ⟨event, state, rfl, hmove, hstore⟩
      · rw [hstore]
        exact ih.trans (unseen_op ih.cell (ha role op next hp))
      · rw [hstore]
        exact ih.trans (unseen_move ih.cell (ha state hmove) hmove)

theorem noGhost_updateJobFields (id : JobId) (fields : Option (JobHash → JobHash)) (s : Store) :
    NoGhost s (JobStore.updateJobFields id fields s) ↔ fields = none ∨ (s.jobs id).isSome := by
  cases fields with
  | none => exact iff_of_true (fun _ hs => .refl hs) (.inl rfl)
  | some update =>
      constructor
      · intro h
        cases hs : s.jobs id with
        | none =>
            have hcell : (s.hset id update).jobs id = none := (h id hs).cell
            have hpresent := Cmd.isSome_hset s id update
            rw [hcell] at hpresent
            cases hpresent
        | some cell => exact .inr rfl
      · rintro (hnone | hpresent) other hs
        · cases hnone
        · exact (frame_unseen other).define trivial s id update (ne_of_present hs hpresent) hs

-- A command raises no ghost exactly when what it writes about without a look is there, and a
-- run of such steps, whatever befalls them, leaves a missing job missing.
theorem noGhost (s : Store) (id : JobId) :
    (∀ (c : Cmd) (page : Nat × List String), (∀ created, ¬ c.creates created) →
      (NoGhost s (c.exec .none page s).2 ↔ c.Grounded s)) ∧
    (∀ fields : Option (JobHash → JobHash),
      NoGhost s (JobStore.updateJobFields id fields s) ↔ fields = none ∨ (s.jobs id).isSome) ∧
    ∀ start pool : System, start.state.store = s → s.jobs id = none →
      Reach system (grounded id) start pool → Unseen id s pool.state.store := by
  refine ⟨fun _ page hc => Cmd.noGhost_iff hc page s, fun fields =>
    noGhost_updateJobFields id fields s, ?_⟩
  rintro start pool rfl hs hr
  exact unseen_reach hr hs

def retryJob : Cmd := .atomicRetryJob "j" "rrq:queue:default" 0 "boom" .Retrying

-- A job that is there is retried, and nothing comes of the others.
theorem noGhost_retry :
    NoGhost failed (retryJob.exec .none (0, []) failed).2 ∧
      Unseen "k" failed (System.idle failed).state.store :=
  ⟨((noGhost failed "k").1 retryJob (0, []) fun _ => not_false).mpr (by rfl),
    (noGhost failed "k").2.2 (System.idle failed) (System.idle failed) rfl (by rfl) .start⟩

-- The job is put back by a requeue, is claimed again just before its hash expires, and is to be
-- retried when the hash is gone.
def ghostRun : List (Label Chance Pid EnvEvent) :=
  requeueRun ++ [.env (.advance 604799999), .env claimNext, .env (.advance 604800000)]

theorem noGhost_fails : ¬ ∀ (pool : System), Reach system unrestricted (System.idle .empty) pool →
    ∀ (c : Cmd) (page : Nat × List String), (∀ id, ¬ c.creates id) →
      NoGhost pool.state.store (c.exec .none page pool.state.store).2 := by
  intro h
  have htest : (system.steps ghostRun (System.idle .empty)).map (fun pool =>
      (pool.state.store.jobs "j").isNone && decide ("j" ∈ pool.state.store.active "w")) =
        some true := by
    decide +kernel
  obtain ⟨pool, hreach, hgone⟩ := exists_reach .start (unrestricted_admits ghostRun) htest
  simp only [Bool.and_eq_true, Option.isNone_iff_eq_none] at hgone
  have hpresent : (pool.state.store.jobs "j").isSome :=
    (Cmd.noGhost_iff (c := retryJob) (fun _ => not_false) (0, []) pool.state.store).mp
      (h pool hreach retryJob (0, []) fun _ => not_false)
  rw [hgone.1] at hpresent
  cases hpresent

end Rrq.Dlq
