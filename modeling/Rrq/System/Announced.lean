import Rrq.Concurrent.Invariant
import Rrq.Store.Announced
import Rrq.System.Tracking.Theorems
import Rrq.Worker.Code

-- Wherever the system comes, a job that has ended has its end in its event stream.

namespace Rrq

open Prog Store

def Op.Truthful : Op → Prop
  | redis c => c.Truthful
  | _ => True

-- Commands may fail and scripts may be cut short, but no move into the DLQ is.
def wholeMoves : Machine.Assume Op Chance World Pid Role EnvEvent where
  run _ _ op chance _ := ∀ c, op = .redis c → c.Uncut chance.fault
  env _ _ _ := True

theorem worker_truthful (self : RRQWorker) : WorkerCode self Op.Truthful Op.Possible where
  release :=
    { commands := fun c hc => by cases c <;> first | exact hc.elim | trivial
      clock := trivial
      force := fun _ h => absurd rfl h }
  own op hop := by cases op <;> first | exact hop.elim | trivial
  claim _ _ _ := trivial
  refresh _ _ := trivial
  requeue _ _ _ := trivial
  records c hc := by cases c <;> first | exact hc.elim | exact hc

theorem heartbeat_truthful {worker : WorkerId} {op : Op} (h : op.Permits (.heartbeat worker)) :
    op.Truthful := by
  cases op with
  | redis c => cases c <;> first | exact h.elim | trivial
  | _ => trivial

theorem client_truthful {op : Op} (h : op.Permits .client) : op.Truthful := by
  cases op with
  | redis c =>
      cases c
      case atomicEnqueueJob id queueKey mapping score =>
        have hstatus : mapping.status = some JobStatus.Pending.asStr := h.2.2.1
        simp [Op.Truthful, Cmd.Truthful, JobHash.Settled, hstatus, JobStatus.asStr]
      all_goals first | exact h.elim | exact h | trivial
  | _ => trivial

theorem system_truthful : system.Permitted (fun _ => Op.Truthful) Op.Possible where
  fork _ _ op _ _ _ _ _ h := by
    cases op <;> simp only [system, Op.fork, Option.some.injEq, Prod.mk.injEq, reduceCtorEq] at h
    · obtain ⟨-, -, rfl⟩ := h
      exact (worker_truthful _).taskProgram _ _
    · obtain ⟨-, -, rfl⟩ := h
      exact (heartbeatLoop_issues _ _ _).mono fun _ => heartbeat_truthful
  spawn event _ _ _ h := by
    cases event <;>
      simp only [system, EnvEvent.spawn, Option.some.injEq, Prod.mk.injEq, reduceCtorEq] at h
    · obtain ⟨-, -, rfl⟩ := h
      exact (worker_truthful _).run _
    · obtain ⟨-, -, rfl⟩ := h
      exact (request_issues _).mono fun _ => client_truthful

-- The surroundings move the clock of the store, if they touch it at all.
theorem store_of_move {event : EnvEvent} {w after : World} (h : w.move event = some after) :
    after.store = w.store ∨ ∃ now, w.store.now ≤ now ∧ after.store = w.store.advance now := by
  cases event with
  | advance now =>
      obtain ⟨hle, heq⟩ := Option.ite_none_right_eq_some.mp h
      obtain rfl := Option.some.inj heq
      exact .inr ⟨now, hle, rfl⟩
  | start pid self fuel =>
      obtain ⟨-, heq⟩ := Option.ite_none_left_eq_some.mp h
      obtain rfl := Option.some.inj heq
      exact .inl rfl
  | crash worker =>
      obtain ⟨-, heq⟩ := Option.ite_none_right_eq_some.mp h
      obtain rfl := Option.some.inj heq
      exact .inl rfl
  | kill worker task =>
      obtain ⟨-, heq⟩ := Option.ite_none_right_eq_some.mp h
      obtain rfl := Option.some.inj heq
      exact .inl rfl
  | requestShutdown worker =>
      obtain ⟨-, heq⟩ := Option.ite_none_right_eq_some.mp h
      obtain rfl := Option.some.inj heq
      exact .inl rfl
  | call pid request =>
      obtain rfl := Option.some.inj h
      exact .inl rfl

structure Announcing (w : World) : Prop where
  announced : w.store.Announced
  wellLocked : ∀ id, w.store.lock id ≠ some .malformed

theorem system_announcing :
    system.Keeps wholeMoves (fun _ => Op.Truthful) Op.Possible Announcing where
  exec pid role op chance w hw hop ha := by
    refine ⟨possible_exec hw.wellLocked, ?_, wellLocked_exec hw.wellLocked⟩
    cases op with
    | redis c => exact Cmd.announced_exec hop (ha c rfl) hw.announced
    | _ => exact hw.announced
  move event w after hw hm _ := by
    refine ⟨?_, wellLocked_move hw.wellLocked hm⟩
    rcases store_of_move hm with heq | ⟨now, -, heq⟩
    · exact heq ▸ hw.announced
    · exact heq ▸ announced_advance hw.announced now

-- In every state of every run, the hash of a job that completed or failed has an event stream
-- whose last event is about the job and has its status, and both expire at the same time.
theorem settled_announced {sys : System} (hr : Machine.Reach system wholeMoves System.start sys)
    {id : JobId} {cell : Volatile JobHash} (hcell : sys.state.store.jobs id = some cell)
    (hs : cell.value.Settled) :
    ∃ stream event, sys.state.store.events id = some stream ∧
      stream.value.getLast? = some event ∧ event.jobId = id ∧
        cell.value.status = some event.status ∧ stream.expireAt = cell.expireAt := by
  have hstart : Machine.Orderly (fun _ => Op.Truthful) Op.Possible Announcing System.start :=
    ⟨⟨announced_empty, fun _ => nofun⟩, fun _ _ _ => nofun⟩
  have hstep := (Machine.orderly_reach system_announcing system_truthful hstart hr).state.announced id
  rw [hcell] at hstep
  cases hstream : sys.state.store.events id with
  | none =>
      rw [hstream] at hstep
      exact absurd hs hstep.2
  | some stream =>
      rw [hstream] at hstep
      obtain ⟨event, hlast, hid, hstatus⟩ := hstep.2 hs
      exact ⟨stream, event, rfl, hlast, hid, hstatus, hstep.1.symm⟩

-- A step that meets with no fault.
def unharmed : Label Chance Pid EnvEvent → Bool
  | .run _ chance => decide (chance.fault = .none)
  | .env _ => true

theorem settled_announced_staleRun : ∃ sys stream event,
    Machine.Reach system wholeMoves System.start sys ∧
      sys.state.store.status "j" = some JobStatus.Completed.asStr ∧
        sys.state.store.events "j" = some stream ∧ stream.value.getLast? = some event ∧
          event.status = JobStatus.Completed.asStr := by
  have hrun : (system.steps staleRun System.start).map (fun sys =>
      decide (sys.state.store.status "j" = some JobStatus.Completed.asStr)) = some true := by
    decide +kernel
  have hadmitted : ∀ label ∈ staleRun, ∀ sys, system.Admitted wholeMoves sys label := by
    have hwhole : staleRun.all unharmed = true := by decide +kernel
    intro label hlabel sys
    have hnone := List.all_eq_true.mp hwhole label hlabel
    cases label with
    | env event => exact fun _ _ => trivial
    | run pid chance =>
        intro role op next _ c _
        have hfault : chance.fault = .none := of_decide_eq_true hnone
        rw [hfault]
        cases c <;> first | exact .inl rfl | trivial
  obtain ⟨sys, hreach, htest⟩ := Machine.exists_reach .start hadmitted hrun
  have hstatus : sys.state.store.status "j" = some JobStatus.Completed.asStr :=
    of_decide_eq_true htest
  obtain ⟨raw, hraw, hvalue⟩ := Option.bind_eq_some_iff.mp hstatus
  obtain ⟨cell, hcell, rfl⟩ := Option.map_eq_some_iff.mp hraw
  obtain ⟨stream, event, hstream, hlast, -, hsame, -⟩ :=
    settled_announced hreach hcell (.inl hvalue)
  exact ⟨sys, stream, event, hreach, hstatus, hstream, hlast,
    Option.some.inj (hsame.symm.trans hvalue)⟩

end Rrq
