import Rrq.System.Exclusion
import Rrq.System.Tracking

-- The maps in memory match the live executions.

namespace Rrq

open Prog Machine

-- The system, with the parts of its processes written down beside it.
def tracking : Machine Op Op.Reply Chance (World × Parts) Pid Role EnvEvent :=
  system.recording Parts.note Parts.noteEnv

abbrev Tracked := Pool Op Op.Reply (World × Parts) Pid Role

theorem step_tracking (pool : Tracked) (label : Label Chance Pid EnvEvent) :
    (tracking.step pool label).map bare = system.step (bare pool) label :=
  step_recording system Parts.note Parts.noteEnv pool label

namespace Tracked

def start : Tracked where
  state := (.ofStore .empty, [])
  procs _ := none

def part (pool : Tracked) (pid : Pid) : Part := pool.state.2.part pid

-- The process has not returned and has not been stopped.
def Alive (pool : Tracked) (pid : Pid) : Prop :=
  ∃ role op next, pool.procs pid = some (role, .call op next)

end Tracked

-- A live process is about to do something with the maps for this job.
def Part.Concerns (part : Part) (worker : WorkerId) (id : JobId) : Prop :=
  part.Covers worker id ∨ part.Holds worker id ∨ ∃ task, part = spawned worker id task

structure Matches (pool : Tracked) : Prop where
  running : ∀ pid worker id, pool.Alive pid → (pool.part pid).Works worker id →
    pool.state.1.Runs worker id
  cleared : ∀ worker id, (∀ pid, pool.Alive pid → ¬ (pool.part pid).Concerns worker id) →
    ¬ pool.state.1.Runs worker id ∧ ¬ pool.state.1.Aborts worker id

structure Kept (pool : Tracked) : Prop where
  wellLocked : ∀ id, pool.state.1.store.lock id ≠ some .malformed
  inStep : InStep pool.state.1 pool.part
  dutiful : ∀ pid role prog, pool.procs pid = some (role, prog) →
    Dutiful role prog (pool.part pid)
  hosted : ∀ pid worker, (pool.part pid).host = some worker →
    ∃ role prog, pool.procs pid = some (role, prog) ∧ role.host = some worker
  living : ∀ pid role op next, pool.procs pid = some (role, .call op next) →
    HostAlive role pool.state.1

theorem part_of_host {part : Part} (h : part.host = none) : part = .aside := by
  cases part <;> first | rfl | cases h

theorem host_of_covers {part : Part} {worker : WorkerId} {id : JobId}
    (h : part.Covers worker id) : part.host = some worker := by
  cases part <;> cases h <;> rfl

theorem host_of_holds {part : Part} {worker : WorkerId} {id : JobId}
    (h : part.Holds worker id) : part.host = some worker := by
  cases part <;> cases h <;> rfl

theorem covers_of_works {part : Part} {worker : WorkerId} {id : JobId}
    (h : part.Works worker id) : part.Covers worker id := by
  obtain ⟨self, job, progress, rfl, rfl, rfl⟩ := Part.works_cases h
  rfl

section Kept

variable {pool after : Tracked}

-- A process with something to do is alive.
theorem Kept.alive (hk : Kept pool) {pid : Pid} {worker : WorkerId}
    (h : (pool.part pid).host = some worker) :
    pool.Alive pid ∧ (pool.state.1.mem worker).alive := by
  obtain ⟨role, prog, hp, hhost⟩ := hk.hosted pid worker h
  cases prog with
  | ret value =>
      have haside : pool.part pid = .aside := hk.dutiful pid role _ hp
      rw [haside] at h
      cases h
  | call op next => exact ⟨⟨role, op, next, hp⟩, hk.living pid role op next hp worker hhost⟩

theorem Kept.aside (hk : Kept pool) {pid : Pid} (h : pool.procs pid = none) :
    pool.part pid = .aside := by
  apply part_of_host
  cases hhost : (pool.part pid).host with
  | none => rfl
  | some worker =>
      obtain ⟨role, prog, hp, -⟩ := hk.hosted pid worker hhost
      rw [h] at hp
      cases hp

theorem Kept.maps (hk : Kept pool) : Matches pool where
  running pid worker id _ hw := (hk.inStep.running worker id).mpr ⟨pid, covers_of_works hw⟩
  cleared worker id h := by
    constructor
    · intro hruns
      obtain ⟨pid, hcovers⟩ := (hk.inStep.running worker id).mp hruns
      exact h pid (hk.alive (host_of_covers hcovers)).1 (.inl hcovers)
    · intro haborts
      obtain ⟨pid, hholds⟩ := hk.inStep.aborts worker id haborts
      exact h pid (hk.alive (host_of_holds hholds)).1 (.inr (.inl hholds))

end Kept

section Exec

variable {w : World} {pid : Pid} {role : Role} {op : Op} {chance : Chance}

theorem wellLocked_exec (hw : ∀ id, w.store.lock id ≠ some .malformed) (id : JobId) :
    (World.exec pid role op chance w).2.store.lock id ≠ some .malformed := by
  by_cases hop : ∃ c, op = .redis c
  · obtain ⟨c, rfl⟩ := hop
    exact Cmd.frame_exec Store.frame_wellLocked (fun _ _ => trivial) (fun _ _ => trivial) _ _ _ id
      (hw id)
  · obtain ⟨hs, -, -⟩ := world_exec_local (fun c hc => hop ⟨c, hc⟩)
      (rfl : World.exec pid role op chance w = _)
    exact hs ▸ hw id

theorem possible_exec (hw : ∀ id, w.store.lock id ≠ some .malformed) :
    op.Possible (World.exec pid role op chance w).1 := by
  cases op with
  | redis c =>
      cases c
      case releaseJobLockIfOwner id owner =>
        have hclosed : ∀ result : Option Int,
            (result.map fun value => (Except.ok (decide (value ≠ 0)) : Except RedisError Bool)).getD
              (.error .failed) ≠ .error .wrongType := by
          rintro (_ | value) ⟨⟩
        simp only [Op.Possible, World.exec, Cmd.exec, Cmd.script, Cmd.lockError, if_neg (hw id)]
        split
        · rintro ⟨⟩
        · exact hclosed _
        · exact hclosed _
      all_goals trivial
  | _ => trivial

-- Only the poll loop of a worker takes up a job of that worker.
theorem host_next {part : Part} (hp : op.Permits role) (ho : part.Allows op) (reply : op.Reply)
    {worker : WorkerId} (h : (part.next op reply).host = some worker) :
    part.host = some worker ∨ role.host = some worker := by
  unfold Part.next at h
  split at h
  case h_1 owner id info =>
    obtain rfl := Option.some.inj h
    refine .inr ?_
    cases role <;> first | exact hp.elim | exact congrArg some (Eq.symm hp)
  case h_2 owner id self job queueName task =>
    obtain ⟨rfl, rfl⟩ : owner = self.workerId ∧ id = job.id := by simpa [Part.Allows] using ho
    exact .inl h
  case h_6 =>
    obtain ⟨hmine, -⟩ := Prod.mk.inj (Option.some.inj ho)
    exact .inl ((congrArg some hmine).trans h)
  all_goals first | exact .inl h | cases h

end Exec

section Run

variable {pool after : Tracked}

section Note

variable {parts : Parts} {pid q child : Pid} {op : Op} {reply : op.Reply} {other : Role}
  {prog : Proc Unit}

theorem part_note_other (hq : q ≠ pid) (hc : ∀ other prog, op.fork reply ≠ some (q, other, prog)) :
    (parts.note pid op reply).part q = parts.part q := by
  unfold Parts.note
  split
  · rename_i task
    have hne : q ≠ task := by
      rintro rfl
      exact hc _ _ rfl
    rw [Parts.part_give, if_neg hne, Parts.part_give, if_neg hq]
  · rw [Parts.part_give, if_neg hq]

theorem part_note_self (hc : ∀ other prog, op.fork reply ≠ some (pid, other, prog)) :
    (parts.note pid op reply).part pid = (parts.part pid).next op reply := by
  unfold Parts.note
  split
  · rename_i task
    have hne : pid ≠ task := by
      rintro rfl
      exact hc _ _ rfl
    rw [Parts.part_give, if_neg hne, Parts.part_give, if_pos rfl]
  · rw [Parts.part_give, if_pos rfl]

-- What an operation starts begins with its own part.
theorem part_note_child (h : op.fork reply = some (child, other, prog)) (hne : child ≠ pid)
    (haside : parts.part child = .aside)
    (hj : ∀ self job queueName, op = .spawnTask self job queueName →
      (checkedAdd job.currentRetries 1).isSome) :
    Dutiful other prog ((parts.note pid op reply).part child) ∧
      ∀ worker, ((parts.note pid op reply).part child).host = some worker →
        other.host = some worker := by
  cases op <;> simp only [Op.fork, Option.some.injEq, Prod.mk.injEq, reduceCtorEq] at h
  case spawnTask self job queueName =>
    obtain ⟨rfl, rfl, rfl⟩ := h
    rw [Parts.note, Parts.part_give, if_pos rfl]
    exact ⟨taskProgram_conforms self (hj self job queueName rfl) queueName, fun _ h => h⟩
  case spawnHeartbeat self fuel =>
    obtain ⟨rfl, rfl, rfl⟩ := h
    have hsame : (parts.note pid (.spawnHeartbeat self fuel) reply).part reply = .aside := by
      rw [part_note (by rintro _ _ _ ⟨⟩), Function.update_of_ne hne, haside]
    rw [hsame]
    refine ⟨others_dutiful (by simp [Role.Claims]) (heartbeatLoop_issues self fuel fuel), ?_⟩
    rintro worker ⟨⟩

end Note

theorem kept_run (hk : Kept pool) {pid : Pid} {chance : Chance}
    (ha : tracking.Admitted tidy pool (.run pid chance))
    (hs : tracking.step pool (.run pid chance) = some after) : Kept after := by
  simp only [Machine.step] at hs
  split at hs
  case h_2 => cases hs
  case h_1 role op next hp =>
  obtain ⟨procs, henter, rfl⟩ := Option.map_eq_some_iff.mp hs
  obtain ⟨⟨hpermits, hallows⟩, hnext⟩ := hk.dutiful pid role _ hp
  have htidy := ha role op next hp
  -- what is started is new
  have hchild : ∀ child other prog,
      op.fork (World.exec pid role op chance pool.state.1).1 = some (child, other, prog) →
        child ≠ pid ∧ pool.procs child = none ∧ procs child = some (other, prog) := by
    intro child other prog hfork
    have hsome : tracking.fork pid role op (World.exec pid role op chance pool.state.1).1 =
        some (child, other, prog) := hfork
    exact Argument.enter_new (hsome ▸ henter)
  have hjob : ∀ self job queueName, op = .spawnTask self job queueName →
      (checkedAdd job.currentRetries 1).isSome := by
    rintro self job queueName rfl
    exact htidy.2
  have hmine : Tracked.part ⟨(tracking.exec pid role op chance pool.state).2, procs⟩ pid =
      (pool.part pid).next op (World.exec pid role op chance pool.state.1).1 :=
    part_note_self fun other code hf => (hchild pid other code hf).1 rfl
  have hothers : ∀ q, q ≠ pid →
      (∀ other code, op.fork (World.exec pid role op chance pool.state.1).1 ≠
        some (q, other, code)) →
      Tracked.part ⟨(tracking.exec pid role op chance pool.state).2, procs⟩ q = pool.part q :=
    fun q hq hfork => part_note_other hq hfork
  refine ⟨wellLocked_exec hk.wellLocked, ?_, ?_, ?_, ?_⟩
  · refine inStep_exec hk.inStep hallows htidy ?_
    rintro self job queueName rfl
    obtain ⟨hne, hnone, -⟩ := hchild chance.child _ _ rfl
    exact ⟨hne, hk.aside hnone⟩
  · intro q found prog hq
    rcases Argument.enter_moved henter hq with ⟨rfl, hmoved⟩ | ⟨hqp, hbefore⟩ | hfork
    · obtain ⟨rfl, rfl⟩ := Prod.mk.inj hmoved
      rw [hmine]
      exact hnext _ ⟨possible_exec hk.wellLocked, htidy.1⟩
    · rw [hothers q hqp]
      · exact hk.dutiful q found prog hbefore
      · intro other code hf
        rw [(hchild q other code hf).2.1] at hbefore
        cases hbefore
    · obtain ⟨hne, hnone, -⟩ := hchild q found prog hfork
      exact (part_note_child hfork hne (hk.aside hnone) hjob).1
  · intro q worker h
    by_cases hqp : q = pid
    · subst hqp
      rw [hmine] at h
      refine ⟨role, _, Argument.enter_kept henter (Function.update_self ..), ?_⟩
      rcases host_next hpermits hallows _ h with hbefore | hrole
      · obtain ⟨found, prog, hfound, hhost⟩ := hk.hosted q worker hbefore
        rw [hp] at hfound
        obtain ⟨rfl, -⟩ := Prod.mk.inj (Option.some.inj hfound)
        exact hhost
      · exact hrole
    · by_cases hfork : ∃ other code,
          op.fork (World.exec pid role op chance pool.state.1).1 = some (q, other, code)
      · obtain ⟨other, code, hf⟩ := hfork
        obtain ⟨hne, hnone, hafter⟩ := hchild q other code hf
        exact ⟨other, code, hafter, (part_note_child hf hne (hk.aside hnone) hjob).2 worker h⟩
      · rw [hothers q hqp fun other code hf => hfork ⟨other, code, hf⟩] at h
        obtain ⟨found, prog, hfound, hhost⟩ := hk.hosted q worker h
        refine ⟨found, prog, Argument.enter_kept henter ?_, hhost⟩
        rwa [Function.update_of_ne hqp]
  · intro q found other code hq worker hw
    have halive : (pool.state.1.mem worker).alive := by
      rcases Argument.enter_moved henter hq with ⟨rfl, hmoved⟩ | ⟨-, hbefore⟩ | hfork
      · obtain ⟨rfl, -⟩ := Prod.mk.inj hmoved
        exact hk.living q role op next hp worker hw
      · exact hk.living q found other code hbefore worker hw
      · exact hk.living pid role op next hp worker (fork_host hpermits hfork hw)
    exact (alive_exec worker).trans halive

end Run

section Surroundings

variable {pool after : Tracked} {event : EnvEvent}

theorem part_noteEnv {parts : Parts} (h : ∀ worker, event ≠ .crash worker) :
    parts.noteEnv event = parts := by
  unfold Parts.noteEnv
  split
  · exact absurd rfl (h _)
  · rfl

theorem wellLocked_move {w later : World} (hw : ∀ id, w.store.lock id ≠ some .malformed)
    (hm : w.move event = some later) (id : JobId) : later.store.lock id ≠ some .malformed := by
  cases event with
  | advance now =>
      obtain ⟨-, heq⟩ := Option.ite_none_right_eq_some.mp hm
      obtain rfl := Option.some.inj heq
      exact fun hl => hw id (lock_advance hl)
  | start pid self fuel =>
      obtain ⟨-, heq⟩ := Option.ite_none_left_eq_some.mp hm
      obtain rfl := Option.some.inj heq
      exact hw id
  | crash worker =>
      obtain ⟨-, heq⟩ := Option.ite_none_right_eq_some.mp hm
      obtain rfl := Option.some.inj heq
      exact hw id
  | kill worker task =>
      obtain ⟨-, heq⟩ := Option.ite_none_right_eq_some.mp hm
      obtain rfl := Option.some.inj heq
      exact hw id
  | requestShutdown worker =>
      obtain ⟨-, heq⟩ := Option.ite_none_right_eq_some.mp hm
      obtain rfl := Option.some.inj heq
      exact hw id
  | call pid request =>
      obtain rfl := Option.some.inj hm
      exact hw id

theorem covers_leftBy {part : Part} {worker owner : WorkerId} {id : JobId} :
    (part.leftBy worker).Covers owner id ↔ owner ≠ worker ∧ part.Covers owner id := by
  unfold Part.leftBy
  split_ifs with hhost
  · refine iff_of_false Part.covers_aside ?_
    rintro ⟨hne, hc⟩
    have hsame := (host_of_covers hc).symm.trans hhost
    exact hne (Option.some.inj hsame)
  · refine ⟨fun hc => ⟨?_, hc⟩, And.right⟩
    rintro rfl
    exact hhost (host_of_covers hc)

theorem holds_leftBy {part : Part} {worker owner : WorkerId} {id : JobId} :
    (part.leftBy worker).Holds owner id ↔ owner ≠ worker ∧ part.Holds owner id := by
  unfold Part.leftBy
  split_ifs with hhost
  · refine iff_of_false Part.holds_aside ?_
    rintro ⟨hne, hc⟩
    have hsame := (host_of_holds hc).symm.trans hhost
    exact hne (Option.some.inj hsame)
  · refine ⟨fun hc => ⟨?_, hc⟩, And.right⟩
    rintro rfl
    exact hhost (host_of_holds hc)

-- A worker that starts or crashes has empty maps, and none of its processes a part in them.
theorem InStep.leave {w : World} {part : Pid → Part} {worker : WorkerId}
    {update : Memory → Memory} (hs : InStep w part)
    (hr : (update (w.mem worker)).running = []) (ha : (update (w.mem worker)).aborts = []) :
    InStep (w.setMem worker update) fun pid => (part pid).leftBy worker := by
  have hruns : ∀ owner id, (w.setMem worker update).Runs owner id ↔
      owner ≠ worker ∧ w.Runs owner id := by
    intro owner id
    unfold World.Runs
    rw [World.mem_setMem]
    split_ifs with hw
    · subst hw
      simp [hr]
    · simp [hw]
  have haborts : ∀ owner id, (w.setMem worker update).Aborts owner id →
      owner ≠ worker ∧ w.Aborts owner id := by
    intro owner id h
    unfold World.Aborts at h
    rw [World.mem_setMem] at h
    split_ifs at h with hw
    · subst hw
      simp [ha] at h
    · exact ⟨hw, h⟩
  refine ⟨fun owner id => ?_, fun owner id h => ?_, fun p q owner id hp hq => ?_⟩
  · simp only [hruns, covers_leftBy, hs.running, exists_and_left]
  · obtain ⟨hne, hbefore⟩ := haborts owner id h
    obtain ⟨pid, hholds⟩ := hs.aborts owner id hbefore
    exact ⟨pid, holds_leftBy.mpr ⟨hne, hholds⟩⟩
  · exact hs.alone p q owner id (covers_leftBy.mp hp).2 (covers_leftBy.mp hq).2

theorem InStep.sameMaps {w later : World} {part : Pid → Part} (hs : InStep w part)
    (hw : w.SameMaps later) : InStep later part where
  running worker id := (hw worker id).1.trans (hs.running worker id)
  aborts worker id h := hs.aborts worker id ((hw worker id).2.mp h)
  alone := hs.alone

theorem inStep_move {w later : World} {parts : Parts} (hs : InStep w parts.part)
    (halive : ∀ pid worker, (parts.part pid).host = some worker → (w.mem worker).alive)
    (hm : w.move event = some later) : InStep later (parts.noteEnv event).part := by
  cases event with
  | advance now =>
      obtain ⟨-, heq⟩ := Option.ite_none_right_eq_some.mp hm
      obtain rfl := Option.some.inj heq
      exact hs.sameMaps fun _ _ => ⟨.rfl, .rfl⟩
  | start pid self fuel =>
      obtain ⟨hdead, heq⟩ := Option.ite_none_left_eq_some.mp hm
      obtain rfl := Option.some.inj heq
      have hsame : (fun pid => (parts.part pid).leftBy self.workerId) = parts.part := by
        funext pid
        unfold Part.leftBy
        rw [if_neg fun hhost => hdead (halive pid _ hhost)]
      have hempty : InStep (w.setMem self.workerId fun _ => { alive := true })
          fun pid => (parts.part pid).leftBy self.workerId := by
        refine hs.leave ?_ ?_ <;> rfl
      rwa [hsame] at hempty
  | crash worker =>
      obtain ⟨-, heq⟩ := Option.ite_none_right_eq_some.mp hm
      obtain rfl := Option.some.inj heq
      have hparts : (parts.noteEnv (.crash worker)).part =
          fun pid => (parts.part pid).leftBy worker := by
        funext pid
        exact Parts.part_leftBy
      rw [hparts]
      have hempty : InStep (w.setMem worker fun _ => {})
          fun pid => (parts.part pid).leftBy worker := by
        refine hs.leave ?_ ?_ <;> rfl
      exact hempty.sameMaps fun _ _ => ⟨.rfl, .rfl⟩
  | kill worker task =>
      obtain ⟨-, heq⟩ := Option.ite_none_right_eq_some.mp hm
      obtain rfl := Option.some.inj heq
      exact hs
  | requestShutdown worker =>
      obtain ⟨-, heq⟩ := Option.ite_none_right_eq_some.mp hm
      obtain rfl := Option.some.inj heq
      apply hs.sameMaps
      apply World.sameMaps_setMem
      · exact fun _ _ => .rfl
      · exact fun _ => rfl
  | call pid request =>
      obtain rfl := Option.some.inj hm
      exact hs

-- What a surrounding event leaves of the processes that it stops and of the others.
theorem part_stopped (hk : Kept pool) (ha : ∀ worker task, event = .kill worker task →
      pool.part task = .aside) {pid : Pid} {role : Role} {prog : Proc Unit}
    (hp : pool.procs pid = some (role, prog)) :
    Parts.part (pool.state.2.noteEnv event) pid =
      if event.stops pid role then .aside else pool.part pid := by
  cases event with
  | crash worker =>
      have hnote : Parts.part (pool.state.2.noteEnv (.crash worker)) pid =
          (pool.part pid).leftBy worker := Parts.part_leftBy
      rw [hnote]
      have hhost : ∀ owner, (pool.part pid).host = some owner → role.host = some owner := by
        intro owner h
        obtain ⟨found, code, hfound, hhost⟩ := hk.hosted pid owner h
        rw [hp] at hfound
        obtain ⟨rfl, -⟩ := Prod.mk.inj (Option.some.inj hfound)
        exact hhost
      simp only [EnvEvent.stops, decide_eq_true_eq]
      unfold Part.leftBy
      by_cases hrole : role.host = some worker
      · rw [if_pos hrole]
        split_ifs with hpart
        · rfl
        · apply part_of_host
          cases hh : (pool.part pid).host with
          | none => rfl
          | some owner =>
              have hsame := (hhost owner hh).symm.trans hrole
              exact absurd (hh.trans hsame) hpart
      · rw [if_neg hrole, if_neg fun hpart => hrole (hhost worker hpart)]
  | kill worker task =>
      rw [part_noteEnv (by rintro _ ⟨⟩)]
      split_ifs with hstop
      · simp only [EnvEvent.stops, decide_eq_true_eq, Bool.decide_and, Bool.and_eq_true] at hstop
        rw [hstop.1]
        exact ha worker task rfl
      · rfl
  | _ =>
      rw [part_noteEnv (by rintro _ ⟨⟩)]
      rfl

theorem host_noteEnv {parts : Parts} {pid : Pid} {worker : WorkerId}
    (h : ((parts.noteEnv event).part pid).host = some worker) :
    (parts.part pid).host = some worker := by
  by_cases hcrash : ∃ owner, event = .crash owner
  · obtain ⟨owner, rfl⟩ := hcrash
    have hnote : (parts.noteEnv (.crash owner)).part pid = (parts.part pid).leftBy owner :=
      Parts.part_leftBy
    rw [hnote] at h
    unfold Part.leftBy at h
    split_ifs at h
    · cases h
    · exact h
  · rwa [part_noteEnv fun owner he => hcrash ⟨owner, he⟩] at h

theorem spawn_dutiful {pid : Pid} {role : Role} {prog : Proc Unit}
    (h : event.spawn = some (pid, role, prog)) : Dutiful role prog .aside := by
  cases event <;> simp only [EnvEvent.spawn, Option.some.injEq, Prod.mk.injEq, reduceCtorEq] at h
  · obtain ⟨-, rfl, rfl⟩ := h
    exact run_conforms _ _
  · obtain ⟨-, rfl, rfl⟩ := h
    exact others_dutiful (by simp [Role.Claims]) (request_issues _)

theorem kept_env (hk : Kept pool) (ha : tracking.Admitted tidy pool (.env event))
    (hs : tracking.step pool (.env event) = some after) : Kept after := by
  obtain ⟨state, hmove, hprocs⟩ := Option.bind_eq_some_iff.mp hs
  obtain ⟨procs, henter, rfl⟩ := Option.map_eq_some_iff.mp hprocs
  obtain ⟨later, hlater, rfl⟩ := Option.map_eq_some_iff.mp hmove
  have htidy := ha _ hmove
  have hkill : ∀ worker task, event = .kill worker task → pool.part task = .aside := by
    rintro worker task rfl
    exact htidy
  -- a process that goes on, goes on as it was; one that is stopped has returned
  have hbefore : ∀ pid role prog,
      ((pool.procs pid).map fun proc =>
        if event.stops pid proc.1 then (proc.1, (.ret () : Proc Unit)) else proc) =
          some (role, prog) →
      ∃ old, pool.procs pid = some (role, old) ∧
        prog = if event.stops pid role then .ret () else old := by
    intro pid role prog h
    obtain ⟨⟨found, old⟩, hold, heq⟩ := Option.map_eq_some_iff.mp h
    split_ifs at heq with hstop
    · obtain ⟨rfl, rfl⟩ := Prod.mk.inj heq
      exact ⟨old, hold, (if_pos hstop).symm⟩
    · obtain ⟨rfl, rfl⟩ := Prod.mk.inj heq
      exact ⟨old, hold, (if_neg hstop).symm⟩
  refine ⟨wellLocked_move hk.wellLocked hlater, ?_, ?_, ?_, ?_⟩
  · exact inStep_move hk.inStep (fun pid worker h => (hk.alive h).2) hlater
  · intro pid role prog hp
    rcases Argument.enter_cases henter hp with hold | hspawn
    · obtain ⟨old, hfound, rfl⟩ := hbefore pid role prog hold
      have hpart : Tracked.part ⟨(later, pool.state.2.noteEnv event), procs⟩ pid = _ :=
        part_stopped hk hkill hfound
      rw [hpart]
      split_ifs with hstop
      · rfl
      · exact hk.dutiful pid role old hfound
    · have haside : Tracked.part ⟨(later, pool.state.2.noteEnv event), procs⟩ pid = .aside := by
        apply part_of_host
        cases hhost : (Tracked.part ⟨(later, pool.state.2.noteEnv event), procs⟩ pid).host with
        | none => rfl
        | some worker =>
            obtain ⟨found, old, hfound, -⟩ := hk.hosted pid worker (host_noteEnv hhost)
            have hsome : tracking.spawn event = some (pid, role, prog) := hspawn
            have hnone := (Argument.enter_child (hsome ▸ henter)).1
            rw [hfound] at hnone
            cases hnone
      rw [haside]
      exact spawn_dutiful hspawn
  · intro pid worker h
    obtain ⟨role, old, hfound, hhost⟩ := hk.hosted pid worker (host_noteEnv h)
    by_cases hstop : event.stops pid role = true
    · refine ⟨role, .ret (), Argument.enter_kept henter ?_, hhost⟩
      rw [hfound]
      exact congrArg some (if_pos hstop)
    · refine ⟨role, old, Argument.enter_kept henter ?_, hhost⟩
      rw [hfound]
      exact congrArg some (if_neg hstop)
  · intro pid role op next hp
    rcases Argument.enter_cases henter hp with hold | hspawn
    · obtain ⟨old, hfound, heq⟩ := hbefore pid role _ hold
      split_ifs at heq with hstop
      subst heq
      exact hostAlive_move hlater (Bool.eq_false_iff.mpr hstop)
        (hk.living pid role op next hfound)
    · exact spawn_hostAlive hlater hspawn

end Surroundings

theorem kept_start : Kept Tracked.start where
  wellLocked id h := by cases h
  inStep := by
    have haside : ∀ pid, Tracked.start.part pid = .aside := fun _ => rfl
    refine ⟨fun worker id => iff_of_false (List.not_mem_nil) ?_, fun worker id h => ?_, ?_⟩
    · rintro ⟨pid, hc⟩
      exact Part.covers_aside hc
    · exact absurd h List.not_mem_nil
    · exact fun p _ worker id hp _ => absurd hp Part.covers_aside
  dutiful pid role prog h := by cases h
  hosted pid worker h := by cases h
  living pid role op next h := by cases h

theorem kept_reach {pool : Tracked} (hr : Reach tracking tidy Tracked.start pool) : Kept pool := by
  induction hr with
  | start => exact kept_start
  | step label _ ha hs ih =>
      cases label with
      | run pid chance => exact kept_run ih ha hs
      | env event => exact kept_env ih ha hs

-- As long as the processes of the workers take care, a job is in the first map while its task is
-- alive and has not removed it, and in neither map when no process is concerned with it.
theorem maps_match {pool : Tracked} (hr : Reach tracking tidy Tracked.start pool) : Matches pool :=
  (kept_reach hr).maps

section Runs

def Tracked.runs (pool : Tracked) (pid : Pid) : Bool :=
  match pool.procs pid with
  | some (_, .call _ _) => true
  | _ => false

theorem alive_of_runs {pool : Tracked} {pid : Pid} (h : pool.runs pid = true) : pool.Alive pid := by
  unfold Tracked.runs at h
  split at h
  · rename_i role op next hp
    exact ⟨role, op, next, hp⟩
  · cases h

def Part.isAside : Part → Bool
  | aside => true
  | _ => false

theorem not_concerns_of_isAside {part : Part} {worker : WorkerId} {id : JobId}
    (h : part.isAside = true) : ¬ part.Concerns worker id := by
  cases part with
  | aside => simp [Part.Concerns]
  | _ => cases h

-- A client enqueues a job. A worker starts, claims it and hands it to a task.
def handOverRun : List (Label Chance Pid EnvEvent) :=
  [.env (.call 0 (.enqueue {} "f" [] { jobId := some "j", enqueueTime := some ⟨0⟩ })), .run 0 {},
    .env (.start 1 (.ofDefaults "w0") 2), .run 1 { child := 2 }] ++
    List.replicate 11 (.run 1 {}) ++ [.run 1 { child := 3 }]

-- A test for tidy steps of processes that are not in a task's part.
def tidyStep (pool : Tracked) : Label Chance Pid EnvEvent → Bool
  | .run pid _ => (pool.part pid).worked.isNone &&
      match pool.procs pid with
      | some (_, .call (.insertRunning worker id _) _) =>
          pool.state.2.all fun entry => !decide (entry.2.Covers worker id)
      | some (_, .call (.spawnTask _ job _) _) => (checkedAdd job.currentRetries 1).isSome
      | some (_, .call (.insertAbort worker id task) _) => decide ((pool.part task).Holds worker id)
      | _ => true
  | .env (.kill _ _) => false
  | .env _ => true

theorem survives_of_worked {part : Part} {op : Op} (h : part.worked = none) (reply : op.Reply) :
    part.Survives op reply := by
  unfold Part.Survives
  split
  · cases h
  · cases h
  · trivial

theorem admitted_tidyStep (pool : Tracked) (label : Label Chance Pid EnvEvent)
    (h : tidyStep pool label = true) : tracking.Admitted tidy pool label := by
  cases label with
  | run pid chance =>
      intro role op next hp
      simp only [tidyStep, hp, Bool.and_eq_true, Option.isNone_iff_eq_none] at h
      obtain ⟨hpart, hop⟩ := h
      refine ⟨survives_of_worked hpart _, ?_⟩
      cases op with
      | insertRunning worker id info => simpa using hop
      | spawnTask self job queueName => exact hop
      | insertAbort worker id task => exact of_decide_eq_true hop
      | _ => trivial
  | env event =>
      intro state _
      cases event <;> trivial

-- The task has not begun, and its job is in the map.
theorem maps_match_handOver : ∃ pool : Tracked, Reach tracking tidy Tracked.start pool ∧
    pool.Alive 3 ∧ (pool.part 3).Works "w0" "j" ∧ pool.state.1.Runs "w0" "j" := by
  have hrun : (tracking.stepsWhere tidyStep handOverRun Tracked.start).map (fun pool : Tracked =>
      pool.runs 3 && decide ((pool.part 3).Works "w0" "j")) = some true := by
    decide +kernel
  obtain ⟨pool, hreach, htest⟩ := exists_reach_where .start admitted_tidyStep hrun
  obtain ⟨hruns, hworks⟩ := Bool.and_eq_true_iff.mp htest
  have halive := alive_of_runs hruns
  have hw := of_decide_eq_true hworks
  exact ⟨pool, hreach, halive, hw, (maps_match hreach).running 3 "w0" "j" halive hw⟩

-- Its handle is noted, the task asks for a retry and releases the lock, and the job is claimed
-- and handed to a second task before the first removes it from the map.
def overlapRun : List (Label Chance Pid EnvEvent) :=
  handOverRun ++ [.run 1 {}] ++ List.replicate 4 (.run 3 {}) ++
    [.run 3 { result := .Completed (.ok { status := .Retry, retryAfterSeconds := some 0 }) }] ++
    List.replicate 5 (.run 3 {}) ++ List.replicate 12 (.run 1 {}) ++
    [.run 1 { child := 4 }, .run 3 {}]

-- The task is through before its handle is noted.
def staleRun : List (Label Chance Pid EnvEvent) :=
  handOverRun ++ List.replicate 4 (.run 3 {}) ++
    [.run 3 { result := .Completed (.ok { status := .Success }) }] ++
    List.replicate 6 (.run 3 {}) ++ [.run 1 {}]

def Tracked.unrestricted : Assume Op Chance (World × Parts) Pid Role EnvEvent where
  run _ _ _ _ _ := True
  env _ _ _ := True

theorem admitted_unrestricted (pool : Tracked) (label : Label Chance Pid EnvEvent) :
    tracking.Admitted Tracked.unrestricted pool label := by
  cases label with
  | run pid chance => exact fun _ _ _ _ => trivial
  | env event => exact fun _ _ => trivial

-- The second task runs without an entry, and the handle of a task that is through stays.
theorem maps_differ :
    (¬ ∀ pool : Tracked, Reach tracking Tracked.unrestricted Tracked.start pool → ∀ pid worker id,
      pool.Alive pid → (pool.part pid).Works worker id → pool.state.1.Runs worker id) ∧
    ¬ ∀ pool : Tracked, Reach tracking Tracked.unrestricted Tracked.start pool → ∀ worker id,
      (∀ pid, pool.Alive pid → ¬ (pool.part pid).Concerns worker id) →
        ¬ pool.state.1.Aborts worker id := by
  constructor
  · intro h
    have hrun : (tracking.steps overlapRun Tracked.start).map (fun pool : Tracked =>
        pool.runs 4 && decide ((pool.part 4).Works "w0" "j") &&
          (pool.state.1.mem "w0").running.isEmpty) = some true := by
      decide +kernel
    obtain ⟨pool, hreach, htest⟩ :=
      exists_reach .start (fun label _ pool => admitted_unrestricted pool label) hrun
    simp only [Bool.and_eq_true, decide_eq_true_eq, List.isEmpty_iff] at htest
    obtain ⟨⟨hruns, hworks⟩, hempty⟩ := htest
    have hin := h pool hreach 4 "w0" "j" (alive_of_runs hruns) hworks
    unfold World.Runs at hin
    rw [hempty] at hin
    exact List.not_mem_nil hin
  · intro h
    have hrun : (tracking.steps staleRun Tracked.start).map (fun pool : Tracked =>
        pool.state.2.all (fun entry => entry.2.isAside) &&
          decide ("j" ∈ (pool.state.1.mem "w0").aborts.map Prod.fst)) = some true := by
      decide +kernel
    obtain ⟨pool, hreach, htest⟩ :=
      exists_reach .start (fun label _ pool => admitted_unrestricted pool label) hrun
    obtain ⟨hidle, htest⟩ := Bool.and_eq_true_iff.mp htest
    have hin : "j" ∈ (pool.state.1.mem "w0").aborts.map Prod.fst := of_decide_eq_true htest
    refine h pool hreach "w0" "j" (fun pid _ => not_concerns_of_isAside ?_) hin
    exact Parts.part_of_forall (P := fun part => part.isAside = true) rfl (List.all_eq_true.mp hidle)
      pid

end Runs

end Rrq
