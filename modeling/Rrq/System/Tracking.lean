import Rrq.Store.Ownership
import Rrq.System.Duties

-- Of the jobs in the memory of a worker, and the tasks that they are there for.

namespace Rrq

open Prog Machine

section Entries

variable {β : Type} {entries : List (JobId × β)} {id other : JobId}

theorem mem_assign {value : β} : other ∈ (assign entries id value).map Prod.fst ↔
    other = id ∨ other ∈ entries.map Prod.fst := by
  by_cases ho : other = id
  · simp [assign, ho]
  · simp [assign, ho]

theorem mem_unassign : other ∈ (unassign entries id).map Prod.fst ↔
    other ≠ id ∧ other ∈ entries.map Prod.fst := by
  simp only [unassign, List.mem_map, List.mem_filter, decide_eq_true_eq]
  constructor
  · rintro ⟨entry, ⟨hentry, hne⟩, rfl⟩
    exact ⟨hne, entry, hentry, rfl⟩
  · rintro ⟨hne, entry, hentry, rfl⟩
    exact ⟨entry, ⟨hentry, hne⟩, rfl⟩

theorem mem_update {update : β → β} : other ∈ (entries.map fun entry =>
      if entry.1 = id then (id, update entry.2) else entry).map Prod.fst ↔
    other ∈ entries.map Prod.fst := by
  have hsame : (entries.map fun entry =>
      if entry.1 = id then (id, update entry.2) else entry).map Prod.fst =
        entries.map Prod.fst := by
    rw [List.map_map]
    apply List.map_congr_left
    intro entry _
    simp only [Function.comp_apply]
    split_ifs with h
    · exact h.symm
    · rfl
  rw [hsame]

end Entries

-- The parts of the processes, as far as they have any.

def Part.leftBy (worker : WorkerId) (part : Part) : Part :=
  if part.host = some worker then .aside else part

abbrev Parts := List (Pid × Part)

namespace Parts

def part (parts : Parts) (pid : Pid) : Part := (parts.lookup pid).getD .aside

def give (parts : Parts) (pid : Pid) (part : Part) : Parts :=
  (pid, part) :: parts.filter fun entry => entry.1 ≠ pid

def note (pid : Pid) : (op : Op) → op.Reply → Parts → Parts
  | .spawnTask self job queueName, task, parts =>
      (parts.give pid ((parts.part pid).next (.spawnTask self job queueName) task)).give task
        (.working self job .started)
  | op, reply, parts => parts.give pid ((parts.part pid).next op reply)

-- With a worker its processes are gone.
def noteEnv : EnvEvent → Parts → Parts
  | .crash worker, parts => parts.map fun entry => (entry.1, entry.2.leftBy worker)
  | _, parts => parts

variable {parts : Parts} {pid other : Pid}

theorem part_give {part : Part} :
    (parts.give pid part).part other = if other = pid then part else parts.part other := by
  by_cases ho : other = pid
  · simp [give, Parts.part, ho]
  · rw [if_neg ho]
    unfold give Parts.part
    rw [List.lookup_cons, beq_false_of_ne ho]
    induction parts with
    | nil => rfl
    | cons entry parts ih =>
        obtain ⟨name, found⟩ := entry
        by_cases hn : name = pid
        · have hne : other ≠ name := hn ▸ ho
          simp only [List.filter_cons, hn, ne_eq, not_true_eq_false, decide_false,
            Bool.false_eq_true, if_false, List.lookup_cons, beq_false_of_ne ho]
          exact ih
        · simp only [List.filter_cons, hn, ne_eq, not_false_eq_true, decide_true, if_true,
            List.lookup_cons]
          cases other == name with
          | true => rfl
          | false => exact ih

theorem part_leftBy {worker : WorkerId} :
    Parts.part (parts.map fun entry => (entry.1, entry.2.leftBy worker)) pid =
      (parts.part pid).leftBy worker := by
  unfold Parts.part
  induction parts with
  | nil => rfl
  | cons entry parts ih =>
      obtain ⟨name, found⟩ := entry
      simp only [List.map_cons, List.lookup_cons]
      cases pid == name with
      | true => rfl
      | false => exact ih

theorem part_give_eq {part : Part} :
    (parts.give pid part).part = Function.update parts.part pid part := by
  funext other
  rw [part_give, Function.update_apply]

-- A part that is not listed is none.
theorem part_of_forall {P : Part → Prop} (ha : P .aside) (h : ∀ entry ∈ parts, P entry.2)
    (pid : Pid) : P (parts.part pid) := by
  unfold Parts.part
  cases hl : parts.lookup pid with
  | none => exact ha
  | some part =>
      obtain ⟨before, after, hparts, -⟩ := List.lookup_eq_some_iff.mp hl
      exact h (pid, part) (hparts ▸ List.mem_append_right before List.mem_cons_self)

end Parts

-- The two maps of a worker.

namespace World

def Runs (w : World) (worker : WorkerId) (id : JobId) : Prop :=
  id ∈ (w.mem worker).running.map Prod.fst

def Aborts (w : World) (worker : WorkerId) (id : JobId) : Prop :=
  id ∈ (w.mem worker).aborts.map Prod.fst

-- The maps have the same keys.
def SameMaps (a b : World) : Prop :=
  ∀ worker id, (b.Runs worker id ↔ a.Runs worker id) ∧ (b.Aborts worker id ↔ a.Aborts worker id)

variable {w : World} {owner worker : WorkerId} {id other : JobId}

theorem mem_setMem {update : Memory → Memory} : (w.setMem owner update).mem worker =
    if worker = owner then update (w.mem worker) else w.mem worker := by
  by_cases hw : worker = owner
  · simp [setMem, hw]
  · simp [setMem, hw]

theorem runs_setMem {update : Memory → Memory} (h : ∀ m, (update m).running = m.running) :
    (w.setMem owner update).Runs worker id ↔ w.Runs worker id := by
  unfold Runs
  rw [mem_setMem]
  split_ifs
  · rw [h]
  · rfl

theorem aborts_setMem {update : Memory → Memory} (h : ∀ m, (update m).aborts = m.aborts) :
    (w.setMem owner update).Aborts worker id ↔ w.Aborts worker id := by
  unfold Aborts
  rw [mem_setMem]
  split_ifs
  · rw [h]
  · rfl

theorem sameMaps_setMem {update : Memory → Memory}
    (hr : ∀ m id, id ∈ (update m).running.map Prod.fst ↔ id ∈ m.running.map Prod.fst)
    (ha : ∀ m, (update m).aborts = m.aborts) : SameMaps w (w.setMem owner update) := by
  intro worker id
  refine ⟨?_, aborts_setMem ha⟩
  unfold Runs
  rw [mem_setMem]
  split_ifs
  · exact hr _ _
  · rfl

end World

section Maps

variable {w : World} {pid : Pid} {role : Role} {chance : Chance} {owner worker : WorkerId}
  {id other : JobId}

-- These five aside, no operation changes who is in the maps.
def Op.Neutral : Op → Prop
  | insertRunning _ _ _ => False
  | spawnTask _ _ _ => False
  | insertAbort _ _ _ => False
  | removeRunning _ _ => False
  | removeAbort _ _ => False
  | _ => True

theorem sameMaps_exec {op : Op} (h : op.Neutral) :
    w.SameMaps (World.exec pid role op chance w).2 := by
  cases op with
  | noteRunning worker id update =>
      simp only [World.exec]
      apply World.sameMaps_setMem
      · exact fun _ _ => mem_update
      · exact fun _ => rfl
  | abortTasks worker =>
      simp only [World.exec]
      apply World.sameMaps_setMem
      · exact fun _ _ => .rfl
      · exact fun _ => rfl
  | requestShutdown worker =>
      simp only [World.exec]
      apply World.sameMaps_setMem
      · exact fun _ _ => .rfl
      · exact fun _ => rfl
  | _ => first | exact h.elim | exact fun _ _ => ⟨.rfl, .rfl⟩

theorem runs_insertRunning {info : RunningJobInfo} :
    (World.exec pid role (.insertRunning owner id info) chance w).2.Runs worker other ↔
      (worker = owner ∧ other = id) ∨ w.Runs worker other := by
  simp only [World.exec, World.Runs, World.mem_setMem]
  split_ifs with hw
  · rw [mem_assign]
    simp only [hw, true_and]
  · simp only [hw, false_and, false_or]

theorem aborts_insertRunning {info : RunningJobInfo} :
    (World.exec pid role (.insertRunning owner id info) chance w).2.Aborts worker other ↔
      w.Aborts worker other := by
  simp only [World.exec]
  apply World.aborts_setMem
  exact fun _ => rfl

theorem runs_insertAbort {task : Pid} :
    (World.exec pid role (.insertAbort owner id task) chance w).2.Runs worker other ↔
      w.Runs worker other := by
  simp only [World.exec]
  apply World.runs_setMem
  exact fun _ => rfl

theorem aborts_insertAbort {task : Pid} :
    (World.exec pid role (.insertAbort owner id task) chance w).2.Aborts worker other ↔
      (worker = owner ∧ other = id) ∨ w.Aborts worker other := by
  simp only [World.exec, World.Aborts, World.mem_setMem]
  split_ifs with hw
  · rw [mem_assign]
    simp only [hw, true_and]
  · simp only [hw, false_and, false_or]

theorem runs_removeRunning :
    (World.exec pid role (.removeRunning owner id) chance w).2.Runs worker other ↔
      ¬ (worker = owner ∧ other = id) ∧ w.Runs worker other := by
  simp only [World.exec, World.Runs, World.mem_setMem]
  split_ifs with hw
  · rw [mem_unassign]
    simp only [hw, true_and, ne_eq]
  · simp only [hw, false_and, not_false_eq_true, true_and]

theorem aborts_removeRunning :
    (World.exec pid role (.removeRunning owner id) chance w).2.Aborts worker other ↔
      w.Aborts worker other := by
  simp only [World.exec]
  apply World.aborts_setMem
  exact fun _ => rfl

theorem runs_removeAbort :
    (World.exec pid role (.removeAbort owner id) chance w).2.Runs worker other ↔
      w.Runs worker other := by
  simp only [World.exec]
  apply World.runs_setMem
  exact fun _ => rfl

theorem aborts_removeAbort :
    (World.exec pid role (.removeAbort owner id) chance w).2.Aborts worker other ↔
      ¬ (worker = owner ∧ other = id) ∧ w.Aborts worker other := by
  simp only [World.exec, World.Aborts, World.mem_setMem]
  split_ifs with hw
  · rw [mem_unassign]
    simp only [hw, true_and, ne_eq]
  · simp only [hw, false_and, not_false_eq_true, true_and]

end Maps

-- The first map has the jobs that a process covers, and each for one process only. A job in
-- the second is held by a task.
structure InStep (w : World) (part : Pid → Part) : Prop where
  running : ∀ worker id, w.Runs worker id ↔ ∃ pid, (part pid).Covers worker id
  aborts : ∀ worker id, w.Aborts worker id → ∃ pid, (part pid).Holds worker id
  alone : ∀ p q worker id, (part p).Covers worker id → (part q).Covers worker id → p = q

section InStep

variable {w after : World} {part : Pid → Part} {pid child : Pid} {last : Part}

theorem exists_update {P : Part → Prop} :
    (∃ q, P (Function.update part pid last q)) ↔ P last ∨ ∃ q, q ≠ pid ∧ P (part q) := by
  constructor
  · rintro ⟨q, hq⟩
    by_cases he : q = pid
    · subst he
      rw [Function.update_self] at hq
      exact .inl hq
    · rw [Function.update_of_ne he] at hq
      exact .inr ⟨q, he, hq⟩
  · rintro (hl | ⟨q, he, hq⟩)
    · exact ⟨pid, by rwa [Function.update_self]⟩
    · exact ⟨q, by rwa [Function.update_of_ne he]⟩

-- One process goes on to its next part.
theorem InStep.step (hs : InStep w part)
    (hr : ∀ worker id, after.Runs worker id ↔
      last.Covers worker id ∨ w.Runs worker id ∧ ¬ (part pid).Covers worker id)
    (ha : ∀ worker id, after.Aborts worker id → last.Holds worker id ∨
      (w.Aborts worker id ∧ ¬ (part pid).Holds worker id) ∨
        ∃ q, q ≠ pid ∧ (part q).Holds worker id)
    (hfree : ∀ worker id, last.Covers worker id → ∀ q, q ≠ pid → ¬ (part q).Covers worker id) :
    InStep after (Function.update part pid last) := by
  refine ⟨fun worker id => ?_, fun worker id h => ?_, fun p q worker id hp hq => ?_⟩
  · rw [hr, hs.running]
    refine Iff.trans (or_congr_right ⟨?_, ?_⟩)
      (exists_update (P := fun part => part.Covers worker id)).symm
    · rintro ⟨⟨q, hq⟩, hn⟩
      exact ⟨q, fun he => hn (he ▸ hq), hq⟩
    · rintro ⟨q, he, hq⟩
      exact ⟨⟨q, hq⟩, fun hp => he (hs.alone q pid worker id hq hp)⟩
  · apply (exists_update (P := fun part => part.Holds worker id)).mpr
    rcases ha worker id h with hl | ⟨hbefore, hn⟩ | hothers
    · exact .inl hl
    · obtain ⟨q, hq⟩ := hs.aborts worker id hbefore
      exact .inr ⟨q, fun he => hn (he ▸ hq), hq⟩
    · exact .inr hothers
  · by_cases hpp : p = pid
    · by_cases hqp : q = pid
      · rw [hpp, hqp]
      · rw [hpp, Function.update_self] at hp
        rw [Function.update_of_ne hqp] at hq
        exact absurd hq (hfree worker id hp q hqp)
    · rw [Function.update_of_ne hpp] at hp
      by_cases hqp : q = pid
      · rw [hqp, Function.update_self] at hq
        exact absurd hp (hfree worker id hq p hpp)
      · rw [Function.update_of_ne hqp] at hq
        exact hs.alone p q worker id hp hq

-- Where it covers and holds the same as before, the maps stay.
theorem InStep.stay (hs : InStep w part) (hw : w.SameMaps after)
    (hc : ∀ worker id, last.Covers worker id ↔ (part pid).Covers worker id)
    (hh : ∀ worker id, (part pid).Holds worker id → last.Holds worker id) :
    InStep after (Function.update part pid last) := by
  refine hs.step (fun worker id => ?_) (fun worker id h => ?_) fun worker id hl q hq hqc => ?_
  · rw [(hw worker id).1, hc]
    by_cases hp : (part pid).Covers worker id
    · exact iff_of_true ((hs.running worker id).mpr ⟨pid, hp⟩) (.inl hp)
    · simp only [hp, false_or, not_false_eq_true, and_true]
  · have hbefore := (hw worker id).2.mp h
    by_cases hp : (part pid).Holds worker id
    · exact .inl (hh worker id hp)
    · exact .inr (.inl ⟨hbefore, hp⟩)
  · exact hq (hs.alone q pid worker id hqc ((hc worker id).mp hl))

-- The poll loop gives a job into the hands of a task.
theorem InStep.handOver (hs : InStep w part) (hw : w.SameMaps after) (hne : child ≠ pid)
    (hchild : part child = .aside) {left taken : Part}
    (hl : ∀ worker id, ¬ left.Covers worker id ∧ ¬ (part pid).Holds worker id)
    (hc : ∀ worker id, taken.Covers worker id ↔ (part pid).Covers worker id) :
    InStep after (Function.update (Function.update part pid left) child taken) := by
  have hself : Function.update (Function.update part pid left) child taken pid = left := by
    rw [Function.update_of_ne (Ne.symm hne), Function.update_self]
  have hother : ∀ q, q ≠ pid → q ≠ child →
      Function.update (Function.update part pid left) child taken q = part q := by
    intro q hqp hqc
    rw [Function.update_of_ne hqc, Function.update_of_ne hqp]
  have haside : ∀ worker id, ¬ (part child).Covers worker id ∧ ¬ (part child).Holds worker id := by
    intro worker id
    rw [hchild]
    exact ⟨Part.covers_aside, Part.holds_aside⟩
  -- where a job is covered now, and where it was
  have hfrom : ∀ q worker id,
      (Function.update (Function.update part pid left) child taken q).Covers worker id →
        q = child ∧ (part pid).Covers worker id ∨
          q ≠ pid ∧ q ≠ child ∧ (part q).Covers worker id := by
    intro q worker id hq
    by_cases hqc : q = child
    · rw [hqc, Function.update_self] at hq
      exact .inl ⟨hqc, (hc worker id).mp hq⟩
    · by_cases hqp : q = pid
      · rw [hqp, hself] at hq
        exact absurd hq (hl worker id).1
      · rw [hother q hqp hqc] at hq
        exact .inr ⟨hqp, hqc, hq⟩
  refine ⟨fun worker id => ?_, fun worker id h => ?_, fun p q worker id hp hq => ?_⟩
  · rw [(hw worker id).1, hs.running]
    constructor
    · rintro ⟨q, hq⟩
      by_cases hqp : q = pid
      · refine ⟨child, ?_⟩
        rw [Function.update_self, hc]
        exact hqp ▸ hq
      · have hqc : q ≠ child := fun he => (haside worker id).1 (he ▸ hq)
        exact ⟨q, by rwa [hother q hqp hqc]⟩
    · rintro ⟨q, hq⟩
      rcases hfrom q worker id hq with ⟨-, hbefore⟩ | ⟨-, -, hbefore⟩
      · exact ⟨pid, hbefore⟩
      · exact ⟨q, hbefore⟩
  · obtain ⟨q, hq⟩ := hs.aborts worker id ((hw worker id).2.mp h)
    have hqp : q ≠ pid := fun he => (hl worker id).2 (he ▸ hq)
    have hqc : q ≠ child := fun he => (haside worker id).2 (he ▸ hq)
    exact ⟨q, by rwa [hother q hqp hqc]⟩
  · rcases hfrom p worker id hp with ⟨rfl, hbefore⟩ | ⟨hpp, hpc, hbefore⟩
    · rcases hfrom q worker id hq with ⟨rfl, -⟩ | ⟨hqp, -, hagain⟩
      · rfl
      · exact absurd (hs.alone q pid worker id hagain hbefore) hqp
    · rcases hfrom q worker id hq with ⟨rfl, hagain⟩ | ⟨-, -, hagain⟩
      · exact absurd (hs.alone p pid worker id hbefore hagain) hpp
      · exact hs.alone p q worker id hbefore hagain

end InStep

-- A worker whose processes take care: a job is noted as running only after its last task has
-- removed it, the handle of a task is noted while the task holds the job, and each task gets to
-- its cleanup.
def tidy : Assume Op Chance (World × Parts) Pid Role EnvEvent where
  run pid role op chance s := (s.2.part pid).Survives op (World.exec pid role op chance s.1).1 ∧
    match op with
    | .insertRunning worker id _ => ∀ entry ∈ s.2, ¬ entry.2.Covers worker id
    | .spawnTask _ job _ => (checkedAdd job.currentRetries 1).isSome
    | .insertAbort worker id task => (s.2.part task).Holds worker id
    | _ => True
  env
    | .kill _ task, s, _ => s.2.part task = .aside
    | _, _, _ => True

section Step

variable {w : World} {parts : Parts} {pid : Pid} {role : Role} {op : Op} {chance : Chance}

theorem next_neutral {part : Part} (h : op.Neutral) (reply : op.Reply) (worker : WorkerId)
    (id : JobId) : ((part.next op reply).Covers worker id ↔ part.Covers worker id) ∧
      ((part.next op reply).Holds worker id ↔ part.Holds worker id) := by
  unfold Part.next
  split
  case h_4 => simp
  case h_5 => simp
  case h_8 => simp
  all_goals exact h.elim

theorem part_note {reply : op.Reply} (h : ∀ self job queueName, op ≠ .spawnTask self job queueName) :
    (parts.note pid op reply).part =
      Function.update parts.part pid ((parts.part pid).next op reply) := by
  rw [← Parts.part_give_eq]
  unfold Parts.note
  split
  · exact absurd rfl (h _ _ _)
  · rfl

theorem inStep_exec (hs : InStep w parts.part) (ho : (parts.part pid).Allows op)
    (ht : tidy.run pid role op chance (w, parts))
    (hchild : ∀ self job queueName, op = .spawnTask self job queueName →
      chance.child ≠ pid ∧ parts.part chance.child = .aside) :
    InStep (World.exec pid role op chance w).2
      (parts.note pid op (World.exec pid role op chance w).1).part := by
  by_cases hneutral : op.Neutral
  · rw [part_note (by rintro _ _ _ rfl; exact hneutral)]
    exact hs.stay (sameMaps_exec hneutral) (fun worker id => (next_neutral hneutral _ worker id).1)
      fun worker id => (next_neutral hneutral _ worker id).2.mpr
  cases op with
  | insertRunning owner id info =>
      have hpart : parts.part pid = .aside := ho
      rw [part_note (by rintro _ _ _ ⟨⟩), hpart]
      refine hs.step (fun worker other => ?_) (fun worker other h => ?_)
        fun worker other hl q _ => ?_
      · simp [Part.next, runs_insertRunning, hpart, eq_comm]
      · simp only [hpart, Part.holds_aside, not_false_eq_true, and_true]
        exact .inr (.inl (aborts_insertRunning.mp h))
      · obtain ⟨rfl, rfl⟩ : owner = worker ∧ id = other := Part.covers_entered.mp hl
        exact Parts.part_of_forall (P := fun part => ¬ part.Covers owner id) Part.covers_aside
          ht.2 q
  | spawnTask self job queueName =>
      have hpart : parts.part pid = .entered self.workerId job.id := ho
      obtain ⟨hne, hfresh⟩ := hchild self job queueName rfl
      have hnote : (parts.note pid (.spawnTask self job queueName) chance.child).part =
          Function.update (Function.update parts.part pid
            (.spawned self.workerId job.id chance.child)) chance.child
              (.working self job .started) := by
        rw [Parts.note, Parts.part_give_eq, Parts.part_give_eq, hpart]
        rfl
      have hsame : w.SameMaps (World.exec pid role (.spawnTask self job queueName) chance w).2 :=
        fun _ _ => ⟨.rfl, .rfl⟩
      simp only [World.exec] at hsame ⊢
      rw [hnote]
      exact hs.handOver hsame hne hfresh (by simp [hpart]) (by simp [hpart])
  | insertAbort owner id task =>
      have hpart : parts.part pid = .spawned owner id task := ho
      rw [part_note (by rintro _ _ _ ⟨⟩), hpart]
      refine hs.step (fun worker other => ?_) (fun worker other h => ?_)
        fun worker other hl q _ => absurd hl Part.covers_aside
      · simp [Part.next, runs_insertAbort, hpart]
      · rcases aborts_insertAbort.mp h with ⟨rfl, rfl⟩ | hbefore
        · have hheld : (parts.part task).Holds worker other := ht.2
          refine .inr (.inr ⟨task, ?_, hheld⟩)
          rintro rfl
          rw [hpart] at hheld
          exact Part.holds_spawned hheld
        · simp only [hpart, Part.holds_spawned, not_false_eq_true, and_true]
          exact .inr (.inl hbefore)
  | removeRunning owner id =>
      obtain ⟨self, job, progress, hpart, rfl, rfl⟩ := Part.works_cases ho
      rw [part_note (by rintro _ _ _ ⟨⟩), hpart]
      refine hs.step (fun worker other => ?_) (fun worker other h => ?_)
        fun worker other hl q _ => absurd hl Part.covers_leaving
      · simp [Part.next, runs_removeRunning, hpart, eq_comm, and_comm]
      · by_cases hmine : self.workerId = worker ∧ job.id = other
        · exact .inl (Part.holds_leaving.mpr hmine)
        · rw [hpart, Part.holds_working]
          exact .inr (.inl ⟨aborts_removeRunning.mp h, hmine⟩)
  | removeAbort owner id =>
      have hpart : parts.part pid = .leaving owner id := ho
      rw [part_note (by rintro _ _ _ ⟨⟩), hpart]
      refine hs.step (fun worker other => ?_) (fun worker other h => ?_)
        fun worker other hl q _ => absurd hl Part.covers_aside
      · simp [Part.next, runs_removeAbort, hpart]
      · obtain ⟨hne, hbefore⟩ := aborts_removeAbort.mp h
        rw [hpart, Part.holds_leaving]
        exact .inr (.inl ⟨hbefore, fun hmine => hne ⟨hmine.1.symm, hmine.2.symm⟩⟩)
  | _ => exact absurd trivial hneutral

end Step

end Rrq
