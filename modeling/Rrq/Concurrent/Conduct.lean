import Rrq.Concurrent.Pool

-- Programs that keep to a code of conduct. It says which operations each stage allows, which
-- replies are to be expected, and the stage that follows.

structure Conduct (Op : Type) (Reply : Op → Type) (Stage : Type) where
  allows : Stage → Op → Prop
  possible : Stage → (op : Op) → Reply op → Prop
  next : Stage → (op : Op) → Reply op → Stage

namespace Conduct

variable {Op : Type} {Reply : Op → Type} {Stage α β : Type}

open Prog

def Conforms (c : Conduct Op Reply Stage) (post : α → Stage → Prop) :
    Prog Op Reply α → Stage → Prop
  | .ret value, stage => post value stage
  | .call op next, stage => c.allows stage op ∧
      ∀ reply, c.possible stage op reply → c.Conforms post (next reply) (c.next stage op reply)

variable {c : Conduct Op Reply Stage} {post : α → Stage → Prop} {stage : Stage}

theorem conforms_ret {value : α} (h : post value stage) : c.Conforms post (ret value) stage := h

theorem conforms_call {op : Op} {next : Reply op → Prog Op Reply α} (ha : c.allows stage op)
    (hn : ∀ reply, c.possible stage op reply →
      c.Conforms post (next reply) (c.next stage op reply)) :
    c.Conforms post (perform op >>= next) stage := ⟨ha, hn⟩

theorem conforms_bind {mid : β → Stage → Prop} {prog : Prog Op Reply β}
    {rest : β → Prog Op Reply α} (hp : c.Conforms mid prog stage)
    (hr : ∀ value stage, mid value stage → c.Conforms post (rest value) stage) :
    c.Conforms post (prog >>= rest) stage := by
  induction prog generalizing stage with
  | ret value => exact hr value stage hp
  | call op next ih => exact ⟨hp.1, fun reply hreply => ih reply (hp.2 reply hreply)⟩

theorem Conforms.mono {weaker : α → Stage → Prop} {prog : Prog Op Reply α}
    (hp : c.Conforms post prog stage) (h : ∀ value stage, post value stage → weaker value stage) :
    c.Conforms weaker prog stage := by
  induction prog generalizing stage with
  | ret value => exact h value stage hp
  | call op next ih => exact ⟨hp.1, fun reply hreply => ih reply (hp.2 reply hreply)⟩

-- Operations that are allowed throughout and leave the stage alone.
theorem conforms_of_issues {permits : Op → Prop} {possible : (op : Op) → Reply op → Prop}
    {prog : Prog Op Reply α} (hp : prog.Issues permits possible)
    (hstep : ∀ op, permits op → c.allows stage op ∧ ∀ reply, c.possible stage op reply →
      possible op reply ∧ c.next stage op reply = stage) :
    c.Conforms (fun _ last => last = stage) prog stage := by
  induction prog with
  | ret value => rfl
  | call op next ih =>
      obtain ⟨ha, hn⟩ := hstep op hp.1
      refine ⟨ha, fun reply hreply => ?_⟩
      obtain ⟨hpossible, hsame⟩ := hn reply hreply
      rw [hsame]
      exact ih reply (hp.2 reply hpossible)

-- What the stages that a program can get to allow is all that it issues.
theorem Conforms.issues {permits : Op → Prop} {possible : (op : Op) → Reply op → Prop}
    {visits : Stage → Prop} {prog : Prog Op Reply α} (hp : c.Conforms post prog stage)
    (hs : visits stage) (hstep : ∀ stage op, visits stage → c.allows stage op →
      permits op ∧ ∀ reply, possible op reply →
        c.possible stage op reply ∧ visits (c.next stage op reply)) :
    prog.Issues permits possible := by
  induction prog generalizing stage with
  | ret value => trivial
  | call op next ih =>
      obtain ⟨hpermits, hn⟩ := hstep stage op hs hp.1
      refine ⟨hpermits, fun reply hreply => ?_⟩
      obtain ⟨hpossible, hvisits⟩ := hn reply hreply
      exact ih reply (hp.2 reply hpossible) hvisits

theorem Conforms.yields {answer : α → Prop} {prog : Prog Op Reply α}
    (hp : c.Conforms post prog stage) (hy : prog.Yields answer) :
    c.Conforms (fun value stage => post value stage ∧ answer value) prog stage := by
  induction prog generalizing stage with
  | ret value => exact ⟨hp, hy⟩
  | call op next ih => exact ⟨hp.1, fun reply hreply => ih reply (hp.2 reply hreply) (hy reply)⟩

-- A run of a program with replies as expected, from stage to stage.
inductive Runs (c : Conduct Op Reply Stage) : Prog Op Reply α → Stage → α → Stage → Prop
  | ret {value : α} {stage : Stage} : Runs c (.ret value) stage value stage
  | call {op : Op} {next : Reply op → Prog Op Reply α} {value : α} {stage last : Stage}
      (reply : Reply op) (hp : c.possible stage op reply)
      (hn : Runs c (next reply) (c.next stage op reply) value last) :
      Runs c (.call op next) stage value last

theorem Conforms.of_runs {prog : Prog Op Reply α} {value : α} {last : Stage}
    (hp : c.Conforms post prog stage) (hr : c.Runs prog stage value last) : post value last := by
  induction hr with
  | ret => exact hp
  | call reply hpossible _ ih => exact ih (hp.2 reply hpossible)

section Follow

variable {σ Chance : Type} (c : Conduct Op Reply Stage)
  (exec : (op : Op) → Chance → σ → Reply op × σ) (test : (op : Op) → Reply op → Bool)

-- The stage that a program comes to when it is run alone, if all replies pass a test.
def follow (oracle : Nat → Op → Chance) : Prog Op Reply α → Nat → σ → Stage → Option Stage
  | .ret _, _, _, stage => some stage
  | .call op next, count, state, stage =>
      let (reply, state) := exec op (oracle count op) state
      if test op reply then follow oracle (next reply) (count + 1) state (c.next stage op reply)
      else none

variable {c exec test}

theorem runs_of_follow (htest : ∀ stage op reply, test op reply = true → c.possible stage op reply)
    {oracle : Nat → Op → Chance} {prog : Prog Op Reply α} {count : Nat} {state : σ}
    {stage last : Stage} (h : c.follow exec test oracle prog count state stage = some last) :
    c.Runs prog stage (prog.run exec oracle count state).1 last := by
  induction prog generalizing count state stage with
  | ret value =>
      obtain rfl := Option.some.inj h
      exact .ret
  | call op next ih =>
      obtain ⟨hreply, hrest⟩ := Option.ite_none_right_eq_some.mp h
      exact .call _ (htest stage op _ hreply) (ih _ hrest)

end Follow

-- The same conduct, with something that is to hold at every stage that an operation is issued at.
def holding (c : Conduct Op Reply Stage) (keeps : Stage → Prop) : Conduct Op Reply Stage where
  allows stage op := keeps stage ∧ c.allows stage op
  possible := c.possible
  next := c.next

theorem Conforms.of_holding {keeps : Stage → Prop} {prog : Prog Op Reply α}
    (hp : (c.holding keeps).Conforms post prog stage) : c.Conforms post prog stage := by
  induction prog generalizing stage with
  | ret value => exact hp
  | call op next ih => exact ⟨hp.1.2, fun reply hreply => ih reply (hp.2 reply hreply)⟩

-- A program that keeps to its conduct is safe, if the operations that a stage allows are
-- harmless wherever the state is as the stage says.
theorem Conforms.safe {Chance σ : Type} {d : Discipline Op Reply Chance σ} {post : α → Stage → Prop}
    (within : Stage → σ → Prop)
    (hrely : ∀ stage a b, within stage a → d.rely a b → within stage b)
    (hstep : ∀ stage op chance before reply after, c.allows stage op → within stage before →
      d.Step op chance before reply after → d.inv after ∧ d.guar before after ∧
        d.begins op reply after ∧ c.possible stage op reply ∧
          within (c.next stage op reply) after)
    {prog : Prog Op Reply α} (hp : c.Conforms post prog stage) {state : σ}
    (hs : within stage state) : d.Safe (fun _ _ => True) prog state := by
  induction prog generalizing stage state with
  | ret value => trivial
  | call op next ih =>
      intro before hbefore chance reply after h
      obtain ⟨hi, hg, hb, hreply, hs'⟩ :=
        hstep stage op chance before reply after hp.1 (hrely _ _ _ hs hbefore) h
      exact ⟨hi, hg, hb, ih reply (hp.2 reply hreply) hs'⟩

end Conduct

-- Writing down beside the state what programs and surroundings do.

namespace Machine

variable {Op : Type} {Reply : Op → Type} {Chance σ τ Pid Role Env : Type} [DecidableEq Pid]

def recording (m : Machine Op Reply Chance σ Pid Role Env)
    (note : Pid → (op : Op) → Reply op → τ → τ) (noteEnv : Env → τ → τ) :
    Machine Op Reply Chance (σ × τ) Pid Role Env where
  exec pid role op chance s :=
    let (reply, after) := m.exec pid role op chance s.1
    (reply, after, note pid op reply s.2)
  fork := m.fork
  move event s := (m.move event s.1).map fun after => (after, noteEnv event s.2)
  stops := m.stops
  spawn := m.spawn

def bare (pool : Pool Op Reply (σ × τ) Pid Role) : Pool Op Reply σ Pid Role :=
  ⟨pool.state.1, pool.procs⟩

-- The record changes nothing about what can happen.
theorem step_recording (m : Machine Op Reply Chance σ Pid Role Env)
    (note : Pid → (op : Op) → Reply op → τ → τ) (noteEnv : Env → τ → τ)
    (pool : Pool Op Reply (σ × τ) Pid Role) (label : Label Chance Pid Env) :
    ((m.recording note noteEnv).step pool label).map bare = m.step (bare pool) label := by
  cases label with
  | run pid chance =>
      simp only [step, bare]
      split
      · simp only [recording, Option.map_map]
        rfl
      · rfl
  | env event =>
      simp only [step, recording, bare]
      cases m.move event pool.state.1 with
      | none => rfl
      | some after =>
          simp only [Option.map_some, Option.bind_some, Option.map_map]
          rfl

-- Every program that is started keeps to the conduct of its role, from the idle stage on. The
-- stages are those that the record has of the programs.
structure Conducted (m : Machine Op Reply Chance σ Pid Role Env)
    (assume : Assume Op Chance (σ × τ) Pid Role Env)
    (note : Pid → (op : Op) → Reply op → τ → τ) (noteEnv : Env → τ → τ) (stage : τ → Pid → Stage)
    (c : Role → Conduct Op Reply Stage) (idle : Stage) : Prop where
  fork : ∀ pid role op reply, m.fork pid role op reply = none
  note : ∀ pid role op reply t, stage (note pid op reply t) =
    Function.update (stage t) pid ((c role).next (stage t pid) op reply)
  noteEnv : ∀ event t, stage (noteEnv event t) = stage t
  possible : ∀ pid role op chance s t, assume.run pid role op chance (s, t) →
    (c role).possible (stage t pid) op (m.exec pid role op chance s).1
  spawn : ∀ event pid role prog, m.spawn event = some (pid, role, prog) →
    (c role).Conforms (fun _ _ => True) prog idle

section Conducted

variable {Stage : Type} {m : Machine Op Reply Chance σ Pid Role Env}
  {assume : Assume Op Chance (σ × τ) Pid Role Env} {note : Pid → (op : Op) → Reply op → τ → τ}
  {noteEnv : Env → τ → τ} {stage : τ → Pid → Stage} {c : Role → Conduct Op Reply Stage}
  {idle : Stage} {start pool after : Pool Op Reply (σ × τ) Pid Role}

-- Each program keeps to its conduct from here on, and a name without a program is idle.
structure InConduct (stage : τ → Pid → Stage) (c : Role → Conduct Op Reply Stage) (idle : Stage)
    (pool : Pool Op Reply (σ × τ) Pid Role) : Prop where
  conforms : ∀ pid role prog, pool.procs pid = some (role, prog) →
    (c role).Conforms (fun _ _ => True) prog (stage pool.state.2 pid)
  idle : ∀ pid, pool.procs pid = none → stage pool.state.2 pid = idle

-- A step of a program, where operations start no others.
theorem step_recording_run (hfork : ∀ pid role op reply, m.fork pid role op reply = none)
    {pid : Pid} {chance : Chance}
    (hs : (m.recording note noteEnv).step pool (.run pid chance) = some after) :
    ∃ role op next, pool.procs pid = some (role, .call op next) ∧
      after.state = ((m.exec pid role op chance pool.state.1).2,
        note pid op (m.exec pid role op chance pool.state.1).1 pool.state.2) ∧
      after.procs = Function.update pool.procs pid
        (some (role, next (m.exec pid role op chance pool.state.1).1)) := by
  simp only [step] at hs
  split at hs
  case h_2 => cases hs
  case h_1 role op next hproc =>
    simp only [recording, hfork, enter, Option.map_some, Option.some.injEq] at hs
    subst hs
    exact ⟨role, op, next, hproc, rfl, rfl⟩

-- A move of the surroundings. A program it does not stop or start stays where it is.
theorem step_recording_env {event : Env}
    (hs : (m.recording note noteEnv).step pool (.env event) = some after) :
    ∃ moved, m.move event pool.state.1 = some moved ∧
      after.state = (moved, noteEnv event pool.state.2) ∧
      enter (fun pid => (pool.procs pid).map fun proc =>
        if m.stops event pid proc.1 then (proc.1, .ret ()) else proc) (m.spawn event) =
          some after.procs := by
  simp only [step, recording, Option.bind_eq_some_iff, Option.map_eq_some_iff] at hs
  obtain ⟨_, ⟨moved, hmove, rfl⟩, procs, henter, rfl⟩ := hs
  exact ⟨moved, hmove, rfl, henter⟩

theorem inConduct_run (hc : m.Conducted assume note noteEnv stage c idle)
    (hp : InConduct stage c idle pool) {pid : Pid} {chance : Chance}
    (ha : (m.recording note noteEnv).Admitted assume pool (.run pid chance))
    (hs : (m.recording note noteEnv).step pool (.run pid chance) = some after) :
    InConduct stage c idle after := by
  obtain ⟨role, op, next, hproc, hstate, hprocs⟩ := step_recording_run hc.fork hs
  have hpossible := hc.possible pid role op chance _ _ (ha role op next hproc)
  have hnext := (hp.conforms pid role _ hproc).2 _ hpossible
  have hstage : stage after.state.2 = Function.update (stage pool.state.2) pid
      ((c role).next (stage pool.state.2 pid) op (m.exec pid role op chance pool.state.1).1) := by
    rw [hstate]
    exact hc.note pid role op _ _
  constructor
  · intro other owner prog hother
    rw [hprocs] at hother
    rw [hstage]
    by_cases heq : other = pid
    · subst heq
      rw [Function.update_self] at hother ⊢
      cases hother
      exact hnext
    · rw [Function.update_of_ne heq] at hother ⊢
      exact hp.conforms other owner prog hother
  · intro other hother
    rw [hprocs] at hother
    rw [hstage]
    by_cases heq : other = pid
    · rw [heq, Function.update_self] at hother
      cases hother
    · rw [Function.update_of_ne heq] at hother ⊢
      exact hp.idle other hother

theorem inConduct_env (hc : m.Conducted assume note noteEnv stage c idle)
    (hp : InConduct stage c idle pool) {event : Env}
    (hs : (m.recording note noteEnv).step pool (.env event) = some after) :
    InConduct stage c idle after := by
  obtain ⟨moved, -, hstate, henter⟩ := step_recording_env hs
  have hstage : stage after.state.2 = stage pool.state.2 := by
    rw [hstate]
    exact hc.noteEnv event _
  constructor
  · intro pid role prog hproc
    rw [hstage]
    rcases Argument.enter_cases henter hproc with hold | hchild
    · obtain ⟨⟨owner, code⟩, hcode, hkept⟩ := Option.map_eq_some_iff.mp hold
      split at hkept
      · cases hkept
        exact Conduct.conforms_ret trivial
      · cases hkept
        exact hp.conforms pid role prog hcode
    · rw [hchild] at henter
      have hfree := (Argument.enter_child henter).1
      rw [hp.idle pid (Option.map_eq_none_iff.mp hfree)]
      exact hc.spawn event pid role prog hchild
  · intro pid hproc
    rw [hstage]
    refine hp.idle pid ?_
    cases hold : pool.procs pid with
    | none => rfl
    | some proc =>
        have hkept := Argument.enter_kept henter (congrArg (Option.map _) hold)
        rw [hproc] at hkept
        cases hkept

-- What the programs' operations and the surroundings keep, the operations as far as the conduct
-- allows them, holds wherever the machine comes, and the programs keep to their conduct.
theorem conducted_reach (hc : m.Conducted assume note noteEnv stage c idle) {inv : σ → τ → Prop}
    (hrun : ∀ pid role op chance s t, inv s t → assume.run pid role op chance (s, t) →
      (c role).allows (stage t pid) op →
        inv (m.exec pid role op chance s).2 (note pid op (m.exec pid role op chance s).1 t))
    (henv : ∀ event s t moved, inv s t → m.move event s = some moved →
      inv moved (noteEnv event t))
    (hinv : inv start.state.1 start.state.2) (hstart : InConduct stage c idle start)
    (hr : Reach (m.recording note noteEnv) assume start pool) :
    inv pool.state.1 pool.state.2 ∧ InConduct stage c idle pool := by
  induction hr with
  | start => exact ⟨hinv, hstart⟩
  | step label _ ha hs ih =>
      obtain ⟨hi, hp⟩ := ih
      cases label with
      | run pid chance =>
          refine ⟨?_, inConduct_run hc hp ha hs⟩
          obtain ⟨role, op, next, hproc, hstate, -⟩ := step_recording_run hc.fork hs
          rw [hstate]
          exact hrun pid role op chance _ _ hi (ha role op next hproc)
            (hp.conforms pid role _ hproc).1
      | env event =>
          refine ⟨?_, inConduct_env hc hp hs⟩
          obtain ⟨moved, hmove, hstate, -⟩ := step_recording_env hs
          rw [hstate]
          exact henv event _ _ moved hi hmove

end Conducted

end Machine
