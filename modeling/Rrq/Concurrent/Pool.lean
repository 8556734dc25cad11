import Rrq.Concurrent.Safe

-- Programs running side by side on one shared state, one operation at a time, in any order.
-- The surroundings may also move the state, stop programs and start new ones. A stopped
-- program stays where it was as one that has returned, so its name is not used again.

structure Machine (Op : Type) (Reply : Op → Type) (Chance σ Pid Role Env : Type) where
  exec : Pid → Role → (op : Op) → Chance → σ → Reply op × σ
  -- The program an operation starts, with the name and the role it runs under.
  fork : Pid → Role → (op : Op) → Reply op → Option (Pid × Role × Prog Op Reply Unit)
  move : Env → σ → Option σ
  stops : Env → Pid → Role → Bool
  spawn : Env → Option (Pid × Role × Prog Op Reply Unit)

structure Pool (Op : Type) (Reply : Op → Type) (σ Pid Role : Type) where
  state : σ
  procs : Pid → Option (Role × Prog Op Reply Unit)

inductive Label (Chance Pid Env : Type) where
  | run (pid : Pid) (chance : Chance)
  | env (event : Env)

namespace Machine

variable {Op : Type} {Reply : Op → Type} {Chance σ Pid Role Env : Type} [DecidableEq Pid]

-- Put a new program under a name that nothing else uses.
def enter (procs : Pid → Option (Role × Prog Op Reply Unit)) :
    Option (Pid × Role × Prog Op Reply Unit) → Option (Pid → Option (Role × Prog Op Reply Unit))
  | none => some procs
  | some (pid, role, prog) =>
      if (procs pid).isSome then none else some (Function.update procs pid (some (role, prog)))

def step (m : Machine Op Reply Chance σ Pid Role Env) (pool : Pool Op Reply σ Pid Role) :
    Label Chance Pid Env → Option (Pool Op Reply σ Pid Role)
  | .run pid chance =>
      match pool.procs pid with
      | some (role, .call op next) =>
          let result := m.exec pid role op chance pool.state
          (enter (Function.update pool.procs pid (some (role, next result.1)))
            (m.fork pid role op result.1)).map fun procs => ⟨result.2, procs⟩
      | _ => none
  | .env event =>
      (m.move event pool.state).bind fun state =>
        (enter (fun pid => (pool.procs pid).map fun proc =>
            if m.stops event pid proc.1 then (proc.1, .ret ()) else proc)
          (m.spawn event)).map fun procs => ⟨state, procs⟩

def steps (m : Machine Op Reply Chance σ Pid Role Env) :
    List (Label Chance Pid Env) → Pool Op Reply σ Pid Role → Option (Pool Op Reply σ Pid Role)
  | [], pool => some pool
  | label :: rest, pool => (m.step pool label).bind (m.steps rest)

-- What is assumed of the single steps of a run.
structure Assume (Op Chance σ Pid Role Env : Type) where
  run : Pid → Role → Op → Chance → σ → Prop
  env : Env → σ → σ → Prop

-- The step is one that the assumptions allow.
def Admitted (m : Machine Op Reply Chance σ Pid Role Env)
    (assume : Assume Op Chance σ Pid Role Env) (pool : Pool Op Reply σ Pid Role) :
    Label Chance Pid Env → Prop
  | .run pid chance => ∀ role op next, pool.procs pid = some (role, .call op next) →
      assume.run pid role op chance pool.state
  | .env event => ∀ state, m.move event pool.state = some state →
      assume.env event pool.state state

inductive Reach (m : Machine Op Reply Chance σ Pid Role Env)
    (assume : Assume Op Chance σ Pid Role Env) (start : Pool Op Reply σ Pid Role) :
    Pool Op Reply σ Pid Role → Prop
  | start : Reach m assume start start
  | step {pool after} (label : Label Chance Pid Env) : Reach m assume start pool →
      m.Admitted assume pool label → m.step pool label = some after → Reach m assume start after

variable {m : Machine Op Reply Chance σ Pid Role Env} {assume : Assume Op Chance σ Pid Role Env}

theorem Reach.trans {start mid pool : Pool Op Reply σ Pid Role} (hm : Reach m assume start mid)
    (hp : Reach m assume mid pool) : Reach m assume start pool := by
  induction hp with
  | start => exact hm
  | step label _ ha hs ih => exact .step label ih ha hs

-- A run through labels that are admitted wherever they stand.
theorem reach_steps {start pool after : Pool Op Reply σ Pid Role}
    {labels : List (Label Chance Pid Env)} (hp : Reach m assume start pool)
    (ha : ∀ label ∈ labels, ∀ pool, m.Admitted assume pool label)
    (hs : m.steps labels pool = some after) : Reach m assume start after := by
  induction labels generalizing pool with
  | nil =>
      obtain rfl := Option.some.inj hs
      exact hp
  | cons label labels ih =>
      obtain ⟨mid, hmid, hrest⟩ := Option.bind_eq_some_iff.mp hs
      exact ih (.step label hp (ha label List.mem_cons_self pool) hmid)
        (fun other ho => ha other (List.mem_cons_of_mem _ ho)) hrest

-- A run that ends as a test of its last pool says.
theorem exists_reach {start pool : Pool Op Reply σ Pid Role}
    {labels : List (Label Chance Pid Env)} {test : Pool Op Reply σ Pid Role → Bool}
    (hp : Reach m assume start pool)
    (ha : ∀ label ∈ labels, ∀ pool, m.Admitted assume pool label)
    (ht : (m.steps labels pool).map test = some true) :
    ∃ after, Reach m assume start after ∧ test after = true := by
  obtain ⟨after, hs, htest⟩ := Option.map_eq_some_iff.mp ht
  exact ⟨after, reach_steps hp ha hs, htest⟩

-- The same where a test admits each step in the pool that it is taken from.
def stepsWhere (m : Machine Op Reply Chance σ Pid Role Env)
    (ok : Pool Op Reply σ Pid Role → Label Chance Pid Env → Bool) :
    List (Label Chance Pid Env) → Pool Op Reply σ Pid Role → Option (Pool Op Reply σ Pid Role)
  | [], pool => some pool
  | label :: rest, pool =>
      if ok pool label then (m.step pool label).bind (m.stepsWhere ok rest) else none

theorem exists_reach_keeping {start pool : Pool Op Reply σ Pid Role}
    {ok : Pool Op Reply σ Pid Role → Label Chance Pid Env → Bool}
    {inv : Pool Op Reply σ Pid Role → Prop} {labels : List (Label Chance Pid Env)}
    {test : Pool Op Reply σ Pid Role → Bool} (hp : Reach m assume start pool) (hi : inv pool)
    (ha : ∀ pool label, inv pool → ok pool label = true → m.Admitted assume pool label)
    (hk : ∀ pool label after, inv pool → ok pool label = true →
      m.step pool label = some after → inv after)
    (ht : (m.stepsWhere ok labels pool).map test = some true) :
    ∃ after, Reach m assume start after ∧ test after = true := by
  induction labels generalizing pool with
  | nil => exact ⟨pool, hp, Option.some.inj ht⟩
  | cons label labels ih =>
      obtain ⟨after, hs, htest⟩ := Option.map_eq_some_iff.mp ht
      obtain ⟨hok, hs⟩ := Option.ite_none_right_eq_some.mp hs
      obtain ⟨mid, hmid, hrest⟩ := Option.bind_eq_some_iff.mp hs
      apply ih (.step label hp (ha pool label hi hok) hmid) (hk pool label mid hi hok hmid)
      rw [hrest]
      exact congrArg some htest

theorem exists_reach_where {start pool : Pool Op Reply σ Pid Role}
    {ok : Pool Op Reply σ Pid Role → Label Chance Pid Env → Bool}
    {labels : List (Label Chance Pid Env)} {test : Pool Op Reply σ Pid Role → Bool}
    (hp : Reach m assume start pool)
    (ha : ∀ pool label, ok pool label = true → m.Admitted assume pool label)
    (ht : (m.stepsWhere ok labels pool).map test = some true) :
    ∃ after, Reach m assume start after ∧ test after = true :=
  exists_reach_keeping hp trivial (fun pool label _ => ha pool label)
    (fun _ _ _ _ _ _ => trivial) ht

-- What holds of each step of a run, in the pool that the step is taken from.
def Along (m : Machine Op Reply Chance σ Pid Role Env)
    (holds : Pool Op Reply σ Pid Role → Label Chance Pid Env → Prop) :
    List (Label Chance Pid Env) → Pool Op Reply σ Pid Role → Prop
  | [], _ => True
  | label :: rest, pool => ∀ after, m.step pool label = some after →
      holds pool label ∧ m.Along holds rest after

-- The steps of a run are each as they should be exactly when each is admitted, if that is so
-- of a step after admitted ones.
theorem along_iff {start : Pool Op Reply σ Pid Role}
    {holds other : Pool Op Reply σ Pid Role → Label Chance Pid Env → Prop}
    (h : ∀ pool, Reach m assume start pool → ∀ label after, m.step pool label = some after →
      (holds pool label ↔ other pool label))
    (ha : ∀ pool label, other pool label → m.Admitted assume pool label)
    {pool : Pool Op Reply σ Pid Role} (hp : Reach m assume start pool)
    (labels : List (Label Chance Pid Env)) :
    m.Along holds labels pool ↔ m.Along other labels pool := by
  induction labels generalizing pool with
  | nil => exact Iff.rfl
  | cons label labels ih =>
      refine forall₂_congr fun after hs => ?_
      rw [h pool hp label after hs]
      exact and_congr_right fun hother => ih (.step label hp (ha pool label hother) hs)

theorem along_of_stepsWhere {ok : Pool Op Reply σ Pid Role → Label Chance Pid Env → Bool}
    {holds : Pool Op Reply σ Pid Role → Label Chance Pid Env → Prop}
    (hok : ∀ pool label, ok pool label = true → holds pool label)
    {labels : List (Label Chance Pid Env)} {pool : Pool Op Reply σ Pid Role}
    (h : (m.stepsWhere ok labels pool).isSome) : m.Along holds labels pool := by
  induction labels generalizing pool with
  | nil => trivial
  | cons label labels ih =>
      intro after hs
      obtain ⟨last, hlast⟩ := Option.isSome_iff_exists.mp h
      obtain ⟨hlabel, hrest⟩ := Option.ite_none_right_eq_some.mp hlast
      rw [hs] at hrest
      exact ⟨hok pool label hlabel, ih (Option.isSome_iff_exists.mpr ⟨last, hrest⟩)⟩

theorem along_last {holds : Pool Op Reply σ Pid Role → Label Chance Pid Env → Prop}
    {labels : List (Label Chance Pid Env)} {label : Label Chance Pid Env}
    {start pool after : Pool Op Reply σ Pid Role} (h : m.Along holds (labels ++ [label]) start)
    (hs : m.steps labels start = some pool) (hlast : m.step pool label = some after) :
    holds pool label := by
  induction labels generalizing start with
  | nil =>
      obtain rfl := Option.some.inj hs
      exact (h after hlast).1
  | cons first rest ih =>
      obtain ⟨mid, hmid, hrest⟩ := Option.bind_eq_some_iff.mp hs
      exact ih (h mid hmid).2 hrest

-- The proof obligations of a rely-guarantee argument over a machine.
structure Argument (m : Machine Op Reply Chance σ Pid Role Env)
    (assume : Assume Op Chance σ Pid Role Env) where
  inv : σ → Prop
  rely : Pid → Role → σ → σ → Prop
  guar : Pid → Role → σ → σ → Prop
  begins : Pid → Role → (op : Op) → Reply op → σ → Prop
  rely_refl : ∀ pid role s, rely pid role s s
  rely_trans : ∀ pid role a b c, rely pid role a b → rely pid role b c → rely pid role a c
  rely_of_guar : ∀ p q role other a b, p ≠ q → inv a → inv b → guar p role a b →
    rely q other a b

namespace Argument

variable (arg : Argument m assume)

def discipline (pid : Pid) (role : Role) : Discipline Op Reply Chance σ where
  exec := m.exec pid role
  admits op chance s := assume.run pid role op chance s
  inv := arg.inv
  rely := arg.rely pid role
  guar := arg.guar pid role
  begins := arg.begins pid role

def Safe (pid : Pid) (role : Role) (prog : Prog Op Reply Unit) (s : σ) : Prop :=
  (arg.discipline pid role).Safe (fun _ _ => True) prog s

-- What is left to show of the machine itself.
structure Sound : Prop where
  forks : ∀ p role op reply s child other prog, arg.inv s → arg.begins p role op reply s →
    m.fork p role op reply = some (child, other, prog) → arg.Safe child other prog s
  moves : ∀ event s after, arg.inv s → m.move event s = some after → assume.env event s after →
    arg.inv after
  survives : ∀ event s after p role, arg.inv s → m.move event s = some after →
    assume.env event s after → m.stops event p role = false → arg.rely p role s after
  spawns : ∀ event s after child role prog, arg.inv s → m.move event s = some after →
    assume.env event s after → m.spawn event = some (child, role, prog) →
    arg.Safe child role prog after

def Holds (pool : Pool Op Reply σ Pid Role) : Prop :=
  arg.inv pool.state ∧
    ∀ pid role prog, pool.procs pid = some (role, prog) → arg.Safe pid role prog pool.state

variable {arg}

omit [DecidableEq Pid] in
theorem safe_later {pid : Pid} {role : Role} {prog : Prog Op Reply Unit} {s later : σ}
    (hs : arg.Safe pid role prog s) (hr : arg.rely pid role s later) :
    arg.Safe pid role prog later :=
  Discipline.safe_rely (d := arg.discipline pid role) (arg.rely_trans pid role)
    (fun _ _ _ h _ => h) hs hr

theorem enter_kept {procs after : Pid → Option (Role × Prog Op Reply Unit)}
    {child : Option (Pid × Role × Prog Op Reply Unit)} (h : enter procs child = some after)
    {pid : Pid} {proc : Role × Prog Op Reply Unit} (hp : procs pid = some proc) :
    after pid = some proc := by
  match child with
  | none =>
      obtain rfl := Option.some.inj h
      exact hp
  | some (name, other, code) =>
      simp only [enter, Option.ite_none_left_eq_some, Option.some.injEq] at h
      obtain ⟨hfree, rfl⟩ := h
      have hne : pid ≠ name := by
        rintro rfl
        exact hfree (by rw [hp]; rfl)
      rwa [Function.update_of_ne hne]

theorem enter_child {procs after : Pid → Option (Role × Prog Op Reply Unit)} {name : Pid}
    {role : Role} {code : Prog Op Reply Unit}
    (h : enter procs (some (name, role, code)) = some after) :
    procs name = none ∧ after name = some (role, code) := by
  simp only [enter, Option.ite_none_left_eq_some, Option.some.injEq] at h
  obtain ⟨hfree, rfl⟩ := h
  exact ⟨Option.not_isSome_iff_eq_none.mp hfree, Function.update_self ..⟩

theorem enter_cases {procs after : Pid → Option (Role × Prog Op Reply Unit)}
    {child : Option (Pid × Role × Prog Op Reply Unit)} (h : enter procs child = some after)
    {pid : Pid} {role : Role} {prog : Prog Op Reply Unit}
    (hp : after pid = some (role, prog)) :
    procs pid = some (role, prog) ∨ child = some (pid, role, prog) := by
  match child with
  | none => exact .inl (by simp only [enter, Option.some.injEq] at h; exact h ▸ hp)
  | some (name, other, code) =>
      simp only [enter, Option.ite_none_left_eq_some, Option.some.injEq] at h
      obtain ⟨-, rfl⟩ := h
      by_cases hn : pid = name
      · subst hn
        simp only [Function.update_self, Option.some.injEq, Prod.mk.injEq] at hp
        exact .inr (by rw [hp.1, hp.2])
      · rw [Function.update_of_ne hn] at hp
        exact .inl hp

-- After an operation a program is the one that issued it, one that has not moved, or new.
theorem enter_moved {procs after : Pid → Option (Role × Prog Op Reply Unit)} {mover : Pid}
    {moved : Role × Prog Op Reply Unit} {child : Option (Pid × Role × Prog Op Reply Unit)}
    (h : enter (Function.update procs mover (some moved)) child = some after)
    {pid : Pid} {role : Role} {prog : Prog Op Reply Unit} (hp : after pid = some (role, prog)) :
    pid = mover ∧ moved = (role, prog) ∨ pid ≠ mover ∧ procs pid = some (role, prog) ∨
      child = some (pid, role, prog) := by
  rcases enter_cases h hp with hold | hchild
  · by_cases hpid : pid = mover
    · rw [hpid, Function.update_self] at hold
      exact .inl ⟨hpid, Option.some.inj hold⟩
    · rw [Function.update_of_ne hpid] at hold
      exact .inr (.inl ⟨hpid, hold⟩)
  · exact .inr (.inr hchild)

-- What an operation starts was not there before.
theorem enter_new {procs after : Pid → Option (Role × Prog Op Reply Unit)} {mover name : Pid}
    {moved : Role × Prog Op Reply Unit} {role : Role} {code : Prog Op Reply Unit}
    (h : enter (Function.update procs mover (some moved)) (some (name, role, code)) =
      some after) :
    name ≠ mover ∧ procs name = none ∧ after name = some (role, code) := by
  obtain ⟨hnone, hafter⟩ := enter_child h
  have hne : name ≠ mover := by
    rintro rfl
    rw [Function.update_self] at hnone
    cases hnone
  rw [Function.update_of_ne hne] at hnone
  exact ⟨hne, hnone, hafter⟩

-- One operation of one program.
theorem step_run (hsound : arg.Sound) {pool after : Pool Op Reply σ Pid Role} {pid : Pid}
    {chance : Chance} (hh : arg.Holds pool) (ha : m.Admitted assume pool (.run pid chance))
    (hs : m.step pool (.run pid chance) = some after) :
    arg.Holds after ∧ ∃ role prog, pool.procs pid = some (role, prog) ∧
      arg.guar pid role pool.state after.state := by
  obtain ⟨hinv, hprocs⟩ := hh
  simp only [Machine.step] at hs
  split at hs
  case h_2 => cases hs
  case h_1 role op next hp =>
    obtain ⟨procs, henter, rfl⟩ := Option.map_eq_some_iff.mp hs
    obtain ⟨hi, hg, hb, hsafe⟩ := hprocs pid role _ hp pool.state (arg.rely_refl _ _ _) chance
      (m.exec pid role op chance pool.state).1 (m.exec pid role op chance pool.state).2
      ⟨hinv, ha role op next hp, rfl⟩
    refine ⟨⟨hi, fun q other prog hq => ?_⟩, role, _, hp, hg⟩
    rcases enter_moved henter hq with ⟨rfl, hmoved⟩ | ⟨hqp, hold⟩ | hchild
    · obtain ⟨rfl, rfl⟩ := Prod.mk.inj hmoved
      exact hsafe
    · exact safe_later (hprocs q other prog hold)
        (arg.rely_of_guar pid q role other _ _ (Ne.symm hqp) hinv hi hg)
    · exact hsound.forks pid role op _ _ q other prog hi hb hchild

-- One move of the surroundings.
theorem step_env (hsound : arg.Sound) {pool after : Pool Op Reply σ Pid Role} {event : Env}
    (hh : arg.Holds pool) (ha : m.Admitted assume pool (.env event))
    (hs : m.step pool (.env event) = some after) : arg.Holds after := by
  obtain ⟨hinv, hprocs⟩ := hh
  simp only [Machine.step, Option.bind_eq_some_iff, Option.map_eq_some_iff] at hs
  obtain ⟨state, hmove, procs, henter, rfl⟩ := hs
  have hassume := ha state hmove
  refine ⟨hsound.moves event _ _ hinv hmove hassume, fun q role prog hq => ?_⟩
  rcases enter_cases henter hq with hold | hchild
  · obtain ⟨⟨other, code⟩, hcode, hq⟩ := Option.map_eq_some_iff.mp hold
    split at hq
    · obtain ⟨rfl, rfl⟩ := Prod.mk.injEq .. ▸ hq
      exact Discipline.safe_ret trivial
    · rename_i hstop
      obtain ⟨rfl, rfl⟩ := Prod.mk.injEq .. ▸ hq
      exact safe_later (hprocs q other code hcode)
        (hsound.survives event _ _ q other hinv hmove hassume (by simpa using hstop))
  · exact hsound.spawns event _ _ q role prog hinv hmove hassume hchild

theorem holds_step (hsound : arg.Sound) {pool after : Pool Op Reply σ Pid Role}
    (hh : arg.Holds pool) (label : Label Chance Pid Env) (ha : m.Admitted assume pool label)
    (hs : m.step pool label = some after) : arg.Holds after := by
  cases label with
  | run pid chance => exact (step_run hsound hh ha hs).1
  | env event => exact step_env hsound hh ha hs

-- The invariant holds in every pool that the machine reaches.
theorem holds_reach (hsound : arg.Sound) {start pool : Pool Op Reply σ Pid Role}
    (hstart : arg.Holds start) (hr : Reach m assume start pool) : arg.Holds pool := by
  induction hr with
  | start => exact hstart
  | step label _ ha hs ih => exact holds_step hsound ih label ha hs

end Argument

end Machine
