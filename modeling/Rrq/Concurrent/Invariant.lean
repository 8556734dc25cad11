import Rrq.Concurrent.Pool

-- What every permitted operation and every move of the surroundings keeps, holds wherever the
-- machine comes.

namespace Machine

variable {Op : Type} {Reply : Op → Type} {Chance σ Pid Role Env : Type} [DecidableEq Pid]
  {m : Machine Op Reply Chance σ Pid Role Env} {assume : Assume Op Chance σ Pid Role Env}

structure Keeps (m : Machine Op Reply Chance σ Pid Role Env)
    (assume : Assume Op Chance σ Pid Role Env) (permits : Role → Op → Prop)
    (possible : (op : Op) → Reply op → Prop) (inv : σ → Prop) : Prop where
  exec : ∀ pid role op chance s, inv s → permits role op → assume.run pid role op chance s →
    possible op (m.exec pid role op chance s).1 ∧ inv (m.exec pid role op chance s).2
  move : ∀ event s after, inv s → m.move event s = some after → assume.env event s after →
    inv after

-- The programs issue permitted operations only, as long as the replies are possible.
structure Permitted (m : Machine Op Reply Chance σ Pid Role Env) (permits : Role → Op → Prop)
    (possible : (op : Op) → Reply op → Prop) : Prop where
  fork : ∀ pid role op reply child other prog, permits role op →
    m.fork pid role op reply = some (child, other, prog) →
    prog.Issues (permits other) possible
  spawn : ∀ event child role prog, m.spawn event = some (child, role, prog) →
    prog.Issues (permits role) possible

variable {permits : Role → Op → Prop} {possible : (op : Op) → Reply op → Prop} {inv : σ → Prop}
  {start pool after : Pool Op Reply σ Pid Role}

-- The state is as stated, and every program goes on as permitted.
structure Orderly (permits : Role → Op → Prop) (possible : (op : Op) → Reply op → Prop)
    (inv : σ → Prop) (pool : Pool Op Reply σ Pid Role) : Prop where
  state : inv pool.state
  procs : ∀ pid role prog, pool.procs pid = some (role, prog) →
    prog.Issues (permits role) possible

theorem orderly_run (hk : m.Keeps assume permits possible inv) (hp : m.Permitted permits possible) {pid : Pid}
    {chance : Chance} (h : Orderly permits possible inv pool)
    (ha : m.Admitted assume pool (.run pid chance)) (hs : m.step pool (.run pid chance) = some after) :
    Orderly permits possible inv after := by
  simp only [step] at hs
  split at hs
  case h_2 => cases hs
  case h_1 role op next hproc =>
    obtain ⟨procs, henter, rfl⟩ := Option.map_eq_some_iff.mp hs
    obtain ⟨hpermitted, hnext⟩ := h.procs pid role _ hproc
    obtain ⟨hpossible, hinv⟩ :=
      hk.exec pid role op chance _ h.state hpermitted (ha role op next hproc)
    refine ⟨hinv, ?_⟩
    intro other owner prog hother
    rcases Argument.enter_moved henter hother with ⟨-, hmoved⟩ | ⟨-, hold⟩ | hchild
    · obtain ⟨rfl, rfl⟩ := Prod.mk.inj hmoved
      exact hnext _ hpossible
    · exact h.procs other owner prog hold
    · exact hp.fork pid role op _ other owner prog hpermitted hchild

theorem orderly_env (hk : m.Keeps assume permits possible inv) (hp : m.Permitted permits possible) {event : Env}
    (h : Orderly permits possible inv pool) (ha : m.Admitted assume pool (.env event))
    (hs : m.step pool (.env event) = some after) : Orderly permits possible inv after := by
  simp only [step, Option.bind_eq_some_iff, Option.map_eq_some_iff] at hs
  obtain ⟨state, hmove, procs, henter, rfl⟩ := hs
  refine ⟨hk.move event _ _ h.state hmove (ha state hmove), fun pid role prog hproc => ?_⟩
  rcases Argument.enter_cases henter hproc with hold | hchild
  · obtain ⟨⟨owner, code⟩, hcode, hkept⟩ := Option.map_eq_some_iff.mp hold
    split at hkept
    · cases hkept
      trivial
    · cases hkept
      exact h.procs pid role prog hcode
  · exact hp.spawn event pid role prog hchild

theorem orderly_reach (hk : m.Keeps assume permits possible inv) (hp : m.Permitted permits possible)
    (hstart : Orderly permits possible inv start) (hr : Reach m assume start pool) :
    Orderly permits possible inv pool := by
  induction hr with
  | start => exact hstart
  | step label _ ha hs ih =>
      cases label with
      | run pid chance => exact orderly_run hk hp ih ha hs
      | env event => exact orderly_env hk hp ih ha hs

end Machine
