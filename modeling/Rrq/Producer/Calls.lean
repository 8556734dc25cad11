import Rrq.Producer.Argv.Theorems
import Rrq.Producer.Idempotency

-- What a call of the producer does beside its script. It settles the arguments of the script
-- or turns the caller down, and the store has no part in either.

namespace Rrq.Producer

-- The program asks for an id and for the time at most before it comes to its script.
inductive Prepares {α : Type} (rejected : α → Prop) (script : Proc α → Prop) : Proc α → Prop
  | rejected {answer : α} : rejected answer → Prepares rejected script (.ret answer)
  | script {program : Proc α} : script program → Prepares rejected script program
  | newId {next : String → Proc α} : (∀ text, Prepares rejected script (next text)) →
      Prepares rejected script (.call .newId next)
  | utcNow {next : DateTime → Proc α} : (∀ now, Prepares rejected script (next now)) →
      Prepares rejected script (.call .utcNow next)

theorem Prepares.mono {α : Type} {rejected : α → Prop} {script other : Proc α → Prop}
    {program : Proc α} (h : Prepares rejected script program)
    (hs : ∀ program, script program → other program) : Prepares rejected other program := by
  induction h with
  | rejected hanswer => exact .rejected hanswer
  | script hscript => exact .script (hs _ hscript)
  | newId _ ih => exact .newId ih
  | utcNow _ ih => exact .utcNow ih

theorem Prepares.run {α : Type} {rejected : α → Prop} {script : Proc α → Prop}
    {program : Proc α} (h : Prepares rejected script program) (pid : Pid) (role : Role)
    (oracle : Nat → Op → Chance) (n : Nat) :
    (∃ answer k, rejected answer ∧
      ∀ w, Prog.run (World.exec pid role) oracle program n w = (answer, k, w)) ∨
    ∃ rest k, script rest ∧ ∀ w, Prog.run (World.exec pid role) oracle program n w =
      Prog.run (World.exec pid role) oracle rest k w := by
  induction h generalizing n with
  | @rejected answer hanswer => exact .inl ⟨answer, n, hanswer, fun w => rfl⟩
  | @script program hscript => exact .inr ⟨program, n, hscript, fun w => rfl⟩
  | newId _ ih => exact ih (oracle n .newId).text (n + 1)
  | utcNow _ ih => exact ih (oracle n .utcNow).now (n + 1)

-- The caller is turned down for what it asked for.
def TurnedDown {α : Type} (answer : Except EnqueueError α) : Prop :=
  ∃ error, answer = .error error ∧ error ≠ .jobIdExists ∧ ∀ failure, error ≠ .redis failure

-- A call that finds its job id taken has come to its script.
theorem Prepares.run_script {α : Type} {script : Proc (Except EnqueueError α) → Prop}
    {program : Proc (Except EnqueueError α)} (h : Prepares TurnedDown script program) (pid : Pid)
    (role : Role) (oracle : Nat → Op → Chance) (n : Nat) {w : World}
    (hrun : (Prog.run (World.exec pid role) oracle program n w).1 = .error .jobIdExists) :
    ∃ rest k, script rest ∧ Prog.run (World.exec pid role) oracle program n w =
      Prog.run (World.exec pid role) oracle rest k w := by
  rcases h.run pid role oracle n with ⟨answer, k, ⟨error, rfl, hne, -⟩, hall⟩ | ⟨rest, k, hrest, hall⟩
  · rw [hall w] at hrun
    exact absurd (Except.error.inj hrun) hne
  · exact ⟨rest, k, hrest, hall w⟩

theorem turnedDown_emptyName {α : Type} {label value : String} {error : EnqueueError}
    (h : validateName label value = .error error) :
    TurnedDown (.error error : Except EnqueueError α) := by
  unfold validateName at h
  split_ifs at h
  obtain rfl := Except.error.inj h
  exact ⟨_, rfl, nofun, nofun⟩

section Calls

variable {α : Type} {config : Config} {functionName : String} {params : Params}
  {options : EnqueueOptions}

theorem prepares_jobArgs {schedule : DateTime → Option DateTime}
    {script : Proc (Except EnqueueError α) → Prop}
    {next : Except EnqueueError JobArgs → Proc (Except EnqueueError α)}
    (herror : ∀ error, TurnedDown (.error error : Except EnqueueError α) →
      Prepares TurnedDown script (next (.error error)))
    (hargs : ∀ args, Effective config functionName params options schedule args →
      Prepares TurnedDown script (next (.ok args))) :
    Prepares TurnedDown script (jobArgs config functionName params options schedule >>= next) := by
  have hrest : ∀ id enqueueTime, (∀ given ∈ options.jobId, id = given) →
      (∀ given ∈ options.enqueueTime, enqueueTime = given) →
      Prepares TurnedDown script (jobArgs config functionName params
        { options with jobId := some id, enqueueTime := some enqueueTime } schedule >>= next) := by
    intro id enqueueTime hid htime
    unfold jobArgs given
    simp only [Prog.pure_eq_ret, Prog.ret_bind]
    split
    · exact herror _ ⟨_, rfl, nofun, nofun⟩
    · rename_i scheduledTime hscheduled
      split_ifs
      · exact herror _ ⟨_, rfl, nofun, nofun⟩
      · exact hargs _ ⟨hid, rfl, rfl, htime, hscheduled, rfl, rfl, rfl, rfl, rfl, rfl⟩
  unfold jobArgs given at *
  simp only [Prog.pure_eq_ret, Prog.ret_bind] at hrest
  cases hjob : options.jobId with
  | some id =>
      simp only [Prog.pure_eq_ret, Prog.ret_bind]
      cases henqueue : options.enqueueTime with
      | some time => exact hrest id time (by simp [hjob]) (by simp [henqueue])
      | none => exact .utcNow fun now => hrest id now (by simp [hjob]) (by simp [henqueue])
  | none =>
      refine .newId fun id => ?_
      cases henqueue : options.enqueueTime with
      | some time => exact hrest id time (by simp [hjob]) (by simp [henqueue])
      | none => exact .utcNow fun now => hrest id now (by simp [hjob]) (by simp [henqueue])

-- The script of a call, and what the call makes of the script's answer.

def enqueueCall (args : JobArgs) (idempotencyKey : Option String) (ttlSeconds : Int) :
    Proc (Except EnqueueError JobId) :=
  .call (.redis (.producerEnqueue args idempotencyKey ttlSeconds))
    fun answer => .ret (answered answer)

def debounceCall (args : JobArgs) (debounceKey : String) (ttlSeconds : Int) :
    Proc (Except EnqueueError JobId) :=
  .call (.redis (.producerDebounce args debounceKey ttlSeconds))
    fun answer => .ret (answered answer)

def limited : Except RedisError Reply → Except EnqueueError (Option JobId)
  | .error error => .error (.redis error)
  | .ok (status, id) =>
      if status = 1 then .ok (some id)
      else if status = 2 then .ok none
      else if status = -1 then .error .jobIdExists
      else .error .unexpectedStatus

def rateLimitCall (args : JobArgs) (rateKey : String) (ttlSeconds : Int) :
    Proc (Except EnqueueError (Option JobId)) :=
  .call (.redis (.producerRateLimit args rateKey ttlSeconds)) fun answer => .ret (limited answer)

theorem enqueue_prepares :
    Prepares TurnedDown
      (fun program => ∃ args ttlSeconds, Effective config functionName params options some args ∧
        program = enqueueCall args (options.idempotencyKey.map (IDEMPOTENCY_KEY_PREFIX ++ ·))
          ttlSeconds)
      (enqueue config functionName params options) := by
  unfold enqueue
  split
  · exact .rejected (turnedDown_emptyName ‹_›)
  · exact .rejected (turnedDown_emptyName ‹_›)
  · refine prepares_jobArgs (fun error h => .rejected h) fun args he => ?_
    cases hkey : options.idempotencyKey with
    | none => exact .script ⟨args, _, he, enqueueJob_eq none⟩
    | some key =>
        simp only [Prog.pure_eq_ret]
        split
        · rename_i error hname
          exact .rejected (turnedDown_emptyName hname)
        · split_ifs
          · exact .rejected ⟨_, rfl, nofun, nofun⟩
          · exact .script ⟨args, _, he, enqueueJob_eq _⟩

theorem enqueueWithDebounce_prepares {key : String} {window : Duration} :
    Prepares TurnedDown
      (fun program => ∃ args, Effective config functionName params options window.after args ∧
        program = debounceCall args (withPrefix DEBOUNCE_KEY_PREFIX key) window.ceilSeconds)
      (enqueueWithDebounce config functionName params options key window) := by
  unfold enqueueWithDebounce
  split
  · exact .rejected (turnedDown_emptyName ‹_›)
  · exact .rejected (turnedDown_emptyName ‹_›)
  · exact .rejected (turnedDown_emptyName ‹_›)
  · refine prepares_jobArgs (fun error h => .rejected h) fun args he => ?_
    simp only [Prog.pure_eq_ret]
    split_ifs
    · exact .rejected ⟨_, rfl, nofun, nofun⟩
    · refine .script ⟨args, he, congrArg (Prog.call _) (funext fun answer => ?_)⟩
      cases answer with
      | error error => rfl
      | ok reply =>
          obtain ⟨status, id⟩ := reply
          simp only [answered, Prog.bind]
          split_ifs <;> rfl

theorem enqueueWithRateLimit_prepares {key : String} {window : Duration} :
    Prepares TurnedDown
      (fun program => ∃ args, Effective config functionName params options some args ∧
        0 < window.ceilSeconds ∧
        program = rateLimitCall args (withPrefix RATE_LIMIT_KEY_PREFIX key) window.ceilSeconds)
      (enqueueWithRateLimit config functionName params options key window) := by
  unfold enqueueWithRateLimit
  split
  · exact .rejected (turnedDown_emptyName ‹_›)
  · exact .rejected (turnedDown_emptyName ‹_›)
  · exact .rejected (turnedDown_emptyName ‹_›)
  · refine prepares_jobArgs (fun error h => .rejected h) fun args he => ?_
    simp only [Prog.pure_eq_ret]
    split_ifs with hwindow
    · exact .rejected ⟨_, rfl, nofun, nofun⟩
    · refine .script ⟨args, he, not_le.mp hwindow, congrArg (Prog.call _)
        (funext fun answer => ?_)⟩
      cases answer with
      | error error => rfl
      | ok reply =>
          obtain ⟨status, id⟩ := reply
          simp only [limited, Prog.bind]
          split_ifs <;> rfl

end Calls

end Rrq.Producer
