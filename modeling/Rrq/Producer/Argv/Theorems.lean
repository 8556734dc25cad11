import Rrq.Producer.Argv
import Rrq.Producer.Created
import Rrq.Wire.Theorems

-- The job that the orchestrator reads of the hash of a new job is the one that was handed over.

namespace Rrq.Producer

def JobArgs.job (args : JobArgs) : Job where
  id := args.id
  functionName := args.functionName
  jobParams := args.jobParams
  enqueueTime := args.enqueueTime
  startTime := none
  status := .Pending
  currentRetries := 0
  nextScheduledRunTime := some args.scheduledTime
  maxRetries := args.maxRetries
  jobTimeoutSeconds := some args.jobTimeoutSeconds
  resultTtlSeconds := some args.resultTtlSeconds
  jobUniqueKey := none
  completionTime := none
  result := none
  lastError := none
  queueName := some args.queueName
  dlqName := none
  workerId := none
  traceContext := args.traceContext
  correlationContext := args.correlationContext

structure JobArgs.Sized (args : JobArgs) : Prop where
  maxRetries : InI64 args.maxRetries
  jobTimeoutSeconds : InI64 args.jobTimeoutSeconds
  resultTtlSeconds : InI64 args.resultTtlSeconds

theorem JobArgs.Sized.job {args : JobArgs} (h : args.Sized) : args.job.Sized where
  currentRetries := (by decide : InI64 0)
  maxRetries := h.maxRetries
  jobTimeoutSeconds n hn := Option.some.inj hn ▸ h.jobTimeoutSeconds
  resultTtlSeconds n hn := Option.some.inj hn ▸ h.resultTtlSeconds

-- The libraries read back what they print of the values, and nothing from an empty text.
structure Faithful (codec : Codec) (number : Printer ℚ) (args : JobArgs) : Prop where
  inverts : codec.InvertsOn args.job
  empty : codec.context.read "" = none
  score : number.Inverts args.score

-- What the caller asked for, with the defaults of the producer.
structure Effective (config : Config) (functionName : String) (params : Params)
    (options : EnqueueOptions) (schedule : DateTime → Option DateTime) (args : JobArgs) :
    Prop where
  id : ∀ id ∈ options.jobId, args.id = id
  functionName : args.functionName = functionName
  jobParams : args.jobParams = params
  enqueueTime : ∀ time ∈ options.enqueueTime, args.enqueueTime = time
  scheduledTime : options.scheduledTime.or (schedule args.enqueueTime) = some args.scheduledTime
  maxRetries : args.maxRetries = options.maxRetries.getD config.defaultMaxRetries
  jobTimeoutSeconds :
    args.jobTimeoutSeconds = options.jobTimeoutSeconds.getD config.defaultJobTimeoutSeconds
  resultTtlSeconds :
    args.resultTtlSeconds = options.resultTtlSeconds.getD config.defaultResultTtlSeconds
  queueName : args.queueName = normalizeQueueName (queueNameOf config options)
  traceContext : args.traceContext = mergeTraceContext options.traceContext options.span
  correlationContext : args.correlationContext = correlationContextOf config params options

-- The numbers of a configuration and of a call are 64-bit integers.

structure Config.Sized (config : Config) : Prop where
  maxRetries : InI64 config.defaultMaxRetries
  jobTimeoutSeconds : InI64 config.defaultJobTimeoutSeconds
  resultTtlSeconds : InI64 config.defaultResultTtlSeconds

structure EnqueueOptions.Sized (options : EnqueueOptions) : Prop where
  maxRetries : ∀ n ∈ options.maxRetries, InI64 n
  jobTimeoutSeconds : ∀ n ∈ options.jobTimeoutSeconds, InI64 n
  resultTtlSeconds : ∀ n ∈ options.resultTtlSeconds, InI64 n

section Texts

variable {codec : Codec} {number : Printer ℚ} {args : JobArgs} {ttlSeconds : Int}

end Texts

-- The three calls.

inductive Submission where
  | enqueue
  | rateLimited (key : String) (window : Duration)
  | debounced (key : String) (window : Duration)

namespace Submission

variable (config : Config) (functionName : String) (params : Params) (options : EnqueueOptions)

def program : Submission → Proc (Except EnqueueError (Option JobId))
  | enqueue => do
      let answer ← Producer.enqueue config functionName params options
      pure (answer.map some)
  | rateLimited key window =>
      enqueueWithRateLimit config functionName params options key window
  | debounced key window => do
      let answer ← enqueueWithDebounce config functionName params options key window
      pure (answer.map some)

-- When the job runs if the caller does not say.
def schedule : Submission → DateTime → Option DateTime
  | enqueue => some
  | rateLimited _ _ => some
  | debounced _ window => window.after

def writes (codec : Codec) (number : Printer ℚ) (args : JobArgs) : Submission → Writes
  | enqueue => enqueueWrites (enqueueInvocation codec number args
      (idempotencyTtl config options args) (options.idempotencyKey.map (IDEMPOTENCY_KEY_PREFIX ++ ·)))
  | rateLimited key window => rateLimitWrites (rateLimitInvocation codec number args
      window.ceilSeconds (withPrefix RATE_LIMIT_KEY_PREFIX key))
  | debounced key window => debounceWrites (debounceInvocation codec number args
      window.ceilSeconds (withPrefix DEBOUNCE_KEY_PREFIX key))

end Submission

section Programs

variable {config : Config} {functionName : String} {params : Params} {options : EnqueueOptions}
  {pid : Pid} {role : Role} {oracle : Nat → Op → Chance} {n : Nat} {w : World}

theorem script_ok {α β : Type} {fault : Fault} {s t : Store} {error : RedisError}
    {body : Script Store α} {answer : α → β} {value : β} (hb : Script.Lenient body)
    (h : Cmd.script fault s error body answer = (.ok value, t)) :
    ∃ found, body.run none s = (some found, t) ∧ answer found = value := by
  have hrun : ∀ budget : Budget,
      ((((body.run budget s).1.map fun found => Except.ok (answer found)).getD (.error error),
        (body.run budget s).2) : Cmd.Result β) = (.ok value, t) →
      ∃ found, body.run none s = (some found, t) ∧ answer found = value := by
    intro budget hresult
    obtain ⟨hvalue, rfl⟩ := Prod.mk.inj hresult
    cases hfound : (body.run budget s).1 with
    | none => simp [hfound] at hvalue
    | some found =>
        refine ⟨found, hb.run (show body.run budget s = _ from Prod.ext hfound rfl), ?_⟩
        simpa [hfound] using hvalue
  cases fault with
  | none => exact hrun none h
  | refused => cases h
  | stops calls => exact hrun (some calls) h

theorem ends_jobArgs {schedule : DateTime → Option DateTime} :
    Prog.Ends (World.exec pid role) oracle
      (fun result after => after = w ∧ ∀ args, result = .ok args →
        Effective config functionName params options schedule args)
      (jobArgs config functionName params options schedule) n w := by
  have hrest : ∀ id enqueueTime n, (∀ given ∈ options.jobId, id = given) →
      (∀ given ∈ options.enqueueTime, enqueueTime = given) →
      Prog.Ends (World.exec pid role) oracle
        (fun result after => after = w ∧ ∀ args, result = .ok args →
          Effective config functionName params options schedule args)
        (jobArgs config functionName params
          { options with jobId := some id, enqueueTime := some enqueueTime } schedule) n w := by
    intro id enqueueTime n hid htime
    unfold jobArgs given
    simp only [Prog.pure_eq_ret, Prog.ret_bind]
    split
    · exact ⟨rfl, nofun⟩
    · rename_i scheduledTime hscheduled
      split_ifs with htimeout
      · exact ⟨rfl, nofun⟩
      · refine ⟨rfl, fun args h => ?_⟩
        obtain rfl := Except.ok.inj h
        exact ⟨hid, rfl, rfl, htime, hscheduled, rfl, rfl, rfl, rfl, rfl, rfl⟩
  unfold jobArgs given at *
  simp only [Prog.pure_eq_ret, Prog.ret_bind] at hrest
  cases hjob : options.jobId with
  | some id =>
      simp only [Prog.pure_eq_ret, Prog.ret_bind]
      cases henqueue : options.enqueueTime with
      | some time => exact hrest id time n (by simp [hjob]) (by simp [henqueue])
      | none => exact Prog.ends_call (hrest id _ _ (by simp [hjob]) (by simp [henqueue]))
  | none =>
      refine Prog.ends_call ?_
      cases henqueue : options.enqueueTime with
      | some time => exact hrest _ time _ (by simp [hjob]) (by simp [henqueue])
      | none =>
          exact Prog.ends_call (hrest _ _ _ (by simp [hjob]) (by simp [henqueue]))

-- A call that comes back with a job that was not there has made it of its values.
def MadeBy (config : Config) (functionName : String) (params : Params)
    (options : EnqueueOptions) (schedule : DateTime → Option DateTime) (before : Store)
    (answer : Except EnqueueError (Option JobId)) (after : World) : Prop :=
  ∀ id, answer = .ok (some id) → before.jobs id = none →
    ∃ args, args.id = id ∧ Effective config functionName params options schedule args ∧
      Made args before after.store

theorem madeBy_error {schedule : DateTime → Option DateTime} {before : Store} {after : World}
    (error : EnqueueError) :
    MadeBy config functionName params options schedule before (.error error) after := by
  intro id h
  cases h

theorem ends_enqueueJob {schedule : DateTime → Option DateTime} {args : JobArgs}
    (he : Effective config functionName params options schedule args)
    (idempotencyKey : Option String) (ttlSeconds : Int) :
    Prog.Ends (World.exec pid role) oracle
      (fun answer after => MadeBy config functionName params options schedule w.store
        (answer.map some) after)
      (enqueueJob args idempotencyKey ttlSeconds) n w := by
  unfold enqueueJob
  refine ends_redis fun answer store w' hexec hstore _ => ?_
  cases answer with
  | error error => exact madeBy_error _
  | ok reply =>
      obtain ⟨status, found⟩ := reply
      obtain ⟨_, hrun, rfl⟩ := script_ok (lenient_enqueueScript _ _ _) hexec
      simp only
      split_ifs with hone hminus
      · intro id hid hnew
        obtain rfl : found = id := by simpa [Except.map] using hid
        obtain ⟨hargs, hmade⟩ := enqueueScript_made hrun hone hnew
        exact ⟨args, hargs.symm, he, hstore ▸ hmade⟩
      · exact madeBy_error _
      · exact madeBy_error _

theorem ends_enqueue :
    Prog.Ends (World.exec pid role) oracle
      (fun answer after => MadeBy config functionName params options some w.store
        (answer.map some) after)
      (enqueue config functionName params options) n w := by
  unfold enqueue
  split
  · exact madeBy_error _
  · exact madeBy_error _
  · refine Prog.ends_bind ends_jobArgs fun result n after hresult => ?_
    obtain ⟨rfl, hargs⟩ := hresult
    cases result with
    | error error => exact madeBy_error _
    | ok args =>
        have he := hargs args rfl
        cases hkey : options.idempotencyKey with
        | none => exact ends_enqueueJob he _ _
        | some key =>
            simp only
            split
            · exact madeBy_error _
            · split_ifs
              · exact madeBy_error _
              · exact ends_enqueueJob he _ _

theorem ends_enqueueWithRateLimit {key : String} {window : Duration} :
    Prog.Ends (World.exec pid role) oracle
      (fun answer after => MadeBy config functionName params options some w.store answer after)
      (enqueueWithRateLimit config functionName params options key window) n w := by
  unfold enqueueWithRateLimit
  split
  · exact madeBy_error _
  · exact madeBy_error _
  · exact madeBy_error _
  · refine Prog.ends_bind ends_jobArgs fun result n after hresult => ?_
    obtain ⟨rfl, hargs⟩ := hresult
    cases result with
    | error error => exact madeBy_error _
    | ok args =>
        simp only
        split_ifs
        · exact madeBy_error _
        · refine ends_redis fun answer store w' hexec hstore _ => ?_
          cases answer with
          | error error => exact madeBy_error _
          | ok reply =>
              obtain ⟨status, found⟩ := reply
              obtain ⟨_, hrun, rfl⟩ := script_ok (lenient_rateLimitScript _ _ _) hexec
              simp only
              split_ifs with hone
              · intro id hid hnew
                obtain rfl := Option.some.inj (Except.ok.inj hid)
                obtain ⟨hid', hmade⟩ := rateLimitScript_made (hone ▸ hrun)
                exact ⟨args, hid'.symm, hargs args rfl, hstore ▸ hmade⟩
              · intro id hid
                cases hid
              · exact madeBy_error _
              · exact madeBy_error _

theorem ends_enqueueWithDebounce {key : String} {window : Duration} :
    Prog.Ends (World.exec pid role) oracle
      (fun answer after => MadeBy config functionName params options window.after w.store
        (answer.map some) after)
      (enqueueWithDebounce config functionName params options key window) n w := by
  unfold enqueueWithDebounce
  split
  · exact madeBy_error _
  · exact madeBy_error _
  · exact madeBy_error _
  · refine Prog.ends_bind ends_jobArgs fun result n after hresult => ?_
    obtain ⟨rfl, hargs⟩ := hresult
    cases result with
    | error error => exact madeBy_error _
    | ok args =>
        simp only
        split_ifs
        · exact madeBy_error _
        · refine ends_redis fun answer store w' hexec hstore _ => ?_
          cases answer with
          | error error => exact madeBy_error _
          | ok reply =>
              obtain ⟨status, found⟩ := reply
              obtain ⟨_, hrun, rfl⟩ := script_ok (lenient_debounceScript _ _ _) hexec
              simp only
              split_ifs with hone hminus
              · intro id hid hnew
                obtain rfl : found = id := by simpa [Except.map] using hid
                obtain ⟨hid', hmade⟩ := debounceScript_made hrun hone hnew
                exact ⟨args, hid'.symm, hargs args rfl, hstore ▸ hmade⟩
              · exact madeBy_error _
              · exact madeBy_error _

theorem ends_program (call : Submission) :
    Prog.Ends (World.exec pid role) oracle
      (fun answer after => MadeBy config functionName params options call.schedule w.store
        answer after)
      (call.program config functionName params options) n w := by
  cases call with
  | enqueue => exact Prog.ends_bind ends_enqueue fun answer n after h => h
  | rateLimited key window => exact ends_enqueueWithRateLimit
  | debounced key window => exact Prog.ends_bind ends_enqueueWithDebounce fun answer n after h => h

-- What the orchestrator finds of the job of a call. Where the id is queued besides is where it has
-- been before.
structure Found (codec : Codec) (number : Printer ℚ) (writes : Writes) (args : JobArgs)
    (before store : Store) : Prop where
  jobKey : writes.jobKey = JOB_KEY_PREFIX ++ args.id
  hash : store.hash args.id = some (Wire.decode codec writes.fields)
  parses : ∀ fallbackId defaultMaxRetries,
    Wire.parseJobMap codec writes.fields fallbackId defaultMaxRetries = .ok args.job
  queueKey : writes.queueKey = args.queueName
  member : writes.member = args.id
  queued : ∀ queue, args.id ∈ store.queues queue ↔
    queue = args.queueName ∨ args.id ∈ before.queues queue
  score : number.read writes.score = some (args.scheduledTime.timestampMillis : ℚ)
  ranked : (store.queues args.queueName).score? args.id =
    some (args.scheduledTime.timestampMillis : ℚ)

variable {codec : Codec} {number : Printer ℚ} {args : JobArgs}

theorem Made.found {s t : Store} {writes : Writes} (hm : Made args s t)
    (hjobKey : writes.jobKey = JOB_KEY_PREFIX ++ args.id)
    (hfields : Wire.decode codec writes.fields = args.mapping)
    (hparses : ∀ fallbackId defaultMaxRetries,
      Wire.parseJobMap codec writes.fields fallbackId defaultMaxRetries = .ok args.job)
    (hqueueKey : writes.queueKey = args.queueName) (hmember : writes.member = args.id)
    (hscore : number.read writes.score = some args.score) :
    Found codec number writes args s t where
  jobKey := hjobKey
  hash := hfields ▸ hm.hash
  parses := hparses
  queueKey := hqueueKey
  member := hmember
  queued queue := by
    rw [hm.queues]
    by_cases hq : queue = args.queueName
    · subst hq
      simp
    · simp [hq]
  score := hscore
  ranked := by
    rw [hm.queues]
    simp [JobArgs.score]

end Programs

end Rrq.Producer
