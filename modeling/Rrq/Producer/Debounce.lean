import Rrq.Producer.Calls

-- A call under a debounce key whose job is still pending writes over that job.

namespace Rrq

-- What decides how the job of a hash is run.
structure Orders where
  functionName : Option String
  jobParams : Option (Text Params)
  nextScheduledRunTime : Option (Text DateTime)
  maxRetries : Option IntText
  jobTimeoutSeconds : Option IntText
  resultTtlSeconds : Option IntText
  queueName : Option String
  traceContext : Option (Text Context)
  correlationContext : Option (Text Context)

def JobHash.orders (h : JobHash) : Orders where
  functionName := h.functionName
  jobParams := h.jobParams
  nextScheduledRunTime := h.nextScheduledRunTime
  maxRetries := h.maxRetries
  jobTimeoutSeconds := h.jobTimeoutSeconds
  resultTtlSeconds := h.resultTtlSeconds
  queueName := h.queueName
  traceContext := h.traceContext
  correlationContext := h.correlationContext

-- The two jobs are run alike: on the same orders and at the same time from every queue.
structure Store.RunsLike (s : Store) (id : JobId) (t : Store) (other : JobId) : Prop where
  orders : (s.hash id).map JobHash.orders = (t.hash other).map JobHash.orders
  score : ∀ queue, (s.queues queue).score? id = (t.queues queue).score? other

namespace Producer

open Script

section Script

variable {args : JobArgs} {debounceKey : String} {ttlSeconds status : Int} {s t : Store}
  {id : JobId} {cell : Volatile JobId} {h : JobHash}

-- A free key lets the call make its own job.
theorem debounceScript_fresh (hfree : s.debounces debounceKey = none)
    (hrun : (debounceScript args debounceKey ttlSeconds).run none s = (some (status, id), t))
    (hstatus : status = 1 ∨ status = 0) : id = args.id ∧ Made args s t := by
  unfold debounceScript at hrun
  rw [run_ask_bind, hfree] at hrun
  exact createDebounced_made hfree hrun hstatus

theorem expireDebounce_cases (debounceKey : String) (seconds : Int) (s : Store) :
    expireDebounce debounceKey seconds s = none ∨
      ∃ cell, expireDebounce debounceKey seconds s = some ((), s.setDebounce debounceKey cell) := by
  unfold expireDebounce
  split_ifs
  · right
    cases hcell : s.debounces debounceKey with
    | none => exact ⟨none, by rw [Store.setDebounce_none hcell]⟩
    | some cell => exact ⟨_, rfl⟩
  · exact .inl rfl

theorem debounceScript_pending (hkey : s.debounces debounceKey = some cell)
    (hhash : s.hash cell.value = some h) (hpending : h.status = some JobStatus.Pending.asStr)
    (hrun : (debounceScript args debounceKey ttlSeconds).run none s = (some (status, id), t)) :
    id = cell.value ∧ t.hash cell.value = some (args.update h) ∧
      t.queues = Function.update s.queues args.queueName
        ((s.queues args.queueName).insert cell.value args.score) := by
  obtain ⟨stored, hjob, rfl⟩ := Option.map_eq_some_iff.mp hhash
  have hstatus : s.status cell.value = some JobStatus.Pending.asStr := by
    rw [Store.status, hhash]
    exact hpending
  have hset : s.hset cell.value args.update =
      s.setJob cell.value (some { stored with value := args.update stored.value }) := by
    unfold Store.hset
    rw [hjob]
  -- The key may live longer afterwards, and nothing else follows the two writes.
  have hafter : ∀ u : Store, u.jobs = (s.hset cell.value args.update).jobs →
      u.queues = ((s.hset cell.value args.update).zadd args.queueName cell.value args.score).queues →
      u.hash cell.value = some (args.update stored.value) ∧
        u.queues = Function.update s.queues args.queueName
          ((s.queues args.queueName).insert cell.value args.score) := by
    intro u hjobs hqueues
    rw [hqueues, hset, Store.hash, hjobs, hset]
    exact ⟨by simp, rfl⟩
  unfold debounceScript reschedule extendDebounce at hrun
  rw [run_ask_bind, hkey] at hrun
  simp only [Option.map_some, run_ask_bind, hjob, Option.isSome_some, hstatus, and_self,
    if_true, run_write_bind] at hrun
  split_ifs at hrun
  · rw [run_call_bind] at hrun
    rcases expireDebounce_cases debounceKey (luaSeconds ttlSeconds)
      ((s.hset cell.value args.update).zadd args.queueName cell.value args.score) with
      hexpire | ⟨extended, hexpire⟩
    · rw [hexpire] at hrun
      cases hrun
    · simp only [hexpire, pure_eq, run_pure, Prod.mk.injEq, Option.some.injEq] at hrun
      obtain ⟨⟨-, rfl⟩, rfl⟩ := hrun
      exact ⟨rfl, hafter _ rfl rfl⟩
  · simp only [pure_eq, Script.pure_bind, run_pure, Prod.mk.injEq, Option.some.injEq] at hrun
    obtain ⟨⟨-, rfl⟩, rfl⟩ := hrun
    exact ⟨rfl, hafter _ rfl rfl⟩

-- The orders of the later call stand, but for a trace context that it does not give.
theorem orders_update (args : JobArgs) (h : JobHash) :
    (args.update h).orders = args.mapping.orders ↔
      args.traceContext.isSome ∨ h.traceContext = none := by
  cases htrace : args.traceContext with
  | some context => simp [JobArgs.update, JobArgs.mapping, JobHash.orders, htrace]
  | none => simp [JobArgs.update, JobArgs.mapping, JobHash.orders, htrace]

theorem length_injected (span carrier : Context) :
    carrier.length ≤ (span.foldl HashMapInjector.set carrier).length := by
  induction span generalizing carrier with
  | nil => exact le_rfl
  | cons entry span ih =>
      have hset : carrier.length ≤ (HashMapInjector.set carrier entry).length := by
        unfold HashMapInjector.set
        split_ifs
        · exact le_rfl
        · simp
      exact hset.trans (ih _)

-- There is a trace context if the caller gives one with an entry or the span does.
theorem mergeTraceContext_isSome (traceContext : Option Context) (span : Context) :
    (mergeTraceContext traceContext span).isSome ↔ traceContext.getD [] ≠ [] ∨ span ≠ [] := by
  have hsome : (mergeTraceContext traceContext span).isSome ↔
      span.foldl HashMapInjector.set (traceContext.getD []) ≠ [] := by
    dsimp only [mergeTraceContext, Correlation.inject]
    split_ifs with hempty
    · simp [hempty]
    · simp [hempty]
  rw [hsome]
  cases hgiven : traceContext.getD [] with
  | cons entry given =>
      have hlength := length_injected span (entry :: given)
      rw [← List.length_pos_iff]
      simpa using lt_of_lt_of_le (Nat.succ_pos _) hlength
  | nil =>
      cases span with
      | nil => simp
      | cons entry span =>
          have hlength := length_injected span [entry]
          rw [← List.length_pos_iff]
          simpa [HashMapInjector.set] using lt_of_lt_of_le Nat.one_pos hlength

end Script

section Calls

variable (config : Config) (functionName : String) (params : Params) (options : EnqueueOptions)
  (key : String) (window : Duration) (pid : Pid) (oracle : Nat → Op → Chance) (n : Nat)

-- The call run alone.
abbrev debounceRun (w : World) : Except EnqueueError JobId × Nat × World :=
  Prog.run (World.exec pid .client) oracle
    (enqueueWithDebounce config functionName params options key window) n w

variable {config functionName params options key window pid oracle n}

-- Both runs of a call that succeed hand the same arguments to the script.
theorem debounceRun_ok {w : World} {id : JobId}
    (hrun : (debounceRun config functionName params options key window pid oracle n w).1 = .ok id) :
    ∃ args k, Effective config functionName params options window.after args ∧
      ∀ w, debounceRun config functionName params options key window pid oracle n w =
        Prog.run (World.exec pid .client) oracle
          (debounceCall args (withPrefix DEBOUNCE_KEY_PREFIX key) window.ceilSeconds) k w := by
  rcases enqueueWithDebounce_prepares.run pid .client oracle n with
    ⟨answer, k, ⟨error, rfl, -⟩, hall⟩ | ⟨rest, k, ⟨args, he, rfl⟩, hall⟩
  · rw [debounceRun, hall w] at hrun
    cases hrun
  · exact ⟨args, k, he, hall⟩

theorem debounceCall_ok {args : JobArgs} {debounceKey : String} {ttlSeconds : Int} {k : Nat}
    {w : World} {id : JobId}
    (hrun : (Prog.run (World.exec pid .client) oracle
      (debounceCall args debounceKey ttlSeconds) k w).1 = .ok id) :
    ∃ status, (status = 1 ∨ status = 0) ∧
      (debounceScript args debounceKey ttlSeconds).run none w.store = (some (status, id),
        (Prog.run (World.exec pid .client) oracle
          (debounceCall args debounceKey ttlSeconds) k w).2.2.store) := by
  let chance := oracle k (.redis (.producerDebounce args debounceKey ttlSeconds))
  have hexec : ∀ reply, Cmd.exec chance.fault chance.page
      (.producerDebounce args debounceKey ttlSeconds) w.store = reply →
      answered reply.1 = .ok id →
      ∃ status, (status = 1 ∨ status = 0) ∧
        (debounceScript args debounceKey ttlSeconds).run none w.store =
          (some (status, id), reply.2) := by
    rintro ⟨answer, after⟩ hreply hanswer
    cases answer with
    | error error => cases hanswer
    | ok reply =>
        obtain ⟨status, found⟩ := reply
        obtain ⟨_, hscript, rfl⟩ := script_ok (lenient_debounceScript _ _ _) hreply
        simp only [answered] at hanswer
        split_ifs at hanswer with hstatus
        obtain rfl := Except.ok.inj hanswer
        exact ⟨status, hstatus, hscript⟩
  exact hexec _ rfl hrun

-- What a later call on a pending job leaves is run like a job that the call makes of its own,
-- unless a trace context outlasts a call that has none or the job waits in another queue.
theorem enqueueWithDebounce_runsLike {w fresh : World} {cell : Volatile JobId} {h : JobHash}
    {id own : JobId}
    (hkey : w.store.debounces (withPrefix DEBOUNCE_KEY_PREFIX key) = some cell)
    (hhash : w.store.hash cell.value = some h)
    (hpending : h.status = some JobStatus.Pending.asStr)
    (hfree : fresh.store.debounces (withPrefix DEBOUNCE_KEY_PREFIX key) = none)
    (hnew : ∀ queue, own ∉ fresh.store.queues queue)
    (hrun : (debounceRun config functionName params options key window pid oracle n w).1 = .ok id)
    (hown : (debounceRun config functionName params options key window pid oracle n fresh).1 =
      .ok own) :
    id = cell.value ∧
      ((debounceRun config functionName params options key window pid oracle n w).2.2.store.RunsLike
          id
          (debounceRun config functionName params options key window pid oracle n fresh).2.2.store
          own ↔
        ((options.traceContext.getD [] ≠ [] ∨ options.span ≠ []) ∨ h.traceContext = none) ∧
          ∀ queue, id ∈ w.store.queues queue →
            queue = normalizeQueueName (queueNameOf config options)) := by
  obtain ⟨args, k, he, hcall⟩ := debounceRun_ok hrun
  rw [hcall] at hrun hown ⊢
  rw [hcall fresh]
  obtain ⟨status, -, hscript⟩ := debounceCall_ok hrun
  obtain ⟨rfl, hafter, hqueues⟩ := debounceScript_pending hkey hhash hpending hscript
  obtain ⟨first, hfirst, hmaking⟩ := debounceCall_ok hown
  obtain ⟨rfl, hmade⟩ := debounceScript_fresh hfree hmaking hfirst
  refine ⟨rfl, ?_⟩
  rw [← mergeTraceContext_isSome, ← he.traceContext, ← he.queueName]
  have horders := orders_update args h
  constructor
  · rintro ⟨ho, hscore⟩
    rw [hafter, hmade.hash] at ho
    refine ⟨horders.mp (Option.some.inj ho), fun queue hqueued => ?_⟩
    by_contra hne
    have helse := hscore queue
    rw [hqueues, hmade.queues, Function.update_of_ne hne, Function.update_of_ne hne,
      SortedSet.score?_eq_none (hnew queue)] at helse
    rw [← SortedSet.isSome_score?, helse] at hqueued
    cases hqueued
  · rintro ⟨ho, hqueue⟩
    refine ⟨?_, fun queue => ?_⟩
    · rw [hafter, hmade.hash]
      exact congrArg some (horders.mpr ho)
    · rw [hqueues, hmade.queues]
      by_cases heq : queue = args.queueName
      · subst heq
        simp
      · rw [Function.update_of_ne heq, Function.update_of_ne heq,
          SortedSet.score?_eq_none (hnew queue),
          SortedSet.score?_eq_none fun hqueued => heq (hqueue queue hqueued)]

end Calls

-- A call five seconds after which its job is due, on an empty store and on what it leaves.

def debounceOptions (id : JobId) (traceContext : Option Context) : EnqueueOptions :=
  { jobId := some id, enqueueTime := some ⟨0⟩, traceContext }

abbrev debounced (options : EnqueueOptions) (w : World) : Except EnqueueError JobId × Nat × World :=
  debounceRun {} "f" [] options "k" ⟨5, 0⟩ 0 (fun _ _ => {}) 0 w

def heldBy (traceContext : Option Context) : World :=
  (debounced (debounceOptions "first" traceContext) (.ofStore .empty)).2.2

theorem enqueueWithDebounce_keeps_trace :
    let held := heldBy (some [("traceparent", "00")])
    let later := debounced (debounceOptions "second" none) held
    let fresh := debounced (debounceOptions "second" none) (.ofStore .empty)
    (held.store.debounces "rrq:debounce:k").map Volatile.value = some "first" ∧
      held.store.status "first" = some JobStatus.Pending.asStr ∧
      later.1 = .ok "first" ∧ fresh.1 = .ok "second" ∧
      ¬ later.2.2.store.RunsLike "first" fresh.2.2.store "second" := by
  refine ⟨by decide +kernel, by decide +kernel, by decide +kernel, by decide +kernel, ?_⟩
  intro h
  have htrace := congrArg (Option.map fun orders => orders.traceContext.isSome) h.orders
  revert htrace
  decide +kernel

theorem queued_heldBy (traceContext : Option Context) {id : JobId} {queue : QueueKey}
    (hfirst : (debounced (debounceOptions "first" traceContext) (.ofStore .empty)).1 =
      .ok "first") (h : id ∈ (heldBy traceContext).store.queues queue) :
    queue = normalizeQueueName "rrq:queue:default" := by
  obtain ⟨args, k, he, hcall⟩ := debounceRun_ok hfirst
  rw [debounced, hcall] at hfirst
  obtain ⟨status, hstatus, hscript⟩ := debounceCall_ok hfirst
  obtain ⟨-, hmade⟩ := debounceScript_fresh rfl hscript hstatus
  rw [heldBy, debounced, hcall, hmade.queues] at h
  by_contra hne
  have hother : queue ≠ args.queueName := he.queueName ▸ hne
  rw [Function.update_of_ne hother] at h
  exact SortedSet.not_mem_empty _ h

theorem enqueueWithDebounce_runsLike_untraced :
    (debounced (debounceOptions "second" none) (heldBy none)).2.2.store.RunsLike "first"
      (debounced (debounceOptions "second" none) (.ofStore .empty)).2.2.store "second" := by
  obtain ⟨cell, hkey, hcell⟩ := Option.map_eq_some_iff.mp (show
    ((heldBy none).store.debounces "rrq:debounce:k").map Volatile.value = some "first" by
      decide +kernel)
  obtain ⟨h, hhash, hfields⟩ := Option.map_eq_some_iff.mp (show
    ((heldBy none).store.hash "first").map (fun h => (h.status, h.traceContext.isNone)) =
      some (some "PENDING", true) by decide +kernel)
  obtain ⟨hpending, htrace⟩ := Prod.mk.inj hfields
  exact (enqueueWithDebounce_runsLike hkey (hcell ▸ hhash) hpending rfl
    (fun queue => SortedSet.not_mem_empty _) (by decide +kernel) (by decide +kernel)).2.mpr
    ⟨.inr (Option.isNone_iff_eq_none.mp htrace),
      fun queue => queued_heldBy none (by decide +kernel)⟩

end Producer

end Rrq
