import Rrq.Store.Lasting

-- Which queue a job belongs to.

namespace Rrq.Store

open Script Scripts

-- The hash of the job is there for good, and names the queue.
def Belongs (s : Store) (id : JobId) (queue : QueueKey) : Prop :=
  ∃ cell, s.jobs id = some cell ∧ cell.expireAt = none ∧ cell.value.id = some id ∧
    cell.value.queueName = some queue ∧ normalizeQueueName queue = queue

-- Every job belongs to a queue, and waits in no other.
structure Placed (s : Store) : Prop where
  stored : ∀ id, (s.jobs id).isSome → ∃ queue, s.Belongs id queue
  queued : ∀ queue id, id ∈ s.queues queue → s.Belongs id queue

-- The fields keep a hash that names its job and this queue one that does.
def Faithful (id : JobId) (queue : QueueKey) (fields : JobHash → JobHash) : Prop :=
  ∀ h, h.id = some id → h.queueName = some queue →
    (fields h).id = some id ∧ (fields h).queueName = some queue

theorem faithful_same {id : JobId} {queue : QueueKey} {fields : JobHash → JobHash}
    (hid : ∀ h, (fields h).id = h.id) (hqueue : ∀ h, (fields h).queueName = h.queueName) :
    Faithful id queue fields :=
  fun h hi hq => ⟨(hid h).trans hi, (hqueue h).trans hq⟩

variable {s t : Store} {id other : JobId} {queue name : QueueKey}

theorem Belongs.isSome (h : s.Belongs id queue) : (s.jobs id).isSome := by
  obtain ⟨cell, hcell, -⟩ := h
  rw [hcell]
  rfl

theorem Belongs.unique (h : s.Belongs id queue) (ho : s.Belongs id name) : queue = name := by
  obtain ⟨cell, hcell, -, -, hqueue, -⟩ := h
  obtain ⟨found, hfound, -, -, hname, -⟩ := ho
  obtain rfl := Option.some.inj (hcell.symm.trans hfound)
  exact Option.some.inj (hqueue.symm.trans hname)

theorem Belongs.hash (h : s.Belongs id queue) :
    ∃ raw, s.hash id = some raw ∧ raw.id = some id ∧ raw.queueName = some queue ∧
      normalizeQueueName queue = queue := by
  obtain ⟨cell, hcell, -, hid, hqueue, hname⟩ := h
  exact ⟨cell.value, by simp [Store.hash, hcell], hid, hqueue, hname⟩

theorem belongs_congr (h : t.jobs id = s.jobs id) : t.Belongs id queue ↔ s.Belongs id queue := by
  unfold Belongs
  rw [h]

-- A job stays in its queue as long as its hash does.
theorem belongs_hset (hid : s.Belongs id queue) {fields : JobHash → JobHash}
    (hf : Faithful id queue fields) :
    (s.hset id fields).Belongs other name ↔ s.Belongs other name := by
  by_cases ho : other = id
  · subst ho
    have hafter : (s.hset other fields).Belongs other queue := by
      obtain ⟨cell, hcell, hexpire, hown, hqueue, hname⟩ := hid
      obtain ⟨hown, hqueue⟩ := hf cell.value hown hqueue
      exact ⟨{ cell with value := fields cell.value }, by simp [hset, hcell], hexpire, hown, hqueue,
        hname⟩
    constructor
    · intro h
      rwa [← hafter.unique h]
    · intro h
      rwa [← hid.unique h]
  · exact belongs_congr (sameJob_hset ho s fields).cell

theorem hdel_eq_hset (hid : (s.jobs id).isSome) (fields : JobHash → JobHash) :
    s.hdel id fields = s.hset id fields := by
  obtain ⟨cell, hcell⟩ := Option.isSome_iff_exists.mp hid
  simp [hdel, hset, hcell]

theorem belongs_advance (now : Int) (h : s.Belongs id queue) :
    (s.advance now).Belongs id queue := by
  obtain ⟨cell, hcell, hexpire, hrest⟩ := h
  refine ⟨cell, ?_, hexpire, hrest⟩
  simp [advance, hcell, Volatile.liveAt, hexpire]

theorem Placed.of_same (hs : s.Placed) (hj : t.jobs = s.jobs)
    (hq : ∀ queue id, id ∈ t.queues queue → id ∈ s.queues queue) : t.Placed where
  stored id hid := by
    rw [hj] at hid
    obtain ⟨queue, hqueue⟩ := hs.stored id hid
    exact ⟨queue, (belongs_congr (congrFun hj id)).mpr hqueue⟩
  queued queue id hid :=
    (belongs_congr (congrFun hj id)).mpr (hs.queued queue id (hq queue id hid))

theorem Placed.hset (hs : s.Placed) (hid : s.Belongs id queue) {fields : JobHash → JobHash}
    (hf : Faithful id queue fields) : (s.hset id fields).Placed where
  stored other ho := by
    by_cases he : other = id
    · subst he
      exact ⟨queue, (belongs_hset hid hf).mpr hid⟩
    · rw [(sameJob_hset he s fields).cell] at ho
      obtain ⟨name, hname⟩ := hs.stored other ho
      exact ⟨name, (belongs_hset hid hf).mpr hname⟩
  queued name other ho := by
    rw [(samePlaces_hset s id fields).queues] at ho
    exact (belongs_hset hid hf).mpr (hs.queued name other ho)

theorem Placed.zadd (hs : s.Placed) (hid : s.Belongs id queue) (score : ℚ) :
    (s.zadd queue id score).Placed where
  stored := hs.stored
  queued name other ho := by
    by_cases hn : name = queue
    · subst hn
      simp only [Store.zadd, setQueue_queues, Function.update_self, SortedSet.mem_insert] at ho
      rcases ho with rfl | ho
      · exact hid
      · exact hs.queued name other ho
    · simp only [Store.zadd, setQueue_queues, Function.update_of_ne hn] at ho
      exact hs.queued name other ho

theorem mem_zrem {member : JobId} (h : member ∈ (s.zrem queue id).queues name) :
    member ∈ s.queues name := by
  by_cases hn : name = queue
  · subst hn
    simp only [Store.zrem, setQueue_queues, Function.update_self, SortedSet.mem_erase] at h
    exact h.2
  · simpa only [Store.zrem, setQueue_queues, Function.update_of_ne hn] using h

theorem Placed.advance (hs : s.Placed) (now : Int) : (s.advance now).Placed where
  stored id hid := by
    obtain ⟨cell, hcell⟩ := Option.isSome_iff_exists.mp hid
    have hbefore : s.jobs id = some cell := by
      simp only [Store.advance, Option.filter_eq_some_iff] at hcell
      exact hcell.1
    obtain ⟨queue, hqueue⟩ := hs.stored id (by rw [hbefore]; rfl)
    exact ⟨queue, belongs_advance now hqueue⟩
  queued queue id hid := belongs_advance now (hs.queued queue id hid)

-- A new job belongs to the queue that its hash names.
theorem belongs_create (hnew : s.jobs id = none) {mapping : JobHash} (hid : mapping.id = some id)
    (hqueue : mapping.queueName = some queue) (hname : normalizeQueueName queue = queue) :
    (s.hset id fun _ => mapping).Belongs id queue :=
  ⟨{ value := mapping }, by simp [hset, hnew], rfl, hid, hqueue, hname⟩

theorem Belongs.create (hnew : s.jobs id = none) (h : s.Belongs other name)
    (fields : JobHash → JobHash) : (s.hset id fields).Belongs other name := by
  have hne : other ≠ id := by
    rintro rfl
    have hsome := h.isSome
    rw [hnew] at hsome
    cases hsome
  exact (belongs_congr (sameJob_hset hne s fields).cell).mpr h

theorem Placed.create (hs : s.Placed) (hnew : s.jobs id = none) {fields : JobHash → JobHash}
    (hid : (s.hset id fields).Belongs id queue) : (s.hset id fields).Placed where
  stored other ho := by
    by_cases he : other = id
    · subst he
      exact ⟨queue, hid⟩
    · rw [(sameJob_hset he s fields).cell] at ho
      obtain ⟨name, hname⟩ := hs.stored other ho
      exact ⟨name, hname.create hnew fields⟩
  queued name other ho := by
    rw [(samePlaces_hset s id fields).queues] at ho
    exact (hs.queued name other ho).create hnew fields

-- The jobs belong to these queues.
structure PlacedAs (belongs : JobId → QueueKey → Prop) (s : Store) : Prop where
  placed : s.Placed
  belongs : ∀ id queue, s.Belongs id queue ↔ belongs id queue

theorem Placed.placedAs (hs : s.Placed) : s.PlacedAs s.Belongs := ⟨hs, fun _ _ => .rfl⟩

section PlacedAs

variable {belongs : JobId → QueueKey → Prop}

theorem PlacedAs.of_same (hs : s.PlacedAs belongs) (hj : t.jobs = s.jobs)
    (hq : ∀ queue id, id ∈ t.queues queue → id ∈ s.queues queue) : t.PlacedAs belongs where
  placed := hs.placed.of_same hj hq
  belongs id queue := (belongs_congr (congrFun hj id)).trans (hs.belongs id queue)

theorem PlacedAs.hset (hs : s.PlacedAs belongs) (hid : belongs id queue)
    {fields : JobHash → JobHash} (hf : Faithful id queue fields) :
    (s.hset id fields).PlacedAs belongs where
  placed := hs.placed.hset ((hs.belongs id queue).mpr hid) hf
  belongs other name :=
    (belongs_hset ((hs.belongs id queue).mpr hid) hf).trans (hs.belongs other name)

theorem PlacedAs.hdel (hs : s.PlacedAs belongs) (hid : belongs id queue)
    {fields : JobHash → JobHash} (hf : Faithful id queue fields) :
    (s.hdel id fields).PlacedAs belongs := by
  rw [hdel_eq_hset ((hs.belongs id queue).mpr hid).isSome]
  exact hs.hset hid hf

theorem PlacedAs.zadd (hs : s.PlacedAs belongs) (hid : belongs id queue) (score : ℚ) :
    (s.zadd queue id score).PlacedAs belongs where
  placed := hs.placed.zadd ((hs.belongs id queue).mpr hid) score
  belongs := hs.belongs

theorem PlacedAs.zrem (hs : s.PlacedAs belongs) : (s.zrem queue id).PlacedAs belongs :=
  hs.of_same rfl fun _ _ => mem_zrem

-- Writes that are neither to a hash nor to a queue.
theorem frame_placedAs :
    Frame (fun kind => kind ≠ .hash ∧ kind ≠ .definition ∧ kind ≠ .queue) (fun _ => True)
      fun s t => s.PlacedAs belongs → t.PlacedAs belongs where
  refl _ h := h
  trans _ _ _ hst htu h := htu (hst h)
  define h := absurd rfl h.2.1
  hset h := absurd rfl h.1
  hdel h := absurd rfl h.1
  expireJob h := absurd rfl h.1
  persistJob h := absurd rfl h.1
  zadd h := absurd rfl h.2.2
  zrem h := absurd rfl h.2.2
  zaddActive _ _ _ _ _ _ h := h.of_same rfl fun _ _ h => h
  zremActive _ _ _ _ _ h := h.of_same rfl fun _ _ h => h
  setLock _ _ _ _ _ _ h := h.of_same rfl fun _ _ h => h
  lpush _ _ _ _ _ h := h.of_same rfl fun _ _ h => h
  setHealth _ _ _ _ h := h.of_same rfl fun _ _ h => h
  setEvents _ _ _ h := h.of_same rfl fun _ _ h => h
  setUniqueLock _ _ _ _ h := h.of_same rfl fun _ _ h => h
  setIdempotency _ _ _ h := h.of_same rfl fun _ _ h => h
  setRateLimit _ _ _ h := h.of_same rfl fun _ _ h => h
  setDebounce _ _ _ h := h.of_same rfl fun _ _ h => h

-- The scripts that move a job within its queue.

theorem keeps_placedAs_claimOne {args : ClaimArgs} (hid : belongs id args.queueKey) :
    Keeps (PlacedAs belongs) (claimOne args id) := by
  refine .bind (.ask _) fun present => .ite ?_ ?_
  · refine .bind (.ask _) fun seconds => .bind ?_ fun lockOk => .ite (.bind ?_ ?_) (.pure _)
    · refine .call fun t taken after heq ht => ?_
      have hset := setLockNx_eq_some heq
      split_ifs at hset
      · rw [hset.2]
        exact ht.of_same rfl fun _ _ h => h
      · rw [hset.2]
        exact ht
    · refine .call fun t removed after heq ht => ?_
      obtain ⟨-, rfl⟩ := Prod.mk.injEq .. ▸ Option.some.inj heq
      exact ht.zrem
    · refine fun removed => .ite ?_ ?_
      · exact .bind (.write fun t ht => ht.hset hid (faithful_same (by intro; rfl) (by intro; rfl)))
          fun _ => .bind (.write fun t ht => ht.of_same rfl fun _ _ h => h) fun _ => .pure _
      · exact .bind (.write fun t ht => ht.of_same rfl fun _ _ h => h) fun _ => .pure _
  · exact .bind (.write fun t ht => ht.zrem) fun _ => .pure _

theorem placedAs_claimReady {args : ClaimArgs} (hs : s.PlacedAs belongs) (budget : Budget) :
    ((claimReady args).run budget s).2.PlacedAs belongs := by
  have heach : ∀ id ∈ window args s, Keeps (PlacedAs belongs) (claimOne args id) :=
    fun id hid => keeps_placedAs_claimOne
      ((hs.belongs id _).mp (hs.placed.queued _ id (SortedSet.mem_of_mem_upTo hid)))
  have hscript : (claimReady args budget s).2.PlacedAs belongs := by
    unfold claimReady
    split
    · exact hs
    · split
      · exact hs
      · exact keeps_ask_bind hs (keeps_claimEach heach []) budget
  unfold Script.run
  split <;> rename_i heq <;> simpa [heq] using hscript

theorem keeps_placedAs_retry (hid : belongs id queue) (score : ℚ) (errorMessage : String)
    (status : JobStatus) : Keeps (PlacedAs belongs) (retry id queue score errorMessage status) := by
  refine .bind (.call fun t n after heq ht => ?_) fun n => ?_
  · obtain ⟨-, rfl⟩ := hincrby_eq_some heq
    exact ht.hset hid (faithful_same (by intro; rfl) (by intro; rfl))
  · exact .bind (.write fun t ht => ht.hset hid (faithful_same (by intro; rfl) (by intro; rfl)))
      fun _ => .bind (.write fun t ht => ht.zadd hid score) fun _ => .pure _

theorem keeps_placedAs_requeueJob {args : RequeueArgs} (hid : belongs args.id args.queueKey) :
    Keeps (PlacedAs belongs) (requeueJob args) := by
  have hdemote : Keeps (PlacedAs belongs) (demote args) := by
    refine .bind (.ask _) fun current => .ite ?_ (.ite (.pure _) ?_)
    · exact .bind (.write fun t ht => ht.hset hid (faithful_same (by intro; rfl) (by intro; rfl)))
        fun _ => .write fun t ht => ht.hdel hid (faithful_same (by intro; rfl) (by intro; rfl))
    · exact .write fun t ht => ht.hset hid (faithful_same (by intro; rfl) (by intro; rfl))
  have huntrack : Keeps (PlacedAs belongs) (untrack args) := by
    unfold untrack
    split
    · exact .write fun t ht => ht.of_same rfl fun _ _ h => h
    · exact .pure _
  have hrelease : Keeps (PlacedAs belongs) (releaseOwned args) := by
    refine .ite (.pure _) (.bind (keeps_getLock _ _) fun owner => .ite ?_ (.pure _))
    exact .write fun t ht => ht.of_same rfl fun _ _ h => h
  have hschedule : Keeps (PlacedAs belongs) (restoreSchedule args) := by
    unfold restoreSchedule
    split
    · exact .write fun t ht => ht.hset hid (faithful_same (by intro; rfl) (by intro; rfl))
    · exact .pure _
  refine .bind (.pcall ?_) fun _ => .pure _
  refine .bind (.ask _) fun present => .ite (.bind hdemote fun _ => ?_) (.pure _)
  refine .bind (.ask _) fun queued => .ite ?_ ?_
  · exact .bind huntrack fun _ => .bind hrelease fun _ => .pure _
  · exact .bind (.write fun t ht => ht.zadd hid _) fun _ =>
      .bind huntrack fun _ => .bind hschedule fun _ => .bind hrelease fun _ => .pure _

theorem PlacedAs.markJobPending (hs : s.PlacedAs belongs) (hid : belongs id queue)
    (lastError : Option String) : (Pipelines.markJobPending id lastError s).PlacedAs belongs :=
  (hs.hset hid (faithful_same (by intro; rfl) (by intro; rfl))).hdel hid
    (faithful_same (by intro; rfl) (by intro; rfl))

end PlacedAs

-- Every job stays where it was, and there may be new ones.
structure Grows (s t : Store) : Prop where
  placed : t.Placed
  belongs : ∀ id queue, s.Belongs id queue → t.Belongs id queue

theorem Placed.grows (hs : s.Placed) : Grows s s := ⟨hs, fun _ _ h => h⟩

theorem Grows.trans {u : Store} (hst : Grows s t) (htu : Grows t u) : Grows s u :=
  ⟨htu.placed, fun id queue h => htu.belongs id queue (hst.belongs id queue h)⟩

theorem PlacedAs.grows (h : t.PlacedAs s.Belongs) : Grows s t :=
  ⟨h.placed, fun id queue => (h.belongs id queue).mpr⟩

section Grows

variable {u : Store}

theorem Grows.of_same (h : Grows s t) (hj : u.jobs = t.jobs) (hq : u.queues = t.queues) :
    Grows s u where
  placed := h.placed.of_same hj fun queue id hid => by rwa [← hq]
  belongs id queue hid := (belongs_congr (congrFun hj id)).mpr (h.belongs id queue hid)

theorem Grows.hset (h : Grows s t) (hid : t.Belongs id queue) {fields : JobHash → JobHash}
    (hf : Faithful id queue fields) : Grows s (t.hset id fields) where
  placed := h.placed.hset hid hf
  belongs other name ho := (belongs_hset hid hf).mpr (h.belongs other name ho)

theorem Grows.zadd (h : Grows s t) (hid : t.Belongs id queue) (score : ℚ) :
    Grows s (t.zadd queue id score) where
  placed := h.placed.zadd hid score
  belongs := h.belongs

theorem Grows.create (h : Grows s t) (hnew : t.jobs id = none) {mapping : JobHash}
    (hid : (t.hset id fun _ => mapping).Belongs id queue) :
    Grows s (t.hset id fun _ => mapping) where
  placed := h.placed.create hnew hid
  belongs other name ho := (h.belongs other name ho).create hnew _

end Grows

-- The job is in its place, or is still to be put there.
def Awaiting (s : Store) (id : JobId) (queue : QueueKey) (t : Store) : Prop :=
  Grows s t ∧ (t.jobs id = none ∨ t.Belongs id queue)

theorem Awaiting.of_same {u : Store} (h : Awaiting s id queue t) (hj : u.jobs = t.jobs)
    (hq : u.queues = t.queues) : Awaiting s id queue u :=
  ⟨h.1.of_same hj hq, h.2.imp (congrFun hj id).trans (belongs_congr (congrFun hj id)).mpr⟩

theorem Awaiting.put (h : Awaiting s id queue t) {mapping : JobHash} (hid : mapping.id = some id)
    (hqueue : mapping.queueName = some queue) (hname : normalizeQueueName queue = queue) :
    Grows s (t.hset id fun _ => mapping) ∧ (t.hset id fun _ => mapping).Belongs id queue := by
  obtain ⟨ht, hnew | hold⟩ := h
  · have hmade := belongs_create hnew hid hqueue hname
    exact ⟨ht.create hnew hmade, hmade⟩
  · have hf : Faithful id queue fun _ => mapping := fun _ _ _ => ⟨hid, hqueue⟩
    exact ⟨ht.hset hold hf, (belongs_hset hold hf).mpr hold⟩

-- The scripts that create a job look first whether it is there.

theorem leads_awaiting {α : Type} {script : Script Store α} {present : Bool} (queue : QueueKey)
    (hp : ¬ present = true) (hs : Keeps (Awaiting s id queue) script) :
    Leads (fun t => Grows s t ∧ (t.jobs id).isSome = present) (Grows s) script := by
  refine (hs.leads fun t ht => ⟨ht.1, .inl ?_⟩).widen fun t ht => ht.1
  have hnone := ht.2.trans (Bool.not_eq_true _ ▸ hp)
  simpa using hnone

theorem keeps_awaiting_write {mapping : JobHash} (hid : mapping.id = some id)
    (hqueue : mapping.queueName = some queue) (hname : normalizeQueueName queue = queue)
    (score : ℚ) {α : Type} (value : α) :
    Keeps (Awaiting s id queue) (do
      write fun t => t.hset id fun _ => mapping
      write fun t => t.zadd queue id score
      pure value) := by
  have hqueued : Leads (fun t => Grows s t ∧ t.Belongs id queue) (Awaiting s id queue) (do
      write fun t => t.zadd queue id score
      pure value) :=
    Leads.write_bind (fun t ht => ⟨ht.1, .inr ht.2⟩)
      (fun t ht => ⟨ht.1.zadd ht.2 score, .inr ht.2⟩) (Keeps.pure value)
  exact Leads.write_bind (fun _ h => h) (fun t ht => ht.put hid hqueue hname) hqueued

theorem keeps_grows_enqueue {mapping : JobHash} (hid : mapping.id = some id)
    (hqueue : mapping.queueName = some queue) (hname : normalizeQueueName queue = queue)
    (score : ℚ) : Keeps (Grows s) (Scripts.enqueue id queue mapping score) :=
  Leads.ask_bind (fun _ h => h) fun _ => .ite (fun _ => .pure (fun _ h => h.1) _)
    fun hp => leads_awaiting _ hp (keeps_awaiting_write hid hqueue hname score 1)

section Producer

open Producer

variable {args : JobArgs} (hname : normalizeQueueName args.queueName = args.queueName)

include hname

theorem keeps_awaiting_create :
    Keeps (Awaiting s args.id args.queueName) (Producer.create args) :=
  keeps_awaiting_write rfl rfl hname args.score _

theorem keeps_grows_enqueueScript (idempotencyKey : Option String) (ttlSeconds : Int) :
    Keeps (Grows s) (enqueueScript args idempotencyKey ttlSeconds) := by
  refine .bind (keeps_findKeyed (fun _ _ _ ht => ht.of_same rfl rfl) _) fun existing => ?_
  cases existing with
  | some existing => exact .pure _
  | none =>
      refine Leads.ask_bind (fun _ h => h) fun present =>
        .ite (fun _ => .pure (fun _ h => h.1) _) fun hp => leads_awaiting args.queueName hp ?_
      cases idempotencyKey with
      | none => exact keeps_awaiting_create hname
      | some idemKey =>
          exact keeps_createWithKey (fun _ _ _ ht => ht.of_same rfl rfl)
            (keeps_awaiting_create hname) idemKey ttlSeconds

theorem keeps_grows_rateLimitScript (rateKey : String) (ttlSeconds : Int) :
    Keeps (Grows s) (rateLimitScript args rateKey ttlSeconds) := by
  refine .ite (.pure _) ?_
  refine .bind (keeps_setKeyNx (fun t _ ht => ht.of_same rfl rfl) _ _) fun ok => .ite ?_ (.pure _)
  refine Leads.ask_bind (fun _ h => h) fun present => .ite (fun _ => ?_)
    fun hp => leads_awaiting _ hp (keeps_awaiting_create hname)
  exact .write_bind (fun _ h => h.1) (fun t ht => ht.1.of_same rfl rfl) (Keeps.pure _)

theorem keeps_grows_createDebounced (debounceKey : String) (ttlSeconds : Int) :
    Keeps (Grows s) (createDebounced args debounceKey ttlSeconds) := by
  refine Leads.ask_bind (fun _ h => h) fun present => .ite (fun _ => .pure (fun _ h => h.1) _)
    fun hp => leads_awaiting args.queueName hp ?_
  refine .bind (keeps_setKeyNx (fun t _ ht => ht.of_same rfl rfl) _ _) fun ok =>
    .ite (keeps_awaiting_create hname) (.bind (.ask _) fun other => ?_)
  cases other with
  | none => exact .pure _
  | some other => exact .pure _

-- A job that is written over stays in its place if the call names it.
omit hname in
theorem keeps_grows_reschedule {existing : JobId} (debounceKey : String) (ttlSeconds : Int) :
    Keeps (fun t => Grows s t ∧ t.Belongs existing args.queueName)
      (reschedule args existing debounceKey ttlSeconds) := by
  have hf : Faithful existing args.queueName args.update := fun h hid _ => ⟨hid, rfl⟩
  exact keeps_reschedule (fun t _ _ ht => ⟨ht.1.of_same rfl rfl, ht.2⟩)
    (fun t ht => ⟨ht.1.hset ht.2 hf, (belongs_hset ht.2 hf).mpr ht.2⟩)
    (fun t ht => ⟨ht.1.zadd ht.2 _, ht.2⟩) debounceKey ttlSeconds

theorem leads_grows_debounceScript (hs : s.Placed) {debounceKey : String}
    (hkey : ∀ existing, (s.debounces debounceKey).map Volatile.value = some existing →
      s.status existing = some JobStatus.Pending.asStr → s.Belongs existing args.queueName)
    (ttlSeconds : Int) :
    Leads (· = s) (Grows s) (debounceScript args debounceKey ttlSeconds) := by
  have hstart : ∀ t, t = s → Grows s t := by
    rintro _ rfl
    exact hs.grows
  have hcreate := keeps_grows_createDebounced hname debounceKey ttlSeconds (s := s)
  refine Leads.ask_bind hstart fun existing => ?_
  cases existing with
  | none => exact hcreate.leads fun t ht => hstart t ht.1
  | some existing =>
      refine Leads.ask_bind (fun t ht => hstart t ht.1) fun present =>
        Leads.ask_bind (fun t ht => hstart t ht.1.1) fun status =>
          .ite (fun hpending => ?_) fun _ => ?_
      · refine ((keeps_grows_reschedule debounceKey ttlSeconds).leads ?_).widen fun _ h => h.1
        rintro t ⟨⟨⟨rfl, hexisting⟩, -⟩, hstatus⟩
        exact ⟨hs.grows, hkey existing hexisting (hstatus.trans hpending.2)⟩
      · refine Leads.write_bind (fun t ht => hstart t ht.1.1.1) (fun t ht => ?_) hcreate
        exact (hstart t ht.1.1.1).of_same rfl rfl

end Producer

end Rrq.Store

namespace Rrq.Cmd

open Store

-- The command moves jobs within the queues that they belong to, and creates none.
def Fits (belongs : JobId → QueueKey → Prop) : Cmd → Prop
  | addJobToQueue queue id _ => belongs id queue
  | atomicEnqueueJob _ _ _ _ => False
  | markJobPending id _ => ∃ queue, belongs id queue
  | updateJobNextScheduledRunTime id _ => ∃ queue, belongs id queue
  | updateJobStatus id _ => ∃ queue, belongs id queue
  | atomicRetryJob id queue _ _ _ => belongs id queue
  | atomicMoveJobToDlq _ _ _ _ _ _ => False
  | moveJobToDlq _ _ _ _ => False
  | atomicRequeueJob args => belongs args.id args.queueKey
  | saveJobResult _ _ _ _ => False
  | producerEnqueue _ _ _ => False
  | producerRateLimit _ _ _ => False
  | producerDebounce _ _ _ => False
  | _ => True

-- The command creates a job, or writes over one that belongs to the same queue.
def Creates (s : Store) : Cmd → Prop
  | atomicEnqueueJob id queue mapping _ => mapping.id = some id ∧
      mapping.queueName = some queue ∧ normalizeQueueName queue = queue
  | producerEnqueue args _ _ => normalizeQueueName args.queueName = args.queueName
  | producerRateLimit args _ _ => normalizeQueueName args.queueName = args.queueName
  | producerDebounce args debounceKey _ => normalizeQueueName args.queueName = args.queueName ∧
      ∀ existing, (s.debounces debounceKey).map Volatile.value = some existing →
        s.status existing = some JobStatus.Pending.asStr → s.Belongs existing args.queueName
  | _ => False

-- The commands of an enqueue of the client.
def Adds : Cmd → Prop
  | atomicEnqueueJob id queue mapping _ => mapping.id = some id ∧
      mapping.queueName = some queue ∧ normalizeQueueName queue = queue
  | getLockTtl _ => True
  | acquireUniqueJobLock _ _ _ => True
  | releaseUniqueJobLock _ => True
  | _ => False

variable {c : Cmd} {s : Store}

theorem placedAs_exec {belongs : JobId → QueueKey → Prop} (hs : s.PlacedAs belongs)
    (hc : c.Fits belongs) (fault : Fault) (page : Nat × List String) :
    (c.exec fault page s).2.PlacedAs belongs := by
  cases c
  case addJobToQueue queue id score => exact keeps_single fault hs (hs.zadd hc score)
  case removeJobFromQueue queue id => exact keeps_single fault hs hs.zrem
  case atomicClaimReadyJobs args =>
    exact keeps_script_run fault hs fun budget => placedAs_claimReady hs budget
  case markJobPending id lastError =>
    obtain ⟨queue, hqueue⟩ := hc
    exact keeps_single fault hs (hs.markJobPending hqueue lastError)
  case updateJobNextScheduledRunTime id time =>
    obtain ⟨queue, hqueue⟩ := hc
    have hset : (s.hset id fun h =>
        { h with nextScheduledRunTime := some (.val time) }).PlacedAs belongs :=
      hs.hset hqueue (faithful_same (by intro; rfl) (by intro; rfl))
    exact keeps_single fault hs hset
  case updateJobStatus id status =>
    obtain ⟨queue, hqueue⟩ := hc
    have hset : (s.hset id fun h => { h with status := some status.asStr }).PlacedAs belongs :=
      hs.hset hqueue (faithful_same (by intro; rfl) (by intro; rfl))
    exact keeps_single fault hs hset
  case atomicRetryJob id queue score message status =>
    exact keeps_script fault _ _ (keeps_placedAs_retry hc score message status) hs
  case atomicRequeueJob args => exact keeps_script fault _ _ (keeps_placedAs_requeueJob hc) hs
  all_goals first
    | exact hc.elim
    | exact frame_exec frame_placedAs (by simp [kinds]) (fun _ _ => trivial) fault page s hs

theorem grows_exec (hs : s.Placed) (hc : c.Creates s) (fault : Fault)
    (page : Nat × List String) : Grows s (c.exec fault page s).2 := by
  cases c
  case atomicEnqueueJob id queue mapping score =>
    exact keeps_script fault _ _ (keeps_grows_enqueue hc.1 hc.2.1 hc.2.2 score) hs.grows
  case producerEnqueue args key ttl =>
    exact keeps_script fault _ _ (keeps_grows_enqueueScript hc key ttl) hs.grows
  case producerRateLimit args key ttl =>
    exact keeps_script fault _ _ (keeps_grows_rateLimitScript hc key ttl) hs.grows
  case producerDebounce args key ttl =>
    exact keeps_script_run fault hs.grows fun budget =>
      (leads_grows_debounceScript hc.1 hs hc.2 ttl).run budget rfl
  all_goals exact hc.elim

theorem grows_fits (hs : s.Placed) (hc : c.Fits s.Belongs) (fault : Fault)
    (page : Nat × List String) : Grows s (c.exec fault page s).2 :=
  (placedAs_exec hs.placedAs hc fault page).grows

theorem grows_adds (hs : s.Placed) (hc : c.Adds) (fault : Fault) (page : Nat × List String) :
    Grows s (c.exec fault page s).2 := by
  cases c with
  | atomicEnqueueJob id queue mapping score =>
      have hcreates : (atomicEnqueueJob id queue mapping score).Creates s := hc
      exact grows_exec hs hcreates fault page
  | getLockTtl key =>
      have hfits : (getLockTtl key).Fits s.Belongs := trivial
      exact grows_fits hs hfits fault page
  | acquireUniqueJobLock key id ttl =>
      have hfits : (acquireUniqueJobLock key id ttl).Fits s.Belongs := trivial
      exact grows_fits hs hfits fault page
  | releaseUniqueJobLock key =>
      have hfits : (releaseUniqueJobLock key).Fits s.Belongs := trivial
      exact grows_fits hs hfits fault page
  | _ => exact hc.elim

end Rrq.Cmd
