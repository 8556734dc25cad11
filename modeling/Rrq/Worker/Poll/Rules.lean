import Rrq.Worker.Poll.Accounted

-- The operations of a poll, one rule for each kind.

namespace Rrq

namespace Store

-- The active sets and the locks are as they were.
structure SameTracking (s t : Store) : Prop where
  active : t.active = s.active
  locks : t.locks = s.locks

section Tracking

variable {me : WorkerId} {id : JobId} {s t u : Store}

theorem SameTracking.refl (s : Store) : SameTracking s s := ⟨rfl, rfl⟩

theorem SameTracking.trans (hst : SameTracking s t) (htu : SameTracking t u) : SameTracking s u :=
  ⟨htu.active.trans hst.active, htu.locks.trans hst.locks⟩

theorem SameTracking.lockedByOther (h : SameTracking s t) (hl : s.LockedByOther me id) :
    t.LockedByOther me id := by
  obtain ⟨other, hne, hlock⟩ := hl
  exact ⟨other, hne, by simpa [lock, h.locks] using hlock⟩

theorem SameTracking.secured (h : SameTracking s t) (hs : s.Secured me id) : t.Secured me id :=
  hs.imp (fun ha => h.active ▸ ha) h.lockedByOther

theorem sameTracking_hset (s : Store) (id : JobId) (fields : JobHash → JobHash) :
    SameTracking s (s.hset id fields) := ⟨(samePlaces_hset s id fields).active, locks_hset s id _⟩

theorem sameTracking_moveJobToDlq (s : Store) (id : JobId) (dlqKey message : String)
    (time : DateTime) : SameTracking s (Pipelines.moveJobToDlq id dlqKey message time s) := by
  have hevents : ∀ (a : Store) (cell), SameTracking a (a.setEvents id cell) := fun _ _ => ⟨rfl, rfl⟩
  have hxadd : ∀ (a : Store) (event : Event), SameTracking a (a.xadd id event) := by
    intro a event
    unfold xadd
    split <;> exact hevents a _
  have hexpire : ∀ (a : Store) (seconds : Int), SameTracking a (a.expireJob id seconds) := by
    intro a seconds
    exact ⟨(sameStatus_expireJob a id seconds).places.active, locks_expireJob a id seconds⟩
  have hexpireEvents : ∀ (a : Store) (seconds : Int), SameTracking a (a.expireEvents id seconds) := by
    intro a seconds
    unfold expireEvents
    split
    · exact .refl a
    · exact hevents a _
  refine .trans ?_ (hexpireEvents _ _)
  refine .trans ?_ (hexpire _ _)
  refine .trans (.trans ?_ (hxadd _ _)) ⟨rfl, rfl⟩
  exact sameTracking_hset s id _

end Tracking

end Store

open Store

namespace Cmd

-- The commands of a release that touch neither the active sets nor the locks.
def Gentle : Cmd → Prop
  | getJobDataMap _ => True
  | isJobQueued _ _ => True
  | addJobToQueue _ _ _ => True
  | removeJobFromQueue _ _ => True
  | getJobLockOwner _ => True
  | markJobPending _ _ => True
  | moveJobToDlq _ _ _ _ => True
  | releaseUniqueJobLock _ => True
  | _ => False

-- The commands on jobs that exist, apart from a claim.
def Plain : Cmd → Prop
  | atomicEnqueueJob _ _ _ _ => False
  | atomicClaimReadyJobs _ => False
  | producerEnqueue _ _ _ => False
  | producerRateLimit _ _ _ => False
  | producerDebounce _ _ _ => False
  | _ => True

theorem Plain.kinds {c : Cmd} (hp : c.Plain) : ∀ kind ∈ c.kinds, kind ≠ .definition := by
  cases c <;> first | exact hp.elim | simp [Cmd.kinds]

theorem Gentle.plain {c : Cmd} (hg : c.Gentle) : c.Plain := by
  cases c <;> first | exact hg.elim | trivial

theorem gentle_exec {c : Cmd} (hg : c.Gentle) (fault : Fault) (page : Nat × List String)
    (s : Store) : SameTracking s (c.exec fault page s).2 := by
  have hsame := SameTracking.refl s
  cases c <;> simp only [Gentle] at hg <;> simp only [exec, reply] <;>
    refine keeps_single fault hsame ?_
  case getJobLockOwner =>
    unfold getLock
    split <;> rename_i heq <;> split at heq <;> cases heq <;> exact hsame
  case markJobPending =>
    exact .trans (sameTracking_hset s _ _) ⟨(samePlaces_hdel _ _ _).active, locks_hdel _ _ _⟩
  case moveJobToDlq => exact sameTracking_moveJobToDlq _ _ _ _ _
  all_goals exact ⟨rfl, rfl⟩

end Cmd

theorem History.note_claimedFrom {c : Cmd} (hp : c.Plain) (h : History) (pid : Pid)
    (me : WorkerId) (answer : Except RedisError c.Answer) :
    (h.note pid (.main me) c answer).claimedFrom = h.claimedFrom ∧
      (h.note pid (.main me) c answer).dispatched = h.dispatched := by
  cases c <;> first | exact hp.elim | simp only [note, noteClaims]
  case removeActiveJob => split <;> exact ⟨rfl, rfl⟩
  case releaseJobLockIfOwner => split <;> exact ⟨rfl, rfl⟩
  case releaseJobLock => exact ⟨rfl, rfl⟩
  case atomicRequeueJob => split <;> exact ⟨rfl, rfl⟩
  all_goals exact ⟨trivial, trivial⟩

def pollDiscipline (pid : Pid) (me : WorkerId) : Discipline Op Op.Reply Chance World where
  exec := World.exec pid (.main me)
  admits := Whole
  inv := Accounted me
  rely := Meddles me
  guar _ _ := True
  begins _ _ _ := True

abbrev PollSafe {α : Type} (pid : Pid) (me : WorkerId) (post : α → World → Prop) (prog : Proc α)
    (w : World) : Prop := (pollDiscipline pid me).Safe post prog w

namespace PollSafe

variable {α β : Type} {pid : Pid} {me : WorkerId} {post : α → World → Prop} {w : World}
  {id : JobId} {queue : QueueKey}

theorem ret {value : α} (h : post value w) : PollSafe pid me post (pure value) w := h

theorem bind {mid : β → World → Prop} {prog : Proc β} {rest : β → Proc α}
    (hp : PollSafe pid me mid prog w)
    (hr : ∀ value w', mid value w' → PollSafe pid me post (rest value) w') :
    PollSafe pid me post (prog >>= rest) w := Discipline.safe_bind hp hr

theorem mono {stronger : α → World → Prop} {prog : Proc α}
    (hp : PollSafe pid me stronger prog w) (h : ∀ value w', stronger value w' → post value w') :
    PollSafe pid me post prog w := Discipline.safe_mono hp h

-- Operations that leave the store and the record alone.
theorem still {op : Op} {next : op.Reply → Proc α}
    (hop : ∀ chance b, (World.exec pid (.main me) op chance b).2.store = b.store ∧
      (World.exec pid (.main me) op chance b).2.history = b.history)
    (h : ∀ chance b reply w', Accounted me w' → Meddles me w w' →
      World.exec pid (.main me) op chance b = (reply, w') →
      PollSafe pid me post (next reply) w') :
    PollSafe pid me post (perform op >>= next) w := by
  intro b hrely chance reply after hstep
  obtain ⟨hinv, -, hexec⟩ := hstep
  obtain ⟨hs, hh⟩ := hop chance b
  have hexec : World.exec pid (.main me) op chance b = (reply, after) := hexec
  rw [hexec] at hs hh
  have hm : Meddles me w after := by
    refine ⟨hh.trans hrely.history, fun hn => ?_, fun id => ?_⟩
    · exact hs ▸ hrely.named hn
    · exact hs ▸ hrely.jobs id
  have ha : Accounted me after :=
    Accounted.meddles hinv ⟨hh, fun hn => hs ▸ hn, fun id => hs ▸ .refl me id _⟩
  exact ⟨ha, trivial, trivial, h chance b reply after ha hm hexec⟩

theorem read {next : Except RedisError (Option JobHash) → Proc α}
    (h : ∀ answer w', Accounted me w' → Meddles me w w' →
      (∀ map, answer = .ok map → map = w'.store.hash id) → PollSafe pid me post (next answer) w') :
    PollSafe pid me post (redis (.getJobDataMap id) >>= next) w := by
  have hinv : ∀ (chance : Chance) (b : World),
      ((Cmd.getJobDataMap id).exec chance.fault chance.page b.store).2 = b.store ∧
        ((Cmd.getJobDataMap id).exec chance.fault chance.page b.store).1 =
          if chance.fault = .none then .ok (b.store.hash id) else .error .failed :=
    fun chance b => Cmd.getJobDataMap_inv Prod.mk.eta.symm
  have hop : ∀ (chance : Chance) (b : World),
      (World.exec pid (.main me) (.redis (.getJobDataMap id)) chance b).2.store = b.store ∧
        (World.exec pid (.main me) (.redis (.getJobDataMap id)) chance b).2.history = b.history :=
    fun chance b => ⟨(hinv chance b).1, rfl⟩
  refine still hop fun chance b answer w' ha hm hexec => h answer w' ha hm fun map hmap => ?_
  obtain ⟨hsame, hanswer⟩ := hinv chance b
  have hreply : ((Cmd.getJobDataMap id).exec chance.fault chance.page b.store).1 = answer :=
    congrArg Prod.fst hexec
  have hstore : w'.store = b.store := (congrArg (fun r => r.2.store) hexec).symm.trans hsame
  rw [← hreply, hanswer] at hmap
  split at hmap
  · rw [hstore]
    exact (Except.ok.inj hmap).symm
  · cases hmap

-- A command about one claimed job.
theorem own {c : Cmd} {next : Except RedisError c.Answer → Proc α} (hp : c.Plain)
    (ht : ∀ other, c.concerns other → other = id)
    (hid : w.history.claimedFrom id = some queue)
    (h : ∀ b fault page answer store, Meddles me w b → Accounted me b →
      fault = .none ∨ fault = .refused → c.exec fault page b.store = (answer, store) →
      (store.Secured me id ∨ store.Released me queue id) ∧
        ∀ w', w'.store = store → Follows me (· = id) w w' → PollSafe pid me post (next answer) w') :
    PollSafe pid me post (redis c >>= next) w := by
  intro b hrely chance reply after hstep
  obtain ⟨hinv, hwhole, hexec⟩ := hstep
  have hinv : Accounted me b := hinv
  cases hc : c.exec chance.fault chance.page b.store with
  | mk answer store =>
  obtain ⟨rfl, rfl⟩ : answer = reply ∧
      { b with store, history := b.history.note pid (.main me) c answer } = after := by
    simp only [pollDiscipline, World.exec, hc, Prod.mk.injEq] at hexec
    exact hexec
  obtain ⟨hk, hnext⟩ := h b chance.fault chance.page answer store hrely hinv hwhole hc
  have hnote := History.note_claimedFrom hp b.history pid me answer
  have hstore : store = (c.exec chance.fault chance.page b.store).2 := by rw [hc]
  have hothers : ∀ other, other ≠ id → SameJob other b.store store := by
    intro other hne
    rw [hstore]
    refine Cmd.sameJob_exec other (fun target htarget => ?_) _ _ _
    rw [ht target htarget]
    exact hne
  have hf : Follows me (· = id) b
      { b with store, history := b.history.note pid (.main me) c answer } :=
    ⟨hnote.1, hnote.2, fun other hne => .of_sameJob (hothers other hne)⟩
  have hidb : b.history.claimedFrom id = some queue := by rw [hrely.history, hid]
  refine ⟨hinv.follows hf ?_ hidb hk ?_, trivial, trivial, hnext _ rfl (hrely.follows.trans hf)⟩
  · rw [hstore]
    exact (Cmd.frame_exec frame_sameDefinitions hp.kinds (fun _ _ => trivial) _ _ _).wellNamed
      hinv.named
  · rw [hstore]
    exact Cmd.frame_exec frame_wellLocked (fun _ _ => trivial) (fun _ _ => trivial) _ _ _ id
      (hinv.wellLocked id queue hidb)

-- What a step of a release leaves of a claim that is on record.
structure Guarded (me : WorkerId) (id : JobId) (w : World) (fact : α → Store → Prop) (value : α)
    (w' : World) : Prop where
  follows : Follows me (· = id) w w'
  secured : w'.store.Secured me id
  lost : w.store.LockedByOther me id → w'.store.LockedByOther me id
  fact : fact value w'.store

theorem Guarded.from {w' w'' : World} {before : β → Store → Prop} {fact : α → Store → Prop}
    {first : β} {value : α} (hk : Guarded me id w before first w') (h : Guarded me id w' fact value w'') :
    Guarded me id w fact value w'' :=
  ⟨hk.follows.trans h.follows, h.secured, fun hl => h.lost (hk.lost hl), h.fact⟩

-- A gentle command about a claim that is on record leaves it there.
theorem gentle {c : Cmd} {next : Except RedisError c.Answer → Proc α} (hg : c.Gentle)
    (ht : ∀ other, c.concerns other → other = id)
    (hid : w.history.claimedFrom id = some queue) (hs : w.store.Secured me id)
    (h : ∀ b fault page answer, Meddles me w b → ∀ w',
      c.exec fault page b.store = (answer, w'.store) →
      Guarded me id w (fun _ _ => True) answer w' → PollSafe pid me post (next answer) w') :
    PollSafe pid me post (redis c >>= next) w := by
  refine own hg.plain ht hid fun b fault page answer store hm hb _ hexec => ?_
  have ht : SameTracking b.store store := by
    have := Cmd.gentle_exec hg fault page b.store
    rwa [hexec] at this
  have hsecured : store.Secured me id := ht.secured (hs.meddled (hm.jobs id))
  refine ⟨.inl hsecured, fun w' hw hf => ?_⟩
  refine h b fault page answer hm w' (hw ▸ hexec) ⟨hf, hw ▸ hsecured, fun hl => ?_, trivial⟩
  exact hw ▸ ht.lockedByOther ((hm.jobs id).lockedByOther hl)

-- Refreshing a lock touches no lock of another worker.
theorem refresh {next : Except RedisError Bool → Proc α} (ms : Int)
    (hid : w.history.claimedFrom id = some queue) (hs : w.store.Secured me id)
    (h : ∀ answer w', Guarded me id w (fun _ _ => True) answer w' →
      PollSafe pid me post (next answer) w') :
    PollSafe pid me post (redis (.refreshJobLockTimeout id me ms) >>= next) w := by
  refine own trivial (fun _ ho => ho) hid fun b fault page answer store hm hb hwhole hexec => ?_
  have hsame := Cmd.refreshJobLockTimeout_inv hexec
  have hother : b.store.LockedByOther me id → store.LockedByOther me id := by
    rintro ⟨other, hne, hlock⟩
    have hkeep : store = b.store := by
      have hrun : ((Scripts.refreshLock id me ms).run none b.store).2 = b.store :=
        run_refreshLock ms (by simp [hlock, hne])
      have hstore := congrArg Prod.snd hexec
      rcases hwhole with rfl | rfl
      · exact hstore.symm.trans hrun
      · exact hstore.symm
    exact ⟨other, hne, hkeep ▸ hlock⟩
  have hsecured : store.Secured me id :=
    (hs.meddled (hm.jobs id)).imp (fun ha => hsame.active ▸ ha) hother
  refine ⟨.inl hsecured, fun w' hw hf => h answer w' ⟨hf, hw ▸ hsecured, fun hl => ?_, trivial⟩⟩
  exact hw ▸ hother ((hm.jobs id).lockedByOther hl)

-- A job that is handed to a task is accounted for by that.
theorem spawn {job : Job} {self : RRQWorker} {queueName : QueueKey} {next : Pid → Proc α}
    (hme : self.workerId = me)
    (h : ∀ task w', w'.history.claimedFrom = w.history.claimedFrom →
      w'.history.dispatched = w.history.dispatched ++ [(me, job.id)] →
      (∀ other, Meddled me other w.store w'.store) → PollSafe pid me post (next task) w') :
    PollSafe pid me post (perform (.spawnTask self job queueName) >>= next) w := by
  subst hme
  intro b hrely chance reply after hstep
  obtain ⟨hinv, -, hexec⟩ := hstep
  have hinv : Accounted self.workerId b := hinv
  obtain ⟨-, rfl⟩ := Prod.mk.injEq .. ▸ hexec
  refine ⟨⟨hinv.named, fun other from' ho => ?_, hinv.wellLocked⟩, trivial, trivial,
    h reply _ ?_ ?_ hrely.jobs⟩
  · exact (hinv.kept other from' ho).imp_left (List.mem_append_left _)
  · rw [← hrely.history]
    rfl
  · rw [← hrely.history]
    rfl

-- A claim puts every job that it takes on record.
theorem claim {args : Scripts.ClaimArgs} {next : Except RedisError (List JobId) → Proc α}
    (hme : args.workerId = me)
    (h : ∀ answer w', w'.history.dispatched = w.history.dispatched →
      (∀ ids, answer = .ok ids → ids.Nodup ∧ ∀ id ∈ ids,
        w'.history.claimedFrom id = some args.queueKey ∧ w'.store.Secured me id ∧
          w'.store.Fresh me id) → PollSafe pid me post (next answer) w') :
    PollSafe pid me post (redis (.atomicClaimReadyJobs args) >>= next) w := by
  subst hme
  intro b hrely chance reply after hstep
  obtain ⟨hinv, hwhole, hexec⟩ := hstep
  have hinv : Accounted args.workerId b := hinv
  cases hc : (Cmd.atomicClaimReadyJobs args).exec chance.fault chance.page b.store with
  | mk answer store =>
  obtain ⟨rfl, rfl⟩ : answer = reply ∧ World.mk store b.mem (b.history.note pid
      (.main args.workerId) (.atomicClaimReadyJobs args) answer) = after := by
    simp only [pollDiscipline, World.exec, hc, Prod.mk.injEq] at hexec
    exact hexec
  obtain ⟨ids, hnodup, -, hclaims, hanswer⟩ := Cmd.atomicClaimReadyJobs_inv hwhole hc
  have hstore : store = ((Cmd.atomicClaimReadyJobs args).exec chance.fault chance.page b.store).2 := by
    rw [hc]
  have hnamed : store.WellNamed := by
    rw [hstore]
    exact (Cmd.frame_exec frame_sameDefinitions (by simp [Cmd.kinds]) (fun _ _ => trivial)
      _ _ _).wellNamed hinv.named
  have htaken : ∀ id ∈ ids, store.Secured args.workerId id := fun id hid =>
    .inl (((hclaims.taken id hid).active _).mpr (.inl rfl))
  have hothers : ∀ id from', b.history.claimedFrom id = some from' →
      (args.workerId, id) ∈ b.history.dispatched ∨ store.Secured args.workerId id ∨
        store.Released args.workerId from' id := by
    intro id from' hid
    by_cases hmem : id ∈ ids
    · exact .inr (.inl (htaken id hmem))
    rcases hclaims.others id hmem with hsame | hdropped
    · exact (hinv.kept id from' hid).imp_right
        (.imp (·.meddled (.of_sameJob hsame)) (·.meddled (.of_sameJob hsame)))
    · refine .inr (.inr (.inr (.inr (.inl ?_))))
      have hmissing := hdropped.missing
      unfold Store.hash at hmissing ⊢
      rw [hdropped.cell, hmissing]
  have hlocks : ∀ id from', b.history.claimedFrom id = some from' → store.lock id ≠ some .malformed := by
    intro id from' hid
    by_cases hmem : id ∈ ids
    · rw [(hclaims.taken id hmem).lock]
      simp
    have hwell := hinv.wellLocked id from' hid
    have hsame : store.locks id = b.store.locks id :=
      (hclaims.others id hmem).elim (·.lock) (·.lock)
    unfold Store.lock at hwell ⊢
    rwa [hsame]
  cases answer with
  | error error =>
      refine ⟨⟨hnamed, hothers, hlocks⟩, trivial, trivial, h _ _ ?_ (by rintro _ ⟨⟩)⟩
      rw [← hrely.history]
      rfl
  | ok claimed =>
      obtain rfl := hanswer claimed rfl
      have hfrom : ∀ id, (b.history.claim args.workerId args.queueKey claimed).claimedFrom id =
          if id ∈ claimed then some args.queueKey else b.history.claimedFrom id := fun _ => rfl
      refine ⟨⟨hnamed, fun id from' hid => ?_, fun id from' hid => ?_⟩, trivial, trivial,
        h _ _ ?_ ?_⟩
      · by_cases hmem : id ∈ claimed
        · exact .inr (.inl (htaken id hmem))
        · exact hothers id from' (by simpa [hfrom, hmem] using (hfrom id).symm.trans hid)
      · by_cases hmem : id ∈ claimed
        · rw [(hclaims.taken id hmem).lock]
          simp
        · exact hlocks id from' (by simpa [hfrom, hmem] using (hfrom id).symm.trans hid)
      · rw [← hrely.history]
        rfl
      · rintro ids ⟨⟩
        refine ⟨hnodup, fun id hid => ⟨(hfrom id).trans (if_pos hid), htaken id hid, .inl ?_⟩⟩
        obtain ⟨hash, -, hhash⟩ := (hclaims.taken id hid).hash
        exact ⟨_, hhash, rfl, rfl⟩

end PollSafe

end Rrq
