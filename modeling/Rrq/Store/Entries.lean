import Rrq.Store.Ownership

-- What the commands leave of the active sets, and of the names in the hashes.

namespace Rrq.Store

open Script Producer

variable {s : Store} {id : JobId}

-- Writes that are not to an active set leave the active sets alone.
theorem frame_sameActive : Frame (· ≠ .active) (fun _ => True) fun s t => t.active = s.active where
  refl _ := rfl
  trans _ _ _ hst htu := htu.trans hst
  define _ s id _ _ := (samePlaces_hset s id _).active
  hset _ s id _ _ _ := (samePlaces_hset s id _).active
  hdel _ s id _ _ _ := (samePlaces_hdel s id _).active
  expireJob _ s id _ _ := by unfold expireJob; split <;> rfl
  persistJob _ s id _ := by unfold persistJob; split <;> rfl
  zadd _ _ _ _ _ _ := rfl
  zrem _ _ _ _ _ := rfl
  zaddActive h := absurd rfl h
  zremActive h := absurd rfl h
  setLock _ _ _ _ _ _ := rfl
  lpush _ _ _ _ _ := rfl
  setHealth _ _ _ _ := rfl
  setEvents _ _ _ := rfl
  setUniqueLock _ _ _ _ := rfl
  setIdempotency _ _ _ := rfl
  setRateLimit _ _ _ := rfl
  setDebounce _ _ _ := rfl

-- A hash that is created names its job, and one that is written over keeps its name.

theorem WellNamed.of_jobs {t : Store} (hs : s.WellNamed) (h : t.jobs = s.jobs) : t.WellNamed :=
  (SameDefinitions.of_jobs h).wellNamed hs

theorem WellNamed.hset (hs : s.WellNamed) {fields : JobHash → JobHash}
    (hf : ∀ h, h.id.getD id = id → (fields h).id.getD id = id) : (s.hset id fields).WellNamed := by
  intro other h hother
  by_cases ho : other = id
  · subst ho
    rw [hash_hset] at hother
    obtain rfl := Option.some.inj hother
    apply hf
    cases hold : s.hash other with
    | none => rfl
    | some old => exact hs other old hold
  · rw [(sameJob_hset ho s fields).hash] at hother
    exact hs other h hother

theorem keeps_wellNamed_create (args : JobArgs) : Keeps WellNamed (create args) :=
  .bind (.write fun _ hs => hs.hset fun _ _ => rfl) fun _ =>
    .bind (.write fun _ hs => hs.of_jobs rfl) fun _ => .pure _

theorem keeps_wellNamed_enqueue {mapping : JobHash} (h : mapping.id = some id)
    (queueKey : QueueKey) (score : ℚ) :
    Keeps WellNamed (Scripts.enqueue id queueKey mapping score) := by
  refine .bind (.ask _) fun present => .ite (.pure _) ?_
  exact .bind (.write fun _ hs => hs.hset fun _ _ => by rw [h]; rfl) fun _ =>
    .bind (.write fun _ hs => hs.of_jobs rfl) fun _ => .pure _

end Rrq.Store

namespace Rrq.Cmd

open Store

-- The job of the command is the one that the hash it creates names.
def NamesOwn : Cmd → Prop
  | atomicEnqueueJob id _ mapping _ => mapping.id = some id
  | _ => True

theorem wellNamed_exec {c : Cmd} (hc : c.NamesOwn) (fault : Fault) (page : Nat × List String)
    {s : Store} (hs : s.WellNamed) : (c.exec fault page s).2.WellNamed := by
  by_cases hk : ∀ kind ∈ c.kinds, kind ≠ Kind.definition
  · exact (frame_exec frame_sameDefinitions hk (fun _ _ => trivial) fault page s).wellNamed hs
  cases c <;> try (refine absurd ?_ hk; simp [kinds]; done)
  case atomicEnqueueJob id queue mapping score =>
    exact keeps_script fault _ _ (keeps_wellNamed_enqueue hc queue score) hs
  case producerEnqueue args key ttl =>
    exact keeps_script fault _ _
      (keeps_enqueueScript (fun _ _ _ h => h.of_jobs rfl) (keeps_wellNamed_create args) key ttl) hs
  case producerRateLimit args key ttl =>
    exact keeps_script fault _ _
      (keeps_rateLimitScript (fun _ _ _ h => h.of_jobs rfl) (keeps_wellNamed_create args) key ttl) hs
  case producerDebounce args key ttl =>
    refine keeps_script fault _ _ (keeps_debounceScript (fun _ _ _ h => h.of_jobs rfl)
      (keeps_createDebounced (fun _ _ _ h => h.of_jobs rfl) (keeps_wellNamed_create args) key ttl)
      fun existing => ?_) hs
    exact keeps_reschedule (fun _ _ _ h => h.of_jobs rfl) (fun _ h => h.hset fun _ hold => hold)
      (fun _ h => h.of_jobs rfl) key ttl

-- The entries that a command takes out of an active set.
def Drops : Cmd → WorkerId → JobId → Prop
  | removeActiveJob worker id => fun owner other => worker = owner ∧ id = other
  | atomicRequeueJob args => fun owner other => args.activeWorkerId = some owner ∧ args.id = other
  | _ => fun _ _ => False

-- What a command does not take out of an active set stays there.
theorem active_exec {c : Cmd} {fault : Fault} {page : Nat × List String} {s t : Store}
    {answer : Except RedisError c.Answer} {worker : WorkerId} {id : JobId}
    (hf : fault = .none ∨ fault = .refused) (hwell : ∀ other, s.lock other ≠ some .malformed)
    (h : c.exec fault page s = (answer, t)) (hd : ¬ c.Drops worker id)
    (hid : id ∈ s.active worker) : id ∈ t.active worker := by
  by_cases hk : ∀ kind ∈ c.kinds, kind ≠ Kind.active
  · rw [frame_of_exec frame_sameActive hk h]
    exact hid
  cases c <;> try (refine absurd ?_ hk; simp [kinds]; done)
  case atomicClaimReadyJobs args =>
    obtain ⟨ids, -, -, hclaims, -⟩ := atomicClaimReadyJobs_inv hf h
    by_cases hmem : id ∈ ids
    · exact ((hclaims.taken id hmem).active worker).mpr (.inr hid)
    · rcases hclaims.others id hmem with hsame | hdropped
      · exact (hsame.active worker).mpr hid
      · exact (hdropped.active worker).mpr hid
  case atomicRequeueJob args =>
    by_cases ho : id = args.id
    · subst ho
      rcases atomicRequeueJob_inv (hwell _) hf h with ⟨hput, -⟩ | ⟨rfl, -⟩
      · exact (hput.active worker).mpr ⟨fun hw => hd ⟨hw, rfl⟩, hid⟩
      · exact hid
    · have hsame := sameJob_exec (c := atomicRequeueJob args) id (fun other hc => hc ▸ ho)
        fault page s
      rw [h] at hsame
      exact (hsame.active worker).mpr hid
  case removeActiveJob owner other =>
    obtain ⟨rfl, -⟩ := removeActiveJob_inv h
    split_ifs
    · by_cases hw : worker = owner
      · subst hw
        have hne : id ≠ other := fun he => hd ⟨rfl, he.symm⟩
        exact ((sameJob_zremActive hne s worker).active worker).mpr hid
      · simpa [zremActive, setActive, Function.update_of_ne hw] using hid
    · exact hid

end Rrq.Cmd
