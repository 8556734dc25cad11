import Rrq.Runner.Connection

-- A response reaches the call that it names and no other, and no call waits for a sender that
-- nobody is about to use.

namespace Rrq.Runner

-- The call has handed out its sender.
def CallState.Entered : CallState → Prop
  | begun | checked => False
  | _ => True

-- The call has yet to look at its receiver for the last time.
def CallState.Listening : CallState → Prop
  | registered | refused | sending | unsent | waiting | timedOut => True
  | _ => False

-- What a call can still come to that registers when the connection is closed.
def CallState.Late : CallState → Prop
  | .begun | .checked | .registered | .refused | .dropped => True
  | .returned (.error .connectionClosed) => True
  | _ => False

-- It has taken the senders out of the map.
def CloseState.Drained : CloseState → Prop
  | .failing _ _ | .completed _ => True
  | _ => False

-- The calls that a closing took the senders of have been sent its error, or are about to be.
def CloseState.Tells (told : CallId → Prop) : CloseState → Prop
  | .failing drained rest => ∀ i ∈ drained, i ∈ rest ∨ told i
  | .completed drained => ∀ i ∈ drained, told i
  | _ => True

inductive Place where
  | pending
  | hand
  | closing (task : Task)

namespace PersistentProcessConnection

def rest (c : PersistentProcessConnection) (task : Task) : List CallId :=
  match c.closings task with
  | some ⟨_, .failing _ rest⟩ => rest
  | _ => []

-- The calls whose senders lie at a place.
def holders (c : PersistentProcessConnection) : Place → List CallId
  | .pending => c.pending.map Prod.snd
  | .hand => (c.hand.map Prod.fst).toList
  | .closing task => c.rest task

variable {c d : PersistentProcessConnection} {i j : CallId} {call : Call}

theorem setCall_self : (c.setCall i call).calls i = some call := Function.update_self ..

theorem setCall_of_ne (h : j ≠ i) : (c.setCall i call).calls j = c.calls j :=
  Function.update_of_ne h ..

theorem calls_modify (update : Call → Call) :
    (c.modify i update).calls j = if j = i then (c.calls i).map update else c.calls j := by
  unfold modify
  by_cases h : j = i
  · subst h
    simp
  · simp [h]

-- The moves of a call that concern nobody else.
inductive Moves (c : PersistentProcessConnection) (call : Call) : CallState → Prop
  | check : call.state = .begun → Moves c call .checked
  | turnedDown : call.state = .begun → c.closed = true →
      Moves c call (.returned (.error .connectionClosed))
  | proceed : call.state = .registered → c.closed = false → Moves c call .sending
  | refuse : call.state = .registered → c.closed = true → Moves c call .refused
  | sent : call.state = .sending → Moves c call .waiting
  | unsent : call.state = .sending → Moves c call .unsent
  | expire : call.state = .waiting → Moves c call .timedOut
  | drop : Moves c call .dropped
  | failed (error : CallError) : call.state = .waiting → Moves c call (.returned (.error error))
  | answered (response : Received) : call.state = .waiting → call.slot = .sent (.ok response) →
      Moves c call (.returned (accept call.request response))

-- All that one step can do.
inductive Effect (c : PersistentProcessConnection) : PersistentProcessConnection → Prop
  | execute (i : CallId) (request : ExecutionRequest) (limited : Bool) : c.calls i = none →
      (∀ j call, c.calls j = some call → call.request.requestId ≠ request.requestId) →
      Effect c (c.setCall i { request, limited })
  | move {i : CallId} {call : Call} {state : CallState} : c.calls i = some call →
      Moves c call state → Effect c (c.moveTo i state)
  | register {i : CallId} {call : Call} : c.calls i = some call → call.state = .checked →
      Effect c ((c.insertPending call.request.requestId i).moveTo i .registered)
  | takeBack {i : CallId} {call : Call} (error : CallError) : c.calls i = some call →
      (call.state = .timedOut ∨
        error = .connectionClosed ∧ (call.state = .refused ∨ call.state = .unsent)) →
      Effect c ((c.dropPending call.request.requestId).moveTo i (.returned (.error error)))
  | remove (id : RequestId) : Effect c (c.dropPending id)
  | logged (outcome : ExecutionOutcome) : Effect c (c.logged outcome)
  | lone (outcome : ExecutionOutcome) {id : RequestId} {i : CallId} : c.hand = none →
      c.pending = [(id, i)] → Effect c
        { c.logged outcome with pending := [], hand := some (i, .error (.missingRequestId id)) }
  | take {outcome : ExecutionOutcome} {id : RequestId} {i : CallId} : c.hand = none →
      c.pendingCall id = some i → Effect c
        { (c.logged outcome).removePending id with
          hand := some (i, .ok ⟨c.received.length, outcome⟩) }
  | startClosing (outcomes : List ExecutionOutcome) (task : Task) (error : CallError) :
      c.closings task = none →
      Effect c ({ c with received := c.received ++ outcomes }.startClosing task error)
  | deliver {i : CallId} {message : Except CallError Received} : c.hand = some (i, message) →
      Effect c { c.deliver i message with hand := none }
  | mark {task : Task} {error : CallError} : c.closings task = some ⟨error, .marking⟩ →
      Effect c ({ c with closed := true }.setClosing task error .draining)
  | drain {task : Task} {error : CallError} : c.closings task = some ⟨error, .draining⟩ →
      Effect c ({ c with pending := [] }.setClosing task error
        (.failing (c.pending.map Prod.snd) (c.pending.map Prod.snd)))
  | fail {task : Task} {error : CallError} {drained rest : List CallId} {i : CallId} :
      c.closings task = some ⟨error, .failing drained (i :: rest)⟩ →
      Effect c ((c.deliver i (.error error)).setClosing task error (.failing drained rest))
  | complete {task : Task} {error : CallError} {drained : List CallId} :
      c.closings task = some ⟨error, .failing drained []⟩ →
      Effect c (c.setClosing task error (.completed drained))

theorem effect_act (h : c.act i = some d) : Effect c d := by
  obtain ⟨call, hcall, h⟩ := Option.bind_eq_some_iff.mp h
  cases hstate : call.state with
  | begun =>
      obtain rfl := by simpa [hstate] using h
      by_cases hclosed : c.closed = true
      · rw [if_pos hclosed]
        exact .move hcall (.turnedDown hstate hclosed)
      · rw [if_neg hclosed]
        exact .move hcall (.check hstate)
  | checked =>
      obtain rfl := by simpa [hstate] using h
      exact .register hcall hstate
  | registered =>
      obtain rfl := by simpa [hstate] using h
      by_cases hclosed : c.closed = true
      · rw [if_pos hclosed]
        exact .move hcall (.refuse hstate hclosed)
      · rw [if_neg hclosed]
        exact .move hcall (.proceed hstate (by simpa using hclosed))
  | refused =>
      obtain rfl := by simpa [hstate] using h
      exact .takeBack _ hcall (.inr ⟨rfl, .inl hstate⟩)
  | unsent =>
      obtain rfl := by simpa [hstate] using h
      exact .takeBack _ hcall (.inr ⟨rfl, .inr hstate⟩)
  | timedOut =>
      obtain rfl := by simpa [hstate] using h
      exact .takeBack _ hcall (.inl hstate)
  | waiting =>
      cases hslot : call.slot with
      | empty => simp [hstate, hslot] at h
      | hungUp =>
          obtain rfl := by simpa [hstate, hslot] using h
          exact .move hcall (.failed _ hstate)
      | sent message =>
          cases message with
          | error error =>
              obtain rfl := by simpa [hstate, hslot] using h
              exact .move hcall (.failed _ hstate)
          | ok response =>
              obtain rfl := by simpa [hstate, hslot] using h
              exact .move hcall (.answered response hstate hslot)
  | sending => simp [hstate] at h
  | returned result => simp [hstate] at h
  | dropped => simp [hstate] at h

theorem effect_send {taken : Bool} (h : c.send i taken = some d) : Effect c d := by
  obtain ⟨call, hcall, h⟩ := Option.bind_eq_some_iff.mp h
  split at h
  · rename_i hstate
    split_ifs at h with htaken hgone
    · obtain rfl := Option.some.inj h
      exact .move hcall (.sent hstate)
    · obtain rfl := Option.some.inj h
      exact .move hcall (.unsent hstate)
  · cases h

theorem effect_timeout (h : c.timeout i = some d) : Effect c d := by
  obtain ⟨call, hcall, h⟩ := Option.bind_eq_some_iff.mp h
  split at h
  · rename_i hstate hslot
    split_ifs at h with hlimited
    obtain rfl := Option.some.inj h
    exact .move hcall (.expire hstate)
  · cases h

theorem effect_drop (h : c.drop i = some d) : Effect c d := by
  obtain ⟨call, hcall, h⟩ := Option.bind_eq_some_iff.mp h
  split at h
  · cases h
  · cases h
  · obtain rfl := Option.some.inj h
    exact .move hcall .drop

theorem effect_response {outcome : ExecutionOutcome} (h : c.response outcome = some d) :
    Effect c d := by
  unfold response at h
  split_ifs at h with hreading
  have hhand : c.hand = none := Option.isNone_iff_eq_none.mp hreading.1
  split at h
  · obtain rfl := Option.some.inj h
    unfold missing
    split
    · exact .logged outcome
    · rename_i id i hpending
      exact .lone outcome hhand hpending
    · exact .startClosing [outcome] .reader _ (Option.isNone_iff_eq_none.mp hreading.2)
  · rename_i id hid
    split at h
    · obtain rfl := Option.some.inj h
      exact .logged outcome
    · rename_i i hfound
      obtain rfl := Option.some.inj h
      exact .take hhand hfound

theorem startClosing_logged (task : Task) (error : CallError) :
    c.startClosing task error =
      startClosing { c with received := c.received ++ [] } task error := by
  simp

theorem effect_close {task : Task} (h : c.closePendingWithError task = some d) : Effect c d := by
  obtain ⟨⟨error, state⟩, hclosing, h⟩ := Option.bind_eq_some_iff.mp h
  cases state with
  | marking =>
      obtain rfl := Option.some.inj h
      exact .mark hclosing
  | draining =>
      obtain rfl := Option.some.inj h
      exact .drain hclosing
  | failing drained rest =>
      cases rest with
      | nil =>
          obtain rfl := Option.some.inj h
          exact .complete hclosing
      | cons i rest =>
          obtain rfl := Option.some.inj h
          exact .fail hclosing
  | completed drained => cases h

theorem effect_step {event : Event} (ha : c.Admits event) (h : c.step event = some d) :
    Effect c d := by
  cases event with
  | execute i request limited =>
      simp only [step] at h
      split_ifs at h with hnew
      obtain rfl := Option.some.inj h
      exact .execute i request limited (by simpa using hnew) ha
  | act i => exact effect_act h
  | send i taken => exact effect_send h
  | timeout i => exact effect_timeout h
  | drop i => exact effect_drop h
  | removePendingRequest id =>
      obtain rfl := Option.some.inj h
      exact .remove id
  | response outcome => exact effect_response h
  | deliver =>
      obtain ⟨⟨i, message⟩, hhand, rfl⟩ := Option.map_eq_some_iff.mp h
      exact .deliver hhand
  | readEnds failed =>
      simp only [step, readEnds] at h
      split_ifs at h with hreading
      all_goals
        obtain rfl := Option.some.inj h
        rw [startClosing_logged]
        exact .startClosing [] .reader _ (Option.isNone_iff_eq_none.mp hreading.2)
  | writeEnds failed =>
      simp only [step, writeEnds] at h
      split_ifs at h with hrunning
      all_goals
        obtain rfl := Option.some.inj h
        rw [startClosing_logged]
        exact .startClosing [] .writer _ (Option.isNone_iff_eq_none.mp hrunning)
  | close task => exact effect_close h

-- The sender of a call lies at one place for as long as its receiver can get a message.
structure Senders (c : PersistentProcessConnection) : Prop where
  distinct : ∀ i j first second, c.calls i = some first → c.calls j = some second →
    first.request.requestId = second.request.requestId → i = j
  entries : ∀ id i, (id, i) ∈ c.pending →
    ∃ call, c.calls i = some call ∧ call.request.requestId = id
  once : ∀ p q i, i ∈ c.holders p → i ∈ c.holders q → p = q
  nodup : ∀ p, (c.holders p).Nodup
  fresh : ∀ p i, i ∈ c.holders p →
    ∃ call, c.calls i = some call ∧ call.slot = .empty ∧ call.state.Entered
  silent : ∀ i call, c.calls i = some call → ¬ call.state.Entered → call.slot = .empty
  located : ∀ i call, c.calls i = some call → call.slot = .empty → call.state.Listening →
    ∃ p, i ∈ c.holders p

namespace Senders

theorem start : Senders {} where
  distinct i j first second h := by cases h
  entries id i h := absurd h List.not_mem_nil
  once p q i h := by cases p <;> exact absurd h List.not_mem_nil
  nodup p := by cases p <;> exact List.nodup_nil
  fresh p i h := by cases p <;> exact absurd h List.not_mem_nil
  silent i call h := by cases h
  located i call h := by cases h

-- The calls of d are those of c but for one, which keeps its request.
theorem distinct_modify (hs : Senders c) (update : Call → Call)
    (hu : ∀ call, (update call).request = call.request) (hd : d.calls = (c.modify i update).calls) :
    ∀ j k first second, d.calls j = some first → d.calls k = some second →
      first.request.requestId = second.request.requestId → j = k := by
  have hrequest : ∀ j call, d.calls j = some call →
      ∃ old, c.calls j = some old ∧ old.request = call.request := by
    intro j call hj
    rw [hd, calls_modify] at hj
    split_ifs at hj with heq
    · subst heq
      obtain ⟨old, hold, rfl⟩ := Option.map_eq_some_iff.mp hj
      exact ⟨old, hold, (hu old).symm⟩
    · exact ⟨call, hj, rfl⟩
  intro j k first second hj hk heq
  obtain ⟨a, ha, hra⟩ := hrequest j first hj
  obtain ⟨b, hb, hrb⟩ := hrequest k second hk
  exact hs.distinct j k a b ha hb (by rw [hra, hrb, heq])

-- A call that moves on its own.
theorem move (hs : Senders c) (hcall : c.calls i = some call) {state : CallState}
    (hentered : call.state.Entered → state.Entered)
    (hlistening : state.Listening → call.state.Listening) : Senders (c.moveTo i state) where
  distinct := hs.distinct_modify (fun call => { call with state }) (fun _ => rfl) rfl
  entries id j h := by
    obtain ⟨found, hfound, hid⟩ := hs.entries id j h
    by_cases hj : j = i
    · subst hj
      refine ⟨{ found with state }, ?_, hid⟩
      rw [moveTo, calls_modify, if_pos rfl, hfound]
      rfl
    · refine ⟨found, ?_, hid⟩
      rw [moveTo, calls_modify, if_neg hj, hfound]
  once := hs.once
  nodup := hs.nodup
  fresh p j h := by
    obtain ⟨found, hfound, hslot, hin⟩ := hs.fresh p j h
    by_cases hj : j = i
    · subst hj
      obtain rfl := Option.some.inj (hcall.symm.trans hfound)
      refine ⟨{ call with state }, ?_, hslot, hentered hin⟩
      rw [moveTo, calls_modify, if_pos rfl, hfound]
      rfl
    · refine ⟨found, ?_, hslot, hin⟩
      rw [moveTo, calls_modify, if_neg hj, hfound]
  silent j found h hnot := by
    rw [moveTo, calls_modify] at h
    split_ifs at h with hj
    · rw [hcall] at h
      obtain rfl := Option.some.inj h
      exact hs.silent i call hcall fun hin => hnot (hentered hin)
    · exact hs.silent j found h hnot
  located j found h hslot hlisten := by
    rw [moveTo, calls_modify] at h
    split_ifs at h with hj
    · subst hj
      rw [hcall] at h
      obtain rfl := Option.some.inj h
      exact hs.located j call hcall hslot (hlistening hlisten)
    · exact hs.located j found h hslot hlisten

theorem execute (hs : Senders c) (request : ExecutionRequest) (limited : Bool)
    (hnew : c.calls i = none)
    (hid : ∀ j call, c.calls j = some call → call.request.requestId ≠ request.requestId) :
    Senders (c.setCall i { request, limited }) where
  distinct j k first second hj hk heq := by
    by_cases hji : j = i <;> by_cases hki : k = i
    · rw [hji, hki]
    · subst hji
      obtain rfl := Option.some.inj (setCall_self.symm.trans hj)
      rw [setCall_of_ne hki] at hk
      exact absurd heq.symm (hid k second hk)
    · subst hki
      obtain rfl := Option.some.inj (setCall_self.symm.trans hk)
      rw [setCall_of_ne hji] at hj
      exact absurd heq (hid j first hj)
    · rw [setCall_of_ne hji] at hj
      rw [setCall_of_ne hki] at hk
      exact hs.distinct j k first second hj hk heq
  entries id j h := by
    obtain ⟨found, hfound, hfid⟩ := hs.entries id j h
    have hj : j ≠ i := fun heq => by simp [heq, hnew] at hfound
    exact ⟨found, (setCall_of_ne hj).trans hfound, hfid⟩
  once := hs.once
  nodup := hs.nodup
  fresh p j h := by
    obtain ⟨found, hfound, hrest⟩ := hs.fresh p j h
    have hj : j ≠ i := fun heq => by simp [heq, hnew] at hfound
    exact ⟨found, (setCall_of_ne hj).trans hfound, hrest⟩
  silent j found h hnot := by
    by_cases hj : j = i
    · subst hj
      obtain rfl := Option.some.inj (setCall_self.symm.trans h)
      rfl
    · rw [setCall_of_ne hj] at h
      exact hs.silent j found h hnot
  located j found h hslot hlisten := by
    by_cases hj : j = i
    · subst hj
      obtain rfl := Option.some.inj (setCall_self.symm.trans h)
      exact hlisten.elim
    · rw [setCall_of_ne hj] at h
      exact hs.located j found h hslot hlisten

theorem not_held (hs : Senders c) (hcall : c.calls i = some call) (hnot : ¬ call.state.Entered)
    (p : Place) : i ∉ c.holders p := by
  intro h
  obtain ⟨found, hfound, -, hin⟩ := hs.fresh p i h
  obtain rfl := Option.some.inj (hcall.symm.trans hfound)
  exact hnot hin

theorem insertPending_eq (hs : Senders c) (hcall : c.calls i = some call)
    (hnot : ¬ call.state.Entered) :
    (c.insertPending call.request.requestId i).pending =
      (call.request.requestId, i) :: c.pending := by
  have hkeep : ∀ entry ∈ c.pending, decide (entry.1 ≠ call.request.requestId) = true := by
    rintro ⟨id, j⟩ hmem
    obtain ⟨found, hfound, rfl⟩ := hs.entries id j hmem
    simp only [decide_eq_true_eq]
    intro heq
    obtain rfl := hs.distinct j i found call hfound hcall heq
    exact hs.not_held hcall hnot .pending (List.mem_map.mpr ⟨_, hmem, rfl⟩)
  unfold insertPending
  rw [List.filter_eq_self.mpr hkeep]

theorem register (hs : Senders c) (hcall : c.calls i = some call) (hstate : call.state = .checked) :
    Senders ((c.insertPending call.request.requestId i).moveTo i .registered) := by
  have hnot : ¬ call.state.Entered := by
    rw [hstate]
    exact fun h => h
  have hheld := hs.not_held hcall hnot
  have hpending := hs.insertPending_eq hcall hnot
  have hself : ((c.insertPending call.request.requestId i).moveTo i .registered).calls i =
      some { call with state := .registered } := by
    rw [moveTo, calls_modify, if_pos rfl]
    exact congrArg (Option.map _) hcall
  have hother : ∀ {j}, j ≠ i →
      ((c.insertPending call.request.requestId i).moveTo i .registered).calls j = c.calls j := by
    intro j hj
    rw [moveTo, calls_modify, if_neg hj]
    rfl
  have hholders : ∀ p j,
      j ∈ ((c.insertPending call.request.requestId i).moveTo i .registered).holders p ↔
        (p = .pending ∧ j = i) ∨ j ∈ c.holders p := by
    intro p j
    cases p with
    | pending =>
        change j ∈ (c.insertPending call.request.requestId i).pending.map Prod.snd ↔ _
        rw [hpending]
        simp [holders]
    | hand => simp [holders, moveTo, modify, insertPending]
    | closing task => simp [holders, moveTo, modify, insertPending, rest]
  refine ⟨hs.distinct_modify (fun call => { call with state := .registered }) (fun _ => rfl) rfl,
    ?_, ?_, ?_, ?_, ?_, ?_⟩
  · intro id j h
    change (id, j) ∈ (c.insertPending call.request.requestId i).pending at h
    rw [hpending] at h
    rcases List.mem_cons.mp h with heq | h
    · obtain ⟨rfl, rfl⟩ := Prod.mk.inj heq
      exact ⟨_, hself, rfl⟩
    · obtain ⟨found, hfound, hid⟩ := hs.entries id j h
      by_cases hj : j = i
      · exact absurd (List.mem_map.mpr ⟨_, h, hj⟩) (hheld .pending)
      · exact ⟨found, (hother hj).trans hfound, hid⟩
  · intro p q j hp hq
    rcases (hholders p j).mp hp with ⟨hp', hj⟩ | hp' <;>
      rcases (hholders q j).mp hq with ⟨hq', hj'⟩ | hq'
    · rw [hp', hq']
    · exact absurd (hj ▸ hq') (hheld q)
    · exact absurd (hj' ▸ hp') (hheld p)
    · exact hs.once p q j hp' hq'
  · intro p
    cases p with
    | pending =>
        change ((c.insertPending call.request.requestId i).pending.map Prod.snd).Nodup
        rw [hpending]
        exact List.nodup_cons.mpr ⟨hheld .pending, hs.nodup .pending⟩
    | hand => exact hs.nodup .hand
    | closing task => exact hs.nodup (.closing task)
  · intro p j h
    rcases (hholders p j).mp h with ⟨-, rfl⟩ | h
    · exact ⟨_, hself, hs.silent j call hcall hnot, trivial⟩
    · obtain ⟨found, hfound, hrest⟩ := hs.fresh p j h
      have hj : j ≠ i := fun heq => hheld p (heq ▸ h)
      exact ⟨found, (hother hj).trans hfound, hrest⟩
  · intro j found h hnotin
    by_cases hj : j = i
    · subst hj
      obtain rfl := Option.some.inj (hself.symm.trans h)
      exact absurd trivial hnotin
    · exact hs.silent j found ((hother hj).symm.trans h) hnotin
  · intro j found h hslot hlisten
    by_cases hj : j = i
    · exact ⟨.pending, (hholders .pending j).mpr (.inl ⟨rfl, hj⟩)⟩
    · obtain ⟨p, hp⟩ := hs.located j found ((hother hj).symm.trans h) hslot hlisten
      exact ⟨p, (hholders p j).mpr (.inr hp)⟩

-- A sender is used or dropped where it lies.
theorem finish (hs : Senders c) (update : Call → Call)
    (hrequest : ∀ call, (update call).request = call.request)
    (hstate : ∀ call, (update call).state = call.state)
    (hslot : ∀ call, (update call).slot ≠ .empty) (hheld : ∃ p, i ∈ c.holders p)
    (hcalls : d.calls = (c.modify i update).calls)
    (hpending : ∀ entry ∈ d.pending, entry ∈ c.pending) (hnodup : ∀ p, (d.holders p).Nodup)
    (hholders : ∀ p j, j ∈ d.holders p ↔ j ∈ c.holders p ∧ j ≠ i) : Senders d := by
  have hother : ∀ {j}, j ≠ i → d.calls j = c.calls j := by
    intro j hj
    rw [hcalls, calls_modify, if_neg hj]
  obtain ⟨place, hplace⟩ := hheld
  obtain ⟨call, hcall, -, hin⟩ := hs.fresh place i hplace
  have hself : d.calls i = some (update call) := by
    rw [hcalls, calls_modify, if_pos rfl, hcall]
    rfl
  refine ⟨hs.distinct_modify update hrequest hcalls, ?_, ?_, hnodup, ?_, ?_, ?_⟩
  · intro id j h
    obtain ⟨found, hfound, hid⟩ := hs.entries id j (hpending _ h)
    have hj : j ≠ i := ((hholders .pending j).mp (List.mem_map.mpr ⟨_, h, rfl⟩)).2
    exact ⟨found, (hother hj).trans hfound, hid⟩
  · intro p q j hp hq
    exact hs.once p q j ((hholders p j).mp hp).1 ((hholders q j).mp hq).1
  · intro p j h
    obtain ⟨hold, hj⟩ := (hholders p j).mp h
    obtain ⟨found, hfound, hrest⟩ := hs.fresh p j hold
    exact ⟨found, (hother hj).trans hfound, hrest⟩
  · intro j found h hnot
    by_cases hj : j = i
    · subst hj
      obtain rfl := Option.some.inj (hself.symm.trans h)
      exact absurd ((hstate call).symm ▸ hin) hnot
    · exact hs.silent j found ((hother hj).symm.trans h) hnot
  · intro j found h hempty hlisten
    by_cases hj : j = i
    · subst hj
      obtain rfl := Option.some.inj (hself.symm.trans h)
      exact absurd hempty (hslot call)
    · obtain ⟨p, hp⟩ := hs.located j found ((hother hj).symm.trans h) hempty hlisten
      exact ⟨p, (hholders p j).mpr ⟨hp, hj⟩⟩

-- Some senders are taken out of the map and put elsewhere.
theorem relocate (hs : Senders c) (moved : CallId → Prop) (target : Place)
    (hmoved : ∀ j, moved j → j ∈ c.holders .pending) (hcalls : d.calls = c.calls)
    (hpending : ∀ entry ∈ d.pending, entry ∈ c.pending) (hnodup : ∀ p, (d.holders p).Nodup)
    (hholders : ∀ p j, j ∈ d.holders p ↔
      (p = target ∧ moved j) ∨ (j ∈ c.holders p ∧ ¬ moved j)) : Senders d where
  distinct := hcalls ▸ hs.distinct
  entries id j h := hcalls ▸ hs.entries id j (hpending _ h)
  once p q j hp hq := by
    rcases (hholders p j).mp hp with ⟨hp', hj⟩ | ⟨hp', hj⟩ <;>
      rcases (hholders q j).mp hq with ⟨hq', hj'⟩ | ⟨hq', hj'⟩
    · rw [hp', hq']
    · exact absurd hj hj'
    · exact absurd hj' hj
    · exact hs.once p q j hp' hq'
  nodup := hnodup
  fresh p j h := by
    rw [hcalls]
    rcases (hholders p j).mp h with ⟨-, hj⟩ | ⟨hold, -⟩
    · exact hs.fresh .pending j (hmoved j hj)
    · exact hs.fresh p j hold
  silent := hcalls ▸ hs.silent
  located j found h hslot hlisten := by
    rw [hcalls] at h
    obtain ⟨p, hp⟩ := hs.located j found h hslot hlisten
    by_cases hj : moved j
    · exact ⟨target, (hholders target j).mpr (.inl ⟨rfl, hj⟩)⟩
    · exact ⟨p, (hholders p j).mpr (.inr ⟨hp, hj⟩)⟩

theorem same (hs : Senders c) (hcalls : d.calls = c.calls) (hpending : d.pending = c.pending)
    (hhand : d.hand = c.hand) (hrest : ∀ task, d.rest task = c.rest task) : Senders d := by
  have hholders : d.holders = c.holders := by
    funext p
    cases p with
    | pending => exact congrArg (List.map Prod.snd) hpending
    | hand => exact congrArg (fun hand => (Option.map Prod.fst hand).toList) hhand
    | closing task => exact hrest task
  refine ⟨hcalls ▸ hs.distinct, hcalls ▸ hpending ▸ hs.entries, hholders ▸ hs.once,
    hholders ▸ hs.nodup, ?_, hcalls ▸ hs.silent, ?_⟩
  · rw [hholders, hcalls]
    exact hs.fresh
  · rw [hholders, hcalls]
    exact hs.located

theorem mem_of_pendingCall {id : RequestId} (h : c.pendingCall id = some i) :
    (id, i) ∈ c.pending := by
  unfold pendingCall at h
  obtain ⟨⟨key, found⟩, hfind, rfl⟩ := Option.map_eq_some_iff.mp h
  have hkey : key = id := by simpa using List.find?_some hfind
  subst hkey
  exact List.mem_of_find?_eq_some hfind

-- Without its entry a call is not pending, and all others still are.
theorem mem_removePending (hs : Senders c) {id : RequestId} (hmem : (id, i) ∈ c.pending) :
    j ∈ (c.removePending id).holders .pending ↔ j ∈ c.holders .pending ∧ j ≠ i := by
  obtain ⟨call, hcall, hid⟩ := hs.entries id i hmem
  simp only [holders, removePending, List.mem_map, List.mem_filter, decide_eq_true_eq]
  constructor
  · rintro ⟨⟨key, k⟩, ⟨hentry, hkey⟩, rfl⟩
    refine ⟨⟨_, hentry, rfl⟩, fun heq => hkey ?_⟩
    obtain ⟨found, hfound, hfid⟩ := hs.entries key k hentry
    obtain rfl : k = i := heq
    obtain rfl := Option.some.inj (hcall.symm.trans hfound)
    exact hfid.symm.trans hid
  · rintro ⟨⟨⟨key, k⟩, hentry, rfl⟩, hne⟩
    refine ⟨⟨key, k⟩, ⟨hentry, fun hkey => hne ?_⟩, rfl⟩
    obtain ⟨found, hfound, hfid⟩ := hs.entries key k hentry
    exact hs.distinct k i found call hfound hcall (by rw [hfid, hid]; exact hkey)

theorem nodup_removePending (hs : Senders c) (id : RequestId) :
    ((c.removePending id).holders .pending).Nodup :=
  (hs.nodup .pending).sublist (List.filter_sublist.map Prod.snd)

theorem not_elsewhere (hs : Senders c) {p : Place} (hp : i ∈ c.holders p) (q : Place)
    (hq : q ≠ p) : j ∈ c.holders q ↔ j ∈ c.holders q ∧ j ≠ i := by
  refine ⟨fun h => ⟨h, fun heq => ?_⟩, fun h => h.1⟩
  exact hq (hs.once q p i (heq ▸ h) hp)

theorem dropPending (hs : Senders c) (id : RequestId) : Senders (c.dropPending id) := by
  unfold PersistentProcessConnection.dropPending
  split
  · exact hs
  · rename_i i hfound
    have hmem := mem_of_pendingCall hfound
    have hheld : i ∈ c.holders .pending := List.mem_map.mpr ⟨_, hmem, rfl⟩
    refine hs.finish (fun call => { call with slot := .hungUp }) (fun _ => rfl) (fun _ => rfl)
      (fun _ => nofun) ⟨.pending, hheld⟩ rfl (fun _ h => List.mem_of_mem_filter h)
      (fun p => ?_) fun p j => ?_
    · cases p with
      | pending => exact hs.nodup_removePending id
      | hand => exact hs.nodup .hand
      | closing task => exact hs.nodup (.closing task)
    · cases p with
      | pending => exact hs.mem_removePending hmem
      | hand => exact hs.not_elsewhere hheld .hand nofun
      | closing task => exact hs.not_elsewhere hheld (.closing task) nofun

theorem empty_of_held (hs : Senders c) {p : Place} (hp : i ∈ c.holders p)
    (hcall : c.calls i = some call) : call.slot = .empty := by
  obtain ⟨found, hfound, hslot, -⟩ := hs.fresh p i hp
  obtain rfl := Option.some.inj (hcall.symm.trans hfound)
  exact hslot

theorem calls_dropPending (hs : Senders c) (id : RequestId) (hcall : c.calls i = some call) :
    ∃ slot, (c.dropPending id).calls i = some { call with slot } ∧
      (slot = call.slot ∨ call.slot = .empty ∧ slot = .hungUp) := by
  unfold PersistentProcessConnection.dropPending
  split
  · exact ⟨call.slot, hcall, .inl rfl⟩
  · rename_i j hfound
    rw [hangUp, calls_modify]
    by_cases hj : i = j
    · subst hj
      have hheld : i ∈ c.holders .pending :=
        List.mem_map.mpr ⟨_, mem_of_pendingCall hfound, rfl⟩
      refine ⟨.hungUp, ?_, .inr ⟨hs.empty_of_held hheld hcall, rfl⟩⟩
      rw [if_pos rfl]
      exact congrArg (Option.map _) hcall
    · refine ⟨call.slot, ?_, .inl rfl⟩
      rw [if_neg hj]
      exact hcall

theorem take (hs : Senders c) {id : RequestId} (message : Except CallError Received)
    (received : List ExecutionOutcome) (hhand : c.hand = none)
    (hfound : c.pendingCall id = some i) :
    Senders { c.removePending id with received, hand := some (i, message) } := by
  have hmem := mem_of_pendingCall hfound
  have hheld : i ∈ c.holders .pending := List.mem_map.mpr ⟨_, hmem, rfl⟩
  refine hs.relocate (fun j => j = i) .hand (fun j hj => hj ▸ hheld) rfl
    (fun _ h => List.mem_of_mem_filter h) (fun p => ?_) fun p j => ?_
  · cases p with
    | pending => exact hs.nodup_removePending id
    | hand => exact List.pairwise_singleton _ i
    | closing task => exact hs.nodup (.closing task)
  · cases p with
    | pending =>
        refine (hs.mem_removePending hmem).trans ⟨.inr, ?_⟩
        rintro (⟨hp, -⟩ | h)
        · cases hp
        · exact h
    | hand =>
        have hempty : j ∉ c.holders .hand := by simp [holders, hhand]
        simp [holders, hhand]
    | closing task =>
        refine (hs.not_elsewhere hheld (.closing task) nofun).trans ⟨.inr, ?_⟩
        rintro (⟨hp, -⟩ | h)
        · cases hp
        · exact h

theorem lone (hs : Senders c) {id : RequestId} (message : Except CallError Received)
    (received : List ExecutionOutcome) (hhand : c.hand = none) (hpending : c.pending = [(id, i)]) :
    Senders { c with received, pending := [], hand := some (i, message) } := by
  have hfound : c.pendingCall id = some i := by simp [pendingCall, hpending]
  have hremoved : (c.removePending id).pending = [] := by simp [removePending, hpending]
  have htake := hs.take message received hhand hfound
  exact htake.same rfl hremoved.symm rfl fun task => rfl

theorem rest_setClosing {task other : Task} {error : CallError} {state : CloseState} :
    (c.setClosing task error state).rest other =
      if other = task then
        match state with
        | .failing _ rest => rest
        | _ => []
      else c.rest other := by
  unfold rest setClosing
  by_cases h : other = task
  · subst h
    simp only [Function.update_self, if_true]
    cases state <;> rfl
  · simp only [Function.update_of_ne h, if_neg h]

-- A closing that goes on without a sender in its hands.
theorem closing (hs : Senders c) {task : Task} {error : CallError} (state : CloseState)
    (hcalls : d.calls = c.calls) (hpending : d.pending = c.pending) (hhand : d.hand = c.hand)
    (hclosings : d.closings = (c.setClosing task error state).closings)
    (hbefore : c.rest task = []) (hafter : (c.setClosing task error state).rest task = []) :
    Senders d := by
  refine hs.same hcalls hpending hhand fun other => ?_
  have hd : d.rest other = (c.setClosing task error state).rest other := by
    unfold rest
    rw [hclosings]
  rw [hd]
  by_cases h : other = task
  · rw [h, hafter, hbefore]
  · rw [rest_setClosing, if_neg h]

theorem deliver (hs : Senders c) {message : Except CallError Received}
    (hhand : c.hand = some (i, message)) :
    Senders { c.deliver i message with hand := none } := by
  have hheld : i ∈ c.holders .hand := by simp [holders, hhand]
  refine hs.finish (fun call => { call with slot := .sent message }) (fun _ => rfl) (fun _ => rfl)
    (fun _ => nofun) ⟨.hand, hheld⟩ rfl (fun _ h => h) (fun p => ?_) fun p j => ?_
  · cases p with
    | pending => exact hs.nodup .pending
    | hand => exact List.nodup_nil
    | closing task => exact hs.nodup (.closing task)
  · cases p with
    | pending => exact hs.not_elsewhere hheld .pending nofun
    | hand => simp [holders, hhand]
    | closing task => exact hs.not_elsewhere hheld (.closing task) nofun

theorem fail (hs : Senders c) {task : Task} {error : CallError} {drained rest : List CallId}
    (hclosing : c.closings task = some ⟨error, .failing drained (i :: rest)⟩) :
    Senders ((c.deliver i (.error error)).setClosing task error (.failing drained rest)) := by
  have hrest : c.rest task = i :: rest := by simp [PersistentProcessConnection.rest, hclosing]
  have hheld : i ∈ c.rest task := by
    rw [hrest]
    exact List.mem_cons_self
  have hplace : i ∈ c.holders (.closing task) := hheld
  have hnodup : (i :: rest).Nodup := hrest ▸ hs.nodup (.closing task)
  have hafter : ∀ other, ((c.deliver i (.error error)).setClosing task error
      (.failing drained rest)).rest other = if other = task then rest else c.rest other := by
    intro other
    rw [rest_setClosing]
    rfl
  refine hs.finish (fun call => { call with slot := .sent (.error error) }) (fun _ => rfl)
    (fun _ => rfl) (fun _ => nofun) ⟨.closing task, hheld⟩ rfl (fun _ h => h)
    (fun p => ?_) fun p j => ?_
  · cases p with
    | pending => exact hs.nodup .pending
    | hand => exact hs.nodup .hand
    | closing other =>
        change (PersistentProcessConnection.rest _ other).Nodup
        rw [hafter]
        split_ifs with h
        · exact (List.nodup_cons.mp hnodup).2
        · exact hs.nodup (.closing other)
  · cases p with
    | pending => exact hs.not_elsewhere hplace .pending nofun
    | hand => exact hs.not_elsewhere hplace .hand nofun
    | closing other =>
        change j ∈ PersistentProcessConnection.rest _ other ↔ j ∈ c.rest other ∧ j ≠ i
        rw [hafter]
        split_ifs with h
        · subst h
          rw [hrest, List.mem_cons]
          constructor
          · intro hj
            exact ⟨.inr hj, fun heq => (List.nodup_cons.mp hnodup).1 (heq ▸ hj)⟩
          · rintro ⟨hj | hj, hne⟩
            · exact absurd hj hne
            · exact hj
        · exact hs.not_elsewhere hplace (.closing other) fun heq => h (Place.closing.inj heq)

theorem drain (hs : Senders c) {task : Task} {error : CallError}
    (hclosing : c.closings task = some ⟨error, .draining⟩) :
    Senders ({ c with pending := [] }.setClosing task error
      (.failing (c.pending.map Prod.snd) (c.pending.map Prod.snd))) := by
  have hrest : c.rest task = [] := by simp [PersistentProcessConnection.rest, hclosing]
  have hafter : ∀ other, ({ c with pending := [] }.setClosing task error
      (.failing (c.pending.map Prod.snd) (c.pending.map Prod.snd))).rest other =
        if other = task then c.pending.map Prod.snd else c.rest other := by
    intro other
    rw [rest_setClosing]
    rfl
  refine hs.relocate (fun j => j ∈ c.holders .pending) (.closing task) (fun _ h => h)
    rfl (fun entry h => absurd h List.not_mem_nil) (fun p => ?_) fun p j => ?_
  · cases p with
    | pending => exact List.nodup_nil
    | hand => exact hs.nodup .hand
    | closing other =>
        change (PersistentProcessConnection.rest _ other).Nodup
        rw [hafter]
        split_ifs with h
        · exact hs.nodup .pending
        · exact hs.nodup (.closing other)
  · have hleft : ∀ q, q ≠ .pending → j ∈ c.holders q → j ∉ c.holders .pending :=
      fun q hq hj hp => hq (hs.once q .pending j hj hp)
    cases p with
    | pending =>
        constructor
        · intro h
          cases h
        · rintro (⟨hp, -⟩ | ⟨h, hnot⟩)
          · cases hp
          · exact absurd h hnot
    | hand =>
        constructor
        · exact fun h => .inr ⟨h, hleft .hand nofun h⟩
        · rintro (⟨hp, -⟩ | ⟨h, -⟩)
          · cases hp
          · exact h
    | closing other =>
        change j ∈ PersistentProcessConnection.rest _ other ↔ _
        rw [hafter]
        split_ifs with h
        · subst h
          constructor
          · exact fun hj => .inl ⟨rfl, hj⟩
          · rintro (⟨-, hj⟩ | ⟨hj, -⟩)
            · exact hj
            · have hnil : j ∈ c.rest other := hj
              simp [hrest] at hnil
        · constructor
          · exact fun hj => .inr ⟨hj, hleft (.closing other) nofun hj⟩
          · rintro (⟨hp, -⟩ | ⟨hj, -⟩)
            · exact absurd (Place.closing.inj hp) h
            · exact hj

end Senders

theorem Moves.entered {state : CallState} (h : Moves c call state) (hin : call.state.Entered) :
    state.Entered := by
  cases h with
  | check hstate => exact (hstate ▸ hin : CallState.Entered .begun).elim
  | turnedDown => trivial
  | proceed => trivial
  | refuse => trivial
  | sent => trivial
  | unsent => trivial
  | expire => trivial
  | drop => trivial
  | failed => trivial
  | answered => trivial

theorem Moves.listening {state : CallState} (h : Moves c call state) (hl : state.Listening) :
    call.state.Listening := by
  cases h with
  | check hstate => exact hl.elim
  | turnedDown => exact hl.elim
  | proceed hstate => exact hstate ▸ trivial
  | refuse hstate => exact hstate ▸ trivial
  | sent hstate => exact hstate ▸ trivial
  | unsent hstate => exact hstate ▸ trivial
  | expire hstate => exact hstate ▸ trivial
  | drop => exact hl.elim
  | failed => exact hl.elim
  | answered => exact hl.elim

theorem Senders.effect (hs : Senders c) (h : Effect c d) : Senders d := by
  cases h with
  | execute i request limited hnew hid => exact hs.execute request limited hnew hid
  | move hcall hmoves => exact hs.move hcall hmoves.entered hmoves.listening
  | register hcall hstate => exact hs.register hcall hstate
  | takeBack error hcall hstate =>
      obtain ⟨slot, hfound, -⟩ := hs.calls_dropPending _ hcall
      exact (hs.dropPending _).move hfound (fun _ => trivial) fun h => h.elim
  | remove id => exact hs.dropPending id
  | logged outcome => exact hs.same rfl rfl rfl fun _ => rfl
  | lone outcome hhand hpending => exact hs.lone _ _ hhand hpending
  | take hhand hfound => exact hs.take _ _ hhand hfound
  | startClosing outcomes task error hnone =>
      have hbefore : c.rest task = [] := by simp [rest, hnone]
      exact hs.closing .marking rfl rfl rfl rfl hbefore (by simp [Senders.rest_setClosing])
  | deliver hhand => exact hs.deliver hhand
  | @mark task error hclosing =>
      have hbefore : c.rest task = [] := by simp [rest, hclosing]
      exact hs.closing .draining rfl rfl rfl rfl hbefore (by simp [Senders.rest_setClosing])
  | drain hclosing => exact hs.drain hclosing
  | fail hclosing => exact hs.fail hclosing
  | @complete task error drained hclosing =>
      have hbefore : c.rest task = [] := by simp [rest, hclosing]
      exact hs.closing (.completed drained) rfl rfl rfl rfl hbefore
        (by simp [Senders.rest_setClosing])

-- What one step makes of one call.
inductive Became (c : PersistentProcessConnection) (i : CallId) (old : Call) : Call → Prop
  | same : Became c i old old
  | move {state : CallState} : Moves c old state → Became c i old { old with state }
  | register : old.state = .checked → Became c i old { old with state := .registered }
  | takeBack (error : CallError) {slot : Slot} : (slot = old.slot ∨ old.slot = .empty ∧ slot = .hungUp) →
      (old.state = .timedOut ∨
        error = .connectionClosed ∧ (old.state = .refused ∨ old.state = .unsent)) →
      Became c i old { old with state := .returned (.error error), slot }
  | hungUp : old.slot = .empty → Became c i old { old with slot := .hungUp }
  | sent (message : Except CallError Received) : old.slot = .empty →
      (c.hand = some (i, message) ∨ ∃ error, message = .error error) →
      Became c i old { old with slot := .sent message }

-- A call is as it was, unless it is the one that the step is about.
theorem became_modify {update : Call → Call} {new : Call}
    (hd : d.calls = (c.modify i update).calls) (hnew : d.calls j = some new)
    (hb : ∀ old, c.calls i = some old → Became c i old (update old)) :
    ∃ old, c.calls j = some old ∧ Became c j old new := by
  rw [hd, calls_modify] at hnew
  split_ifs at hnew with hj
  · subst hj
    obtain ⟨old, hold, rfl⟩ := Option.map_eq_some_iff.mp hnew
    exact ⟨old, hold, hb old hold⟩
  · exact ⟨new, hnew, .same⟩

theorem became_dropPending (hs : Senders c) (id : RequestId) {new : Call}
    (hnew : (c.dropPending id).calls j = some new) :
    ∃ old, c.calls j = some old ∧ Became c j old new := by
  unfold dropPending at hnew
  split at hnew
  · exact ⟨new, hnew, .same⟩
  · rename_i i hfound
    have hmem := Senders.mem_of_pendingCall hfound
    have hheld : i ∈ c.holders .pending := List.mem_map.mpr ⟨_, hmem, rfl⟩
    exact became_modify rfl hnew fun old hold => .hungUp (hs.empty_of_held hheld hold)

theorem Effect.became (h : Effect c d) (hs : Senders c) {new : Call}
    (hnew : d.calls j = some new) :
    (c.calls j = none ∧ ∃ request limited, new = { request, limited }) ∨
      ∃ old, c.calls j = some old ∧ Became c j old new := by
  cases h with
  | execute i request limited hnone hid =>
      by_cases hj : j = i
      · subst hj
        exact .inl ⟨hnone, request, limited, (Option.some.inj (setCall_self.symm.trans hnew)).symm⟩
      · exact .inr ⟨new, (setCall_of_ne hj).symm.trans hnew, .same⟩
  | move hcall hmoves =>
      refine .inr (became_modify rfl hnew fun old hold => ?_)
      obtain rfl := Option.some.inj (hcall.symm.trans hold)
      exact .move hmoves
  | register hcall hstate =>
      refine .inr (became_modify rfl hnew fun old hold => ?_)
      obtain rfl := Option.some.inj (hcall.symm.trans hold)
      exact .register hstate
  | @takeBack i call error hcall hstate =>
      by_cases hj : j = i
      · subst hj
        obtain ⟨slot, hfound, hslot⟩ :=
          hs.calls_dropPending call.request.requestId hcall
        rw [moveTo, calls_modify, if_pos rfl, hfound] at hnew
        obtain rfl := Option.some.inj hnew
        exact .inr ⟨call, hcall, .takeBack error hslot hstate⟩
      · rw [moveTo, calls_modify, if_neg hj] at hnew
        exact .inr (became_dropPending hs _ hnew)
  | remove id => exact .inr (became_dropPending hs id hnew)
  | logged outcome => exact .inr ⟨new, hnew, .same⟩
  | lone outcome hhand hpending => exact .inr ⟨new, hnew, .same⟩
  | take hhand hfound => exact .inr ⟨new, hnew, .same⟩
  | startClosing outcomes task error hnone => exact .inr ⟨new, hnew, .same⟩
  | @deliver i message hhand =>
      have hheld : i ∈ c.holders .hand := by simp [holders, hhand]
      exact .inr (became_modify rfl hnew fun old hold =>
        .sent message (hs.empty_of_held hheld hold) (.inl hhand))
  | mark hclosing => exact .inr ⟨new, hnew, .same⟩
  | drain hclosing => exact .inr ⟨new, hnew, .same⟩
  | @fail task error drained rest i hclosing =>
      have hheld : i ∈ c.holders (.closing task) := by
        simp [holders, PersistentProcessConnection.rest, hclosing]
      exact .inr (became_modify rfl hnew fun old hold =>
        .sent _ (hs.empty_of_held hheld hold) (.inr ⟨error, rfl⟩))
  | complete hclosing => exact .inr ⟨new, hnew, .same⟩

-- A response that was read under its number.
def Logged (c : PersistentProcessConnection) (response : Received) : Prop :=
  c.received[response.number]? = some response.outcome

theorem Effect.received (h : Effect c d) : ∃ more, d.received = c.received ++ more := by
  have hsame : ∃ more, c.received = c.received ++ more := ⟨[], (List.append_nil _).symm⟩
  cases h with
  | logged outcome => exact ⟨[outcome], rfl⟩
  | lone outcome hhand hpending => exact ⟨[outcome], rfl⟩
  | @take outcome id i hhand hfound => exact ⟨[outcome], rfl⟩
  | startClosing outcomes task error hnone => exact ⟨outcomes, rfl⟩
  | takeBack error hcall hstate =>
      unfold moveTo modify dropPending
      split <;> exact hsame
  | remove id =>
      unfold dropPending
      split <;> exact hsame
  | execute => exact hsame
  | move => exact hsame
  | register => exact hsame
  | deliver => exact hsame
  | mark => exact hsame
  | drain => exact hsame
  | fail => exact hsame
  | complete => exact hsame

theorem Logged.later {response : Received} (hl : Logged c response) (h : Effect c d) :
    Logged d response := by
  obtain ⟨more, hmore⟩ := h.received
  obtain ⟨hlt, -⟩ := List.getElem?_eq_some_iff.mp hl
  unfold Logged
  rw [hmore, List.getElem?_append_left hlt]
  exact hl

-- The reader only holds a response that it has read.
theorem Effect.hand (h : Effect c d) {message : Except CallError Received}
    (hd : d.hand = some (i, message)) :
    c.hand = some (i, message) ∨ ∀ response, message = .ok response → Logged d response := by
  cases h with
  | lone outcome hhand hpending =>
      obtain ⟨-, rfl⟩ := Prod.mk.inj (Option.some.inj hd)
      exact .inr fun response h => by cases h
  | @take outcome id k hhand hfound =>
      obtain ⟨-, rfl⟩ := Prod.mk.inj (Option.some.inj hd)
      refine .inr fun response h => ?_
      obtain rfl := Except.ok.inj h
      change (c.received ++ [outcome])[c.received.length]? = some outcome
      simp
  | deliver hhand => cases hd
  | takeBack error hcall hstate =>
      unfold moveTo modify dropPending at hd
      split at hd <;> exact .inl hd
  | remove id =>
      unfold dropPending at hd
      split at hd <;> exact .inl hd
  | execute => exact .inl hd
  | move => exact .inl hd
  | register => exact .inl hd
  | logged => exact .inl hd
  | startClosing => exact .inl hd
  | mark => exact .inl hd
  | drain => exact .inl hd
  | fail => exact .inl hd
  | complete => exact .inl hd

-- Responses on their way to a call are responses that were read, and a call that comes back
-- with one has found its own ids on it.
structure Honest (c : PersistentProcessConnection) : Prop where
  hand : ∀ i response, c.hand = some (i, .ok response) → Logged c response
  slots : ∀ i call response, c.calls i = some call → call.slot = .sent (.ok response) →
    Logged c response
  returned : ∀ i call response, c.calls i = some call → call.state = .returned (.ok response) →
    Logged c response ∧ response.outcome.requestId = some call.request.requestId ∧
      response.outcome.jobId = some call.request.jobId

theorem accept_ok {request : ExecutionRequest} {first response : Received}
    (h : accept request first = .ok response) :
    first = response ∧ response.outcome.requestId = some request.requestId ∧
      response.outcome.jobId = some request.jobId := by
  unfold accept at h
  split_ifs at h with hjob hid
  obtain rfl := Except.ok.inj h
  exact ⟨rfl, not_not.mp hid, not_not.mp hjob⟩

theorem Honest.start : Honest {} where
  hand i response h := by cases h
  slots i call response h := by cases h
  returned i call response h := by cases h

theorem Honest.effect (ho : Honest c) (hs : Senders c) (h : Effect c d) : Honest d where
  hand i response hd := by
    rcases h.hand hd with hold | hnew
    · exact (ho.hand i response hold).later h
    · exact hnew response rfl
  slots i new response hnew hslot := by
    rcases h.became hs hnew with ⟨-, request, limited, rfl⟩ | ⟨old, hold, hb⟩
    · cases hslot
    · have hkept := fun hslot => (ho.slots i old response hold hslot).later h
      cases hb with
      | same => exact hkept hslot
      | move => exact hkept hslot
      | register => exact hkept hslot
      | takeBack error hsame =>
          rcases hsame with rfl | ⟨-, rfl⟩
          · exact hkept hslot
          · cases hslot
      | hungUp => cases hslot
      | sent message hempty hfrom =>
          obtain rfl : message = .ok response := Slot.sent.inj hslot
          rcases hfrom with hhand | ⟨error, herror⟩
          · exact (ho.hand i response hhand).later h
          · cases herror
  returned i new response hnew hstate := by
    rcases h.became hs hnew with ⟨-, request, limited, rfl⟩ | ⟨old, hold, hb⟩
    · cases hstate
    · have hkept := fun hstate =>
        (ho.returned i old response hold hstate).imp_left fun hl => hl.later h
      cases hb with
      | same => exact hkept hstate
      | hungUp => exact hkept hstate
      | sent => exact hkept hstate
      | register => cases hstate
      | takeBack => cases hstate
      | move hmoves =>
          cases hmoves with
          | answered first hwaiting hslot =>
              obtain ⟨rfl, hids⟩ := accept_ok (CallState.returned.inj hstate)
              exact ⟨(ho.slots i old first hold hslot).later h, hids⟩
          | _ => cases hstate

theorem isSome_modify (update : Call → Call) (h : (c.calls j).isSome) :
    ((c.modify i update).calls j).isSome := by
  rw [calls_modify]
  split_ifs with hj
  · subst hj
    simpa using h
  · exact h

theorem isSome_dropPending (id : RequestId) (h : (c.calls j).isSome) :
    ((c.dropPending id).calls j).isSome := by
  unfold dropPending
  split
  · exact h
  · exact isSome_modify _ h

theorem Effect.persists (he : Effect c d) (h : (c.calls j).isSome) : (d.calls j).isSome := by
  cases he with
  | execute i request limited hnone hid =>
      by_cases hj : j = i
      · rw [hj, setCall_self]
        rfl
      · rw [setCall_of_ne hj]
        exact h
  | move => exact isSome_modify _ h
  | register => exact isSome_modify _ h
  | takeBack => exact isSome_modify _ (isSome_dropPending _ h)
  | remove id => exact isSome_dropPending id h
  | deliver => exact isSome_modify _ h
  | fail => exact isSome_modify _ h
  | logged => exact h
  | lone => exact h
  | take => exact h
  | startClosing => exact h
  | mark => exact h
  | drain => exact h
  | complete => exact h

-- What has become of a call after one step.
theorem Effect.becomes (he : Effect c d) (hs : Senders c) (hcall : c.calls j = some call) :
    ∃ new, d.calls j = some new ∧ Became c j call new := by
  obtain ⟨new, hnew⟩ := Option.isSome_iff_exists.mp (he.persists (by rw [hcall]; rfl))
  refine ⟨new, hnew, ?_⟩
  rcases he.became hs hnew with ⟨hnone, -⟩ | ⟨old, hold, hb⟩
  · rw [hcall] at hnone
    cases hnone
  · obtain rfl := Option.some.inj (hcall.symm.trans hold)
    exact hb

-- The call was sent an error.
def Told (c : PersistentProcessConnection) (i : CallId) : Prop :=
  ∃ call error, c.calls i = some call ∧ call.slot = .sent (.error error)

theorem Told.later (ht : Told c i) (hs : Senders c) (he : Effect c d) : Told d i := by
  obtain ⟨call, error, hcall, hslot⟩ := ht
  obtain ⟨new, hnew, hb⟩ := he.becomes hs hcall
  have hfull : call.slot ≠ .empty := by
    rw [hslot]
    exact nofun
  refine ⟨new, error, hnew, ?_⟩
  cases hb with
  | same => exact hslot
  | move => exact hslot
  | register => exact hslot
  | hungUp hempty => exact absurd hempty hfull
  | sent message hempty => exact absurd hempty hfull
  | takeBack cause hsame hstate =>
      rcases hsame with rfl | ⟨hempty, -⟩
      · exact hslot
      · exact absurd hempty hfull

-- What holds of the closings. Once one has taken the senders out of the map, only calls that
-- are about to see the connection closed put theirs in.

structure Closes (c : PersistentProcessConnection) : Prop where
  marked : ∀ task closing, c.closings task = some closing → closing.state ≠ .marking →
    c.closed = true
  tells : ∀ task closing, c.closings task = some closing → closing.state.Tells c.Told
  late : ∀ task closing, c.closings task = some closing → closing.state.Drained →
    ∀ id i, (id, i) ∈ c.pending → ∃ call, c.calls i = some call ∧ call.state.Late

theorem Became.late {old new : Call} (hb : Became c i old new) (hclosed : c.closed = true)
    (hl : old.state.Late) : new.state.Late := by
  cases hb with
  | same => exact hl
  | hungUp => exact hl
  | sent => exact hl
  | register => trivial
  | takeBack error _ hstate =>
      rcases hstate with hstate | ⟨rfl, -⟩
      · rw [hstate] at hl
        exact hl.elim
      · trivial
  | move hmoves =>
      cases hmoves with
      | check => trivial
      | turnedDown => trivial
      | refuse => trivial
      | drop => trivial
      | proceed hstate hopen =>
          rw [hclosed] at hopen
          cases hopen
      | sent hstate => exact (hstate ▸ hl : CallState.Late .sending).elim
      | unsent hstate => exact (hstate ▸ hl : CallState.Late .sending).elim
      | expire hstate => exact (hstate ▸ hl : CallState.Late .waiting).elim
      | failed error hstate => exact (hstate ▸ hl : CallState.Late .waiting).elim
      | answered response hstate => exact (hstate ▸ hl : CallState.Late .waiting).elim

theorem Effect.closed (he : Effect c d) (h : c.closed = true) : d.closed = true := by
  cases he with
  | takeBack error hcall hstate =>
      unfold moveTo modify dropPending
      split <;> exact h
  | remove id =>
      unfold dropPending
      split <;> exact h
  | mark => rfl
  | _ => exact h

theorem tells_mono {state : CloseState} {told later : CallId → Prop}
    (h : state.Tells told) (hl : ∀ i, told i → later i) : state.Tells later := by
  cases state with
  | marking => trivial
  | draining => trivial
  | failing drained rest => exact fun i hi => (h i hi).imp_right (hl i)
  | completed drained => exact fun i hi => hl i (h i hi)

theorem marked_of_drained {state : CloseState} (h : state.Drained) : state ≠ .marking := by
  rintro rfl
  exact h

namespace Closes

theorem start : Closes {} where
  marked task closing h := by cases h
  tells task closing h := by cases h
  late task closing h := by cases h

-- A call that was late stays so.
theorem late_later (hc : Closes c) (hs : Senders c) (he : Effect c d) {task : Task}
    {closing : Closing} (hclosing : c.closings task = some closing)
    (hdrained : closing.state.Drained) {id : RequestId} (hmem : (id, i) ∈ c.pending) :
    ∃ call, d.calls i = some call ∧ call.state.Late := by
  obtain ⟨old, hold, hlate⟩ := hc.late task closing hclosing hdrained id i hmem
  obtain ⟨new, hnew, hb⟩ := he.becomes hs hold
  exact ⟨new, hnew, hb.late (hc.marked task closing hclosing (marked_of_drained hdrained)) hlate⟩

theorem keep (hc : Closes c) (hs : Senders c) (he : Effect c d)
    (hclosings : d.closings = c.closings)
    (hpending : ∀ id i, (id, i) ∈ d.pending →
      (id, i) ∈ c.pending ∨ ∃ call, d.calls i = some call ∧ call.state.Late) : Closes d where
  marked task closing h hstate := he.closed (hc.marked task closing (hclosings ▸ h) hstate)
  tells task closing h :=
    tells_mono (hc.tells task closing (hclosings ▸ h)) fun i ht => ht.later hs he
  late task closing h hdrained id i hmem := by
    rcases hpending id i hmem with hold | hnew
    · exact hc.late_later hs he (hclosings ▸ h) hdrained hold
    · exact hnew

-- One closing goes on, and the other is as it was.
theorem set (hc : Closes c) (hs : Senders c) (he : Effect c d) {task : Task} {closing : Closing}
    (hclosings : d.closings = Function.update c.closings task (some closing))
    (hmarked : closing.state ≠ .marking → d.closed = true) (htells : closing.state.Tells d.Told)
    (hlate : closing.state.Drained → ∀ id i, (id, i) ∈ d.pending →
      ∃ call, d.calls i = some call ∧ call.state.Late)
    (hpending : ∀ id i, (id, i) ∈ d.pending → (id, i) ∈ c.pending) : Closes d := by
  have hcases : ∀ other found, d.closings other = some found →
      (other = task ∧ found = closing) ∨ c.closings other = some found := by
    intro other found h
    rw [hclosings] at h
    by_cases ho : other = task
    · subst ho
      rw [Function.update_self] at h
      exact .inl ⟨rfl, (Option.some.inj h).symm⟩
    · rw [Function.update_of_ne ho] at h
      exact .inr h
  refine ⟨fun other found h hstate => ?_, fun other found h => ?_,
    fun other found h hdrained id i hmem => ?_⟩
  · rcases hcases other found h with ⟨-, rfl⟩ | hold
    · exact hmarked hstate
    · exact he.closed (hc.marked other found hold hstate)
  · rcases hcases other found h with ⟨-, rfl⟩ | hold
    · exact htells
    · exact tells_mono (hc.tells other found hold) fun i ht => ht.later hs he
  · rcases hcases other found h with ⟨-, rfl⟩ | hold
    · exact hlate hdrained id i hmem
    · exact hc.late_later hs he hold hdrained (hpending id i hmem)

theorem effect (hc : Closes c) (hs : Senders c) (he : Effect c d) : Closes d := by
  cases he with
  | execute i request limited hnone hid =>
      exact hc.keep hs (.execute i request limited hnone hid) rfl fun _ _ h => .inl h
  | move hcall hmoves => exact hc.keep hs (.move hcall hmoves) rfl fun _ _ h => .inl h
  | @register i call hcall hstate =>
      refine hc.keep hs (.register hcall hstate) rfl fun id j h => ?_
      rcases List.mem_cons.mp h with heq | hold
      · obtain ⟨-, rfl⟩ := Prod.mk.inj heq
        refine .inr ⟨{ call with state := .registered }, ?_, trivial⟩
        rw [moveTo, calls_modify, if_pos rfl]
        exact congrArg (Option.map _) hcall
      · exact .inl (List.mem_of_mem_filter hold)
  | @takeBack i call error hcall hstate =>
      refine hc.keep hs (.takeBack error hcall hstate) ?_ fun id j h => .inl ?_
      · unfold moveTo modify dropPending
        split <;> rfl
      · unfold moveTo modify dropPending at h
        split at h
        · exact h
        · exact List.mem_of_mem_filter h
  | remove id =>
      refine hc.keep hs (.remove id) ?_ fun id j h => .inl ?_
      · unfold dropPending
        split <;> rfl
      · unfold dropPending at h
        split at h
        · exact h
        · exact List.mem_of_mem_filter h
  | logged outcome => exact hc.keep hs (.logged outcome) rfl fun _ _ h => .inl h
  | lone outcome hhand hpending =>
      exact hc.keep hs (.lone outcome hhand hpending) rfl fun _ _ h => absurd h List.not_mem_nil
  | take hhand hfound =>
      exact hc.keep hs (.take hhand hfound) rfl fun _ _ h => .inl (List.mem_of_mem_filter h)
  | deliver hhand => exact hc.keep hs (.deliver hhand) rfl fun _ _ h => .inl h
  | startClosing outcomes task error hnone =>
      exact hc.set hs (.startClosing outcomes task error hnone) rfl (fun h => absurd rfl h) trivial
        (fun h => h.elim) fun _ _ h => h
  | mark hclosing =>
      exact hc.set hs (.mark hclosing) rfl (fun _ => rfl) trivial (fun h => h.elim)
        fun _ _ h => h
  | drain hclosing =>
      have hclosed := hc.marked _ _ hclosing nofun
      exact hc.set hs (.drain hclosing) rfl (fun _ => hclosed) (fun i hi => .inl hi)
        (fun _ _ _ h => absurd h List.not_mem_nil) fun _ _ h => absurd h List.not_mem_nil
  | @fail task error drained rest i hclosing =>
      have he : Effect c _ := .fail hclosing
      have hclosed := hc.marked _ _ hclosing nofun
      have hheld : i ∈ c.holders (.closing task) := by
        simp [holders, PersistentProcessConnection.rest, hclosing]
      obtain ⟨call, hcall, -⟩ := hs.fresh _ i hheld
      have htold : Told ((c.deliver i (.error error)).setClosing task error
          (.failing drained rest)) i := by
        refine ⟨{ call with slot := .sent (.error error) }, error, ?_, rfl⟩
        change (c.modify i _).calls i = _
        rw [calls_modify, if_pos rfl, hcall]
        rfl
      refine hc.set hs he rfl (fun _ => hclosed) (fun j hj => ?_)
        (fun hd _ _ h => hc.late_later hs he hclosing trivial h) fun _ _ h => h
      rcases hc.tells _ _ hclosing j hj with hrest | ht
      · rcases List.mem_cons.mp hrest with rfl | hrest
        · exact .inr htold
        · exact .inl hrest
      · exact .inr (ht.later hs he)
  | complete hclosing =>
      have he : Effect c _ := .complete hclosing
      have hclosed := hc.marked _ _ hclosing nofun
      refine hc.set hs he rfl (fun _ => hclosed) (fun j hj => ?_)
        (fun hd _ _ h => hc.late_later hs he hclosing trivial h) fun _ _ h => h
      rcases hc.tells _ _ hclosing j hj with hrest | ht
      · exact absurd hrest List.not_mem_nil
      · exact ht.later hs he

end Closes

-- What holds on every connection.
structure Sound (c : PersistentProcessConnection) : Prop where
  senders : Senders c
  honest : Honest c
  closes : Closes c

theorem Sound.steps (hs : Sound c) (h : Steps c d) : Sound d := by
  obtain ⟨event, hadmits, hstep⟩ := h
  have he := effect_step hadmits hstep
  exact ⟨hs.senders.effect he, hs.honest.effect hs.senders he, hs.closes.effect hs.senders he⟩

theorem sound_reachable (h : Reachable c) : Sound c := by
  induction h with
  | refl => exact ⟨.start, .start, .start⟩
  | tail _ hstep ih => exact ih.steps hstep

-- Somebody has the sender of the call in his hands and is about to use it.
def BeingAnswered (c : PersistentProcessConnection) (i : CallId) : Prop :=
  (∃ message, c.hand = some (i, message)) ∨ ∃ task, i ∈ c.rest task

theorem Sound.beingAnswered (hs : Sound c) {task : Task} {closing : Closing}
    (hclosing : c.closings task = some closing) (hdrained : closing.state.Drained)
    (hcall : c.calls i = some call) (hstate : call.state = .waiting)
    (hslot : call.slot = .empty) : c.BeingAnswered i := by
  have hlistening : call.state.Listening := hstate ▸ trivial
  obtain ⟨p, hp⟩ := hs.senders.located i call hcall hslot hlistening
  cases p with
  | pending =>
      obtain ⟨⟨id, k⟩, hmem, rfl⟩ := List.mem_map.mp hp
      obtain ⟨found, hfound, hlate⟩ := hs.closes.late task closing hclosing hdrained id k hmem
      obtain rfl := Option.some.inj (hcall.symm.trans hfound)
      rw [hstate] at hlate
      exact hlate.elim
  | hand =>
      simp only [holders, Option.mem_toList, Option.map_eq_some_iff] at hp
      obtain ⟨⟨k, message⟩, hhand, rfl⟩ := hp
      exact .inl ⟨message, hhand⟩
  | closing other => exact .inr ⟨other, hp⟩

-- A response names the call that it completes.
theorem Sound.answered_once (hs : Sound c) {first second : Call} {a b : Received}
    (hi : c.calls i = some first) (hj : c.calls j = some second)
    (hfirst : first.state = .returned (.ok a)) (hsecond : second.state = .returned (.ok b))
    (hsame : a.number = b.number) : i = j := by
  obtain ⟨hloga, hida, -⟩ := hs.honest.returned i first a hi hfirst
  obtain ⟨hlogb, hidb, -⟩ := hs.honest.returned j second b hj hsecond
  have houtcome : a.outcome = b.outcome := by
    unfold Logged at hloga hlogb
    rw [hsame, hlogb] at hloga
    exact (Option.some.inj hloga).symm
  rw [houtcome, hidb] at hida
  exact hs.senders.distinct i j first second hi hj (Option.some.inj hida).symm

-- A call that registers when the connection is closed comes to nothing.
theorem late_run (hs : Sound c) (hclosed : c.closed = true)
    (hnew : ∀ call, c.calls i = some call → ¬ call.state.Entered)
    (hr : Relation.ReflTransGen Steps c d) :
    Sound d ∧ d.closed = true ∧ ∀ call, d.calls i = some call → call.state.Late := by
  induction hr with
  | refl =>
      refine ⟨hs, hclosed, fun call hcall => ?_⟩
      have hnot := hnew call hcall
      cases hstate : call.state with
      | begun => trivial
      | checked => trivial
      | _ =>
          rw [hstate] at hnot
          exact absurd trivial hnot
  | tail _ hstep ih =>
      obtain ⟨hs', hclosed', hlate⟩ := ih
      obtain ⟨event, hadmits, hevent⟩ := hstep
      have he := effect_step hadmits hevent
      refine ⟨hs'.steps ⟨event, hadmits, hevent⟩, he.closed hclosed', fun call hcall => ?_⟩
      rcases he.became hs'.senders hcall with ⟨-, request, limited, rfl⟩ | ⟨old, hold, hb⟩
      · trivial
      · exact hb.late hclosed' (hlate old hold)

-- A call only comes back with a response that carries its ids, a response completes one call at
-- most, and once a closing is through, every call whose sender it found was sent its error,
-- every other that waits is about to be answered, and a later one is turned down.
theorem execute_demultiplexed (h : Reachable c) :
    (∀ i call response, c.calls i = some call → call.state = .returned (.ok response) →
      c.received[response.number]? = some response.outcome ∧
        response.outcome.requestId = some call.request.requestId ∧
        response.outcome.jobId = some call.request.jobId) ∧
    (∀ i j first second a b, c.calls i = some first → c.calls j = some second →
      first.state = .returned (.ok a) → second.state = .returned (.ok b) →
      a.number = b.number → i = j) ∧
    ∀ task error drained, c.closings task = some ⟨error, .completed drained⟩ →
      (∀ i ∈ drained, c.Told i) ∧
      (∀ i call, c.calls i = some call → call.state = .waiting → call.slot = .empty →
        c.BeingAnswered i) ∧
      ∀ i, (∀ call, c.calls i = some call → ¬ call.state.Entered) →
        ∀ d, Relation.ReflTransGen Steps c d → ∀ call, d.calls i = some call →
          call.state.Late := by
  have hs := sound_reachable h
  refine ⟨hs.honest.returned, fun i j first second a b hi hj hfirst hsecond hsame =>
    hs.answered_once hi hj hfirst hsecond hsame, fun task error drained hclosing => ⟨?_, ?_, ?_⟩⟩
  · exact hs.closes.tells task _ hclosing
  · exact fun i call hcall hstate hslot =>
      hs.beingAnswered hclosing trivial hcall hstate hslot
  · intro i hnew d hr
    exact (late_run hs (hs.closes.marked task _ hclosing nofun) hnew hr).2.2

-- Many steps, of which only the first starts a call.

def run : List Event → PersistentProcessConnection → Option PersistentProcessConnection
  | [], c => some c
  | event :: events, c => (c.step event).bind (run events)

theorem reachable_run {events : List Event} (hc : Reachable c)
    (ha : ∀ event ∈ events, ∀ c : PersistentProcessConnection, c.Admits event)
    (hr : run events c = some d) : Reachable d := by
  induction events generalizing c with
  | nil =>
      obtain rfl := Option.some.inj hr
      exact hc
  | cons event events ih =>
      obtain ⟨mid, hmid, hrest⟩ := Option.bind_eq_some_iff.mp hr
      exact ih (hc.tail ⟨event, ha event List.mem_cons_self c, hmid⟩)
        (fun other ho => ha other (List.mem_cons_of_mem _ ho)) hrest

-- The reader has taken the sender of a call for its response. Before it sends the response,
-- a write fails and the writer closes the connection.

def oneCall : PersistentProcessConnection :=
  ({} : PersistentProcessConnection).setCall 0 { request := ⟨"r", "j"⟩, limited := false }

def raceEvents : List Event :=
  [.act 0, .act 0, .act 0, .send 0 true, .response ⟨some "r", some "j"⟩, .writeEnds true,
    .close .writer, .close .writer, .close .writer]

def waitsAfterClose (c : PersistentProcessConnection) : Bool :=
  match c.closings .writer, c.calls 0 with
  | some ⟨_, .completed _⟩, some ⟨_, _, .waiting, .empty⟩ => true
  | _, _ => false

theorem reachable_oneCall : Reachable oneCall :=
  Relation.ReflTransGen.single ⟨.execute 0 ⟨"r", "j"⟩ false, fun _ _ h => (nomatch h), rfl⟩

theorem exists_race : ∃ c, Reachable c ∧ waitsAfterClose c = true := by
  have hrun : ((run raceEvents oneCall).map waitsAfterClose) = some true := by decide +kernel
  obtain ⟨c, hc, htest⟩ := Option.map_eq_some_iff.mp hrun
  refine ⟨c, reachable_run reachable_oneCall (fun event he c => ?_) hc, htest⟩
  simp only [raceEvents, List.mem_cons, List.not_mem_nil, or_false] at he
  rcases he with rfl | rfl | rfl | rfl | rfl | rfl | rfl | rfl | rfl <;> trivial

theorem waits_of_test (h : waitsAfterClose c = true) :
    ∃ error drained call, c.closings .writer = some ⟨error, .completed drained⟩ ∧
      c.calls 0 = some call ∧ call.state = .waiting ∧ call.slot = .empty := by
  unfold waitsAfterClose at h
  split at h
  · rename_i error drained request limited hclosing hcall
    exact ⟨error, drained, _, hclosing, hcall, rfl, rfl⟩
  · cases h

theorem execute_demultiplexed_race :
    ∃ c, Reachable c ∧ waitsAfterClose c = true ∧ c.BeingAnswered 0 := by
  obtain ⟨c, hc, htest⟩ := exists_race
  obtain ⟨error, drained, call, hclosing, hcall, hstate, hslot⟩ := waits_of_test htest
  obtain ⟨-, -, hclosed⟩ := execute_demultiplexed hc
  exact ⟨c, hc, htest, (hclosed .writer error drained hclosing).2.1 0 call hcall hstate hslot⟩

-- The call waits although a closing is through.
theorem waits_after_close :
    ¬ ∀ c, Reachable c → ∀ task error drained,
      c.closings task = some ⟨error, .completed drained⟩ →
        ∀ i call, c.calls i = some call → call.state = .waiting → call.slot ≠ .empty := by
  intro h
  obtain ⟨c, hc, htest⟩ := exists_race
  obtain ⟨error, drained, call, hclosing, hcall, hstate, hslot⟩ := waits_of_test htest
  exact h c hc .writer error drained hclosing 0 call hcall hstate hslot

end PersistentProcessConnection

end Rrq.Runner
