import Mathlib.Algebra.BigOperators.Group.Finset.Basic
import Mathlib.Algebra.Order.BigOperators.Group.Finset
import Rrq.Runner.Pool

-- Notifications that are lost, and calls that wait in vain.

namespace Rrq.Runner

namespace AcquireState

variable (poolSize rounds : Nat)

def scan? : AcquireState → Option Scan
  | listing scan | scanning scan | ensured scan | trying scan _ => some scan
  | idle | waiting | told _ | returned => none

-- The processes that a call has found no permit of, since it last set out or all were told.
def passed (state : AcquireState) : Finset Nat :=
  match state with
  | waiting => Finset.range poolSize
  | state =>
      match state.scan? with
      | some scan =>
          if scan.seen = rounds then
            (Finset.range poolSize).filter fun process =>
              ∃ offset < scan.offset, (scan.start + offset) % poolSize = process
          else ∅
      | none => ∅

-- A notification of notify_one is on its way to the call, or the call goes through the pool
-- because of one.
def Notified (state : AcquireState) : Prop :=
  state = told .one ∨ ∃ scan, state.scan? = some scan ∧ scan.notified ∧ scan.seen = rounds

instance (state : AcquireState) : Decidable (state.Notified rounds) :=
  match state with
  | told .one => .isTrue (.inl rfl)
  | told .all | idle | waiting | returned => .isFalse (by simp [Notified, scan?])
  | listing scan | scanning scan | ensured scan | trying scan _ =>
      decidable_of_iff (scan.notified ∧ scan.seen = rounds) (by simp [Notified, scan?])

end AcquireState

namespace SocketRunnerPool

variable (s : SocketRunnerPool)

abbrev rounds : Nat := s.availability.rounds

def passed (id : AcquireId) : Finset Nat := (s.states id).passed s.poolSize s.rounds

def free (process : Nat) : Nat := (s.permits process (s.era process)).free

-- The permits of a process that are free or about to be.
def offered (process : Nat) : Nat :=
  s.free process + (s.permits process (s.era process)).dropping

-- The call has passed a process that has a permit by now.
def Exposed (id : AcquireId) : Prop := ∃ process ∈ s.passed id, 0 < s.offered process

instance (id : AcquireId) : Decidable (s.Exposed id) := inferInstanceAs (Decidable (∃ _ ∈ _, _))

-- A call is given up together with a notification that another one could need.
def GivesUp (id : AcquireId) : Prop :=
  (s.states id).Notified s.rounds ∧
    (s.states id = .told .one → s.availability.stored ∧ s.availability.waiters = []) ∧
    ∃ other < s.count, other ≠ id ∧ s.Exposed other

-- The ways in which a notification goes astray: a call finds no permit of a process that is
-- about to get one back, a call takes a permit because of a notification while another one
-- that has passed a permit is still to come to that process, a call is given up with a
-- notification, or a permit comes back to a process that a call has passed while a
-- notification is stored already.
def Astray : PoolEvent → Prop
  | .act id =>
      ∃ scan era, s.states id = .trying scan era ∧ scan.seen = s.rounds ∧
        if (s.permits (s.index scan) era).free = 0 then
          0 < (s.permits (s.index scan) era).dropping
        else
          scan.notified ∧
            ∃ other < s.count, other ≠ id ∧ s.Exposed other ∧ s.index scan ∉ s.passed other
  | .cancel id => s.GivesUp id
  | .ensureProcess id .failed => s.GivesUp id
  | .drop process era =>
      era = s.era process ∧ s.availability.stored ∧ s.availability.waiters = [] ∧
        ∃ id < s.count, process ∈ s.passed id
  | _ => False

instance (id : AcquireId) : Decidable (s.GivesUp id) :=
  inferInstanceAs (Decidable (_ ∧ _ ∧ _))

instance (event : PoolEvent) : Decidable (s.Astray event) :=
  match event with
  | .act id =>
      match h : s.states id with
      | .trying scan era =>
          decidable_of_iff (scan.seen = s.rounds ∧
            if (s.permits (s.index scan) era).free = 0 then
              0 < (s.permits (s.index scan) era).dropping
            else
              scan.notified ∧ ∃ other < s.count, other ≠ id ∧ s.Exposed other ∧
                s.index scan ∉ s.passed other) (by simp [Astray, h])
      | .idle | .listing _ | .scanning _ | .ensured _ | .waiting | .told _ | .returned =>
          .isFalse (by simp [Astray, h])
  | .cancel id => inferInstanceAs (Decidable (s.GivesUp id))
  | .ensureProcess id .failed => inferInstanceAs (Decidable (s.GivesUp id))
  | .drop _ _ => inferInstanceAs (Decidable (_ ∧ _ ∧ _ ∧ _))
  | .acquireProcess | .ensureProcess _ .running | .ensureProcess _ .respawned | .release _ _ =>
      .isFalse id

-- A notification is stored, or it is on its way to a call, or a call goes through the pool
-- because of one.
def Pending : Prop := s.availability.stored ∨ ∃ id, (s.states id).Notified s.rounds

-- A call waits while a process has a free permit.
def Stuck (id : AcquireId) (process : Nat) : Prop :=
  s.states id = .waiting ∧ process < s.poolSize ∧ 0 < s.free process

instance (id : AcquireId) (process : Nat) : Decidable (s.Stuck id process) :=
  inferInstanceAs (Decidable (_ ∧ _ ∧ _))

-- No drop of a permit is in progress.
def Settled : Prop := ∀ process era, (s.permits process era).dropping = 0

-- The calls that a notification has been given to.
def bearers : Finset AcquireId :=
  (Finset.range s.count).filter fun id => (s.states id).Notified s.rounds

-- The notifications that are not with one of these calls.
def beside (calls : Finset AcquireId) : Nat :=
  (if s.availability.stored then 1 else 0) + (s.bearers \ calls).card

-- What any calls have all passed is made up for by the notifications beside them.
def Covered : Prop :=
  ∀ (calls : Finset AcquireId) (processes : Finset Nat), calls.Nonempty →
    (∀ id ∈ calls, processes ⊆ s.passed id) →
    ∑ process ∈ processes, s.offered process ≤ s.beside calls

-- What else holds of every pool.
structure Sound : Prop where
  fresh : ∀ id, s.count ≤ id → s.states id = .idle
  waiters : ∀ id, id ∈ s.availability.waiters ↔ s.states id = .waiting
  nodup : s.availability.waiters.Nodup
  seen : ∀ id scan, (s.states id).scan? = some scan → scan.seen ≤ s.rounds
  era : ∀ id scan era, s.states id = .trying scan era → scan.seen = s.rounds →
    era = s.era (s.index scan)

section Frame

variable {s t : SocketRunnerPool} {id other : AcquireId} {state : AcquireState}

@[simp] theorem states_moveTo :
    (s.moveTo id state).states = Function.update s.states id state := rfl

theorem passed_moveTo_self :
    (s.moveTo id state).passed id = state.passed s.poolSize s.rounds := by
  simp [passed, moveTo]

theorem passed_moveTo_of_ne (h : other ≠ id) :
    (s.moveTo id state).passed other = s.passed other := by
  simp [passed, moveTo, h]

theorem passed_subset_range (id : AcquireId) : s.passed id ⊆ Finset.range s.poolSize := by
  unfold passed AcquireState.passed
  split
  · exact Finset.Subset.refl _
  split
  · split
    · exact Finset.filter_subset _ _
    · exact Finset.empty_subset _
  · exact Finset.empty_subset _

theorem offered_setPermits (process era : Nat) (permits : Permits) (other : Nat) :
    (s.setPermits process era permits).offered other =
      if other = process ∧ era = s.era process then permits.free + permits.dropping
      else s.offered other := by
  by_cases hp : other = process
  · subst hp
    by_cases he : era = s.era other
    · subst he
      simp [offered, free, setPermits]
    · simp [offered, free, setPermits, he, Function.update_of_ne (Ne.symm he)]
  · simp [offered, free, setPermits, hp]

theorem mem_bearers : id ∈ s.bearers ↔ id < s.count ∧ (s.states id).Notified s.rounds := by
  simp [bearers]

theorem bearers_moveTo_insert (hlt : id < s.count) (h : state.Notified s.rounds) :
    (s.moveTo id state).bearers = insert id s.bearers := by
  ext other
  rw [Finset.mem_insert, mem_bearers, mem_bearers]
  show other < s.count ∧ (Function.update s.states id state other).Notified s.rounds ↔ _
  by_cases ho : other = id
  · subst ho
    simp [hlt, h]
  · rw [Function.update_of_ne ho, or_iff_right ho]

theorem bearers_moveTo_erase (h : ¬ state.Notified s.rounds) :
    (s.moveTo id state).bearers = s.bearers.erase id := by
  ext other
  rw [Finset.mem_erase, mem_bearers, mem_bearers]
  show other < s.count ∧ (Function.update s.states id state other).Notified s.rounds ↔ _
  by_cases ho : other = id
  · subst ho
    simp [h]
  · rw [Function.update_of_ne ho]
    simp [ho]

theorem bearers_moveTo_same (h : state.Notified s.rounds ↔ (s.states id).Notified s.rounds) :
    (s.moveTo id state).bearers = s.bearers := by
  ext other
  rw [mem_bearers, mem_bearers]
  show other < s.count ∧ (Function.update s.states id state other).Notified s.rounds ↔ _
  by_cases ho : other = id
  · subst ho
    rw [Function.update_self, h]
  · rw [Function.update_of_ne ho]

theorem Sound.lt_of_passed (hs : s.Sound) (h : (s.passed id).Nonempty) : id < s.count := by
  by_contra hle
  have hempty : s.passed id = ∅ := by
    unfold passed
    rw [hs.fresh id (not_lt.mp hle)]
    rfl
  rw [hempty] at h
  exact Finset.not_nonempty_empty h

end Frame

section Covering

variable {s t : SocketRunnerPool}

-- It is enough to find calls and processes of the pool before that do as well.
theorem covered_of (hs : s.Covered)
    (h : ∀ (calls : Finset AcquireId) (processes : Finset Nat), calls.Nonempty →
      processes.Nonempty → (∀ id ∈ calls, processes ⊆ t.passed id) →
      ∃ (former : Finset AcquireId) (found : Finset Nat), former.Nonempty ∧
        (∀ id ∈ former, found ⊆ s.passed id) ∧
        ∑ process ∈ processes, t.offered process + s.beside former ≤
          ∑ process ∈ found, s.offered process + t.beside calls) : t.Covered := by
  intro calls processes hcalls hpassed
  obtain rfl | hne := processes.eq_empty_or_nonempty
  · exact Nat.zero_le _
  · obtain ⟨former, found, hformer, hfound, hle⟩ := h calls processes hcalls hne hpassed
    have hcovered := hs former found hformer hfound
    omega

-- One summand that differs by one.
theorem sum_succ {processes : Finset Nat} {f g : Nat → Nat} {process : Nat}
    (hmem : process ∈ processes) (hf : f process + 1 = g process)
    (hother : ∀ other, other ≠ process → f other = g other) :
    ∑ p ∈ processes, f p + 1 = ∑ p ∈ processes, g p := by
  have herase : ∑ p ∈ processes.erase process, f p = ∑ p ∈ processes.erase process, g p :=
    Finset.sum_congr rfl fun other ho => hother other (Finset.ne_of_mem_erase ho)
  rw [← Finset.add_sum_erase _ f hmem, ← Finset.add_sum_erase _ g hmem]
  omega

theorem covered_mono (hs : s.Covered) (hoffered : ∀ process, t.offered process ≤ s.offered process)
    (hpassed : ∀ id, t.passed id ⊆ s.passed id)
    (hbeside : ∀ calls, (∀ id ∈ calls, (t.passed id).Nonempty) → s.beside calls ≤ t.beside calls) :
    t.Covered := by
  apply covered_of hs
  intro calls processes hcalls hne hprocesses
  refine ⟨calls, processes, hcalls, fun id hid => (hprocesses id hid).trans (hpassed id), ?_⟩
  have hsum := Finset.sum_le_sum (s := processes) fun process _ => hoffered process
  have hle := hbeside calls fun id hid => hne.mono (hprocesses id hid)
  omega

-- Nothing is to be made up for where nobody has passed anything.
theorem covered_of_passed_empty (h : ∀ id, t.passed id = ∅) : t.Covered := by
  intro calls processes ⟨id, hid⟩ hpassed
  have hsub := hpassed id hid
  rw [h id, Finset.subset_empty] at hsub
  rw [hsub]
  exact Nat.zero_le _

theorem beside_mono {calls : Finset AcquireId}
    (hstored : s.availability.stored = true → t.availability.stored = true)
    (hbearers : ∀ id, id ∉ calls → id ∈ s.bearers → id ∈ t.bearers) :
    s.beside calls ≤ t.beside calls := by
  have hcard : (s.bearers \ calls).card ≤ (t.bearers \ calls).card := by
    apply Finset.card_le_card
    intro id hid
    rw [Finset.mem_sdiff] at hid ⊢
    exact ⟨hbearers id hid.2 hid.1, hid.2⟩
  unfold beside
  split_ifs with h₁ h₂
  · omega
  · exact absurd (hstored h₁) h₂
  · omega
  · omega

-- A call that leaves takes at most one notification with it.
theorem beside_returned {id : AcquireId} {calls : Finset AcquireId} :
    s.beside calls ≤ (s.moveTo id .returned).beside calls + 1 := by
  have hcard := Finset.pred_card_le_card_erase (s := s.bearers \ calls) (a := id)
  rw [← Finset.erase_sdiff_comm] at hcard
  unfold beside
  rw [bearers_moveTo_erase (by simp [AcquireState.Notified, AcquireState.scan?])]
  show _ ≤ (if s.availability.stored then 1 else 0) + (s.bearers.erase id \ calls).card + 1
  omega

-- A call that keeps its notification and has passed no more than before.
theorem covered_moveTo (hs : s.Covered) {id : AcquireId} {state : AcquireState}
    (hpassed : state.passed s.poolSize s.rounds ⊆ s.passed id)
    (hnotified : (s.states id).Notified s.rounds → state.Notified s.rounds) :
    (s.moveTo id state).Covered := by
  apply covered_mono hs
  · exact fun _ => le_rfl
  · intro other
    by_cases ho : other = id
    · subst ho
      rw [passed_moveTo_self]
      exact hpassed
    · rw [passed_moveTo_of_ne ho]
  · intro calls _
    apply beside_mono
    · exact fun h => h
    intro other _ hother
    rw [mem_bearers] at hother ⊢
    refine ⟨hother.1, ?_⟩
    by_cases ho : other = id
    · subst ho
      simpa [moveTo] using hnotified hother.2
    · simpa [moveTo, ho] using hother.2

-- A call is given up while no other one has passed a permit.
theorem covered_giveUp (hs : s.Sound) (id : AcquireId)
    (hexposed : ∀ other < s.count, other ≠ id → ¬ s.Exposed other)
    (hoffered : t.offered = s.offered) (hid : t.passed id = ∅)
    (hpassed : ∀ other, t.passed other ⊆ s.passed other) : t.Covered := by
  intro calls processes ⟨other, hother⟩ hprocesses
  have hsum : ∑ process ∈ processes, t.offered process = 0 := by
    apply Finset.sum_eq_zero
    intro process hp
    have hne : other ≠ id := by
      intro heq
      have hmem := hprocesses other hother hp
      rw [heq, hid] at hmem
      exact absurd hmem (Finset.notMem_empty _)
    have hmem := hpassed other (hprocesses other hother hp)
    have hlt := hs.lt_of_passed ⟨process, hmem⟩
    have hnot : ¬ 0 < s.offered process := fun hpos => hexposed other hlt hne ⟨process, hmem, hpos⟩
    rw [hoffered]
    omega
  rw [hsum]
  exact Nat.zero_le _

end Covering

section Telling

variable {s : SocketRunnerPool} {id : AcquireId} {state : AcquireState}

theorem sound_moveTo (hs : s.Sound) (hlt : id < s.count) (hold : s.states id ≠ .waiting)
    (hnew : state ≠ .waiting) (hseen : ∀ scan, state.scan? = some scan → scan.seen ≤ s.rounds)
    (hera : ∀ scan era, state = .trying scan era → scan.seen = s.rounds →
      era = s.era (s.index scan)) : (s.moveTo id state).Sound where
  fresh other hle := by
    have hne : other ≠ id := by
      intro heq
      exact absurd (heq ▸ hle) (not_le.mpr hlt)
    rw [states_moveTo, Function.update_of_ne hne]
    exact hs.fresh other hle
  waiters other := by
    show other ∈ s.availability.waiters ↔ _
    rw [hs.waiters, states_moveTo]
    by_cases ho : other = id
    · subst ho
      simp [hold, hnew]
    · rw [Function.update_of_ne ho]
  nodup := hs.nodup
  seen other scan hscan := by
    by_cases ho : other = id
    · subst ho
      rw [states_moveTo, Function.update_self] at hscan
      exact hseen scan hscan
    · rw [states_moveTo, Function.update_of_ne ho] at hscan
      exact hs.seen other scan hscan
  era other scan era htrying := by
    by_cases ho : other = id
    · subst ho
      rw [states_moveTo, Function.update_self] at htrying
      exact hera scan era htrying
    · rw [states_moveTo, Function.update_of_ne ho] at htrying
      exact hs.era other scan era htrying

theorem Sound.lt_count (hs : s.Sound) (h : s.states id ≠ .idle) : id < s.count := by
  by_contra hle
  exact h (hs.fresh id (not_lt.mp hle))

-- The waiter at the head of the queue.
theorem Sound.head (hs : s.Sound) {rest : List AcquireId}
    (hw : s.availability.waiters = id :: rest) : s.states id = .waiting ∧ id ∉ rest := by
  refine ⟨(hs.waiters id).mp (hw ▸ List.mem_cons_self), ?_⟩
  have hnodup := hs.nodup
  rw [hw] at hnodup
  exact (List.nodup_cons.mp hnodup).1

theorem notifyOne_nil (hw : s.availability.waiters = []) :
    s.notifyOne = { s with availability := { s.availability with stored := true } } := by
  unfold notifyOne
  rw [hw]

theorem notifyOne_cons {rest : List AcquireId} (hw : s.availability.waiters = id :: rest) :
    s.notifyOne = { s with availability :=
      { s.availability with waiters := rest } }.moveTo id (.told .one) := by
  unfold notifyOne
  rw [hw]

theorem sound_notifyOne (hs : s.Sound) : s.notifyOne.Sound := by
  cases hw : s.availability.waiters with
  | nil =>
      rw [notifyOne_nil hw]
      exact ⟨hs.fresh, hs.waiters, hs.nodup, hs.seen, hs.era⟩
  | cons first rest =>
      rw [notifyOne_cons hw]
      obtain ⟨hwaiting, hnotin⟩ := hs.head hw
      have hlt : first < s.count := hs.lt_count (by simp [hwaiting])
      have hnodup := hs.nodup
      rw [hw] at hnodup
      refine ⟨fun other hle => ?_, fun other => ?_, (List.nodup_cons.mp hnodup).2,
        fun other scan hscan => ?_, fun other scan era htrying => ?_⟩
      · have hne : other ≠ first := by
          intro heq
          exact absurd (heq ▸ hle) (not_le.mpr hlt)
        rw [states_moveTo, Function.update_of_ne hne]
        exact hs.fresh other hle
      · show other ∈ rest ↔ Function.update s.states first (.told .one) other = .waiting
        by_cases ho : other = first
        · subst ho
          simp [hnotin]
        · rw [Function.update_of_ne ho, ← hs.waiters, hw]
          simp [ho]
      · by_cases ho : other = first
        · subst ho
          simp [AcquireState.scan?] at hscan
        · rw [states_moveTo, Function.update_of_ne ho] at hscan
          exact hs.seen other scan hscan
      · by_cases ho : other = first
        · subst ho
          simp at htrying
        · rw [states_moveTo, Function.update_of_ne ho] at htrying
          exact hs.era other scan era htrying

theorem offered_notifyOne : s.notifyOne.offered = s.offered := by
  unfold notifyOne
  split <;> rfl

theorem passed_notifyOne (id : AcquireId) : s.notifyOne.passed id ⊆ s.passed id := by
  cases hw : s.availability.waiters with
  | nil =>
      rw [notifyOne_nil hw]
      exact Finset.Subset.refl _
  | cons first rest =>
      rw [notifyOne_cons hw]
      by_cases hid : id = first
      · subst hid
        rw [passed_moveTo_self]
        exact Finset.empty_subset _
      · rw [passed_moveTo_of_ne hid]
        exact Finset.Subset.refl _

-- A notification counts, unless one is stored already.
theorem beside_notifyOne (hs : s.Sound)
    (hroom : ¬ (s.availability.stored ∧ s.availability.waiters = [])) {calls : Finset AcquireId}
    (hc : ∀ id ∈ calls, (s.notifyOne.passed id).Nonempty) :
    s.beside calls + 1 ≤ s.notifyOne.beside calls := by
  cases hw : s.availability.waiters with
  | nil =>
      have hstored : s.availability.stored = false := by
        by_contra h
        exact hroom ⟨by simpa using h, hw⟩
      rw [notifyOne_nil hw]
      show (if s.availability.stored then 1 else 0) + _ + 1 ≤ 1 + (s.bearers \ calls).card
      rw [hstored, if_neg Bool.false_ne_true]
      omega
  | cons first rest =>
      obtain ⟨hwaiting, -⟩ := hs.head hw
      have hlt : first < s.count := hs.lt_count (by simp [hwaiting])
      rw [notifyOne_cons hw] at hc ⊢
      have hfirst : first ∉ calls := by
        intro hmem
        have hne := hc first hmem
        rw [passed_moveTo_self] at hne
        exact absurd hne (Finset.not_nonempty_empty)
      have hbearer : first ∉ s.bearers := by
        rw [mem_bearers, hwaiting]
        simp [AcquireState.Notified, AcquireState.scan?]
      have hinsert : ({ s with availability := { s.availability with waiters := rest } }.moveTo
          first (.told .one)).bearers = insert first s.bearers :=
        bearers_moveTo_insert hlt (.inl rfl)
      unfold beside
      rw [hinsert, Finset.insert_sdiff_of_notMem _ hfirst, Finset.card_insert_of_notMem]
      · exact (Nat.add_assoc ..).le
      · exact fun h => hbearer (Finset.mem_sdiff.mp h).1

end Telling

section Steps

variable {s t : SocketRunnerPool} {id : AcquireId}

theorem sound_loop (hs : s.Sound) (hlt : id < s.count) (hold : s.states id ≠ .waiting)
    (notified : Bool) : (s.loop id notified).Sound := by
  apply sound_moveTo hs hlt hold
  · simp
  · rintro scan ⟨⟩
    exact le_rfl
  · simp

theorem covered_loop (hs : s.Covered) {notified : Bool}
    (hnotified : (s.states id).Notified s.rounds → notified = true) :
    (s.loop id notified).Covered := by
  apply covered_moveTo hs
  · simp [AcquireState.passed, AcquireState.scan?]
  · intro h
    exact .inr ⟨_, rfl, hnotified h, rfl⟩

theorem acquireProcess_keeps (hs : s.Sound) (hc : s.Covered) :
    s.acquireProcess.Sound ∧ s.acquireProcess.Covered := by
  have hidle : s.states s.count = .idle := hs.fresh s.count le_rfl
  have hs' : ({ s with count := s.count + 1 } : SocketRunnerPool).Sound :=
    ⟨fun id hle => hs.fresh id (Nat.le_of_succ_le hle), hs.waiters, hs.nodup, hs.seen, hs.era⟩
  have hc' : ({ s with count := s.count + 1 } : SocketRunnerPool).Covered := by
    apply covered_mono hc
    · exact fun _ => le_rfl
    · exact fun _ => Finset.Subset.refl _
    · intro calls _
      apply beside_mono
      · exact fun h => h
      intro other _ hother
      rw [mem_bearers] at hother ⊢
      exact ⟨Nat.lt_succ_of_lt hother.1, hother.2⟩
  refine ⟨sound_loop hs' s.count.lt_succ_self (by simp [hidle]) false, covered_loop hc' ?_⟩
  simp [hidle, AcquireState.Notified, AcquireState.scan?]

theorem passed_of_scan {size rounds : Nat} {state : AcquireState} {scan : Scan}
    (h : state.scan? = some scan) :
    state.passed size rounds = if scan.seen = rounds then
      (Finset.range size).filter fun process =>
        ∃ offset < scan.offset, (scan.start + offset) % size = process
    else ∅ := by
  cases state
  case listing found | scanning found | ensured found | trying found era =>
    obtain rfl := Option.some.inj h
    rfl
  all_goals cases h

theorem notified_of_scan {rounds : Nat} {state other : AcquireState} {scan : Scan}
    (hstate : state.scan? = some scan) (hother : other.scan? = some scan)
    (h : state.Notified rounds) : other.Notified rounds := by
  obtain rfl | ⟨found, hfound, hnotified⟩ := h
  · cases hstate
  · obtain rfl := Option.some.inj (hfound.symm.trans hstate)
    exact .inr ⟨found, hother, hnotified⟩

theorem not_notified {rounds : Nat} {state : AcquireState} {scan : Scan}
    (hstate : state.scan? = some scan) (hne : scan.seen ≠ rounds) : ¬ state.Notified rounds := by
  rintro (rfl | ⟨found, hfound, -, hseen⟩)
  · cases hstate
  · obtain rfl := Option.some.inj (hfound.symm.trans hstate)
    exact hne hseen

-- A call that has tried every process has passed them all.
theorem passed_all {scan : Scan} (hstate : s.states id = .scanning scan)
    (hseen : scan.seen = s.rounds) (hall : ¬ scan.offset < s.poolSize) :
    s.passed id = Finset.range s.poolSize := by
  unfold passed
  rw [passed_of_scan (by rw [hstate]; rfl), if_pos hseen]
  apply Finset.filter_true_of_mem
  intro process hp
  rw [Finset.mem_range] at hp
  have hpos : 0 < s.poolSize := by omega
  refine ⟨(process + s.poolSize - scan.start % s.poolSize) % s.poolSize, ?_, ?_⟩
  · have hlt := Nat.mod_lt (process + s.poolSize - scan.start % s.poolSize) hpos
    omega
  · have hlt := Nat.mod_lt scan.start hpos
    rw [Nat.add_mod, Nat.mod_mod, ← Nat.add_mod]
    have heq : scan.start + (process + s.poolSize - scan.start % s.poolSize) =
        process + s.poolSize * (scan.start / s.poolSize + 1) := by
      have hdiv := Nat.div_add_mod scan.start s.poolSize
      rw [Nat.mul_add]
      omega
    rw [heq, Nat.add_mul_mod_self_left, Nat.mod_eq_of_lt hp]

theorem card_insert_sdiff {bearers calls : Finset AcquireId} (hid : id ∉ calls) :
    (insert id bearers \ calls).card = (bearers \ insert id calls).card + 1 := by
  have heq : insert id bearers \ calls = insert id (bearers \ insert id calls) := by
    ext other
    simp only [Finset.mem_sdiff, Finset.mem_insert]
    by_cases ho : other = id
    · subst ho
      simp [hid]
    · simp [ho]
  rw [heq, Finset.card_insert_of_notMem]
  simp

-- A call that has passed all processes may stand beside any others.
theorem passed_insert {calls : Finset AcquireId} {processes : Finset Nat}
    (hall : s.passed id = Finset.range s.poolSize) (hcalls : calls.Nonempty)
    (hformer : ∀ other ∈ calls, processes ⊆ s.passed other) :
    ∀ other ∈ insert id calls, processes ⊆ s.passed other := by
  intro other hother
  obtain rfl | hother := Finset.mem_insert.mp hother
  · obtain ⟨first, hfirst⟩ := hcalls
    rw [hall]
    exact (hformer first hfirst).trans (passed_subset_range first)
  · exact hformer other hother

-- A stored notification takes the place of one that the call may have had.
theorem covered_takeStored {scan : Scan} (hc : s.Covered) (hlt : id < s.count)
    (hstate : s.states id = .scanning scan) (hall : ¬ scan.offset < s.poolSize)
    (hstored : s.availability.stored = true) :
    ({ s with availability := { s.availability with stored := false } }.loop id true).Covered := by
  have hscan : (s.states id).scan? = some scan := by rw [hstate]; rfl
  refine covered_of hc ?_
  intro calls processes hcalls hne hpassed
  have hid : id ∉ calls := by
    intro hmem
    have hsub := hpassed id hmem
    rw [loop, passed_moveTo_self] at hsub
    have hempty := Finset.subset_empty.mp (hsub.trans (by simp [AcquireState.passed,
      AcquireState.scan?]))
    exact absurd hempty hne.ne_empty
  have hformer : ∀ other ∈ calls, processes ⊆ s.passed other := by
    intro other hother
    have hsub := hpassed other hother
    rwa [loop, passed_moveTo_of_ne (by rintro rfl; exact hid hother)] at hsub
  have hbearers : ({ s with availability := { s.availability with stored := false } }.loop id
      true).bearers = insert id s.bearers :=
    bearers_moveTo_insert hlt (.inr ⟨_, rfl, rfl, rfl⟩)
  have hbeside : ({ s with availability := { s.availability with stored := false } }.loop id
      true).beside calls = (s.bearers \ insert id calls).card + 1 := by
    unfold beside
    rw [hbearers, card_insert_sdiff hid]
    exact Nat.zero_add _
  have hformerly : ∀ former, s.beside former = 1 + (s.bearers \ former).card := by
    intro former
    unfold beside
    rw [if_pos hstored]
  by_cases hseen : scan.seen = s.rounds
  · have hinsert := passed_insert (passed_all hstate hseen hall) hcalls hformer
    refine ⟨insert id calls, processes, Finset.insert_nonempty _ _, hinsert, ?_⟩
    rw [hbeside, hformerly]
    show ∑ process ∈ processes, s.offered process + _ ≤ _
    omega
  · refine ⟨calls, processes, hcalls, hformer, ?_⟩
    have hbearer : id ∉ s.bearers := by
      rw [mem_bearers]
      exact fun h => not_notified hscan hseen h.2
    have hsdiff : s.bearers \ insert id calls = s.bearers \ calls := by
      rw [Finset.sdiff_insert, Finset.erase_eq_of_notMem]
      exact fun h => hbearer (Finset.mem_sdiff.mp h).1
    rw [hbeside, hformerly, hsdiff]
    show ∑ process ∈ processes, s.offered process + _ ≤ _
    omega

def wait (s : SocketRunnerPool) (id : AcquireId) : SocketRunnerPool :=
  { s with availability :=
      { s.availability with waiters := s.availability.waiters ++ [id] } }.moveTo id .waiting

theorem sound_wait {scan : Scan} (hs : s.Sound) (hlt : id < s.count)
    (hstate : s.states id = .scanning scan) : (s.wait id).Sound := by
  refine ⟨fun other hle => ?_, fun other => ?_, ?_, fun other found hfound => ?_,
    fun other found era htrying => ?_⟩
  · have hne : other ≠ id := by
      intro heq
      exact absurd (heq ▸ hle) (not_le.mpr hlt)
    rw [wait, states_moveTo, Function.update_of_ne hne]
    exact hs.fresh other hle
  · show other ∈ s.availability.waiters ++ [id] ↔ Function.update s.states id .waiting other = _
    rw [List.mem_append, hs.waiters, List.mem_singleton]
    by_cases ho : other = id
    · subst ho
      simp
    · rw [Function.update_of_ne ho]
      simp [ho]
  · show (s.availability.waiters ++ [id]).Nodup
    rw [List.nodup_append]
    refine ⟨hs.nodup, List.nodup_singleton id, ?_⟩
    rintro other hother _ hsingle rfl
    rw [List.mem_singleton.mp hsingle, hs.waiters, hstate] at hother
    cases hother
  · by_cases ho : other = id
    · subst ho
      simp [wait, AcquireState.scan?] at hfound
    · rw [wait, states_moveTo, Function.update_of_ne ho] at hfound
      exact hs.seen other found hfound
  · by_cases ho : other = id
    · subst ho
      simp [wait] at htrying
    · rw [wait, states_moveTo, Function.update_of_ne ho] at htrying
      exact hs.era other found era htrying

-- Whatever notification it had is of no use to the others.
theorem covered_wait {scan : Scan} (hc : s.Covered) (hstate : s.states id = .scanning scan)
    (hall : ¬ scan.offset < s.poolSize) (hseen : scan.seen = s.rounds) : (s.wait id).Covered := by
  refine covered_of hc ?_
  intro calls processes hcalls _ hpassed
  have hall' := passed_all hstate hseen hall
  have hformer : ∀ other ∈ calls, processes ⊆ s.passed other := by
    intro other hother
    have hsub := hpassed other hother
    by_cases ho : other = id
    · subst ho
      rw [hall']
      exact hsub.trans (passed_subset_range other)
    · rwa [wait, passed_moveTo_of_ne ho] at hsub
  refine ⟨insert id calls, processes, Finset.insert_nonempty _ _,
    passed_insert hall' hcalls hformer, ?_⟩
  apply Nat.add_le_add_left
  unfold beside wait
  rw [bearers_moveTo_erase (by simp [AcquireState.Notified, AcquireState.scan?])]
  apply Nat.add_le_add_left
  apply Finset.card_le_card
  intro other hother
  obtain ⟨hmem, hout⟩ := Finset.mem_sdiff.mp hother
  rw [Finset.mem_insert, not_or] at hout
  exact Finset.mem_sdiff.mpr ⟨Finset.mem_erase.mpr ⟨hout.1, hmem⟩, hout.2⟩

theorem awaitNotified_keeps {scan : Scan} (hs : s.Sound) (hc : s.Covered)
    (hstate : s.states id = .scanning scan) (hall : ¬ scan.offset < s.poolSize) :
    (s.awaitNotified id scan).Sound ∧ (s.awaitNotified id scan).Covered := by
  have hlt : id < s.count := hs.lt_count (by simp [hstate])
  have hscan : (s.states id).scan? = some scan := by rw [hstate]; rfl
  unfold awaitNotified
  split_ifs with hstored hseen
  · have hs' : ({ s with availability := { s.availability with stored := false } } :
        SocketRunnerPool).Sound := ⟨hs.fresh, hs.waiters, hs.nodup, hs.seen, hs.era⟩
    exact ⟨sound_loop hs' hlt (by simp [hstate]) true,
      covered_takeStored hc hlt hstate hall hstored⟩
  · refine ⟨sound_loop hs hlt (by simp [hstate]) false, covered_loop hc ?_⟩
    exact fun h => absurd h (not_notified hscan hseen)
  · exact ⟨sound_wait hs hlt hstate, covered_wait hc hstate hall (not_not.mp hseen)⟩

theorem sound_setPermits (hs : s.Sound) (process era : Nat) (permits : Permits) :
    (s.setPermits process era permits).Sound := ⟨hs.fresh, hs.waiters, hs.nodup, hs.seen, hs.era⟩

-- A call that leaves the pool.
theorem sound_leave (hs : s.Sound) (hold : s.states id ≠ .waiting) (hidle : s.states id ≠ .idle) :
    (s.moveTo id .returned).Sound := by
  apply sound_moveTo hs (hs.lt_count hidle) hold
  · simp
  · simp [AcquireState.scan?]
  · simp

-- A call that goes on with its scan.
theorem sound_scan (hs : s.Sound) {scan found : Scan} {state : AcquireState}
    (hscan : (s.states id).scan? = some scan) (hstate : state.scan? = some found)
    (hseen : found.seen = scan.seen)
    (hera : ∀ scan era, state = .trying scan era → scan.seen = s.rounds →
      era = s.era (s.index scan)) : (s.moveTo id state).Sound := by
  have hle := hs.seen id scan hscan
  apply sound_moveTo hs (hs.lt_count (by intro h; simp [h, AcquireState.scan?] at hscan))
  · intro h
    simp [h, AcquireState.scan?] at hscan
  · intro h
    simp [h, AcquireState.scan?] at hstate
  · intro other hother
    obtain rfl := Option.some.inj (hother.symm.trans hstate)
    rw [hseen]
    exact hle
  · exact hera

-- The process has no permit, not even one that is on its way back.
theorem covered_miss (hs : s.Sound) (hc : s.Covered) {scan : Scan} {era : Nat}
    (hstate : s.states id = .trying scan era)
    (hfree : (s.permits (s.index scan) era).free = 0)
    (hnone : scan.seen = s.rounds → (s.permits (s.index scan) era).dropping = 0) :
    (s.moveTo id (.scanning { scan with offset := scan.offset + 1 })).Covered := by
  have hscan : (s.states id).scan? = some scan := by rw [hstate]; rfl
  have hnotified : (AcquireState.scanning { scan with offset := scan.offset + 1 }).Notified
      s.rounds ↔ (s.states id).Notified s.rounds := by
    simp [hstate, AcquireState.Notified, AcquireState.scan?]
  by_cases hseen : scan.seen = s.rounds
  · have hoffered : s.offered (s.index scan) = 0 := by
      unfold offered free
      rw [← hs.era id scan era hstate hseen, hfree, hnone hseen]
    have hpassed : (s.moveTo id (.scanning { scan with offset := scan.offset + 1 })).passed id ⊆
        insert (s.index scan) (s.passed id) := by
      rw [passed_moveTo_self, passed, passed_of_scan rfl, passed_of_scan hscan, if_pos hseen,
        if_pos hseen]
      intro process hp
      obtain ⟨hrange, offset, hlt, hindex⟩ := Finset.mem_filter.mp hp
      obtain hlt | rfl := Nat.lt_or_eq_of_le (Nat.le_of_lt_succ hlt)
      · exact Finset.mem_insert_of_mem (Finset.mem_filter.mpr ⟨hrange, offset, hlt, hindex⟩)
      · exact Finset.mem_insert.mpr (.inl hindex.symm)
    apply covered_of hc
    intro calls processes hcalls _ hprocesses
    refine ⟨calls, processes.erase (s.index scan), hcalls, fun other hother => ?_, ?_⟩
    · intro process hp
      obtain ⟨hne, hmem⟩ := Finset.mem_erase.mp hp
      have hin := hprocesses other hother hmem
      by_cases ho : other = id
      · subst ho
        exact (Finset.mem_insert.mp (hpassed hin)).resolve_left hne
      · rwa [passed_moveTo_of_ne ho] at hin
    · rw [Finset.sum_erase _ hoffered]
      apply Nat.add_le_add_left
      unfold beside
      rw [bearers_moveTo_same hnotified]
      exact le_rfl
  · apply covered_moveTo hc
    · rw [passed_of_scan rfl, if_neg hseen]
      exact Finset.empty_subset _
    · exact hnotified.mpr

-- A call with a notification takes a permit for it. Whoever has passed a permit by now has
-- passed this process too.
theorem covered_take (hs : s.Sound) (hc : s.Covered) {scan : Scan} {era : Nat}
    (hstate : s.states id = .trying scan era)
    (hfree : 0 < (s.permits (s.index scan) era).free)
    (hothers : scan.seen = s.rounds → scan.notified →
      ∀ other < s.count, other ≠ id → s.Exposed other → s.index scan ∈ s.passed other)
    {permits : Permits} (hpermits : permits.free + 1 = (s.permits (s.index scan) era).free)
    (hdropping : permits.dropping = (s.permits (s.index scan) era).dropping) :
    ((s.setPermits (s.index scan) era permits).moveTo id .returned).Covered := by
  have hoffered : ∀ process,
      (s.setPermits (s.index scan) era permits).offered process ≤ s.offered process := by
    intro process
    rw [offered_setPermits]
    split_ifs with h
    · obtain ⟨rfl, rfl⟩ := h
      unfold offered free
      omega
    · exact le_rfl
  by_cases hnotified : (s.states id).Notified s.rounds
  · obtain h | ⟨found, hfound, hnot, hseen⟩ := hnotified
    · rw [hstate] at h
      cases h
    obtain rfl : scan = found := by
      rw [hstate] at hfound
      exact Option.some.inj hfound
    have hera := hs.era id scan era hstate hseen
    have hone : (s.setPermits (s.index scan) era permits).offered (s.index scan) + 1 =
        s.offered (s.index scan) := by
      rw [offered_setPermits, if_pos ⟨rfl, hera⟩]
      unfold offered free
      rw [← hera]
      omega
    intro calls processes hcalls hpassed
    have hprocesses : ∀ other ∈ calls, processes.Nonempty →
        other ≠ id ∧ processes ⊆ s.passed other := by
      intro other hother hne
      have hsub := hpassed other hother
      by_cases ho : other = id
      · subst ho
        rw [passed_moveTo_self] at hsub
        exact absurd (Finset.subset_empty.mp hsub) hne.ne_empty
      · rw [passed_moveTo_of_ne ho] at hsub
        exact ⟨ho, hsub⟩
    by_cases hsome : ∃ process ∈ processes, 0 < s.offered process
    · obtain ⟨process, hp, hpos⟩ := hsome
      have hinsert : ∀ other ∈ calls, insert (s.index scan) processes ⊆ s.passed other := by
        intro other hother
        obtain ⟨hne, hsub⟩ := hprocesses other hother ⟨process, hp⟩
        apply Finset.insert_subset _ hsub
        apply hothers hseen hnot other (hs.lt_of_passed ⟨process, hsub hp⟩) hne
        exact ⟨process, hsub hp, hpos⟩
      have hcovered := hc calls (insert (s.index scan) processes) hcalls hinsert
      have hsum := sum_succ (Finset.mem_insert_self (s.index scan) processes) hone (by
        intro other ho
        rw [offered_setPermits, if_neg fun h => ho h.1])
      have hsub := Finset.sum_le_sum_of_subset (f := (s.setPermits (s.index scan) era
        permits).offered) (Finset.subset_insert (s.index scan) processes)
      have hbeside : s.beside calls ≤
          ((s.setPermits (s.index scan) era permits).moveTo id .returned).beside calls + 1 :=
        beside_returned
      show ∑ process ∈ processes, (s.setPermits (s.index scan) era permits).offered process ≤ _
      omega
    · have hsum : ∑ process ∈ processes,
          (s.setPermits (s.index scan) era permits).offered process = 0 := by
        apply Finset.sum_eq_zero
        intro process hp
        have hle := hoffered process
        have hzero : ¬ 0 < s.offered process := fun hpos => hsome ⟨process, hp, hpos⟩
        omega
      exact hsum ▸ Nat.zero_le _
  · have hc' : (s.setPermits (s.index scan) era permits).Covered := by
      apply covered_mono hc hoffered
      · exact fun _ => Finset.Subset.refl _
      · exact fun _ _ => le_rfl
    apply covered_moveTo hc'
    · exact Finset.empty_subset _
    · exact fun h => absurd h hnotified

theorem tryAcquireOwned_keeps {scan : Scan} {era : Nat} (hs : s.Sound) (hc : s.Covered)
    (hstate : s.states id = .trying scan era) (ha : ¬ s.Astray (.act id)) :
    (s.tryAcquireOwned id scan era).Sound ∧ (s.tryAcquireOwned id scan era).Covered := by
  have hscan : (s.states id).scan? = some scan := by rw [hstate]; rfl
  have hright : ∀ other found, s.states id = .trying other found → other.seen = s.rounds →
      ¬ (if (s.permits (s.index other) found).free = 0 then
          0 < (s.permits (s.index other) found).dropping
        else other.notified ∧ ∃ one < s.count, one ≠ id ∧ s.Exposed one ∧
          s.index other ∉ s.passed one) := by
    intro other found hfound hseen hbad
    exact ha ⟨other, found, hfound, hseen, hbad⟩
  unfold tryAcquireOwned
  dsimp only
  split_ifs with hfree
  · refine ⟨?_, covered_take hs hc hstate hfree ?_ (by simp; omega) rfl⟩
    · apply sound_leave (sound_setPermits hs _ _ _)
      · simp [setPermits, hstate]
      · simp [setPermits, hstate]
    · intro hseen hnotified other hlt hne hexposed
      have hno := hright scan era hstate hseen
      rw [if_neg (Nat.ne_of_gt hfree)] at hno
      by_contra hout
      exact hno ⟨hnotified, other, hlt, hne, hexposed, hout⟩
  · have hzero : (s.permits (s.index scan) era).free = 0 := by omega
    refine ⟨sound_scan hs hscan rfl rfl (by simp), covered_miss hs hc hstate hzero ?_⟩
    intro hseen
    have hno := hright scan era hstate hseen
    rw [if_pos hzero] at hno
    omega

theorem passed_eq_empty {size rounds : Nat} {state : AcquireState} (hne : state ≠ .waiting)
    (hscan : ∀ scan, state.scan? = some scan → scan.seen ≠ rounds) :
    state.passed size rounds = ∅ := by
  cases h : state.scan? with
  | some scan => rw [passed_of_scan h, if_neg (hscan scan h)]
  | none =>
      cases state
      case waiting => exact absurd rfl hne
      case idle | told wake | returned => rfl
      all_goals cases h

-- Everybody waiting is told, and whoever scans the pool will do so again.
theorem respawn_keeps (hs : s.Sound) (process : Nat) :
    (s.respawn process).Sound ∧ ∀ id, (s.respawn process).passed id = ∅ := by
  have hstates : ∀ id, (s.respawn process).states id =
      if id ∈ s.availability.waiters then .told .all else s.states id := fun _ => rfl
  have hwaiting : ∀ id, (s.respawn process).states id ≠ .waiting := by
    intro id h
    rw [hstates] at h
    split_ifs at h with hmem
    exact hmem ((hs.waiters id).mpr h)
  have hseen : ∀ id scan, ((s.respawn process).states id).scan? = some scan →
      scan.seen ≤ s.rounds := by
    intro id scan h
    rw [hstates] at h
    split_ifs at h
    · cases h
    · exact hs.seen id scan h
  refine ⟨⟨fun id hle => ?_, fun id => ?_, List.nodup_nil, fun id scan h => ?_,
    fun id scan era h heq => ?_⟩, fun id => ?_⟩
  · have hmem : id ∉ s.availability.waiters := by
      rw [hs.waiters, hs.fresh id hle]
      simp
    rw [hstates, if_neg hmem]
    exact hs.fresh id hle
  · exact iff_of_false List.not_mem_nil (hwaiting id)
  · exact (hseen id scan h).trans (Nat.le_succ _)
  · have hle := hseen id scan (by rw [h]; rfl)
    exact absurd (heq ▸ hle) (Nat.not_succ_le_self _)
  · apply passed_eq_empty (hwaiting id)
    intro scan h heq
    exact absurd (heq ▸ hseen id scan h) (Nat.not_succ_le_self _)

theorem respawned_keeps {scan : Scan} (hs : s.Sound) (hstate : s.states id = .scanning scan) :
    ((s.respawn (s.index scan)).moveTo id (.ensured scan)).Sound ∧
      ((s.respawn (s.index scan)).moveTo id (.ensured scan)).Covered := by
  obtain ⟨hsound, hempty⟩ := respawn_keeps hs (s.index scan)
  have hafter : (s.respawn (s.index scan)).states id = .scanning scan := by
    have hmem : id ∉ s.availability.waiters := by
      rw [hs.waiters, hstate]
      simp
    show (if id ∈ s.availability.waiters then _ else s.states id) = _
    rw [if_neg hmem, hstate]
  have hscan : ((s.respawn (s.index scan)).states id).scan? = some scan := by rw [hafter]; rfl
  refine ⟨sound_scan hsound hscan rfl rfl (by simp), covered_of_passed_empty fun other => ?_⟩
  by_cases ho : other = id
  · subst ho
    rw [passed_moveTo_self, passed_of_scan rfl, ← passed_of_scan hscan]
    exact hempty other
  · rw [passed_moveTo_of_ne ho, hempty]

theorem giveUp_keeps (hs : s.Sound) (hc : s.Covered) (hold : s.states id ≠ .waiting)
    (hidle : s.states id ≠ .idle) (htold : s.states id ≠ .told .one) (ha : ¬ s.GivesUp id) :
    (s.moveTo id .returned).Sound ∧ (s.moveTo id .returned).Covered := by
  refine ⟨sound_leave hs hold hidle, ?_⟩
  by_cases hnotified : (s.states id).Notified s.rounds
  · apply covered_giveUp hs id
    · intro other hlt hne hexposed
      exact ha ⟨hnotified, fun h => absurd h htold, other, hlt, hne, hexposed⟩
    · rfl
    · rw [passed_moveTo_self]
      rfl
    · intro other
      by_cases ho : other = id
      · subst ho
        rw [passed_moveTo_self]
        exact Finset.empty_subset _
      · rw [passed_moveTo_of_ne ho]
  · apply covered_moveTo hc
    · exact Finset.empty_subset _
    · exact fun h => absurd h hnotified

theorem ensureProcess_keeps {outcome : Ensured} (hs : s.Sound) (hc : s.Covered)
    (ha : ¬ s.Astray (.ensureProcess id outcome)) (h : s.ensureProcess id outcome = some t) :
    t.Sound ∧ t.Covered := by
  unfold ensureProcess at h
  split at h
  case h_2 => cases h
  case h_1 scan hstate =>
    have hscan : (s.states id).scan? = some scan := by rw [hstate]; rfl
    obtain ⟨-, h⟩ := Option.ite_none_right_eq_some.mp h
    cases outcome with
    | running =>
        obtain rfl := Option.some.inj h
        refine ⟨sound_scan hs hscan rfl rfl (by simp), covered_moveTo hc ?_ ?_⟩
        · rw [passed, passed_of_scan rfl, passed_of_scan hscan]
        · exact notified_of_scan hscan rfl
    | respawned =>
        obtain rfl := Option.some.inj h
        exact respawned_keeps hs hstate
    | failed =>
        obtain rfl := Option.some.inj h
        apply giveUp_keeps hs hc
        · simp [hstate]
        · simp [hstate]
        · simp [hstate]
        · exact ha

-- A waiter that is dropped leaves the queue.
theorem unwait_keeps (hs : s.Sound) (hc : s.Covered) (hstate : s.states id = .waiting) :
    ({ s with availability := { s.availability with
        waiters := s.availability.waiters.erase id } }.moveTo id .returned).Sound ∧
      ({ s with availability := { s.availability with
        waiters := s.availability.waiters.erase id } }.moveTo id .returned).Covered := by
  have hlt : id < s.count := hs.lt_count (by simp [hstate])
  refine ⟨⟨fun other hle => ?_, fun other => ?_, hs.nodup.erase id, fun other found hfound => ?_,
    fun other found era htrying => ?_⟩, ?_⟩
  · have hne : other ≠ id := by
      intro heq
      exact absurd (heq ▸ hle) (not_le.mpr hlt)
    rw [states_moveTo, Function.update_of_ne hne]
    exact hs.fresh other hle
  · show other ∈ s.availability.waiters.erase id ↔ Function.update s.states id .returned other = _
    rw [hs.nodup.mem_erase_iff, hs.waiters]
    by_cases ho : other = id
    · subst ho
      simp
    · rw [Function.update_of_ne ho]
      exact and_iff_right ho
  · by_cases ho : other = id
    · subst ho
      simp [AcquireState.scan?] at hfound
    · rw [states_moveTo, Function.update_of_ne ho] at hfound
      exact hs.seen other found hfound
  · by_cases ho : other = id
    · subst ho
      simp at htrying
    · rw [states_moveTo, Function.update_of_ne ho] at htrying
      exact hs.era other found era htrying
  · have hc' : ({ s with availability := { s.availability with
        waiters := s.availability.waiters.erase id } } : SocketRunnerPool).Covered := hc
    apply covered_moveTo hc'
    · exact Finset.empty_subset _
    · simp [hstate, AcquireState.Notified, AcquireState.scan?]

-- A notification that its waiter has not looked at is handed on.
theorem handOn_keeps (hs : s.Sound) (hc : s.Covered) (hstate : s.states id = .told .one)
    (ha : ¬ s.GivesUp id) :
    (s.moveTo id .returned).notifyOne.Sound ∧ (s.moveTo id .returned).notifyOne.Covered := by
  have hs' : (s.moveTo id .returned).Sound :=
    sound_leave hs (by simp [hstate]) (by simp [hstate])
  have hpassed : ∀ other, (s.moveTo id .returned).passed other ⊆ s.passed other := by
    intro other
    by_cases ho : other = id
    · subst ho
      rw [passed_moveTo_self]
      exact Finset.empty_subset _
    · rw [passed_moveTo_of_ne ho]
  refine ⟨sound_notifyOne hs', ?_⟩
  by_cases hroom : s.availability.stored ∧ s.availability.waiters = []
  · apply covered_giveUp hs id
    · intro other hlt hne hexposed
      exact ha ⟨.inl hstate, fun _ => hroom, other, hlt, hne, hexposed⟩
    · exact offered_notifyOne
    · apply Finset.subset_empty.mp
      apply (passed_notifyOne id).trans
      rw [passed_moveTo_self]
      exact Finset.Subset.refl _
    · exact fun other => (passed_notifyOne other).trans (hpassed other)
  · apply covered_mono hc
    · intro process
      rw [offered_notifyOne]
      exact le_rfl
    · exact fun other => (passed_notifyOne other).trans (hpassed other)
    · intro calls hcalls
      have hone := beside_notifyOne hs' hroom hcalls
      exact beside_returned.trans hone

theorem cancel_keeps (hs : s.Sound) (hc : s.Covered) (ha : ¬ s.Astray (.cancel id))
    (h : s.cancel id = some t) : t.Sound ∧ t.Covered := by
  unfold cancel at h
  split at h
  case h_1 scan hstate | h_2 scan hstate | h_3 hstate =>
    obtain rfl := Option.some.inj h
    exact giveUp_keeps hs hc (by simp [hstate]) (by simp [hstate]) (by simp [hstate]) ha
  case h_4 scan hstate =>
    obtain ⟨-, h⟩ := Option.ite_none_right_eq_some.mp h
    obtain rfl := Option.some.inj h
    exact giveUp_keeps hs hc (by simp [hstate]) (by simp [hstate]) (by simp [hstate]) ha
  case h_5 hstate =>
    obtain rfl := Option.some.inj h
    exact unwait_keeps hs hc hstate
  case h_6 hstate =>
    obtain rfl := Option.some.inj h
    exact handOn_keeps hs hc hstate ha
  all_goals cases h

-- The permit that comes back brings a notification with it.
theorem covered_drop {process era : Nat} {permits : Permits} (hs : s.Sound) (hc : s.Covered)
    (hpermits : (s.permits process era).free + (s.permits process era).dropping + 1 =
      permits.free + permits.dropping)
    (ha : ¬ s.Astray (.drop process era)) :
    (s.setPermits process era permits).notifyOne.Covered := by
  have hs' := sound_setPermits hs process era permits
  apply covered_of hc
  intro calls processes hcalls hne hpassed
  have hformer : ∀ id ∈ calls, processes ⊆ s.passed id := by
    intro id hid
    exact (hpassed id hid).trans (passed_notifyOne id)
  refine ⟨calls, processes, hcalls, hformer, ?_⟩
  rw [offered_notifyOne]
  have hbeside : s.beside calls ≤ (s.setPermits process era permits).notifyOne.beside calls := by
    by_cases hroom : s.availability.stored ∧ s.availability.waiters = []
    · rw [notifyOne_nil (s := s.setPermits process era permits) hroom.2]
      apply beside_mono
      · exact fun _ => rfl
      · exact fun _ _ h => h
    · have hone := beside_notifyOne hs' hroom fun id hid => hne.mono (hpassed id hid)
      exact Nat.le_of_succ_le hone
  by_cases hp : process ∈ processes ∧ era = s.era process
  · obtain ⟨hmem, rfl⟩ := hp
    have hsum := sum_succ (f := s.offered)
      (g := (s.setPermits process (s.era process) permits).offered) hmem
      (by rw [offered_setPermits, if_pos ⟨rfl, rfl⟩]; exact hpermits)
      (fun other ho => by rw [offered_setPermits, if_neg fun h => ho h.1])
    -- Some call has passed the process, so that the notification does not go astray.
    have hroom : ¬ (s.availability.stored ∧ s.availability.waiters = []) := by
      intro hroom
      obtain ⟨first, hfirst⟩ := hcalls
      have hin := hformer first hfirst hmem
      exact ha ⟨rfl, hroom.1, hroom.2, first, hs.lt_of_passed ⟨process, hin⟩, hin⟩
    have hone : s.beside calls + 1 ≤
        (s.setPermits process (s.era process) permits).notifyOne.beside calls :=
      beside_notifyOne hs' hroom fun id hid => hne.mono (hpassed id hid)
    omega
  · have hsum : ∑ p ∈ processes, (s.setPermits process era permits).offered p =
        ∑ p ∈ processes, s.offered p := by
      apply Finset.sum_congr rfl
      intro other hother
      rw [offered_setPermits, if_neg]
      rintro ⟨rfl, hera⟩
      exact hp ⟨hother, hera⟩
    omega

theorem drop_keeps {process era : Nat} (hs : s.Sound) (hc : s.Covered)
    (ha : ¬ s.Astray (.drop process era)) (h : s.drop process era = some t) :
    t.Sound ∧ t.Covered := by
  unfold drop at h
  obtain ⟨hheld, h⟩ := Option.ite_none_right_eq_some.mp h
  obtain rfl := Option.some.inj h
  exact ⟨sound_notifyOne (sound_setPermits hs _ _ _), covered_drop hs hc (Nat.add_assoc _ _ _) ha⟩

theorem release_keeps {process era : Nat} (hs : s.Sound) (hc : s.Covered)
    (h : s.release process era = some t) : t.Sound ∧ t.Covered := by
  unfold release at h
  obtain ⟨hdropping, h⟩ := Option.ite_none_right_eq_some.mp h
  obtain rfl := Option.some.inj h
  refine ⟨sound_setPermits hs _ _ _, covered_mono hc ?_ ?_ ?_⟩
  · intro other
    rw [offered_setPermits]
    split_ifs with hp
    · obtain ⟨rfl, rfl⟩ := hp
      unfold offered free
      dsimp only
      omega
    · exact le_rfl
  · exact fun _ => Finset.Subset.refl _
  · exact fun _ _ => le_rfl

theorem act_keeps (hs : s.Sound) (hc : s.Covered) (ha : ¬ s.Astray (.act id))
    (h : s.act id = some t) : t.Sound ∧ t.Covered := by
  unfold act at h
  split at h
  case h_1 scan hstate =>
    have hscan : (s.states id).scan? = some scan := by rw [hstate]; rfl
    split_ifs at h with hsize
    · obtain rfl := Option.some.inj h
      refine ⟨sound_leave hs (by simp [hstate]) (by simp [hstate]), ?_⟩
      apply covered_of_passed_empty
      intro other
      have hsub := passed_subset_range (s := s.moveTo id .returned) other
      rw [show (s.moveTo id .returned).poolSize = 0 from hsize] at hsub
      exact Finset.subset_empty.mp hsub
    · obtain rfl := Option.some.inj h
      have hs' : ({ s with cursor := s.cursor + 1 } : SocketRunnerPool).Sound :=
        ⟨hs.fresh, hs.waiters, hs.nodup, hs.seen, hs.era⟩
      have hc' : ({ s with cursor := s.cursor + 1 } : SocketRunnerPool).Covered := hc
      refine ⟨sound_scan hs' hscan rfl rfl (by simp), covered_moveTo hc' ?_ ?_⟩
      · rw [passed_of_scan rfl]
        simp
      · simp [hstate, AcquireState.Notified, AcquireState.scan?]
  case h_2 scan hstate =>
    obtain ⟨hall, h⟩ := Option.ite_none_left_eq_some.mp h
    obtain rfl := Option.some.inj h
    exact awaitNotified_keeps hs hc hstate hall
  case h_3 scan hstate =>
    obtain rfl := Option.some.inj h
    have hscan : (s.states id).scan? = some scan := by rw [hstate]; rfl
    refine ⟨sound_scan hs hscan rfl rfl ?_, covered_moveTo hc ?_ ?_⟩
    · rintro _ _ ⟨⟩ _
      rfl
    · rw [passed, passed_of_scan rfl, passed_of_scan hscan]
    · exact notified_of_scan hscan rfl
  case h_4 scan era hstate =>
    obtain rfl := Option.some.inj h
    exact tryAcquireOwned_keeps hs hc hstate ha
  case h_5 wake hstate =>
    obtain rfl := Option.some.inj h
    refine ⟨sound_loop hs (hs.lt_count (by simp [hstate])) (by simp [hstate]) _,
      covered_loop hc ?_⟩
    rw [hstate]
    rintro (h | ⟨scan, hscan, -⟩)
    · simpa using h
    · cases hscan
  all_goals cases h

theorem step_keeps {event : PoolEvent} (hs : s.Sound) (hc : s.Covered) (ha : ¬ s.Astray event)
    (h : s.step event = some t) : t.Sound ∧ t.Covered := by
  cases event with
  | acquireProcess =>
      obtain rfl := Option.some.inj h
      exact acquireProcess_keeps hs hc
  | act id => exact act_keeps hs hc ha h
  | ensureProcess id outcome => exact ensureProcess_keeps hs hc ha h
  | cancel id => exact cancel_keeps hs hc ha h
  | drop process era => exact drop_keeps hs hc ha h
  | release process era => exact release_keeps hs hc h

end Steps

section Runs

variable {s : SocketRunnerPool} {id : AcquireId} {process : Nat}

theorem reachable_keeps (hr : Reachable (fun s event => ¬ s.Astray event) s) :
    s.Sound ∧ s.Covered := by
  obtain ⟨poolSize, maxInFlight, hr⟩ := hr
  induction hr with
  | refl =>
      refine ⟨⟨fun _ _ => rfl, fun _ => ?_, List.nodup_nil, ?_, ?_⟩, ?_⟩
      · exact iff_of_false List.not_mem_nil (by simp)
      · exact fun _ _ h => nomatch h
      · exact fun _ _ _ h => nomatch h
      · exact covered_of_passed_empty fun _ => rfl
  | tail _ hstep ih =>
      obtain ⟨event, ha, h⟩ := hstep
      exact step_keeps ih.1 ih.2 ha h

-- In a run in which no notification goes astray, no call waits in vain. What a call that waits
-- has passed is the whole pool, and it has no notification itself.
theorem pending_of_stuck (hr : Reachable (fun s event => ¬ s.Astray event) s)
    (hstuck : s.Stuck id process) : s.Pending := by
  obtain ⟨hwaiting, hprocess, hfree⟩ := hstuck
  obtain ⟨-, hc⟩ := reachable_keeps hr
  have hpassed : s.passed id = Finset.range s.poolSize := by
    unfold passed
    rw [hwaiting]
    rfl
  have hcovered := hc {id} (Finset.range s.poolSize) ⟨id, Finset.mem_singleton_self id⟩ (by
    intro other hother
    rw [Finset.mem_singleton.mp hother, hpassed])
  have hle : s.offered process ≤ ∑ p ∈ Finset.range s.poolSize, s.offered p :=
    Finset.single_le_sum (fun _ _ => Nat.zero_le _) (Finset.mem_range.mpr hprocess)
  have hpos : 0 < s.beside {id} := by
    have hoffered : s.free process ≤ s.offered process := Nat.le_add_right _ _
    omega
  by_cases hstored : s.availability.stored
  · exact .inl hstored
  · unfold beside at hpos
    rw [if_neg hstored, Nat.zero_add, Finset.card_pos] at hpos
    obtain ⟨other, hother⟩ := hpos
    exact .inr ⟨other, (mem_bearers.mp (Finset.mem_sdiff.mp hother).1).2⟩

end Runs

-- Many steps, each of which a test admits where it happens.

def run (ok : SocketRunnerPool → PoolEvent → Bool) :
    List PoolEvent → SocketRunnerPool → Option SocketRunnerPool
  | [], s => some s
  | event :: events, s => if ok s event then (s.step event).bind (run ok events) else none

theorem reachable_run {admits : SocketRunnerPool → PoolEvent → Prop}
    {ok : SocketRunnerPool → PoolEvent → Bool} {events : List PoolEvent} {s t : SocketRunnerPool}
    (hs : Reachable admits s) (hok : ∀ s event, ok s event = true → admits s event)
    (hr : run ok events s = some t) : Reachable admits t := by
  induction events generalizing s with
  | nil =>
      obtain rfl := Option.some.inj hr
      exact hs
  | cons event events ih =>
      obtain ⟨hevent, hr⟩ := Option.ite_none_right_eq_some.mp hr
      obtain ⟨mid, hmid, hrest⟩ := Option.bind_eq_some_iff.mp hr
      obtain ⟨poolSize, maxInFlight, hreach⟩ := hs
      apply ih _ hrest
      exact ⟨poolSize, maxInFlight, hreach.tail ⟨event, hok s event hevent, hmid⟩⟩

-- One process with one permit.

def onePermit : SocketRunnerPool := { poolSize := 1, maxInFlight := 1 }

def attempt (id : AcquireId) : List PoolEvent :=
  [.act id, .ensureProcess id .running, .act id, .act id]

-- Two calls wait for the permit, and one of them is told when it comes back.
def queued : List PoolEvent :=
  [.acquireProcess] ++ attempt 0 ++ [.acquireProcess] ++ attempt 1 ++ [.act 1, .acquireProcess] ++
    attempt 2 ++ [.act 2, .drop 0 0, .release 0 0]

theorem pending_of_stuck_queued : ∃ s : SocketRunnerPool, s.Stuck 2 0 ∧ s.Pending := by
  have hrun : ((run (fun s event => decide (¬ s.Astray event)) queued onePermit).map fun s =>
      decide (s.Stuck 2 0)) = some true := by
    decide +kernel
  obtain ⟨s, hs, htest⟩ := Option.map_eq_some_iff.mp hrun
  have hr : Reachable (fun s event => ¬ s.Astray event) s := reachable_run ⟨1, 1, .refl⟩
    (fun _ _ h => of_decide_eq_true h) hs
  have hstuck : s.Stuck 2 0 := of_decide_eq_true htest
  exact ⟨s, hstuck, pending_of_stuck hr hstuck⟩

-- The one that is told looks for the permit before it is released, and waits again.
def crossing : List PoolEvent :=
  [.acquireProcess] ++ attempt 0 ++ [.acquireProcess] ++ attempt 1 ++
    [.act 1, .drop 0 0, .act 1] ++ attempt 1 ++ [.act 1, .release 0 0]

def crossed : SocketRunnerPool := (run (fun _ _ => true) crossing onePermit).getD onePermit

theorem states_crossed : ∀ id, crossed.states id = .returned ∨ crossed.states id = .waiting ∨
    crossed.states id = .idle
  | 0 => .inl rfl
  | 1 => .inr (.inl rfl)
  | _ + 2 => .inr (.inr rfl)

theorem settled_crossed : crossed.Settled
  | 0, 0 => rfl
  | 0, _ + 1 => rfl
  | _ + 1, _ => rfl

theorem not_pending_crossed : ¬ crossed.Pending := by
  rintro (hstored | ⟨id, hnotified⟩)
  · cases hstored
  · obtain h | h | h := states_crossed id
    all_goals
      rw [h] at hnotified
      simp [AcquireState.Notified, AcquireState.scan?] at hnotified

theorem lost_wakeup : ¬ ∀ s, Reachable (fun _ _ => True) s → s.Settled →
    ∀ id process, s.Stuck id process → s.Pending := by
  intro h
  have hrun : run (fun _ _ => true) crossing onePermit = some crossed := rfl
  have hr : Reachable (fun _ _ => True) crossed :=
    reachable_run ⟨1, 1, .refl⟩ (fun _ _ _ => trivial) hrun
  exact not_pending_crossed (h crossed hr settled_crossed 1 0 ⟨rfl, by decide, by decide⟩)

end SocketRunnerPool

end Rrq.Runner
