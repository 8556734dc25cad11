import Mathlib.Data.Finset.Card
import Rrq.Worker.Recover.Revival
import Rrq.Worker.Recover.Theorems

-- What a sweep makes of the store when nothing disturbs it: the orphans are taken care of, and
-- everything else is as it was.

namespace Rrq.Recover

open Prog Store

-- A job that a dead worker has left in its active set, and that nobody has locked.
structure Abandoned (s : Store) (worker : WorkerId) (id : JobId) : Prop where
  dead : s.Lifeless worker
  tracked : id ∈ s.active worker
  free : s.locks id = none

-- The active set without a worker's name is passed by.
def Orphaned (s : Store) (id : JobId) : Prop := ∃ worker, worker ≠ "" ∧ Abandoned s worker id

-- A page that the scan comes to has the key.
def Visits (pages : Nat → Nat × List String) (key : String) : Nat → Nat → Prop
  | 0, _ => False
  | fuel + 1, cursor => key ∈ (pages cursor).2 ∨
      (pages cursor).1 ≠ 0 ∧ Visits pages key fuel (pages cursor).1

-- The stores that a sweep can see through: every hash and every lock can be read, the scan finds
-- every active set, and there is less to recover than a sweep may.
structure Sweepable (sweeper : RRQWorker) (pages : Nat → Nat × List String) (fuel : Nat)
    (s : Store) : Prop where
  readable : ∀ id, Readable sweeper s id
  locks : ∀ id, s.lock id ≠ some .malformed
  names : ∀ worker id, id ∈ s.active worker → startsWith worker ACTIVE_JOBS_PREFIX = false
  visits : ∀ worker id, id ∈ s.active worker →
    Visits pages (ACTIVE_JOBS_PREFIX ++ worker) fuel 0
  room : ∃ orphans : Finset JobId, orphans.card < MAX_RECOVERIES_PER_TICK ∧
    ∀ worker id, Abandoned s worker id → Unqueued sweeper s id → id ∈ orphans

-- Nothing about the job has changed.
structure Kept (id : JobId) (s t : Store) : Prop where
  record : SameRecord id s t
  tracked : ∀ worker, (t.active worker).score? id = (s.active worker).score? id

-- How far a sweep has come with the store, after so many recoveries.
structure Sweeping (sweeper : RRQWorker) (now : DateTime → Prop) (s : Store)
    (recovered : Nat) (t : Store) : Prop where
  rest : SameRest s t
  locks : t.locks = s.locks
  aside : ∀ worker, worker = "" ∨ ¬ s.Lifeless worker → t.active worker = s.active worker
  tracked : ∀ worker id, (t.active worker).score? id = (s.active worker).score? id ∨
    worker ≠ "" ∧ Abandoned s worker id ∧ id ∉ t.active worker
  jobs : ∀ id, Kept id s t ∨ Orphaned s id ∧ Resolved sweeper now id s t
  counted : ∃ done : Finset JobId, done.card = recovered ∧ ∀ id ∈ done,
    Orphaned s id ∧ Unqueued sweeper s id ∧ ¬ Unqueued sweeper t id

-- The active sets lose members at most.
def Shrinks (s t : Store) : Prop := ∀ worker id, id ∈ t.active worker → id ∈ s.active worker

-- The worker has no abandoned job left.
def Cleared (s : Store) (worker : WorkerId) (t : Store) : Prop :=
  ∀ id, Abandoned s worker id → id ∉ t.active worker

def Verdict.count : Verdict → Nat
  | .recovered => 1
  | _ => 0

section Steps

variable {self : RRQWorker} {now : DateTime → Prop} {pages : Nat → Nat × List String}
  {fuel recovered : Nat} {worker : WorkerId} {id : JobId} {s t u : Store}

theorem Shrinks.refl (s : Store) : Shrinks s s := fun _ _ h => h

theorem Shrinks.trans (hst : Shrinks s t) (htu : Shrinks t u) : Shrinks s u :=
  fun worker id h => hst worker id (htu worker id h)

theorem Cleared.shrinks (h : Cleared s worker t) (htu : Shrinks t u) : Cleared s worker u :=
  fun id habandoned hmem => h id habandoned (htu worker id hmem)

theorem Kept.refl (id : JobId) (s : Store) : Kept id s s := ⟨.refl id s, fun _ => rfl⟩

theorem Kept.trans (hst : Kept id s t) (htu : Kept id t u) : Kept id s u :=
  ⟨hst.record.trans htu.record, fun worker => (htu.tracked worker).trans (hst.tracked worker)⟩

theorem Drops.shrinks (h : Drops worker id s t) : Shrinks s t := by
  intro owner other hmem
  rw [h.active] at hmem
  by_cases howner : owner = worker
  · subst howner
    simp only [zremActive, setActive_active, Function.update_self, SortedSet.mem_erase] at hmem
    exact hmem.2
  · simpa [zremActive, howner] using hmem

theorem Drops.dropped (h : Drops worker id s t) : id ∉ t.active worker := by
  rw [h.active]
  simp [zremActive]

theorem Drops.score (h : Drops worker id s t) {owner : WorkerId} {other : JobId}
    (hne : owner = worker → other ≠ id) :
    (t.active owner).score? other = (s.active owner).score? other := by
  rw [h.active]
  by_cases howner : owner = worker
  · subst howner
    simp [zremActive, SortedSet.score?_erase_of_ne (hne rfl)]
  · simp [zremActive, howner]

theorem Drops.kept (h : Drops worker id s t) {other : JobId} (hne : other ≠ id) :
    Kept other s t :=
  ⟨h.others other hne, fun _ => h.score fun _ => hne⟩

namespace Sweeping

theorem start (s : Store) : Sweeping self now s 0 s where
  rest := rfl
  locks := rfl
  aside _ _ := rfl
  tracked _ _ := .inl rfl
  jobs id := .inl (.refl id s)
  counted := ⟨∅, rfl, fun id h => absurd h (Finset.notMem_empty id)⟩

theorem readable (h : Sweeping self now s recovered t) (hs : Readable self s id) :
    Readable self t id := by
  rcases h.jobs id with hkept | ⟨-, hresolved⟩
  · exact hs.congr hkept.record h.rest.clock
  · exact hresolved.readable hs h.rest.clock

theorem subset (h : Sweeping self now s recovered t) : Shrinks s t := by
  intro worker id hmem
  rcases h.tracked worker id with hscore | ⟨-, -, hout⟩
  · rwa [← SortedSet.isSome_score?, ← hscore, SortedSet.isSome_score?]
  · exact absurd hmem hout

theorem unqueued (h : Sweeping self now s recovered t) (ht : Unqueued self t id) :
    Unqueued self s id := by
  rcases h.jobs id with hkept | ⟨-, hresolved⟩
  · exact (unqueued_congr hkept.record).mp ht
  · exact absurd ht hresolved.not_unqueued

-- So the sweep does not come to its limit.
theorem limit (h : Sweeping self now s recovered t) (hs : Sweepable self pages fuel s) :
    recovered < MAX_RECOVERIES_PER_TICK := by
  obtain ⟨done, rfl, hdone⟩ := h.counted
  obtain ⟨orphans, hcard, horphans⟩ := hs.room
  refine (Finset.card_le_card fun id hid => ?_).trans_lt hcard
  obtain ⟨⟨worker, -, habandoned⟩, hunqueued, -⟩ := hdone id hid
  exact horphans worker id habandoned hunqueued

-- One job dropped from the active set of a dead worker.
theorem drop (h : Sweeping self now s recovered t) (hworker : worker ≠ "")
    (hjob : Abandoned s worker id) (hdrop : Drops worker id t u)
    (hresolved : Resolved self now id t u) {verdict : Verdict}
    (hv : verdict = .skipped ∨ verdict = .recovered ∧ Unqueued self t id) :
    Sweeping self now s (recovered + verdict.count) u where
  rest := h.rest.trans hdrop.rest
  locks := hdrop.locks.trans h.locks
  aside owner howner := by
    have hne : owner ≠ worker := by
      rintro rfl
      rcases howner with hnameless | halive
      · exact hworker hnameless
      · exact halive hjob.dead
    rw [hdrop.active, ← h.aside owner howner]
    simp [zremActive, hne]
  tracked owner other := by
    by_cases heq : owner = worker ∧ other = id
    · obtain ⟨rfl, rfl⟩ := heq
      exact .inr ⟨hworker, hjob, hdrop.dropped⟩
    · have hscore := @Drops.score worker id t u hdrop owner other fun howner hother =>
        heq ⟨howner, hother⟩
      rcases h.tracked owner other with hsame | ⟨hname, habandoned, hout⟩
      · exact .inl (hscore.trans hsame)
      · exact .inr ⟨hname, habandoned, fun hmem => hout (hdrop.shrinks owner other hmem)⟩
  jobs other := by
    by_cases hother : other = id
    · subst hother
      refine .inr ⟨⟨worker, hworker, hjob⟩, ?_⟩
      rcases h.jobs other with hkept | ⟨-, hbefore⟩
      · exact hresolved.of_left hkept.record
      · exact hbefore.trans hresolved
    · have hkept := hdrop.kept hother
      rcases h.jobs other with hbefore | ⟨horphaned, hbefore⟩
      · exact .inl (hbefore.trans hkept)
      · exact .inr ⟨horphaned, hbefore.of_right hkept.record⟩
  counted := by
    obtain ⟨done, hcard, hdone⟩ := h.counted
    have hafter : ∀ other ∈ done, Orphaned s other ∧ Unqueued self s other ∧
        ¬ Unqueued self u other := by
      intro other hmem
      obtain ⟨horphaned, hbefore, hqueued⟩ := hdone other hmem
      refine ⟨horphaned, hbefore, ?_⟩
      by_cases hother : other = id
      · rw [hother]
        exact hresolved.not_unqueued
      · rwa [unqueued_congr (hdrop.others other hother)]
    rcases hv with rfl | ⟨rfl, hunqueued⟩
    · exact ⟨done, hcard, hafter⟩
    · have hnew : id ∉ done := fun hmem => (hdone id hmem).2.2 hunqueued
      refine ⟨insert id done, by rw [Finset.card_insert_of_notMem hnew, hcard]; rfl, ?_⟩
      intro other hmem
      rcases Finset.mem_insert.mp hmem with rfl | hmem
      · exact ⟨⟨worker, hworker, hjob⟩, h.unqueued hunqueued, hresolved.not_unqueued⟩
      · exact hafter other hmem

end Sweeping

end Steps

section Loops

variable {self : RRQWorker} {oracle : Nat → Op → Chance} {pages : Nat → Nat × List String}
  {role : Role} {pid : Pid} {fuel recovered n : Nat} {worker : WorkerId} {id : JobId}
  {s : Store} {w : World}

-- Part of a sweep goes on with what it has recovered so far, and achieves its goal.
structure Passed (sweeper : RRQWorker) (now : DateTime → Prop) (s : Store)
    (goal : Store → Prop) (count : Nat) (before : Store) (after : World) : Prop where
  sweeping : Sweeping sweeper now s count after.store
  shrinks : Shrinks before after.store
  running : (after.mem sweeper.workerId).shutdown = false
  goal : goal after.store

abbrev PassEnds (self : RRQWorker) (oracle : Nat → Op → Chance) (role : Role) (pid : Pid)
    (s : Store) (goal : Store → Prop) (prog : Proc (Except RecoverError (Nat × Bool))) (n : Nat)
    (w : World) : Prop :=
  Prog.Ends (World.exec pid role) oracle (fun answer after =>
    ∃ count, answer = .ok (count, true) ∧
      Passed self (Reading oracle) s goal count w.store after) prog n w

theorem recoverJob_passes (ho : Undisturbed oracle pages) (hs : Sweepable self pages fuel s)
    (hw : Sweeping self (Reading oracle) s recovered w.store) (hworker : worker ≠ "")
    (hdead : s.Lifeless worker) (hid : id ∈ s.active worker)
    (hrunning : (w.mem self.workerId).shutdown = false) :
    Prog.Ends (World.exec pid role) oracle (fun answer after => ∃ verdict, answer = .ok verdict ∧
      (verdict = .skipped ∨ verdict = .recovered) ∧
      Passed self (Reading oracle) s (fun t => s.locks id = none → id ∉ t.active worker)
        (recovered + verdict.count) w.store after) (recoverJob self worker id) n w := by
  have hwell : w.store.lock id ≠ some .malformed := by
    rw [lock_congr (congrFun hw.locks id)]
    exact hs.locks id
  refine ends_mono (recoverJob_recovers ho hrunning (hw.readable (hs.readable id)) hwell) ?_
  rintro answer after ⟨hmem, verdict, rfl, hrecovers⟩
  have hstill : (after.mem self.workerId).shutdown = false := by rw [hmem, hrunning]
  unfold Recovers at hrecovers
  rw [hw.locks] at hrecovers
  split_ifs at hrecovers with hfree
  · obtain ⟨hdrop, hresolved, hv⟩ := hrecovers
    refine ⟨verdict, rfl, hv.imp_right And.left, ?_, hdrop.shrinks, hstill, fun _ => hdrop.dropped⟩
    exact hw.drop hworker ⟨hdead, hid, hfree⟩ hdrop hresolved hv
  · obtain ⟨hsame, rfl⟩ := hrecovers
    refine ⟨.skipped, rfl, .inl rfl, ?_, ?_, hstill, fun h => absurd h hfree⟩
    · rw [hsame]
      exact hw
    · rw [hsame]
      exact .refl _

theorem recoverIds_passes (ho : Undisturbed oracle pages) (hs : Sweepable self pages fuel s)
    (hworker : worker ≠ "") (hdead : s.Lifeless worker) (ids : List JobId)
    (hids : ∀ id ∈ ids, id ∈ s.active worker)
    (hw : Sweeping self (Reading oracle) s recovered w.store)
    (hrunning : (w.mem self.workerId).shutdown = false) :
    PassEnds self oracle role pid s
      (fun t => ∀ id ∈ ids, s.locks id = none → id ∉ t.active worker)
      (recoverIds self worker ids recovered) n w := by
  induction ids generalizing recovered n w with
  | nil => exact ends_ret ⟨recovered, rfl, hw, .refl _, hrunning, nofun⟩
  | cons head ids ih =>
      have hhead := hids head List.mem_cons_self
      refine ends_bind (recoverJob_passes ho hs hw hworker hdead hhead hrunning) ?_
      rintro answer k w₁ ⟨verdict, rfl, hv, hpassed⟩
      have hrest : PassEnds self oracle role pid s
          (fun t => ∀ id ∈ ids, s.locks id = none → id ∉ t.active worker)
          (recoverIds self worker ids (recovered + verdict.count)) k w₁ :=
        ih (fun id hid => hids id (List.mem_cons_of_mem _ hid)) hpassed.sweeping hpassed.running
      have hall : Prog.Ends (World.exec pid role) oracle (fun answer after =>
          ∃ count, answer = .ok (count, true) ∧ Passed self (Reading oracle) s
            (fun t => ∀ id ∈ head :: ids, s.locks id = none → id ∉ t.active worker)
            count w.store after)
          (recoverIds self worker ids (recovered + verdict.count)) k w₁ := by
        refine ends_mono hrest ?_
        rintro _ after ⟨count, rfl, hafter⟩
        refine ⟨count, rfl, hafter.sweeping, hpassed.shrinks.trans hafter.shrinks,
          hafter.running, fun id hid hfree hmem => ?_⟩
        rcases List.mem_cons.mp hid with rfl | hid
        · exact hpassed.goal hfree (hafter.shrinks worker id hmem)
        · exact hafter.goal id hid hfree hmem
      rcases hv with rfl | rfl
      · exact hall
      · have hlimit : recovered + 1 < MAX_RECOVERIES_PER_TICK := hpassed.sweeping.limit hs
        dsimp only
        rw [if_neg (not_le.mpr hlimit)]
        exact hall

-- The worker is asked for its health, and the answer says whether it is alive.
theorem healthTtl_alive (s : Store) (worker : WorkerId) :
    (((s.health worker).bind fun cell =>
      if 0 ≤ Cmd.ttl s cell then some (Cmd.ttl s cell) else none).any (0 < ·)) = true ↔
      ¬ s.Lifeless worker := by
  unfold Lifeless
  cases s.health worker with
  | none => simp
  | some cell =>
      by_cases hpos : 0 < Cmd.ttl s cell
      · have hanswer : 0 ≤ Cmd.ttl s cell := hpos.le
        simp [hanswer, hpos]
      · have hdead : Cmd.ttl s cell ≤ 0 := not_lt.mp hpos
        by_cases hanswer : 0 ≤ Cmd.ttl s cell
        · simp [hanswer, hdead]
        · simp [hanswer, hdead]

theorem sweepWorker_passes (ho : Undisturbed oracle pages) (hs : Sweepable self pages fuel s)
    (hworker : worker ≠ "") (hw : Sweeping self (Reading oracle) s recovered w.store)
    (hrunning : (w.mem self.workerId).shutdown = false) :
    PassEnds self oracle role pid s (Cleared s worker) (sweepWorker self worker recovered) n w := by
  refine ends_undisturbed ho fun page answer w₁ hexec hm₁ => ?_
  obtain ⟨rfl, hs₁⟩ := Prod.mk.injEq .. ▸ hexec
  have hw₁ : Sweeping self (Reading oracle) s recovered w₁.store := hs₁ ▸ hw
  have hrunning₁ : (w₁.mem self.workerId).shutdown = false := hm₁ ▸ hrunning
  have hlifeless : w.store.Lifeless worker ↔ s.Lifeless worker := hw.rest.clock.lifeless
  dsimp only
  split_ifs with halive
  · have hdead := (healthTtl_alive _ _).mp halive
    exact ends_ret ⟨recovered, rfl, hw₁, hs₁ ▸ .refl _, hrunning₁, fun id habandoned =>
      absurd (hlifeless.mpr habandoned.dead) hdead⟩
  · have hdead : s.Lifeless worker :=
      hlifeless.mp (not_not.mp fun hne => halive ((healthTtl_alive _ _).mpr hne))
    refine ends_undisturbed ho fun page answer w₂ hexec hm₂ => ?_
    obtain ⟨rfl, hs₂⟩ := Prod.mk.injEq .. ▸ hexec
    have hw₂ : Sweeping self (Reading oracle) s recovered w₂.store := hs₂ ▸ hw₁
    have hrunning₂ : (w₂.mem self.workerId).shutdown = false := hm₂ ▸ hrunning₁
    have hids : ∀ id ∈ (w₁.store.active worker).entries.map Prod.fst, id ∈ s.active worker :=
      fun id hid => hw₁.subset worker id hid
    refine ends_mono (recoverIds_passes ho hs hworker hdead _ hids hw₂ hrunning₂) ?_
    rintro _ after ⟨count, rfl, hafter⟩
    have hshrinks : Shrinks w.store after.store := by
      rw [hs₁, hs₂]
      exact hafter.shrinks
    refine ⟨count, rfl, hafter.sweeping, hshrinks, hafter.running, fun id habandoned hmem => ?_⟩
    have hlisted : id ∈ (w₁.store.active worker).entries.map Prod.fst := by
      rw [← hs₁]
      exact hshrinks worker id hmem
    exact hafter.goal id hlisted habandoned.free hmem

theorem sweepKeys_passes (ho : Undisturbed oracle pages) (hs : Sweepable self pages fuel s)
    (keys : List String) (hw : Sweeping self (Reading oracle) s recovered w.store)
    (hrunning : (w.mem self.workerId).shutdown = false) :
    PassEnds self oracle role pid s
      (fun t => ∀ key ∈ keys, ∀ worker, worker ≠ "" → Names worker key → Cleared s worker t)
      (sweepKeys self keys recovered) n w := by
  induction keys generalizing recovered n w with
  | nil => exact ends_ret ⟨recovered, rfl, hw, .refl _, hrunning, nofun⟩
  | cons head keys ih =>
      unfold sweepKeys
      dsimp only
      split_ifs with hskip
      · refine ends_mono (ih hw hrunning) ?_
        rintro _ after ⟨count, rfl, hafter⟩
        refine ⟨count, rfl, hafter.sweeping, hafter.shrinks, hafter.running, ?_⟩
        intro key hkey worker hworker hnames
        rcases List.mem_cons.mp hkey with rfl | hkey
        · simp [hnames.1, hnames.2, hworker] at hskip
        · exact hafter.goal key hkey worker hworker hnames
      · have hnamed : trimStartMatches head ACTIVE_JOBS_PREFIX ≠ "" := by
          intro hempty
          simp [hempty] at hskip
        refine ends_bind (sweepWorker_passes ho hs hnamed hw hrunning) ?_
        rintro answer k w₁ ⟨count, rfl, hpassed⟩
        refine ends_mono (ih hpassed.sweeping hpassed.running) ?_
        rintro _ after ⟨total, rfl, hafter⟩
        refine ⟨total, rfl, hafter.sweeping, hpassed.shrinks.trans hafter.shrinks,
          hafter.running, ?_⟩
        intro key hkey worker hworker hnames
        rcases List.mem_cons.mp hkey with rfl | hkey
        · obtain ⟨-, rfl⟩ := hnames
          exact hpassed.goal.shrinks hafter.shrinks
        · exact hafter.goal key hkey worker hworker hnames

theorem sweepPages_passes (ho : Undisturbed oracle pages) (hs : Sweepable self pages fuel s)
    (left cursor : Nat) (hw : Sweeping self (Reading oracle) s recovered w.store)
    (hrunning : (w.mem self.workerId).shutdown = false) :
    Prog.Ends (World.exec pid role) oracle (fun answer after => ∃ count, answer = .ok count ∧
      Passed self (Reading oracle) s
        (fun t => ∀ worker, worker ≠ "" → Lists pages worker left cursor → Cleared s worker t)
        count w.store after) (sweepPages self left cursor recovered) n w := by
  induction left generalizing cursor recovered n w with
  | zero => exact ends_ret ⟨recovered, rfl, hw, .refl _, hrunning, fun _ _ h => h.elim⟩
  | succ left ih =>
      refine ends_redis fun answer store w₁ hexec hs₁ hm₁ => ?_
      rw [ho.fault, ho.page] at hexec
      obtain ⟨rfl, rfl⟩ := Prod.mk.injEq .. ▸ hexec
      have hw₁ : Sweeping self (Reading oracle) s recovered w₁.store := hs₁ ▸ hw
      have hrunning₁ : (w₁.mem self.workerId).shutdown = false := hm₁ ▸ hrunning
      rcases hpage : pages cursor with ⟨next, keys⟩
      refine ends_bind (sweepKeys_passes ho hs keys hw₁ hrunning₁) ?_
      rintro answer k w₂ ⟨count, rfl, hpassed⟩
      rw [hs₁] at hpassed
      have hlists (worker : WorkerId) : Lists pages worker (left + 1) cursor ↔
          (∃ key ∈ keys, Names worker key) ∨ next ≠ 0 ∧ Lists pages worker left next := by
        simp only [Lists, hpage]
      dsimp only
      split_ifs with hlast
      · refine ends_ret ⟨count, rfl, hpassed.sweeping, hpassed.shrinks, hpassed.running, ?_⟩
        intro worker hworker hlisted
        rcases (hlists worker).mp hlisted with ⟨key, hkey, hnames⟩ | ⟨hnext, -⟩
        · exact hpassed.goal key hkey worker hworker hnames
        · exact absurd hlast hnext
      · refine ends_mono (ih next hpassed.sweeping hpassed.running) ?_
        rintro _ after ⟨total, rfl, hafter⟩
        refine ⟨total, rfl, hafter.sweeping, hpassed.shrinks.trans hafter.shrinks,
          hafter.running, ?_⟩
        intro worker hworker hlisted
        rcases (hlists worker).mp hlisted with ⟨key, hkey, hnames⟩ | ⟨-, hlater⟩
        · exact (hpassed.goal key hkey worker hworker hnames).shrinks hafter.shrinks
        · exact hafter.goal worker hworker hlater

end Loops

-- The key of an active set names its worker.

theorem trimStart_append {pattern text : List Char} (fuel : Nat)
    (h : pattern.isPrefixOf text = false) :
    trimStart pattern (fuel + 1) (pattern ++ text) = text := by
  have hpre : pattern.isPrefixOf (pattern ++ text) = true := by simp
  unfold trimStart
  rw [if_pos hpre, List.drop_left]
  cases fuel with
  | zero => rfl
  | succ fuel =>
      unfold trimStart
      rw [h, if_neg Bool.false_ne_true]

theorem names_key {worker : WorkerId} (h : startsWith worker ACTIVE_JOBS_PREFIX = false) :
    Names worker (ACTIVE_JOBS_PREFIX ++ worker) := by
  refine ⟨startsWith_append _ _, ?_⟩
  have hlength : (ACTIVE_JOBS_PREFIX ++ worker).length = worker.length + 15 + 1 := by
    rw [String.length_append, Nat.add_comm]
    rfl
  unfold trimStartMatches
  rw [hlength, String.toList_append, trimStart_append _ h, String.ofList_toList]

theorem Visits.lists {pages : Nat → Nat × List String} {worker : WorkerId}
    (h : startsWith worker ACTIVE_JOBS_PREFIX = false) {fuel cursor : Nat}
    (hv : Visits pages (ACTIVE_JOBS_PREFIX ++ worker) fuel cursor) :
    Lists pages worker fuel cursor := by
  induction fuel generalizing cursor with
  | zero => exact hv
  | succ fuel ih =>
      rcases hv with hkey | ⟨hnext, hlater⟩
      · exact .inl ⟨_, hkey, names_key h⟩
      · exact .inr ⟨hnext, ih hlater⟩

-- A whole sweep: the orphans leave the active sets of the dead workers, those that can be
-- executed are back in their queues, and nothing else has changed.
structure FullSweep (sweeper : RRQWorker) (now : DateTime → Prop) (s t : Store) : Prop where
  dropped : ∀ worker id, worker ≠ "" → Abandoned s worker id → id ∉ t.active worker
  revived : ∀ id job, Orphaned s id → Parses sweeper s id job → job.status.Live →
    Revived sweeper now id job s t ∧ t.locks id = none
  terminal : ∀ id, Orphaned s id → ¬ s.Live id → SameRecord id s t
  missing : ∀ id, s.hash id = none → t.hash id = none
  others : ∀ id, ¬ Orphaned s id → Kept id s t
  tracked : ∀ worker id, (t.active worker).score? id = (s.active worker).score? id ∨
    worker ≠ "" ∧ Abandoned s worker id
  healthy : ∀ worker, ¬ s.Lifeless worker → t.active worker = s.active worker
  locks : t.locks = s.locks
  rest : SameRest s t

section Whole

variable {self : RRQWorker} {now : DateTime → Prop} {recovered : Nat} {s t : Store}

theorem Sweeping.resolved (h : Sweeping self now s recovered t)
    (hcleared : ∀ worker id, worker ≠ "" → Abandoned s worker id → id ∉ t.active worker)
    {id : JobId} (horphaned : Orphaned s id) : Resolved self now id s t := by
  rcases h.jobs id with hkept | ⟨-, hresolved⟩
  · obtain ⟨worker, hworker, habandoned⟩ := horphaned
    have hout := hcleared worker id hworker habandoned
    rw [← SortedSet.isSome_score?, hkept.tracked, SortedSet.isSome_score?] at hout
    exact absurd habandoned.tracked hout
  · exact hresolved

theorem Sweeping.full (h : Sweeping self now s recovered t)
    (hcleared : ∀ worker id, worker ≠ "" → Abandoned s worker id → id ∉ t.active worker) :
    FullSweep self now s t where
  dropped := hcleared
  revived id job horphaned hparses hlive := by
    have hfree : t.locks id = none := by
      obtain ⟨_, -, habandoned⟩ := horphaned
      rw [h.locks, habandoned.free]
    cases h.resolved hcleared horphaned with
    | revived other hrevived =>
        obtain rfl := hparses.unique hrevived.parses
        exact ⟨hrevived, hfree⟩
    | left hdead _ => exact absurd (hparses.live.mpr hlive) hdead
  terminal id horphaned hdead := by
    cases h.resolved hcleared horphaned with
    | revived job hrevived => exact absurd hrevived.before hdead
    | left _ hsame => exact hsame
  missing id hmissing := by
    rcases h.jobs id with hkept | ⟨-, hresolved⟩
    · rw [hkept.record.hash, hmissing]
    · cases hresolved with
      | revived job hrevived =>
          obtain ⟨raw, hraw, -⟩ := hrevived.parses
          rw [hmissing] at hraw
          cases hraw
      | left _ hsame => rw [hsame.hash, hmissing]
  others id hother := (h.jobs id).resolve_right fun hresolved => hother hresolved.1
  tracked worker id := (h.tracked worker id).imp_right fun hgone => ⟨hgone.1, hgone.2.1⟩
  healthy worker halive := h.aside worker (.inr halive)
  locks := h.locks
  rest := h.rest

theorem FullSweep.mono (h : FullSweep self now s t) {later : DateTime → Prop}
    (hnow : ∀ time, now time → later time) : FullSweep self later s t where
  dropped := h.dropped
  revived id job horphaned hparses hlive :=
    (h.revived id job horphaned hparses hlive).imp_left fun hrevived => hrevived.mono hnow
  terminal := h.terminal
  missing := h.missing
  others := h.others
  tracked := h.tracked
  healthy := h.healthy
  locks := h.locks
  rest := h.rest

end Whole

section Clock

variable {self : RRQWorker} {oracle : Nat → Op → Chance} {pages : Nat → Nat × List String}
  {role : Role} {pid : Pid} {fuel : Nat} {w : World}

theorem sweeps_reading (ho : Undisturbed oracle pages)
    (hrunning : (w.mem self.workerId).shutdown = false) (hs : Sweepable self pages fuel w.store) :
    Prog.Ends (World.exec pid role) oracle (fun answer after =>
      (∃ count, answer = .ok count) ∧ FullSweep self (Reading oracle) w.store after.store)
      (recoverOrphanedJobs self fuel) 0 w := by
  refine ends_mono (sweepPages_passes ho hs fuel 0 (.start w.store) hrunning) ?_
  rintro answer after ⟨count, rfl, hpassed⟩
  refine ⟨⟨count, rfl⟩, hpassed.sweeping.full fun worker id hworker habandoned => ?_⟩
  have hname := hs.names worker id habandoned.tracked
  have hvisits := hs.visits worker id habandoned.tracked
  exact hpassed.goal worker hworker (hvisits.lists hname) id habandoned

-- The oracle as it is before a step, and then for ever as it was last.
def upTo (oracle : Nat → Op → Chance) (stop n : Nat) : Op → Chance := oracle (min n (stop - 1))

theorem Undisturbed.upTo (ho : Undisturbed oracle pages) (stop : Nat) :
    Undisturbed (upTo oracle stop) pages := ⟨fun _ c => ho.fault _ c, fun _ c => ho.page _ c⟩

theorem run_upTo {α : Type} (prog : Proc α) :
    run (World.exec pid role)
        (upTo oracle (run (World.exec pid role) oracle prog 0 w).2.1) prog 0 w =
      run (World.exec pid role) oracle prog 0 w := by
  apply run_congr
  intro n hn
  have hmin : min n ((run (World.exec pid role) oracle prog 0 w).2.1 - 1) = n := by omega
  unfold upTo
  rw [hmin]

end Clock

-- A job that was active when its worker died, and a scan that finds it.

def abandonedStore (worker : WorkerId) : Store :=
  (Store.empty.setJob "j" (some { value :=
    { id := some "j", status := some "ACTIVE", enqueueTime := some (.val ⟨0⟩) } })).zaddActive
      worker "j" 0

def abandonedPages (worker : WorkerId) (_ : Nat) : Nat × List String :=
  (0, [ACTIVE_JOBS_PREFIX ++ worker])

def abandonedOracle (worker : WorkerId) (_ : Nat) (_ : Op) : Chance :=
  { page := abandonedPages worker 0 }

theorem undisturbed_abandoned (worker : WorkerId) :
    Undisturbed (abandonedOracle worker) (abandonedPages worker) := ⟨fun _ _ => rfl, fun _ _ => rfl⟩

theorem abandoned_tracked {worker other : WorkerId} {id : JobId}
    (h : id ∈ (abandonedStore worker).active other) : other = worker := by
  by_contra hne
  simp [abandonedStore, zaddActive, hne, Store.empty] at h

theorem abandoned_hash {worker : WorkerId} {id : JobId} {h : JobHash}
    (hh : (abandonedStore worker).hash id = some h) :
    id = "j" ∧ h = { id := some "j", status := some "ACTIVE", enqueueTime := some (.val ⟨0⟩) } := by
  by_cases hid : id = "j"
  · subst hid
    exact ⟨rfl, (Option.some.inj hh).symm⟩
  · simp [abandonedStore, zaddActive, Store.hash, hid, Store.empty] at hh

theorem sweepable_abandoned {worker : WorkerId}
    (h : startsWith worker ACTIVE_JOBS_PREFIX = false) :
    Sweepable (.ofDefaults "w0") (abandonedPages worker) 1 (abandonedStore worker) where
  readable id raw hraw := by
    obtain ⟨rfl, rfl⟩ := abandoned_hash hraw
    have hpx : Store.empty.PxOk (360000 : Int) := by decide
    exact ⟨rfl, _, 360000, rfl, by decide, hpx⟩
  locks id := by simp [abandonedStore, zaddActive, Store.lock, Store.empty]
  names other id hmem := by
    rwa [abandoned_tracked hmem]
  visits other id hmem := by
    rw [abandoned_tracked hmem]
    exact .inl (List.mem_singleton.mpr rfl)
  room := by
    refine ⟨{"j"}, by decide, ?_⟩
    rintro other id - ⟨job, ⟨raw, hraw, -⟩, -⟩
    exact Finset.mem_singleton.mpr (abandoned_hash hraw).1

theorem abandoned_abandoned (worker : WorkerId) : Abandoned (abandonedStore worker) worker "j" where
  dead cell hcell := by cases hcell
  tracked := by simp [abandonedStore, zaddActive]
  free := rfl

-- What the clock shows at a step before the given one.
def ReadBefore (oracle : Nat → Op → Chance) (stop : Nat) (time : DateTime) : Prop :=
  ∃ n, n < stop ∧ (oracle n .utcNow).now = time

-- An undisturbed sweep returns, and it has then taken care of every orphan and of nothing else.
theorem recoverOrphanedJobs_full (self : RRQWorker) (pid : Pid) (fuel : Nat)
    (oracle : Nat → Op → Chance) (pages : Nat → Nat × List String) (w : World)
    (ho : Undisturbed oracle pages) (hrunning : (w.mem self.workerId).shutdown = false)
    (hs : Sweepable self pages fuel w.store) :
    (∃ count, (run (World.exec pid (.heartbeat self.workerId)) oracle
      (recoverOrphanedJobs self fuel) 0 w).1 = .ok count) ∧
    FullSweep self
      (ReadBefore oracle (run (World.exec pid (.heartbeat self.workerId)) oracle
        (recoverOrphanedJobs self fuel) 0 w).2.1)
      w.store (run (World.exec pid (.heartbeat self.workerId)) oracle
        (recoverOrphanedJobs self fuel) 0 w).2.2.store := by
  cases fuel with
  | zero =>
      refine ⟨⟨0, rfl⟩, (Sweeping.start w.store).full fun worker id _ habandoned => ?_⟩
      exact (hs.visits worker id habandoned.tracked).elim
  | succ fuel =>
      have hpos : 0 < (run (World.exec pid (.heartbeat self.workerId)) oracle
          (recoverOrphanedJobs self (fuel + 1)) 0 w).2.1 := le_run _ oracle _ 1 _
      have hsame := @run_upTo oracle (.heartbeat self.workerId) pid w _
        (recoverOrphanedJobs self (fuel + 1))
      have hends := @sweeps_reading self _ pages (.heartbeat self.workerId) pid (fuel + 1) w
        (ho.upTo (run (World.exec pid (.heartbeat self.workerId)) oracle
          (recoverOrphanedJobs self (fuel + 1)) 0 w).2.1) hrunning hs
      unfold Prog.Ends at hends
      rw [hsame] at hends
      refine ⟨hends.1, hends.2.mono ?_⟩
      rintro time ⟨n, htime⟩
      exact ⟨_, by omega, htime⟩

theorem recoverOrphanedJobs_full_abandoned :
    "j" ∈ (run (World.exec 0 (.heartbeat "w0")) (abandonedOracle "w1")
      (recoverOrphanedJobs (.ofDefaults "w0") 1) 0
        (.ofStore (abandonedStore "w1"))).2.2.store.queues "rrq:queue:default" ∧
    "j" ∉ (run (World.exec 0 (.heartbeat "w0")) (abandonedOracle "w1")
      (recoverOrphanedJobs (.ofDefaults "w0") 1) 0
        (.ofStore (abandonedStore "w1"))).2.2.store.active "w1" := by
  obtain ⟨-, hfull⟩ := recoverOrphanedJobs_full (.ofDefaults "w0") 0 1 (abandonedOracle "w1")
    (abandonedPages "w1") (.ofStore (abandonedStore "w1")) (undisturbed_abandoned "w1") rfl
    (sweepable_abandoned (by decide))
  have hlost := abandoned_abandoned "w1"
  constructor
  · exact (hfull.revived "j" _ ⟨"w1", by decide, hlost⟩ ⟨_, rfl, rfl⟩ (by decide)).1.queued
  · exact hfull.dropped "w1" "j" (by decide) hlost

-- What a worker without a name has left behind stays where it is.
theorem recoverOrphanedJobs_skips_nameless : ¬ ∀ (self : RRQWorker) (pid : Pid) (fuel : Nat)
    (oracle : Nat → Op → Chance) (pages : Nat → Nat × List String) (w : World),
    Undisturbed oracle pages → (w.mem self.workerId).shutdown = false →
    Sweepable self pages fuel w.store → ∀ worker id, Abandoned w.store worker id →
      id ∉ (run (World.exec pid (.heartbeat self.workerId)) oracle
        (recoverOrphanedJobs self fuel) 0 w).2.2.store.active worker := by
  intro h
  refine h (.ofDefaults "w0") 0 1 (abandonedOracle "") (abandonedPages "")
    (.ofStore (abandonedStore "")) (undisturbed_abandoned "") rfl
    (sweepable_abandoned (by decide)) "" "j" (abandoned_abandoned "") ?_
  decide +kernel

end Rrq.Recover
