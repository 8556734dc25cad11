import Rrq.Redis.SortedSet.Ahead
import Rrq.Redis.Stages
import Rrq.Store.Claiming
import Rrq.Store.Outcome
import Rrq.Store.SameJob

-- The order in which claims serve the jobs of a queue.

namespace Rrq.Store

open Script Scripts
open SortedSet (Before mem_ahead)

-- Two stores agree on a job, on its lock and on its entries in the queues.
structure SameEntry (id : JobId) (s t : Store) : Prop where
  cell : t.jobs id = s.jobs id
  lock : t.locks id = s.locks id
  score : ∀ queue, (t.queues queue).score? id = (s.queues queue).score? id

namespace SameEntry

variable {id other : JobId} {s t u : Store}

theorem refl (id : JobId) (s : Store) : SameEntry id s s := ⟨rfl, rfl, fun _ => rfl⟩

theorem trans (hst : SameEntry id s t) (htu : SameEntry id t u) : SameEntry id s u where
  cell := htu.cell.trans hst.cell
  lock := htu.lock.trans hst.lock
  score queue := (htu.score queue).trans (hst.score queue)

theorem of_sameJob (h : SameJob id s t) (hq : t.queues = s.queues) : SameEntry id s t :=
  ⟨h.cell, h.lock, fun queue => by rw [hq]⟩

theorem mem (h : SameEntry id s t) {queue : QueueKey} :
    id ∈ t.queues queue ↔ id ∈ s.queues queue := by
  rw [← SortedSet.isSome_score?, ← SortedSet.isSome_score?, h.score]

theorem zadd (hne : id ≠ other) (s : Store) (queue : QueueKey) (score : ℚ) :
    SameEntry id s (s.zadd queue other score) := by
  refine ⟨rfl, rfl, fun name => ?_⟩
  by_cases hn : name = queue
  · subst hn
    simp [Store.zadd, SortedSet.score?_insert_of_ne hne]
  · simp [Store.zadd, hn]

theorem zrem (hne : id ≠ other) (s : Store) (queue : QueueKey) :
    SameEntry id s (s.zrem queue other) := by
  refine ⟨rfl, rfl, fun name => ?_⟩
  by_cases hn : name = queue
  · subst hn
    simp [Store.zrem, SortedSet.score?_erase_of_ne hne]
  · simp [Store.zrem, hn]

end SameEntry

theorem frame_sameEntry (id : JobId) : Frame (fun _ => True) (id ≠ ·) (SameEntry id) where
  refl := .refl id
  trans _ _ _ := SameEntry.trans
  define _ s other fields hne := .of_sameJob (sameJob_hset hne s fields)
    (samePlaces_hset s other fields).queues
  hset _ s other fields hne _ := .of_sameJob (sameJob_hset hne s fields)
    (samePlaces_hset s other fields).queues
  hdel _ s other fields hne _ := .of_sameJob (sameJob_hdel hne s fields)
    (samePlaces_hdel s other fields).queues
  expireJob _ s other seconds hne := .of_sameJob (sameJob_expireJob hne s seconds)
    (sameStatus_expireJob s other seconds).places.queues
  persistJob _ s other hne := .of_sameJob (sameJob_persistJob hne s)
    (sameStatus_persistJob s other).places.queues
  zadd _ s queue _ score hne := .zadd hne s queue score
  zrem _ s queue _ hne := .zrem hne s queue
  zaddActive _ _ _ _ _ _ := ⟨rfl, rfl, fun _ => rfl⟩
  zremActive _ _ _ _ _ := ⟨rfl, rfl, fun _ => rfl⟩
  setLock _ s _ cell hne _ := .of_sameJob (sameJob_setLock hne s cell) rfl
  lpush _ _ _ _ _ := ⟨rfl, rfl, fun _ => rfl⟩
  setHealth _ _ _ _ := ⟨rfl, rfl, fun _ => rfl⟩
  setEvents _ _ _ := ⟨rfl, rfl, fun _ => rfl⟩
  setUniqueLock _ _ _ _ := ⟨rfl, rfl, fun _ => rfl⟩
  setIdempotency _ _ _ := ⟨rfl, rfl, fun _ => rfl⟩
  setRateLimit _ _ _ := ⟨rfl, rfl, fun _ => rfl⟩
  setDebounce _ _ _ := ⟨rfl, rfl, fun _ => rfl⟩

-- A candidate that nobody holds leaves the queue, unless the script stops at it.
theorem claimOne_completes (args : ClaimArgs) (id : JobId) :
    Completes (fun s => s.locks id = none) (fun _ t => id ∉ t.queues args.queueKey)
      (claimOne args id) := by
  have hrem : ∀ s : Store, id ∉ (s.zrem args.queueKey id).queues args.queueKey := by
    intro s
    simp [zrem]
  unfold claimOne
  refine .bind _ (.ask _) fun present => .ite (fun _ => ?_) fun _ => ?_
  · refine .bind _ (.ask _) fun seconds => ?_
    refine .bind (fun lockOk _ => lockOk = true) (.call ?_) fun lockOk => .ite ?_ ?_
    · rintro s lockOk t heq ⟨⟨hfree, -⟩, -⟩
      unfold setLockNx at heq
      split_ifs at heq with hpx hheld
      · rw [hfree] at hheld
        cases hheld
      · exact (Prod.mk.inj (Option.some.inj heq)).1.symm
    · intro _
      refine .bind (fun _ t => id ∉ t.queues args.queueKey) (.call ?_) fun removed => ?_
      · intro s removed t heq _
        obtain ⟨-, rfl⟩ := Prod.mk.inj (Option.some.inj heq)
        exact hrem s
      · refine .ite (fun _ => ?_) fun _ => ?_
        · refine .bind _ (.write (fun t => id ∉ t.queues args.queueKey) fun s hs => ?_)
            fun _ => .bind _ (.write _ fun s hs => hs) fun _ => .pure fun s hs => hs
          rwa [(samePlaces_hset s id _).queues]
        · exact .bind _ (.write _ fun s hs => hs) fun _ => .pure fun s hs => hs
    · intro hlock
      exact .pure fun s hs => absurd hs hlock
  · exact .bind _ (.write _ fun s _ => hrem s) fun _ => .pure fun s hs => hs

-- The job of an entry waits in the queue: it is there, and nobody holds it.
structure Waits (queue : QueueKey) (entry : JobId × ℚ) (s : Store) : Prop where
  listed : entry ∈ (s.queues queue).entries
  claimable : s.Claimable entry.1

section Claim

variable {args : ClaimArgs} {s t : Store} {entry other : JobId × ℚ}

theorem Waits.mem {queue : QueueKey} (h : s.Waits queue entry) : entry.1 ∈ s.queues queue :=
  SortedSet.mem_def.mpr ⟨entry.2, h.listed⟩

theorem Waits.of_same {queue : QueueKey} (h : s.Waits queue entry) (hs : SameEntry entry.1 s t) :
    t.Waits queue entry where
  listed := by
    rw [← SortedSet.score?_eq_some, hs.score, SortedSet.score?_eq_some]
    exact h.listed
  claimable := by
    unfold Claimable
    rw [hs.cell, hs.lock]
    exact h.claimable

theorem sameEntry_claimOne (args : ClaimArgs) {id name : JobId} (hne : id ≠ name)
    (budget : Budget) (s : Store) : SameEntry name s (claimOne args id budget s).2 :=
  (frame_sameEntry name).keeps_claimOne hne.symm s trivial trivial trivial trivial args budget s
    (.refl _ s)

theorem sameEntry_claimEach (args : ClaimArgs) {id : JobId} {candidates : List JobId}
    (hid : id ∉ candidates) (claimed : List JobId) (budget : Budget) (s : Store) :
    SameEntry id s (claimEach args candidates claimed budget s).2 :=
  (frame_sameEntry id).keeps_claimEach trivial trivial trivial trivial s args
    (fun _ hother he => hid (he ▸ hother)) claimed budget s (.refl _ s)

-- While a job waits, the loop takes only candidates that are listed before it.
theorem claimEach_passes {candidates claimed : List JobId} (hnodup : candidates.Nodup)
    {budget : Budget} (hs : s.Waits args.queueKey entry)
    (ht : (claimEach args candidates claimed budget s).2.Waits args.queueKey entry) {id : JobId}
    (hin : id ∈ s.queues args.queueKey)
    (hout : id ∉ (claimEach args candidates claimed budget s).2.queues args.queueKey) :
    id ∈ candidates.takeWhile (· ≠ entry.1) := by
  induction candidates generalizing claimed budget s with
  | nil => exact absurd hin hout
  | cons head candidates ih =>
      obtain ⟨hhead, hrest⟩ := List.nodup_cons.mp hnodup
      unfold claimEach at ht hout
      by_cases hfull : args.maxClaims ≤ claimed.length
      · rw [if_pos hfull] at hout
        exact absurd hin hout
      rw [if_neg hfull] at ht hout
      change (Script.bind (claimOne args head) _ budget s).2.Waits _ _ at ht
      change id ∉ (Script.bind (claimOne args head) _ budget s).2.queues _ at hout
      unfold Script.bind at ht hout
      have hother : id ≠ head → id ∈ (claimOne args head budget s).2.queues args.queueKey := by
        intro hne
        exact (sameEntry_claimOne args hne.symm budget s).mem.mpr hin
      by_cases hstop : head = entry.1
      · exfalso
        split at hout
        · rename_i mid hfirst
          have hkept : id = head := by
            by_contra hne
            have hstay := hother hne
            rw [hfirst] at hstay
            exact hout hstay
          rw [hfirst] at ht
          exact hout (hkept ▸ hstop ▸ ht.mem)
        · rename_i taken rest mid hfirst
          rw [hfirst] at ht
          have hgone := claimOne_completes args head budget s taken rest mid
            (hstop ▸ hs.claimable.2) hfirst
          have hsame := sameEntry_claimEach args hhead
            (if taken then claimed ++ [head] else claimed) rest mid
          exact hgone (hsame.mem.mp (hstop ▸ ht.mem))
      · rw [List.takeWhile_cons_of_pos (by simpa using hstop)]
        by_cases hne : id = head
        · exact hne ▸ List.mem_cons_self
        have hstay := hother hne
        have hwaits := hs.of_same (sameEntry_claimOne args hstop budget s)
        split at hout
        · rename_i mid hfirst
          rw [hfirst] at hstay
          exact absurd hstay hout
        · rename_i taken rest mid hfirst
          rw [hfirst] at ht hstay hwaits
          exact List.mem_cons_of_mem _ (ih hrest hwaits ht hstay hout)

-- A claim that has something to do goes through the candidates of its window.
theorem claimReady_each (args : ClaimArgs) (hmax : 0 < args.maxClaims)
    (hdefault : 0 < args.defaultLockTimeoutMs) (budget : Budget) (s : Store) :
    claimReady args budget s = (none, s) ∨
      ∃ rest, claimReady args budget s = claimEach args (window args s) [] rest s := by
  unfold claimReady
  rw [if_neg (by omega), if_neg (by omega)]
  cases budget with
  | none => exact .inr ⟨none, rfl⟩
  | some calls =>
      cases calls with
      | zero => exact .inl rfl
      | succ calls => exact .inr ⟨some calls, rfl⟩

-- What a claim takes out of the queue while a job waits stands before that job.
theorem claimReady_passes {budget : Budget} (hs : s.Waits args.queueKey entry)
    (ht : (claimReady args budget s).2.Waits args.queueKey entry)
    (hin : other ∈ (s.queues args.queueKey).entries)
    (hout : other.1 ∉ (claimReady args budget s).2.queues args.queueKey) : Before other entry := by
  have hmem : other.1 ∈ s.queues args.queueKey := SortedSet.mem_def.mpr ⟨other.2, hin⟩
  by_cases hidle : args.maxClaims = 0 ∨ args.defaultLockTimeoutMs ≤ 0
  · have hsame : (claimReady args budget s).2 = s := by
      unfold claimReady
      rcases hidle with hzero | hzero
      · rw [if_pos hzero]
        rfl
      · split_ifs <;> rfl
    rw [hsame] at hout
    exact absurd hmem hout
  obtain ⟨hmax, hdefault⟩ := not_or.mp hidle
  obtain hsame | ⟨rest, hrest⟩ := claimReady_each args (by omega) (by omega) budget s
  · rw [hsame] at hout
    exact absurd hmem hout
  · rw [hrest] at ht hout
    have hlisted := claimEach_passes (SortedSet.nodup_upTo _ _ _) hs ht hmem hout
    exact SortedSet.before_of_mem_takeWhile hin hs.listed hlisted

-- A claim that comes to its end takes something, if a job waits whose time has come and nothing
-- that stands before it is held.
theorem claimReady_takes {budget rest : Budget} {ids : List JobId}
    (hrun : claimReady args budget s = (some (ids, rest), t)) (hmax : 0 < args.maxClaims)
    (hdefault : 0 < args.defaultLockTimeoutMs) (hs : s.Waits args.queueKey entry)
    (hdue : entry.2 ≤ args.nowMs)
    (hclear : ∀ first ∈ (s.queues args.queueKey).ahead entry, s.locks first.1 = none) :
    ∃ first ∈ (s.queues args.queueKey).entries, first.1 ∉ t.queues args.queueKey := by
  have hlimit : 0 < max (args.maxClaims * 4) args.maxClaims := by omega
  obtain ⟨head, candidates, hlist⟩ := SortedSet.exists_head_upTo hs.listed hdue hlimit
  have hwindow : window args s = head :: candidates := hlist
  have hhead : head ∈ window args s := hwindow ▸ List.mem_cons_self
  obtain ⟨score, hscore⟩ := SortedSet.mem_def.mp (SortedSet.mem_of_mem_upTo hhead)
  have hnodup : (window args s).Nodup := SortedSet.nodup_upTo _ _ _
  obtain ⟨hnot, -⟩ := List.nodup_cons.mp (hwindow ▸ hnodup)
  -- the first candidate is the job itself, or stands before it
  have hfree : s.locks head = none := by
    by_cases hne : head = entry.1
    · exact hne ▸ hs.claimable.2
    · have hfirst : head ∈ (window args s).takeWhile (· ≠ entry.1) := by
        rw [hwindow, List.takeWhile_cons_of_pos (by simpa using hne)]
        exact List.mem_cons_self
      have hbefore := SortedSet.before_of_mem_takeWhile hscore hs.listed hfirst
      exact hclear (head, score) (mem_ahead.mpr ⟨hscore, hbefore⟩)
  refine ⟨(head, score), hscore, ?_⟩
  obtain hnone | ⟨first, hfirst⟩ := claimReady_each args hmax hdefault budget s
  · rw [hnone] at hrun
    cases hrun
  rw [hfirst, hwindow] at hrun
  unfold claimEach at hrun
  rw [if_neg (by simpa using hmax.ne')] at hrun
  change Script.bind (claimOne args head) _ first s = _ at hrun
  unfold Script.bind at hrun
  split at hrun
  · cases hrun
  · rename_i taken left mid hone
    have hgone := claimOne_completes args head first s taken left mid hfree hone
    have hsame := sameEntry_claimEach args hnot (if taken then [] ++ [head] else []) left mid
    dsimp only at hrun
    rw [hrun] at hsame
    exact fun hin => hgone (hsame.mem.mp hin)

-- The same of the command, whatever befalls it.

variable {fault : Fault} {page : Nat × List String}

theorem atomicClaimReadyJobs_run (args : ClaimArgs) (fault : Fault) (page : Nat × List String)
    (s : Store) : (Cmd.atomicClaimReadyJobs args).exec fault page s = (.error .failed, s) ∨
      ∃ budget, (Cmd.atomicClaimReadyJobs args).exec fault page s =
        (((claimReady args).run budget s).1.elim (.error .failed) .ok,
          ((claimReady args).run budget s).2) := by
  have hanswer : ∀ result : Option (List JobId),
      ((result.map fun value => (Except.ok (id value) : Except RedisError (List JobId))).getD
        (.error .failed)) = result.elim (.error .failed) .ok := by
    rintro (_ | ids) <;> rfl
  cases fault with
  | refused => exact .inl rfl
  | none => exact .inr ⟨none, Prod.ext (hanswer _) rfl⟩
  | stops calls => exact .inr ⟨some calls, Prod.ext (hanswer _) rfl⟩

theorem run_snd {α : Type} (script : Script Store α) (budget : Budget) (s : Store) :
    (script.run budget s).2 = (script budget s).2 := by
  unfold Script.run
  split <;> rename_i heq <;> rw [heq]

theorem before_of_taken (hs : s.Waits args.queueKey entry)
    (ht : ((Cmd.atomicClaimReadyJobs args).exec fault page s).2.Waits args.queueKey entry)
    (hin : other ∈ (s.queues args.queueKey).entries)
    (hout : other.1 ∉ ((Cmd.atomicClaimReadyJobs args).exec fault page s).2.queues args.queueKey) :
    Before other entry := by
  obtain hsame | ⟨budget, hrun⟩ := atomicClaimReadyJobs_run args fault page s
  · rw [hsame] at hout
    exact absurd (SortedSet.mem_def.mpr ⟨other.2, hin⟩) hout
  · rw [hrun, run_snd] at ht hout
    exact claimReady_passes hs ht hin hout

theorem exists_taken {ids : List JobId}
    (hrun : (Cmd.atomicClaimReadyJobs args).exec fault page s = (.ok ids, t))
    (hmax : 0 < args.maxClaims) (hdefault : 0 < args.defaultLockTimeoutMs)
    (hs : s.Waits args.queueKey entry) (hdue : entry.2 ≤ args.nowMs)
    (hclear : ∀ first ∈ (s.queues args.queueKey).ahead entry, s.locks first.1 = none) :
    ∃ first ∈ (s.queues args.queueKey).entries, first.1 ∉ t.queues args.queueKey := by
  obtain hnone | ⟨budget, hexec⟩ := atomicClaimReadyJobs_run args fault page s
  · rw [hnone] at hrun
    cases hrun
  rw [hexec] at hrun
  obtain ⟨hids, ht⟩ := Prod.mk.inj hrun
  rw [run_snd] at ht
  unfold Script.run at hids
  split at hids
  · cases hids
  · rename_i found rest later hfound
    rw [hfound] at ht
    exact claimReady_takes (hfound.trans (congrArg _ ht)) hmax hdefault hs hdue hclear

end Claim

-- What clients and time do to a store, one move after another.

inductive Move where
  | command (c : Cmd) (fault : Fault) (page : Nat × List String)
  | advance (now : Int)

def moved (s : Store) : Move → Store
  | .command c fault page => (c.exec fault page s).2
  | .advance now => s.advance now

-- A claim from the queue that comes to its end and could take an entry with this score.
def Move.asks (queue : QueueKey) (score : ℚ) (s : Store) : Move → Bool
  | .command (.atomicClaimReadyJobs args) fault page =>
      decide (args.queueKey = queue ∧ 0 < args.maxClaims ∧ 0 < args.defaultLockTimeoutMs ∧
        score ≤ args.nowMs) && ((Cmd.atomicClaimReadyJobs args).exec fault page s).1.isOk
  | _ => false

-- What a claim takes out of the queue.
def Move.taken (queue : QueueKey) (s : Store) : Move → List (JobId × ℚ)
  | .command (.atomicClaimReadyJobs args) fault page =>
      if args.queueKey = queue then (s.queues queue).entries.filter fun entry =>
        entry.1 ∉ ((Cmd.atomicClaimReadyJobs args).exec fault page s).2.queues queue
      else []
  | _ => []

def served (queue : QueueKey) : Store → List Move → List (JobId × ℚ)
  | _, [] => []
  | s, move :: moves => move.taken queue s ++ served queue (s.moved move) moves

def claimTurns (queue : QueueKey) (score : ℚ) : Store → List Move → Nat
  | _, [] => 0
  | s, move :: moves =>
      (if move.asks queue score s then 1 else 0) + claimTurns queue score (s.moved move) moves

-- Throughout the moves, before the first and after each.
def Throughout (holds : Store → Prop) : Store → List Move → Prop
  | s, [] => holds s
  | s, move :: moves => holds s ∧ Throughout holds (s.moved move) moves

-- From each store to the next.
def EachStep (rel : Store → Store → Prop) : Store → List Move → Prop
  | _, [] => True
  | s, move :: moves => rel s (s.moved move) ∧ EachStep rel (s.moved move) moves

-- Nothing comes to stand before the entry.
def NotOvertaken (queue : QueueKey) (entry : JobId × ℚ) (s t : Store) : Prop :=
  ∀ other ∈ (t.queues queue).ahead entry, other ∈ (s.queues queue).ahead entry

instance (queue : QueueKey) (entry : JobId × ℚ) (s t : Store) :
    Decidable (NotOvertaken queue entry s t) :=
  inferInstanceAs (Decidable (∀ other ∈ _, other ∈ _))

-- The job waits, and nothing that stands before it is held.
structure InLine (queue : QueueKey) (entry : JobId × ℚ) (s : Store) : Prop where
  waits : s.Waits queue entry
  clear : ∀ first ∈ (s.queues queue).ahead entry, s.locks first.1 = none

section Moves

variable {queue : QueueKey} {entry other : JobId × ℚ} {s : Store} {move : Move}
  {moves : List Move}

theorem Move.taken_claim (args : ClaimArgs) (fault : Fault) (page : Nat × List String) (s : Store) :
    Move.taken queue s (.command (.atomicClaimReadyJobs args) fault page) =
      if args.queueKey = queue then (s.queues queue).entries.filter fun entry =>
        entry.1 ∉ ((Cmd.atomicClaimReadyJobs args).exec fault page s).2.queues queue
      else [] := rfl

-- Only claims from the queue take something.
theorem taken_cases (h : other ∈ move.taken queue s) : ∃ args fault page,
    move = .command (.atomicClaimReadyJobs args) fault page ∧ args.queueKey = queue ∧
      other ∈ (s.queues queue).entries ∧ other.1 ∉ (s.moved move).queues queue := by
  cases move with
  | advance now => cases h
  | command c fault page =>
      cases c
      case atomicClaimReadyJobs args =>
        rw [Move.taken_claim] at h
        split_ifs at h with hqueue
        · obtain ⟨hin, hout⟩ := List.mem_filter.mp h
          exact ⟨args, fault, page, rfl, hqueue, hin, of_decide_eq_true hout⟩
        · cases h
      all_goals cases h

theorem asks_cases {score : ℚ} (h : move.asks queue score s) : ∃ args fault page ids t,
    move = .command (.atomicClaimReadyJobs args) fault page ∧ args.queueKey = queue ∧
      0 < args.maxClaims ∧ 0 < args.defaultLockTimeoutMs ∧ score ≤ args.nowMs ∧
        (Cmd.atomicClaimReadyJobs args).exec fault page s = (.ok ids, t) := by
  cases move with
  | advance now => cases h
  | command c fault page =>
      cases c
      case atomicClaimReadyJobs args =>
        simp only [Move.asks, Bool.and_eq_true, decide_eq_true_eq] at h
        obtain ⟨⟨hqueue, hmax, hdefault, hdue⟩, hok⟩ := h
        cases hexec : (Cmd.atomicClaimReadyJobs args).exec fault page s with
        | mk answer t =>
            rw [hexec] at hok
            cases answer with
            | error error => cases hok
            | ok ids => exact ⟨args, fault, page, ids, t, rfl, hqueue, hmax, hdefault, hdue, hexec⟩
      all_goals cases h

theorem taken_before (hs : s.Waits queue entry) (ht : (s.moved move).Waits queue entry)
    (h : other ∈ move.taken queue s) : Before other entry := by
  obtain ⟨args, fault, page, rfl, rfl, hin, hout⟩ := taken_cases h
  exact before_of_taken hs ht hin hout

theorem taken_ne_nil (hs : s.InLine queue entry) (h : move.asks queue entry.2 s) :
    move.taken queue s ≠ [] := by
  obtain ⟨args, fault, page, ids, t, rfl, rfl, hmax, hdefault, hdue, hexec⟩ := asks_cases h
  obtain ⟨first, hin, hout⟩ := exists_taken hexec hmax hdefault hs.waits hdue hs.clear
  rw [Move.taken_claim, if_pos rfl, hexec]
  exact List.ne_nil_of_mem (List.mem_filter.mpr ⟨hin, by simpa using hout⟩)

theorem nodup_taken (queue : QueueKey) (s : Store) (move : Move) :
    (move.taken queue s).Nodup := by
  have hentries : (s.queues queue).entries.Nodup := List.Nodup.of_map _ (s.queues queue).distinct
  cases move with
  | advance now => exact List.nodup_nil
  | command c fault page =>
      cases c
      case atomicClaimReadyJobs args =>
        rw [Move.taken_claim]
        split_ifs
        · exact hentries.filter _
        · exact List.nodup_nil
      all_goals exact List.nodup_nil

-- What is taken no longer stands before the entry.
theorem taken_add_ahead_le (hs : s.Waits queue entry) (ht : (s.moved move).Waits queue entry)
    (hover : NotOvertaken queue entry s (s.moved move)) :
    (move.taken queue s).length + (((s.moved move).queues queue).ahead entry).length ≤
      ((s.queues queue).ahead entry).length := by
  have hdisjoint : (move.taken queue s).Disjoint (((s.moved move).queues queue).ahead entry) := by
    intro other htaken hahead
    obtain ⟨-, -, -, -, -, -, hout⟩ := taken_cases htaken
    exact hout (SortedSet.mem_def.mpr ⟨other.2, (mem_ahead.mp hahead).1⟩)
  have hnodup := (nodup_taken queue s move).append (SortedSet.nodup_ahead _ entry) hdisjoint
  rw [← List.length_append]
  refine (hnodup.subperm fun other hother => ?_).length_le
  rcases List.mem_append.mp hother with htaken | hahead
  · obtain ⟨-, -, -, -, -, hin, -⟩ := taken_cases htaken
    exact mem_ahead.mpr ⟨hin, taken_before hs ht htaken⟩
  · exact hover other hahead

theorem Throughout.head {holds : Store → Prop} (h : Throughout holds s moves) : holds s := by
  cases moves with
  | nil => exact h
  | cons move moves => exact h.1

theorem Throughout.imp {holds wider : Store → Prop} (h : Throughout holds s moves)
    (himp : ∀ t, holds t → wider t) : Throughout wider s moves := by
  induction moves generalizing s with
  | nil => exact himp s h
  | cons move moves ih => exact ⟨himp s h.1, ih h.2⟩

theorem length_served_le (hs : Throughout (Waits queue entry) s moves)
    (hover : EachStep (NotOvertaken queue entry) s moves) :
    (served queue s moves).length ≤ ((s.queues queue).ahead entry).length := by
  induction moves generalizing s with
  | nil => exact Nat.zero_le _
  | cons move moves ih =>
      have hstep := taken_add_ahead_le hs.1 hs.2.head hover.1
      have hrest := ih hs.2 hover.2
      simp only [served, List.length_append]
      omega

theorem claimTurns_le_served (hs : Throughout (InLine queue entry) s moves) :
    claimTurns queue entry.2 s moves ≤ (served queue s moves).length := by
  induction moves generalizing s with
  | nil => exact Nat.zero_le _
  | cons move moves ih =>
      have hrest := ih hs.2
      simp only [claimTurns, served, List.length_append]
      split_ifs with hasks
      · have hsome := List.length_pos_iff.mpr (taken_ne_nil hs.1 hasks)
        omega
      · omega

-- While a job waits, everything that claims take out of its queue stands before it.
theorem served_before (hs : Throughout (Waits queue entry) s moves) :
    ∀ other ∈ served queue s moves, Before other entry := by
  induction moves generalizing s with
  | nil => exact fun _ hnone => absurd hnone List.not_mem_nil
  | cons move moves ih =>
      intro other hother
      rcases List.mem_append.mp hother with htaken | hlater
      · exact taken_before hs.1 hs.2.head htaken
      · exact ih hs.2 other hlater

-- One claim for one job, where two are queued.
def oneClaim : Move := .command (.atomicClaimReadyJobs Cmd.sampleArgs) .none (0, [])

theorem served_before_sample :
    served "rrq:queue:default" (Cmd.queuedStore 300 ["a", "b"]) [oneClaim] = [("a", 0)] ∧
      Before (("a", 0) : JobId × ℚ) ("b", 0) := by
  have hserved : served "rrq:queue:default" (Cmd.queuedStore 300 ["a", "b"]) [oneClaim] =
      [("a", 0)] := by decide +kernel
  have hwaits : Throughout (Waits "rrq:queue:default" ("b", 0)) (Cmd.queuedStore 300 ["a", "b"])
      [oneClaim] :=
    ⟨⟨by decide +kernel, by decide +kernel⟩, by decide +kernel, by decide +kernel⟩
  refine ⟨hserved, served_before hwaits ("a", 0) ?_⟩
  rw [hserved]
  exact List.mem_singleton_self _

-- A job that nothing overtakes waits for no more claims than there are entries before it, as
-- long as none of these is held.
theorem claimTurns_le_ahead (hs : Throughout (InLine queue entry) s moves)
    (hover : EachStep (NotOvertaken queue entry) s moves) :
    claimTurns queue entry.2 s moves ≤ ((s.queues queue).ahead entry).length :=
  (claimTurns_le_served hs).trans (length_served_le (hs.imp fun _ h => h.waits) hover)

theorem claimTurns_le_ahead_sample :
    claimTurns "rrq:queue:default" 0 (Cmd.queuedStore 300 ["a", "b"]) [oneClaim] = 1 ∧
      1 ≤ (((Cmd.queuedStore 300 ["a", "b"]).queues "rrq:queue:default").ahead ("b", 0)).length := by
  have hturns : claimTurns "rrq:queue:default" 0 (Cmd.queuedStore 300 ["a", "b"]) [oneClaim] = 1 := by
    decide +kernel
  have hline : Throughout (InLine "rrq:queue:default" ("b", 0)) (Cmd.queuedStore 300 ["a", "b"])
      [oneClaim] := by
    exact ⟨⟨⟨by decide +kernel, by decide +kernel⟩, by decide +kernel⟩,
      ⟨by decide +kernel, by decide +kernel⟩, by decide +kernel⟩
  exact ⟨hturns, hturns ▸ claimTurns_le_ahead hline ⟨by decide +kernel, trivial⟩⟩

end Moves

end Rrq.Store
