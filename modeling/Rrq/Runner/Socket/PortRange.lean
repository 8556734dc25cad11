import Mathlib.Order.Interval.Set.Defs
import Rrq.Concurrent.Events
import Rrq.Runner.Socket.Ports

-- The ports that a pool takes, over its start, the crashes of its processes, their respawns and
-- its end.

namespace Rrq.Runner

inductive PortEvent where
  | ensureStarted (attempts : Nat → Nat → Attempt)
  | childExits (process : ProcessId)
  | respawn (process : ProcessId) (attempts : Nat → Nat → Attempt)
  | terminate (process : ProcessId)
  | close

-- A process that has been in the pool once may still be in the hands of a call.
def SocketRunner.pool (owner : SocketRunner) : EventSystem Shared PortEvent where
  step
    | .ensureStarted attempts, s => some (s.ensureStarted owner attempts).2
    | .childExits i, s => s.childExits i
    | .respawn i attempts, s =>
        if i < s.processCount then some (s.respawn owner i attempts).2 else none
    | .terminate i, s => if i < s.processCount then some (s.terminate i) else none
    | .close, s => some { s.terminateAll s.processes with processes := [] }

-- A pool comes of a start only if it succeeds.
def SocketRunner.start (owner : SocketRunner) (attempts : Nat → Nat → Attempt) : Bool × Shared :=
  ({} : Shared).ensureStarted owner attempts

-- A runner that is up, or that the pool counts on.
def Shared.Live (s : Shared) (i : ProcessId) : Prop :=
  (s.process i).child = some .running ∨ i ∈ s.processes

-- The ports are those that have been validated, of the processes and of every runner that has been
-- started. No two processes share one, and none has been asked for that is past the last. The
-- counter is cut to 32 bits only after that.
structure InRange (owner : SocketRunner) (s : Shared) : Prop where
  range : ∀ i < s.processCount,
    (s.process i).socket ∈ Set.Icc owner.tcpPort (owner.tcpPort + (owner.poolSize - 1))
  assigned : ∀ socket ∈ s.assigned,
    socket ∈ Set.Icc owner.tcpPort (owner.tcpPort + (owner.poolSize - 1))
  distinct : ∀ i < s.processCount, ∀ j < s.processCount, s.Live i → s.Live j → i ≠ j →
    (s.process i).socket ≠ (s.process j).socket
  room : owner.ports s ≤ MAX_PORT + 1

-- The first attempt that does not find its port busy is such a one.
def FirstFree (wanted : Attempt → Prop) (attempts : Nat → Attempt) (left : Nat) : Prop :=
  ∃ n < left, (∀ k < n, attempts k = .busy) ∧ wanted (attempts n)

-- A runner is started, whether or not it is reached.
def Attempt.Starts (attempt : Attempt) : Prop := attempt = .unreached ∨ attempt = .connected

-- The ports that are asked for when no runner is started.
def tries : (Nat → Attempt) → Nat → Nat
  | _, 0 => 0
  | attempts, left + 1 =>
      if attempts 0 = .busy then tries (fun n => attempts (n + 1)) left + 1 else 1

-- A spawn on new ports starts no runner, and there are ports enough to find that out.
structure Refused (owner : SocketRunner) (s : Shared) (attempts : Nat → Attempt) : Prop where
  unstarted : ¬ FirstFree Attempt.Starts attempts owner.poolSize
  room : owner.ports s + tries attempts owner.poolSize ≤ MAX_PORT + 1

-- The attempts of a spawn on new ports. It goes on after a busy port, and after a runner that is
-- not reached.
def made : (Nat → Attempt) → Nat → List Attempt
  | _, 0 => []
  | attempts, left + 1 =>
      if attempts 0 = .failed ∨ attempts 0 = .connected then [attempts 0]
      else attempts 0 :: made (fun n => attempts (n + 1)) left

-- Those of a start, from one process to the next.
def startMade (owner : SocketRunner) (attempts : Nat → Nat → Attempt) : Nat → List Attempt
  | 0 => []
  | n + 1 =>
      let first := made (attempts n) owner.poolSize
      if first.getLast? = some .connected then first ++ startMade owner attempts n else first

-- Where the pool starts, no attempt but the first ones, one for each process, starts a runner. The
-- attempts past the last port are not made.
def KeepsStart (owner : SocketRunner) (attempts : Nat → Nat → Attempt) : Prop :=
  owner.external = false → ∀ (n : Nat) (attempt : Attempt),
    (startMade owner attempts owner.poolSize)[n]? = some attempt → owner.poolSize ≤ n →
      owner.tcpPort + n ≤ MAX_PORT → ¬ attempt.Starts

-- Each runner is reached at its first port.
def FirstPorts (owner : SocketRunner) (attempts : Nat → Nat → Attempt) : Prop :=
  owner.external = false → ∀ n < owner.poolSize, attempts n 0 = .connected

-- After that no runner is started on another port than that of the process it replaces.
def KeepsPorts (owner : SocketRunner) : PortEvent → Shared → Prop
  | .ensureStarted attempts, s =>
      s.processes ≠ [] ∨ owner.external = false ∧ Refused owner s (attempts (owner.poolSize - 1))
  | .respawn _ attempts, s =>
      owner.external = true ∨
        FirstFree (· = .connected) (attempts 0) REUSE_SOCKET_MAX_ATTEMPTS ∨
          Refused owner s (attempts 1)
  | _, _ => True

section Attempts

variable {wanted : Attempt → Prop} {attempts : Nat → Attempt} {left : Nat}

theorem not_firstFree_zero : ¬ FirstFree wanted attempts 0 := by
  rintro ⟨n, hn, -⟩
  exact absurd hn (Nat.not_lt_zero n)

theorem firstFree_succ : FirstFree wanted attempts (left + 1) ↔
    wanted (attempts 0) ∨
      attempts 0 = .busy ∧ FirstFree wanted (fun n => attempts (n + 1)) left := by
  constructor
  · rintro ⟨n, hn, hbefore, hwanted⟩
    cases n with
    | zero => exact .inl hwanted
    | succ n =>
        exact .inr ⟨hbefore 0 (Nat.succ_pos n), n, Nat.lt_of_succ_lt_succ hn,
          fun k hk => hbefore (k + 1) (Nat.succ_lt_succ hk), hwanted⟩
  · rintro (hwanted | ⟨hfirst, n, hn, hbefore, hwanted⟩)
    · exact ⟨0, Nat.succ_pos left, fun k hk => absurd hk (Nat.not_lt_zero k), hwanted⟩
    · refine ⟨n + 1, Nat.succ_lt_succ hn, fun k hk => ?_, hwanted⟩
      cases k with
      | zero => exact hfirst
      | succ k => exact hbefore k (Nat.lt_of_succ_lt_succ hk)

theorem tries_pos (attempts : Nat → Attempt) (left : Nat) : 1 ≤ tries attempts (left + 1) := by
  rw [tries]
  split_ifs <;> omega

end Attempts

-- The ports that runners are started on are new ones.
structure Deals (owner : SocketRunner) (s t : Shared) : Prop where
  ports_le : owner.ports s ≤ owner.ports t
  kept : ∀ socket ∈ s.assigned, socket ∈ t.assigned
  fresh : ∀ socket ∈ t.assigned,
    socket ∈ s.assigned ∨ owner.ports s ≤ socket ∧ socket < owner.ports t

section Deals

variable {owner : SocketRunner} {s t u : Shared}

theorem Deals.of_eq (hports : owner.ports t = owner.ports s) (hassigned : t.assigned = s.assigned) :
    Deals owner s t where
  ports_le := hports.ge
  kept _ hmem := hassigned ▸ hmem
  fresh _ hmem := .inl (hassigned ▸ hmem)

theorem Deals.refl (s : Shared) : Deals owner s s := .of_eq rfl rfl

theorem Deals.trans (hst : Deals owner s t) (htu : Deals owner t u) : Deals owner s u where
  ports_le := hst.ports_le.trans htu.ports_le
  kept socket hmem := htu.kept socket (hst.kept socket hmem)
  fresh socket hmem := by
    rcases htu.fresh socket hmem with hmid | ⟨hle, hlt⟩
    · exact (hst.fresh socket hmid).imp_right fun ⟨hle, hlt⟩ => ⟨hle, hlt.trans_le htu.ports_le⟩
    · exact .inr ⟨hst.ports_le.trans hle, hlt⟩

theorem deals_next (s : Shared) : Deals owner s (s.nextTcpSocket owner).2 where
  ports_le := Nat.le_succ _
  kept _ hmem := hmem
  fresh _ hmem := .inl hmem

theorem deals_assign (s : Shared) :
    Deals owner s ((s.nextTcpSocket owner).2.assign (owner.ports s)) where
  ports_le := Nat.le_succ _
  kept _ hmem := List.mem_cons_of_mem _ hmem
  fresh socket hmem := by
    rcases List.mem_cons.mp hmem with rfl | hold
    · exact .inr ⟨le_rfl, Nat.lt_succ_self _⟩
    · exact .inl hold

theorem terminateAll_keeps (owner : SocketRunner) (processes : List ProcessId) (s : Shared) :
    SameSockets s (s.terminateAll processes) ∧
      owner.ports (s.terminateAll processes) = owner.ports s ∧
        (s.terminateAll processes).assigned = s.assigned := by
  induction processes generalizing s with
  | nil => exact ⟨.refl s, rfl, rfl⟩
  | cons i rest ih =>
      have hfirst : SameSockets s (s.terminate i) := sameSockets_modify i _ rfl
      obtain ⟨hrest, hports, hassigned⟩ := ih (s.terminate i)
      exact ⟨hfirst.trans hrest, hports, hassigned⟩

end Deals

section Spawn

variable {owner : SocketRunner} {s t u : Shared}

-- A spawn on the port of before.
theorem spawnAttempts_reuse (owner : SocketRunner) (socket : RunnerSocketTarget)
    (attempts : Nat → Attempt) (left : Nat) (s : Shared) :
    (FirstFree (· = .connected) attempts left ∧
        Shared.spawnAttempts owner (some socket) attempts left s =
          (some { child := some .running, socket, permits := s.semaphoreCount },
            (s.assign socket).newSemaphore owner)) ∨
      ¬ FirstFree (· = .connected) attempts left ∧
        (Shared.spawnAttempts owner (some socket) attempts left s = (none, s) ∨
          Shared.spawnAttempts owner (some socket) attempts left s = (none, s.assign socket)) := by
  induction left generalizing attempts with
  | zero => exact .inr ⟨not_firstFree_zero, .inl rfl⟩
  | succ left ih =>
      rw [firstFree_succ]
      simp only [Shared.spawnAttempts, Shared.socketFor]
      cases hfirst : attempts 0 with
      | busy => simpa using ih fun n => attempts (n + 1)
      | failed => simp
      | unreached => simp
      | connected => simp

-- What a spawn on new ports comes to.
inductive Fresh (owner : SocketRunner) (s t : Shared) (attempts : Nat → Attempt) (left : Nat) :
    Option SocketProcess → Prop
  | refused (hunstarted : ¬ FirstFree Attempt.Starts attempts left)
      (hports : owner.ports t = owner.ports s + tries attempts left)
      (hmax : owner.ports t ≤ MAX_PORT + 1) (hassigned : t.assigned = s.assigned) :
      Fresh owner s t attempts left none
  | abandoned {socket : RunnerSocketTarget} (hstarts : FirstFree Attempt.Starts attempts left)
      (hmem : socket ∈ t.assigned) (hle : owner.ports s ≤ socket) :
      Fresh owner s t attempts left none
  | reached {process : SocketProcess} (hstarts : FirstFree Attempt.Starts attempts left)
      (hmem : process.socket ∈ t.assigned) (hle : owner.ports s ≤ process.socket)
      (hports : owner.ports t = process.socket + 1) (hmax : owner.ports t ≤ MAX_PORT + 1)
      (hfirst : owner.ports s = process.socket ↔ attempts 0 = .connected) :
      Fresh owner s t attempts left (some process)
  | exhausted (hports : MAX_PORT + 1 < owner.ports t)
      (hroom : ¬ FirstFree Attempt.Starts attempts left →
        MAX_PORT + 1 < owner.ports s + tries attempts left) : Fresh owner s t attempts left none

-- One attempt on a new port.
theorem spawnAttempts_succ (attempts : Nat → Attempt) (left : Nat) (s : Shared) :
    Shared.spawnAttempts owner none attempts (left + 1) s =
      if owner.ports s ≤ MAX_PORT then
        match attempts 0 with
        | .busy =>
            Shared.spawnAttempts owner none (fun n => attempts (n + 1)) left
              (s.nextTcpSocket owner).2
        | .failed => (none, (s.nextTcpSocket owner).2)
        | .unreached =>
            Shared.spawnAttempts owner none (fun n => attempts (n + 1)) left
              ((s.nextTcpSocket owner).2.assign (owner.ports s))
        | .connected =>
            (some { child := some .running, socket := owner.ports s, permits := s.semaphoreCount },
              ((s.nextTcpSocket owner).2.assign (owner.ports s)).newSemaphore owner)
      else (none, (s.nextTcpSocket owner).2) := by
  rw [Shared.spawnAttempts, Shared.socketFor]
  by_cases hmax : owner.ports s ≤ MAX_PORT
  · have hsocket : s.nextTcpSocket owner = (some (owner.ports s), (s.nextTcpSocket owner).2) :=
      Prod.ext (if_pos hmax) rfl
    rw [if_pos hmax, hsocket]
    cases attempts 0
    all_goals rfl
  · have hsocket : s.nextTcpSocket owner = (none, (s.nextTcpSocket owner).2) :=
      Prod.ext (if_neg hmax) rfl
    rw [if_neg hmax, hsocket]

theorem not_starts_busy : ¬ Attempt.Starts .busy := by simp [Attempt.Starts]

theorem starts_of_first {attempts : Nat → Attempt} {left : Nat} (hfirst : (attempts 0).Starts) :
    FirstFree Attempt.Starts attempts (left + 1) :=
  ⟨0, Nat.succ_pos left, fun k hk => absurd hk (Nat.not_lt_zero k), hfirst⟩

namespace Fresh

variable {mid : Shared} {attempts : Nat → Attempt} {left : Nat} {found : Option SocketProcess}

-- A busy port is passed over, and the spawn comes to what the other attempts do.
theorem of_busy (hattempt : attempts 0 = .busy) (hports : owner.ports mid = owner.ports s + 1)
    (hassigned : mid.assigned = s.assigned)
    (h : Fresh owner mid t (fun n => attempts (n + 1)) left found) :
    Fresh owner s t attempts (left + 1) found := by
  have htries : tries attempts (left + 1) = tries (fun n => attempts (n + 1)) left + 1 :=
    if_pos hattempt
  have hstarts : FirstFree Attempt.Starts attempts (left + 1) ↔
      FirstFree Attempt.Starts (fun n => attempts (n + 1)) left := by
    rw [firstFree_succ, hattempt]
    exact (or_iff_right not_starts_busy).trans (and_iff_right rfl)
  cases h with
  | refused hunstarted hlast hlimit hkept =>
      refine .refused (fun h => hunstarted (hstarts.mp h)) ?_ hlimit (hkept.trans hassigned)
      omega
  | abandoned hstarted hmem hle => exact .abandoned (hstarts.mpr hstarted) hmem (by omega)
  | reached hstarted hmem hle hlast hlimit =>
      refine .reached (hstarts.mpr hstarted) hmem (by omega) hlast hlimit ?_
      exact iff_of_false (by omega) (by simp [hattempt])
  | exhausted hexhausted hroom =>
      refine .exhausted hexhausted fun hunstarted => ?_
      have hrest := hroom fun h => hunstarted (hstarts.mpr h)
      omega

-- A runner no connection reaches holds its port already, whatever the other attempts do.
theorem of_unreached (hattempt : attempts 0 = .unreached)
    (hports : owner.ports mid = owner.ports s + 1) (hmine : owner.ports s ∈ t.assigned)
    (h : Fresh owner mid t (fun n => attempts (n + 1)) left found) :
    Fresh owner s t attempts (left + 1) found := by
  have hstarts : FirstFree Attempt.Starts attempts (left + 1) := starts_of_first (.inl hattempt)
  cases h with
  | refused => exact .abandoned hstarts hmine le_rfl
  | abandoned => exact .abandoned hstarts hmine le_rfl
  | reached _ hmem hle hlast hlimit =>
      refine .reached hstarts hmem (by omega) hlast hlimit ?_
      exact iff_of_false (by omega) (by simp [hattempt])
  | exhausted hexhausted => exact .exhausted hexhausted fun hnot => absurd hstarts hnot

end Fresh

theorem spawnAttempts_fresh (owner : SocketRunner) (attempts : Nat → Attempt) (left : Nat)
    (s : Shared) :
    SameSockets s (Shared.spawnAttempts owner none attempts left s).2 ∧
      Deals owner s (Shared.spawnAttempts owner none attempts left s).2 ∧
      Fresh owner s (Shared.spawnAttempts owner none attempts left s).2 attempts left
        (Shared.spawnAttempts owner none attempts left s).1 := by
  induction left generalizing attempts s with
  | zero =>
      refine ⟨.refl s, .refl s, ?_⟩
      rcases Nat.lt_or_ge (MAX_PORT + 1) (owner.ports s) with hlt | hle
      · exact .exhausted hlt fun _ => hlt
      · exact .refused not_firstFree_zero rfl hle rfl
  | succ left ih =>
      have hsame : SameSockets s (s.nextTcpSocket owner).2 := ⟨fun _ => rfl, rfl⟩
      have hports : owner.ports (s.nextTcpSocket owner).2 = owner.ports s + 1 := rfl
      have hpos := tries_pos attempts left
      rw [spawnAttempts_succ]
      rcases Nat.lt_or_ge MAX_PORT (owner.ports s) with hlarge | hmax
      · rw [if_neg (Nat.not_le.mpr hlarge)]
        dsimp only
        exact ⟨hsame, deals_next s, .exhausted (by omega) fun _ => by omega⟩
      rw [if_pos hmax]
      cases hattempt : attempts 0 with
      | busy =>
          obtain ⟨hrest, hdeals, hfresh⟩ := ih (fun n => attempts (n + 1)) (s.nextTcpSocket owner).2
          exact ⟨hsame.trans hrest, (deals_next s).trans hdeals, hfresh.of_busy hattempt hports rfl⟩
      | failed =>
          have htries : tries attempts (left + 1) = 1 := if_neg (by simp [hattempt])
          dsimp only
          refine ⟨hsame, deals_next s, .refused ?_ (by omega) (by omega) rfl⟩
          rw [firstFree_succ, hattempt]
          simp [Attempt.Starts]
      | unreached =>
          let mid := (s.nextTcpSocket owner).2.assign (owner.ports s)
          have hmid : owner.ports mid = owner.ports s + 1 := rfl
          have hmine : owner.ports s ∈ mid.assigned := List.mem_cons_self
          have hfirst : SameSockets s mid := ⟨fun _ => rfl, rfl⟩
          obtain ⟨hrest, hdeals, hfresh⟩ := ih (fun n => attempts (n + 1)) mid
          exact ⟨hfirst.trans hrest, (deals_assign s).trans hdeals,
            hfresh.of_unreached hattempt hmid (hdeals.kept _ hmine)⟩
      | connected =>
          refine ⟨⟨hsame.socket, hsame.processCount⟩, (deals_assign s).trans (.of_eq rfl rfl), ?_⟩
          exact .reached (starts_of_first (.inr hattempt)) List.mem_cons_self le_rfl rfl
            (Nat.succ_le_succ hmax) (iff_of_true rfl hattempt)

-- The same with the limit on the attempts.

theorem spawnProcess_eq (owner : SocketRunner) (attempts : Nat → Attempt) (s : Shared) :
    s.spawnProcess owner none attempts =
      Shared.spawnAttempts owner none attempts owner.poolSize s := by
  have hmax : max owner.poolSize 1 = owner.poolSize := Nat.max_eq_left owner.poolSize_pos
  simp only [Shared.spawnProcess, Option.isSome_none, Bool.false_eq_true, if_false, hmax]

theorem spawnProcess_fresh (owner : SocketRunner) (attempts : Nat → Attempt) (s : Shared) :
    SameSockets s (s.spawnProcess owner none attempts).2 ∧
      Deals owner s (s.spawnProcess owner none attempts).2 ∧
      Fresh owner s (s.spawnProcess owner none attempts).2 attempts owner.poolSize
        (s.spawnProcess owner none attempts).1 := by
  rw [spawnProcess_eq]
  exact spawnAttempts_fresh owner attempts owner.poolSize s

end Spawn

-- The attempts are made on the ports in turn. This one is the port of a runner that is started.
def Took (port : Nat) (attempts : List Attempt) (socket : RunnerSocketTarget) : Prop :=
  ∃ (n : Nat) (attempt : Attempt), attempts[n]? = some attempt ∧ attempt.Starts ∧
    socket = port + n ∧ socket ≤ MAX_PORT

section Took

variable {port : Nat} {attempt : Attempt} {attempts more : List Attempt}
  {socket : RunnerSocketTarget}

theorem not_took_nil : ¬ Took port [] socket := by
  rintro ⟨n, attempt, hn, -⟩
  cases hn

theorem not_took (h : MAX_PORT < port) : ¬ Took port attempts socket := by
  rintro ⟨n, attempt, -, -, heq, hmax⟩
  rw [heq] at hmax
  exact absurd (Nat.le_trans (Nat.le_add_right port n) hmax) (Nat.not_le.mpr h)

theorem took_cons : Took port (attempt :: attempts) socket ↔
    (attempt.Starts ∧ socket = port ∧ socket ≤ MAX_PORT) ∨ Took (port + 1) attempts socket := by
  constructor
  · rintro ⟨n, found, hn, hstarts, heq, hmax⟩
    cases n with
    | zero =>
        obtain rfl := Option.some.inj hn
        exact .inl ⟨hstarts, heq, hmax⟩
    | succ n =>
        refine .inr ⟨n, found, hn, hstarts, ?_, hmax⟩
        rw [heq, Nat.add_right_comm, Nat.add_assoc]
  · rintro (⟨hstarts, heq, hmax⟩ | ⟨n, found, hn, hstarts, heq, hmax⟩)
    · exact ⟨0, attempt, rfl, hstarts, heq, hmax⟩
    · refine ⟨n + 1, found, hn, hstarts, ?_, hmax⟩
      rw [heq, Nat.add_right_comm, Nat.add_assoc]

theorem took_append : Took port (attempts ++ more) socket ↔
    Took port attempts socket ∨ Took (port + attempts.length) more socket := by
  induction attempts generalizing port with
  | nil => simp [not_took_nil]
  | cons attempt attempts ih =>
      have hlength : port + (attempt :: attempts).length = port + 1 + attempts.length := by
        rw [List.length_cons]
        omega
      rw [List.cons_append, took_cons, took_cons, ih, hlength, or_assoc]

end Took

-- What the attempts of a spawn leave behind them.
structure Makes (owner : SocketRunner) (s t : Shared) (attempts : List Attempt)
    (found : Option SocketProcess) : Prop where
  assigned : ∀ socket, socket ∈ t.assigned ↔
    socket ∈ s.assigned ∨ Took (owner.ports s) attempts socket
  reached : found.isSome → attempts.getLast? = some .connected ∧
    owner.ports t = owner.ports s + attempts.length
  stopped : found = none → attempts.getLast? = some .connected →
    MAX_PORT < owner.ports s + attempts.length

section Makes

variable {owner : SocketRunner} {s t mid : Shared} {attempts : List Attempt} {attempt : Attempt}
  {found : Option SocketProcess}

theorem Makes.cons (hlast : attempt ≠ .connected) (hports : owner.ports mid = owner.ports s + 1)
    (hassigned : ∀ socket, socket ∈ mid.assigned ↔
      socket ∈ s.assigned ∨ attempt.Starts ∧ socket = owner.ports s ∧ socket ≤ MAX_PORT)
    (h : Makes owner mid t attempts found) : Makes owner s t (attempt :: attempts) found := by
  have hlength : owner.ports s + (attempt :: attempts).length =
      owner.ports mid + attempts.length := by
    rw [List.length_cons, hports]
    omega
  have hends : (attempt :: attempts).getLast? = some .connected ↔
      attempts.getLast? = some .connected := by
    rw [List.getLast?_cons]
    cases attempts.getLast? with
    | none => simp [hlast]
    | some last => simp
  refine ⟨fun socket => ?_, fun hfound => ?_, fun hnone hconnected => ?_⟩
  · rw [h.assigned, hassigned, took_cons, ← hports, or_assoc]
  · rw [hends, hlength]
    exact h.reached hfound
  · rw [hlength]
    exact h.stopped hnone (hends.mp hconnected)

theorem spawnAttempts_makes (owner : SocketRunner) (attempts : Nat → Attempt) (left : Nat)
    (s : Shared) :
    Makes owner s (Shared.spawnAttempts owner none attempts left s).2 (made attempts left)
      (Shared.spawnAttempts owner none attempts left s).1 := by
  induction left generalizing attempts s with
  | zero =>
      refine ⟨fun socket => ?_, fun hfound => absurd hfound Bool.false_ne_true, fun _ hlast => ?_⟩
      · simp [made, not_took_nil, Shared.spawnAttempts]
      · simp [made] at hlast
  | succ left ih =>
      have hports : owner.ports (s.nextTcpSocket owner).2 = owner.ports s + 1 := rfl
      rw [spawnAttempts_succ]
      rcases Nat.lt_or_ge MAX_PORT (owner.ports s) with hlarge | hmax
      · rw [if_neg (Nat.not_le.mpr hlarge)]
        refine ⟨fun socket => ?_, fun hfound => absurd hfound Bool.false_ne_true,
          fun _ _ => Nat.lt_add_right _ hlarge⟩
        exact (or_iff_left (not_took hlarge)).symm
      rw [if_pos hmax, made]
      cases hattempt : attempts 0 with
      | busy =>
          rw [if_neg (by simp)]
          refine Makes.cons (by simp) hports (fun socket => ?_) (ih _ _)
          exact (or_iff_left fun h => not_starts_busy h.1).symm
      | failed =>
          rw [if_pos (.inl rfl)]
          refine ⟨fun socket => ?_, fun hfound => absurd hfound Bool.false_ne_true,
            fun _ hlast => ?_⟩
          · simp [took_cons, not_took_nil, Attempt.Starts, Shared.nextTcpSocket]
          · simp at hlast
      | unreached =>
          have hmid : owner.ports ((s.nextTcpSocket owner).2.assign (owner.ports s)) =
            owner.ports s + 1 := rfl
          rw [if_neg (by simp)]
          refine Makes.cons (by simp) hmid (fun socket => ?_) (ih _ _)
          rw [Shared.assign, List.mem_cons, or_comm]
          refine or_congr Iff.rfl ⟨fun h => ⟨.inl rfl, h, h ▸ hmax⟩, fun h => h.2.1⟩
      | connected =>
          rw [if_pos (.inr rfl)]
          refine ⟨fun socket => ?_, fun _ => ⟨rfl, rfl⟩,
            fun hnone => absurd hnone (Option.some_ne_none _)⟩
          rw [took_cons, Shared.newSemaphore, Shared.assign, List.mem_cons, or_comm]
          refine or_congr Iff.rfl ⟨fun h => .inl ⟨.inr rfl, h, h ▸ hmax⟩, fun h => ?_⟩
          exact (h.resolve_right not_took_nil).2.1

theorem spawnProcess_makes (owner : SocketRunner) (attempts : Nat → Attempt) (s : Shared) :
    Makes owner s (s.spawnProcess owner none attempts).2 (made attempts owner.poolSize)
      (s.spawnProcess owner none attempts).1 := by
  rw [spawnProcess_eq]
  exact spawnAttempts_makes owner attempts owner.poolSize s

theorem startProcesses_assigned (attempts : Nat → Nat → Attempt) (n : Nat) (s : Shared)
    (socket : RunnerSocketTarget) :
    socket ∈ (Shared.startProcesses owner attempts n s).2.assigned ↔
      socket ∈ s.assigned ∨ Took (owner.ports s) (startMade owner attempts n) socket := by
  induction n generalizing s with
  | zero => simp [Shared.startProcesses, startMade, not_took_nil]
  | succ n ih =>
      have hmakes := spawnProcess_makes owner (attempts n) s
      unfold Shared.startProcesses startMade
      generalize s.spawnProcess owner none (attempts n) = answer at hmakes ⊢
      obtain ⟨found, mid⟩ := answer
      cases found with
      | none =>
          obtain ⟨-, -, hassigned⟩ := terminateAll_keeps owner mid.processes mid
          dsimp only
          rw [hassigned, hmakes.assigned]
          split_ifs with hlast
          · -- the ports have run out before that attempt
            rw [took_append, or_iff_left (not_took (hmakes.stopped rfl hlast))]
          · rfl
      | some process =>
          obtain ⟨hlast, hports⟩ := hmakes.reached rfl
          have hpushed : owner.ports (mid.push process) =
            owner.ports s + (made (attempts n) owner.poolSize).length := hports
          have hassigned : (mid.push process).assigned = mid.assigned := rfl
          dsimp only
          rw [ih, hassigned, hmakes.assigned, if_pos hlast, took_append, hpushed, or_assoc]

end Makes

-- So many processes have come in, one after the other, each on a new port.
structure Joined (owner : SocketRunner) (n : Nat) (s t : Shared) : Prop where
  processCount : t.processCount = s.processCount + n
  kept : ∀ i < s.processCount, (t.process i).socket = (s.process i).socket
  ports_le : owner.ports s + n ≤ owner.ports t
  last : ∀ i, t.processCount = i + 1 → s.processCount ≤ i →
    owner.ports t = (t.process i).socket + 1 ∧ (t.process i).socket ∈ t.assigned
  inTurn : owner.ports t = owner.ports s + n → ∀ k < n,
    owner.ports s + k = (t.process (s.processCount + k)).socket
  room : n ≠ 0 → owner.ports t ≤ MAX_PORT + 1
  none : n = 0 → t = s

section Start

variable {owner : SocketRunner} {s t u : Shared} {n : Nat}

theorem Joined.zero (s : Shared) : Joined owner 0 s s where
  processCount := rfl
  kept _ _ := rfl
  ports_le := le_rfl
  last i hi hle := by omega
  inTurn _ k hk := absurd hk (Nat.not_lt_zero k)
  room h := absurd rfl h
  none _ := rfl

theorem Joined.cons (hfirst : Joined owner 1 s t) (hrest : Joined owner n t u) :
    Joined owner (n + 1) s u := by
  have hcount := hfirst.processCount
  have hcount' := hrest.processCount
  have hports := hfirst.ports_le
  have hports' := hrest.ports_le
  refine ⟨by omega, fun i hi => ?_, by omega, fun i hi hle => ?_, fun heq k hk => ?_, fun _ => ?_,
    ?_⟩
  · rw [hrest.kept i (by omega), hfirst.kept i hi]
  · by_cases hn : n = 0
    · obtain rfl := hrest.none hn
      exact hfirst.last i hi hle
    · exact hrest.last i hi (by omega)
  · cases k with
    | zero =>
        have hturn := hfirst.inTurn (by omega) 0 Nat.one_pos
        rw [hturn, Nat.add_zero, hrest.kept _ (by omega)]
    | succ k =>
        have hturn := hrest.inTurn (by omega) k (by omega)
        rw [hcount, Nat.add_assoc, Nat.add_comm 1 k] at hturn
        rw [← hturn]
        omega
  · by_cases hn : n = 0
    · obtain rfl := hrest.none hn
      exact hfirst.room Nat.one_ne_zero
    · exact hrest.room hn
  · exact fun h => absurd h (Nat.succ_ne_zero n)

theorem joined_push {process : SocketProcess} (hsame : SameSockets s t)
    (hmem : process.socket ∈ t.assigned) (hle : owner.ports s ≤ process.socket)
    (hports : owner.ports t = process.socket + 1) (hmax : owner.ports t ≤ MAX_PORT + 1) :
    Joined owner 1 s (t.push process) := by
  have hcount := hsame.processCount
  have hpushed : owner.ports (t.push process) = process.socket + 1 := hports
  have hnew : (t.push process).process s.processCount = process := by
    rw [← hcount]
    exact Function.update_self ..
  refine ⟨?_, fun i hi => ?_, by omega, fun i hi hge => ?_, fun heq k hk => ?_, fun _ => hmax, ?_⟩
  · show t.processCount + 1 = s.processCount + 1
    rw [hcount]
  · have hi' : i ≠ t.processCount := by omega
    show (Function.update t.process t.processCount process i).socket = _
    rw [Function.update_of_ne hi', hsame.socket]
  · have hi' : i = s.processCount := by
      have hlast : t.processCount + 1 = i + 1 := hi
      omega
    rw [hi', hnew]
    exact ⟨hpushed, hmem⟩
  · obtain rfl : k = 0 := by omega
    show owner.ports s = ((t.push process).process s.processCount).socket
    rw [hnew]
    omega
  · exact fun h => absurd h Nat.one_ne_zero

theorem startExternal_succ (n : Nat) (s : Shared) : Shared.startExternal owner (n + 1) s =
    if owner.ports s ≤ MAX_PORT then
      Shared.startExternal owner n
        ((((s.nextTcpSocket owner).2.assign (owner.ports s)).newSemaphore owner).push
          { socket := owner.ports s, permits := s.semaphoreCount })
    else (false, (s.nextTcpSocket owner).2) := by
  rw [Shared.startExternal]
  by_cases hmax : owner.ports s ≤ MAX_PORT
  · have hsocket : s.nextTcpSocket owner = (some (owner.ports s), (s.nextTcpSocket owner).2) :=
      Prod.ext (if_pos hmax) rfl
    rw [if_pos hmax, hsocket]
    rfl
  · have hsocket : s.nextTcpSocket owner = (none, (s.nextTcpSocket owner).2) :=
      Prod.ext (if_neg hmax) rfl
    rw [if_neg hmax, hsocket]

theorem startExternal_joined (h : Shared.startExternal owner n s = (true, t)) :
    Joined owner n s t ∧ owner.ports t = owner.ports s + n := by
  induction n generalizing s with
  | zero =>
      cases h
      exact ⟨.zero _, rfl⟩
  | succ n ih =>
      have hsame : SameSockets s
          (((s.nextTcpSocket owner).2.assign (owner.ports s)).newSemaphore owner) :=
        ⟨fun _ => rfl, rfl⟩
      rw [startExternal_succ] at h
      split at h
      next hmax =>
        obtain ⟨hrest, hports⟩ := ih h
        have hmem : owner.ports s ∈
            (((s.nextTcpSocket owner).2.assign (owner.ports s)).newSemaphore owner).assigned :=
          List.mem_cons_self
        refine ⟨(joined_push hsame hmem le_rfl rfl (Nat.succ_le_succ hmax)).cons hrest, ?_⟩
        rw [hports]
        exact Nat.add_right_comm _ 1 n
      next => cases h

theorem deals_startExternal (n : Nat) (s : Shared) :
    Deals owner s (Shared.startExternal owner n s).2 := by
  induction n generalizing s with
  | zero => exact .refl s
  | succ n ih =>
      rw [startExternal_succ]
      split_ifs
      · have hpushed : Deals owner ((s.nextTcpSocket owner).2.assign (owner.ports s))
            ((((s.nextTcpSocket owner).2.assign (owner.ports s)).newSemaphore owner).push
              { socket := owner.ports s, permits := s.semaphoreCount }) := .of_eq rfl rfl
        exact (deals_assign s).trans (hpushed.trans (ih _))
      · exact deals_next s

theorem startProcesses_joined {attempts : Nat → Nat → Attempt}
    (h : Shared.startProcesses owner attempts n s = (true, t)) :
    Joined owner n s t ∧
      (owner.ports t = owner.ports s + n ↔ ∀ k < n, attempts k 0 = .connected) := by
  induction n generalizing s with
  | zero =>
      cases h
      exact ⟨.zero _, iff_of_true rfl fun k hk => absurd hk (Nat.not_lt_zero k)⟩
  | succ n ih =>
      obtain ⟨hsame, -, hfresh⟩ := spawnProcess_fresh owner (attempts n) s
      unfold Shared.startProcesses at h
      generalize s.spawnProcess owner none (attempts n) = answer at hsame hfresh h
      obtain ⟨found, mid⟩ := answer
      cases hfresh with
      | refused => cases h
      | abandoned => cases h
      | exhausted => cases h
      | @reached process _ hmem hle hports hmax hfirst =>
          have hjoined := joined_push hsame hmem hle hports hmax
          obtain ⟨hrest, hturn⟩ := ih h
          have hpushed := hjoined.ports_le
          have hlast := hrest.ports_le
          refine ⟨hjoined.cons hrest, ?_⟩
          have hmid : owner.ports (mid.push process) = process.socket + 1 := hports
          constructor
          · intro heq k hk
            rcases Nat.lt_succ_iff_lt_or_eq.mp hk with hlt | rfl
            · exact hturn.mp (by omega) k hlt
            · exact hfirst.mp (by omega)
          · intro hall
            have hturns := hturn.mpr fun k hk => hall k (Nat.lt_succ_of_lt hk)
            have hthis := hfirst.mpr (hall n (Nat.lt_succ_self n))
            omega

theorem deals_startProcesses (attempts : Nat → Nat → Attempt) (n : Nat) (s : Shared) :
    Deals owner s (Shared.startProcesses owner attempts n s).2 := by
  induction n generalizing s with
  | zero => exact .refl s
  | succ n ih =>
      obtain ⟨-, hdeals, -⟩ := spawnProcess_fresh owner (attempts n) s
      unfold Shared.startProcesses
      generalize s.spawnProcess owner none (attempts n) = answer at hdeals ⊢
      obtain ⟨found, mid⟩ := answer
      cases found with
      | none =>
          obtain ⟨-, hports, hassigned⟩ := terminateAll_keeps owner mid.processes mid
          exact hdeals.trans (.of_eq hports hassigned)
      | some process =>
          have hpushed : Deals owner mid (mid.push process) := .of_eq rfl rfl
          exact hdeals.trans (hpushed.trans (ih _))

end Start

-- The processes are those of the start, each on the port it has had from the start. Runners have
-- been started on these ports only.
structure Settled (owner : SocketRunner) (s : Shared) : Prop where
  processCount : s.processCount = owner.poolSize
  sockets : ∀ i < owner.poolSize, owner.tcpPort + i = (s.process i).socket
  assigned : ∀ socket ∈ s.assigned,
    socket ∈ Set.Icc owner.tcpPort (owner.tcpPort + (owner.poolSize - 1))
  handedOut : owner.tcpPort + owner.poolSize ≤ owner.ports s
  room : owner.ports s ≤ MAX_PORT + 1

-- A runner has been started on a port past the range, or the ports have run out.
inductive Strayed (owner : SocketRunner) (s : Shared) : Prop
  | started (socket : RunnerSocketTarget) (hmem : socket ∈ s.assigned)
      (hfar : owner.tcpPort + owner.poolSize ≤ socket)
  | exhausted (h : MAX_PORT + 1 < owner.ports s)

section Settled

variable {owner : SocketRunner} {s t : Shared} {attempts : Nat → Attempt}

theorem Settled.range (h : Settled owner s) {i : Nat} (hi : i < s.processCount) :
    (s.process i).socket ∈ Set.Icc owner.tcpPort (owner.tcpPort + (owner.poolSize - 1)) := by
  have hcount := h.processCount
  rw [Set.mem_Icc, ← h.sockets i (by omega)]
  exact ⟨Nat.le_add_right _ i, Nat.add_le_add_left (by omega) _⟩

theorem Settled.inRange (h : Settled owner s) : InRange owner s := by
  have hcount := h.processCount
  refine ⟨fun i hi => h.range hi, h.assigned, fun i hi j hj _ _ hne heq => ?_, h.room⟩
  have hi' := h.sockets i (by omega)
  have hj' := h.sockets j (by omega)
  rw [← heq] at hj'
  omega

theorem Settled.of_same (h : Settled owner s) (hsame : SameSockets s t)
    (hassigned : t.assigned = s.assigned) (hle : owner.ports s ≤ owner.ports t)
    (hroom : owner.ports t ≤ MAX_PORT + 1) : Settled owner t where
  processCount := hsame.processCount.trans h.processCount
  sockets i hi := (h.sockets i hi).trans (hsame.socket i).symm
  assigned := hassigned ▸ h.assigned
  handedOut := h.handedOut.trans hle
  room := hroom

-- A runner is started on the port of a process.
theorem Settled.assign (h : Settled owner s) {i : ProcessId} (hi : i < s.processCount) :
    Settled owner (s.assign (s.process i).socket) where
  processCount := h.processCount
  sockets := h.sockets
  assigned socket hmem := by
    rcases List.mem_cons.mp hmem with rfl | hold
    · exact h.range hi
    · exact h.assigned socket hold
  handedOut := h.handedOut
  room := h.room

theorem Strayed.not_inRange (h : Strayed owner s) : ¬ InRange owner s := by
  intro hrange
  cases h with
  | started socket hmem hfar =>
      have hpos := owner.poolSize_pos
      have hle := Nat.le_trans hfar (Set.mem_Icc.mp (hrange.assigned socket hmem)).2
      omega
  | exhausted h => exact absurd hrange.room (Nat.not_le.mpr h)

-- What has strayed does not come back.
theorem Strayed.deals (h : Strayed owner s) (hdeals : Deals owner s t) : Strayed owner t := by
  cases h with
  | started socket hmem hfar => exact .started socket (hdeals.kept socket hmem) hfar
  | exhausted h => exact .exhausted (h.trans_le hdeals.ports_le)

theorem spawnProcess_refused (h : Refused owner s attempts) :
    (s.spawnProcess owner none attempts).1 = none ∧
      SameSockets s (s.spawnProcess owner none attempts).2 ∧
      (s.spawnProcess owner none attempts).2.assigned = s.assigned ∧
      owner.ports s ≤ owner.ports (s.spawnProcess owner none attempts).2 ∧
      owner.ports (s.spawnProcess owner none attempts).2 ≤ MAX_PORT + 1 := by
  obtain ⟨hsame, hdeals, hfresh⟩ := spawnProcess_fresh owner attempts s
  have hroom := h.room
  have hports_le := hdeals.ports_le
  generalize s.spawnProcess owner none attempts = answer at hsame hports_le hfresh ⊢
  obtain ⟨found, last⟩ := answer
  cases hfresh with
  | refused _ hports hmax hassigned => exact ⟨rfl, hsame, hassigned, hports_le, hmax⟩
  | abandoned hstarts _ _ => exact absurd hstarts h.unstarted
  | reached hstarts _ _ _ _ _ => exact absurd hstarts h.unstarted
  | exhausted _ hexhausted =>
      have hfar := hexhausted h.unstarted
      omega

-- The ports that a spawn asks for are past those of the start.
theorem strayed_spawnProcess (h : Settled owner s) (hnot : ¬ Refused owner s attempts) :
    Strayed owner (s.spawnProcess owner none attempts).2 := by
  obtain ⟨-, -, hfresh⟩ := spawnProcess_fresh owner attempts s
  generalize s.spawnProcess owner none attempts = answer at hfresh ⊢
  obtain ⟨found, last⟩ := answer
  cases hfresh with
  | refused hunstarted hports hmax _ => exact absurd ⟨hunstarted, by omega⟩ hnot
  | abandoned _ hmem hle => exact .started _ hmem (h.handedOut.trans hle)
  | reached _ hmem hle _ _ _ => exact .started _ hmem (h.handedOut.trans hle)
  | exhausted hexhausted _ => exact .exhausted hexhausted

-- A pool that is started again looks for ports past those it has had.
theorem strayed_startExternal (h : Settled owner s) :
    Strayed owner (Shared.startExternal owner owner.poolSize s).2 := by
  obtain ⟨n, hn⟩ := Nat.exists_eq_succ_of_ne_zero owner.poolSize_pos.ne'
  rw [hn, startExternal_succ]
  split_ifs with hmax
  · have hstarted : Strayed owner
        ((((s.nextTcpSocket owner).2.assign (owner.ports s)).newSemaphore owner).push
          { socket := owner.ports s, permits := s.semaphoreCount }) :=
      .started (owner.ports s) List.mem_cons_self h.handedOut
    exact hstarted.deals (deals_startExternal n _)
  · refine .exhausted ?_
    have hports : owner.ports (s.nextTcpSocket owner).2 = owner.ports s + 1 := rfl
    dsimp only
    omega

theorem strayed_startProcesses {attempts : Nat → Nat → Attempt} (h : Settled owner s)
    (hattempts : ¬ Refused owner s (attempts (owner.poolSize - 1))) :
    Strayed owner (Shared.startProcesses owner attempts owner.poolSize s).2 := by
  obtain ⟨n, hn⟩ := Nat.exists_eq_succ_of_ne_zero owner.poolSize_pos.ne'
  have hspawn := strayed_spawnProcess h hattempts
  rw [hn, Nat.succ_sub_one] at hspawn
  rw [hn, Shared.startProcesses]
  generalize s.spawnProcess owner none (attempts n) = answer at hspawn ⊢
  obtain ⟨found, mid⟩ := answer
  cases found with
  | some process =>
      have hpushed : Deals owner mid (mid.push process) := .of_eq rfl rfl
      exact hspawn.deals (hpushed.trans (deals_startProcesses attempts n _))
  | none =>
      obtain ⟨-, hports, hassigned⟩ := terminateAll_keeps owner mid.processes mid
      exact hspawn.deals (.of_eq hports hassigned)

theorem settled_terminateAll (h : Settled owner s) :
    Settled owner { s.terminateAll s.processes with processes := [] } := by
  obtain ⟨hsame, hports, hassigned⟩ := terminateAll_keeps owner s.processes s
  exact h.of_same ⟨hsame.socket, hsame.processCount⟩ hassigned hports.ge (hports.le.trans h.room)

theorem settled_startProcesses {attempts : Nat → Nat → Attempt} (h : Settled owner s)
    (hattempts : Refused owner s (attempts (owner.poolSize - 1))) :
    Settled owner (Shared.startProcesses owner attempts owner.poolSize s).2 := by
  obtain ⟨n, hn⟩ := Nat.exists_eq_succ_of_ne_zero owner.poolSize_pos.ne'
  obtain ⟨hnone, hsame, hassigned, hle, hroom⟩ := spawnProcess_refused hattempts
  rw [hn, Nat.succ_sub_one] at hnone hsame hassigned hle hroom
  rw [hn, Shared.startProcesses]
  generalize s.spawnProcess owner none (attempts n) = answer at hnone hsame hassigned hle hroom ⊢
  obtain ⟨found, mid⟩ := answer
  obtain rfl : found = none := hnone
  exact settled_terminateAll (h.of_same hsame hassigned hle hroom)

-- A respawn that starts no runner on the port of before goes on to new ports.
theorem respawn_cases {i : ProcessId} {attempts : Nat → Nat → Attempt} (h : Settled owner s)
    (hi : i < s.processCount) (hmanaged : owner.external = false) :
    (FirstFree (· = .connected) (attempts 0) REUSE_SOCKET_MAX_ATTEMPTS ∧
        Settled owner (s.respawn owner i attempts).2) ∨
      ¬ FirstFree (· = .connected) (attempts 0) REUSE_SOCKET_MAX_ATTEMPTS ∧
        ∃ mid, Settled owner mid ∧ i < mid.processCount ∧ owner.ports mid = owner.ports s ∧
          (s.respawn owner i attempts).2 =
            match mid.spawnProcess owner none (attempts 1) with
            | (some process, s) => s.modify i fun _ => process
            | (none, s) => s := by
  have hsame : SameSockets s (s.terminate i) := sameSockets_modify i _ rfl
  have hterminated : Settled owner (s.terminate i) := h.of_same hsame rfl le_rfl h.room
  have hassigned : Settled owner ((s.terminate i).assign (s.process i).socket) := by
    rw [← hsame.socket i]
    exact hterminated.assign hi
  have hreuse := spawnAttempts_reuse owner (s.process i).socket (attempts 0)
    REUSE_SOCKET_MAX_ATTEMPTS (s.terminate i)
  have hspawn : (s.terminate i).spawnProcess owner (some (s.process i).socket) (attempts 0) =
      Shared.spawnAttempts owner (some (s.process i).socket) (attempts 0)
        REUSE_SOCKET_MAX_ATTEMPTS (s.terminate i) := rfl
  unfold Shared.respawn
  rw [if_neg (by simp [hmanaged]), hspawn]
  rcases hreuse with ⟨hreached, heq⟩ | ⟨hnot, heq⟩
  · left
    refine ⟨hreached, ?_⟩
    rw [heq]
    have hnew : Settled owner
        (((s.terminate i).assign (s.process i).socket).newSemaphore owner) :=
      hassigned.of_same ⟨fun _ => rfl, rfl⟩ rfl le_rfl h.room
    dsimp only
    exact hnew.of_same (sameSockets_modify i _ (hsame.socket i).symm) rfl le_rfl h.room
  · right
    refine ⟨hnot, ?_⟩
    rcases heq with heq | heq
    · refine ⟨_, hterminated, hi, rfl, ?_⟩
      rw [heq]
      dsimp only
      generalize Shared.spawnProcess owner _ none (attempts 1) = answer
      obtain ⟨found, last⟩ := answer
      cases found <;> rfl
    · refine ⟨_, hassigned, hi, rfl, ?_⟩
      rw [heq]
      dsimp only
      generalize Shared.spawnProcess owner _ none (attempts 1) = answer
      obtain ⟨found, last⟩ := answer
      cases found <;> rfl

theorem settled_respawn {i : ProcessId} {attempts : Nat → Nat → Attempt} (h : Settled owner s)
    (hi : i < s.processCount) (hkeeps : KeepsPorts owner (.respawn i attempts) s) :
    Settled owner (s.respawn owner i attempts).2 := by
  cases hexternal : owner.external with
  | true =>
      unfold Shared.respawn
      rw [if_pos hexternal]
      dsimp only
      exact h.of_same (sameSockets_modify i _ rfl) rfl le_rfl h.room
  | false =>
      rcases respawn_cases h hi hexternal with ⟨-, hsettled⟩ | ⟨hnot, mid, hmid, -, hports, heq⟩
      · exact hsettled
      · have hrefused : Refused owner mid (attempts 1) := by
          rcases hkeeps with hmanaged | hreached | hrefused
          · rw [hexternal] at hmanaged
            cases hmanaged
          · exact absurd hreached hnot
          · exact ⟨hrefused.unstarted, hports ▸ hrefused.room⟩
        obtain ⟨hnone, hsame, hassigned, hle, hroom⟩ := spawnProcess_refused hrefused
        rw [heq]
        generalize mid.spawnProcess owner none (attempts 1) = answer
          at hnone hsame hassigned hle hroom ⊢
        obtain ⟨found, last⟩ := answer
        obtain rfl : found = none := hnone
        exact hmid.of_same hsame hassigned hle hroom

theorem strayed_respawn {i : ProcessId} {attempts : Nat → Nat → Attempt} (h : Settled owner s)
    (hi : i < s.processCount) (hkeeps : ¬ KeepsPorts owner (.respawn i attempts) s) :
    Strayed owner (s.respawn owner i attempts).2 := by
  simp only [KeepsPorts, not_or] at hkeeps
  obtain ⟨hexternal, hreuse, hrefused⟩ := hkeeps
  have hmanaged : owner.external = false := by simpa using hexternal
  rcases respawn_cases h hi hmanaged with ⟨hreached, -⟩ | ⟨-, mid, hmid, -, hports, heq⟩
  · exact absurd hreached hreuse
  · have hunrefused : ¬ Refused owner mid (attempts 1) := fun hr =>
      hrefused ⟨hr.unstarted, hports ▸ hr.room⟩
    have hspawn := strayed_spawnProcess hmid hunrefused
    rw [heq]
    generalize mid.spawnProcess owner none (attempts 1) = answer at hspawn ⊢
    obtain ⟨found, last⟩ := answer
    cases found with
    | none => exact hspawn
    | some process => exact hspawn.deals (.of_eq rfl rfl)

theorem settled_step {event : PortEvent} (h : Settled owner s) (hkeeps : KeepsPorts owner event s)
    (hstep : owner.pool.step event s = some t) : Settled owner t := by
  cases event with
  | ensureStarted attempts =>
      cases hstep
      unfold Shared.ensureStarted
      split_ifs with hempty hexternal
      · exact h
      · rcases hkeeps with hne | ⟨hmanaged, -⟩
        · exact absurd hne hempty
        · rw [hexternal] at hmanaged
          cases hmanaged
      · rcases hkeeps with hne | ⟨-, hrefused⟩
        · exact absurd hne hempty
        · exact settled_startProcesses h hrefused
  | childExits i =>
      obtain ⟨-, hexits⟩ := Option.ite_none_right_eq_some.mp hstep
      cases hexits
      exact h.of_same (sameSockets_modify i _ rfl) rfl le_rfl h.room
  | respawn i attempts =>
      obtain ⟨hi, hrespawned⟩ := Option.ite_none_right_eq_some.mp hstep
      cases hrespawned
      exact settled_respawn h hi hkeeps
  | terminate i =>
      obtain ⟨-, hterminated⟩ := Option.ite_none_right_eq_some.mp hstep
      cases hterminated
      exact h.of_same (sameSockets_modify i _ rfl) rfl le_rfl h.room
  | close =>
      cases hstep
      exact settled_terminateAll h

theorem strayed_step {event : PortEvent} (h : Settled owner s) (hkeeps : ¬ KeepsPorts owner event s)
    (hstep : owner.pool.step event s = some t) : Strayed owner t := by
  cases event with
  | ensureStarted attempts =>
      cases hstep
      rw [KeepsPorts, not_or, not_and] at hkeeps
      obtain ⟨hempty, hrefused⟩ := hkeeps
      unfold Shared.ensureStarted
      rw [if_neg hempty]
      cases hexternal : owner.external with
      | true => exact strayed_startExternal h
      | false => exact strayed_startProcesses h (hrefused hexternal)
  | respawn i attempts =>
      obtain ⟨hi, hrespawned⟩ := Option.ite_none_right_eq_some.mp hstep
      cases hrespawned
      exact strayed_respawn h hi hkeeps
  | childExits | terminate | close => exact absurd trivial hkeeps

end Settled

theorem Joined.settled {owner : SocketRunner} {s : Shared} (h : Joined owner owner.poolSize {} s)
    (hports : owner.ports s = owner.ports {} + owner.poolSize)
    (hassigned : ∀ socket ∈ s.assigned,
      socket ∈ Set.Icc owner.tcpPort (owner.tcpPort + (owner.poolSize - 1))) : Settled owner s where
  processCount := h.processCount.trans (Nat.zero_add _)
  sockets i hi := by
    have hturn := h.inTurn hports i hi
    rwa [Nat.zero_add] at hturn
  assigned := hassigned
  handedOut := h.ports_le
  room := h.room owner.poolSize_pos.ne'

theorem startExternal_ports_le {owner : SocketRunner} (n : Nat) (s : Shared) :
    owner.ports (Shared.startExternal owner n s).2 ≤ owner.ports s + n := by
  induction n generalizing s with
  | zero => exact le_rfl
  | succ n ih =>
      rw [startExternal_succ]
      split_ifs
      · refine (ih _).trans (Nat.le_of_eq ?_)
        exact Nat.add_right_comm _ 1 n
      · exact Nat.add_le_add_left (Nat.succ_pos n) _

theorem start_external {owner : SocketRunner} (attempts : Nat → Nat → Attempt)
    (hexternal : owner.external = true) :
    owner.start attempts = Shared.startExternal owner owner.poolSize {} := by
  simp [SocketRunner.start, Shared.ensureStarted, hexternal]

theorem start_managed {owner : SocketRunner} (attempts : Nat → Nat → Attempt)
    (hmanaged : owner.external = false) :
    owner.start attempts = Shared.startProcesses owner attempts owner.poolSize {} := by
  simp [SocketRunner.start, Shared.ensureStarted, hmanaged]

-- The runners that a start starts, whether or not a pool comes of it.
theorem start_assigned_iff (owner : SocketRunner) (attempts : Nat → Nat → Attempt) :
    (∀ socket ∈ (owner.start attempts).2.assigned,
      socket ∈ Set.Icc owner.tcpPort (owner.tcpPort + (owner.poolSize - 1))) ↔
    KeepsStart owner attempts := by
  have hpos := owner.poolSize_pos
  have hzero : owner.ports {} = owner.tcpPort := rfl
  cases hexternal : owner.external with
  | true =>
      refine iff_of_true (fun (socket : Nat) hmem => ?_) fun hmanaged => ?_
      · rw [start_external attempts hexternal] at hmem
        have hle : owner.ports (Shared.startExternal owner owner.poolSize {}).2 ≤
            owner.ports {} + owner.poolSize := startExternal_ports_le owner.poolSize {}
        obtain ⟨hge, hlt⟩ : owner.ports {} ≤ socket ∧
            socket < owner.ports (Shared.startExternal owner owner.poolSize {}).2 :=
          ((deals_startExternal owner.poolSize {}).fresh socket hmem).resolve_left List.not_mem_nil
        have hbounds : owner.tcpPort ≤ socket ∧ socket ≤ owner.tcpPort + (owner.poolSize - 1) := by
          omega
        exact Set.mem_Icc.mpr hbounds
      · rw [hexternal] at hmanaged
        cases hmanaged
  | false =>
      rw [start_managed attempts hexternal]
      constructor
      · intro hrange _ n attempt hn hfar hmax hstarts
        have hmem := hrange (owner.tcpPort + n) ((startProcesses_assigned attempts _ _ _).mpr
          (.inr ⟨n, attempt, hn, hstarts, rfl, hmax⟩))
        have hle : n ≤ owner.poolSize - 1 := Nat.le_of_add_le_add_left (Set.mem_Icc.mp hmem).2
        omega
      · intro hkeeps socket hmem
        obtain ⟨n, attempt, hn, hstarts, rfl, hmax⟩ :=
          ((startProcesses_assigned attempts _ _ _).mp hmem).resolve_left List.not_mem_nil
        have hnear : n < owner.poolSize := by
          by_contra hfar
          exact hkeeps hexternal n attempt hn (Nat.not_lt.mp hfar) hmax hstarts
        have hle : n ≤ owner.poolSize - 1 := by omega
        rw [hzero]
        exact Set.mem_Icc.mpr ⟨Nat.le_add_right _ n, Nat.add_le_add_left hle _⟩

-- The process that came last has the last of the ports.
theorem Joined.ports_eq {owner : SocketRunner} {s : Shared} (h : Joined owner owner.poolSize {} s)
    (hassigned : ∀ socket ∈ s.assigned,
      socket ∈ Set.Icc owner.tcpPort (owner.tcpPort + (owner.poolSize - 1))) :
    owner.ports s = owner.ports {} + owner.poolSize := by
  obtain ⟨n, hn⟩ := Nat.exists_eq_succ_of_ne_zero owner.poolSize_pos.ne'
  have hcount := h.processCount
  have hports := h.ports_le
  rw [show ({} : Shared).processCount = 0 from rfl, Nat.zero_add] at hcount
  obtain ⟨hlast, hmem⟩ := h.last n (hcount.trans hn) (Nat.zero_le n)
  have hle := Nat.succ_le_succ (Set.mem_Icc.mp (hassigned _ hmem)).2
  have hzero : owner.ports {} = owner.tcpPort := rfl
  rw [← Nat.add_one, ← hlast] at hle
  omega

-- How a pool that has just been started stands.
theorem start_settled {owner : SocketRunner} {attempts : Nat → Nat → Attempt}
    (hstart : (owner.start attempts).1 = true) (hkeeps : KeepsStart owner attempts) :
    Settled owner (owner.start attempts).2 := by
  have hrange := (start_assigned_iff owner attempts).mpr hkeeps
  have hjoined : Joined owner owner.poolSize {} (owner.start attempts).2 := by
    cases hexternal : owner.external with
    | true =>
        rw [start_external attempts hexternal] at hstart ⊢
        exact (startExternal_joined (Prod.ext hstart rfl)).1
    | false =>
        rw [start_managed attempts hexternal] at hstart ⊢
        exact (startProcesses_joined (Prod.ext hstart rfl)).1
  exact hjoined.settled (hjoined.ports_eq hrange) hrange

-- A start that succeeds keeps to its ports if each runner is reached at its first attempt.
theorem keepsStart_iff_firstPorts {owner : SocketRunner} {attempts : Nat → Nat → Attempt}
    (hstart : (owner.start attempts).1 = true) :
    KeepsStart owner attempts ↔ FirstPorts owner attempts := by
  cases hexternal : owner.external with
  | true =>
      refine iff_of_true (fun hmanaged => ?_) fun hmanaged => ?_
      all_goals
        rw [hexternal] at hmanaged
        cases hmanaged
  | false =>
      rw [← start_assigned_iff, start_managed attempts hexternal]
      rw [start_managed attempts hexternal] at hstart
      obtain ⟨hjoined, hfirst⟩ := startProcesses_joined (Prod.ext hstart rfl)
      constructor
      · exact fun hrange _ => hfirst.mp (hjoined.ports_eq hrange)
      · intro hports (socket : Nat) hmem
        have hlast : owner.ports (Shared.startProcesses owner attempts owner.poolSize {}).2 =
            owner.ports {} + owner.poolSize := hfirst.mpr (hports hexternal)
        obtain ⟨hge, hlt⟩ : owner.ports {} ≤ socket ∧
            socket < owner.ports (Shared.startProcesses owner attempts owner.poolSize {}).2 :=
          ((deals_startProcesses attempts owner.poolSize {}).fresh socket hmem).resolve_left
            List.not_mem_nil
        have hzero : owner.ports {} = owner.tcpPort := rfl
        have hbounds : owner.tcpPort ≤ socket ∧ socket ≤ owner.tcpPort + (owner.poolSize - 1) := by
          omega
        exact Set.mem_Icc.mpr hbounds

-- Over the life of a pool: its start, and what follows where that succeeds.
theorem inRange_along_iff (owner : SocketRunner) (attempts : Nat → Nat → Attempt)
    (events : List PortEvent) :
    ((∀ socket ∈ (owner.start attempts).2.assigned,
        socket ∈ Set.Icc owner.tcpPort (owner.tcpPort + (owner.poolSize - 1))) ∧
      ((owner.start attempts).1 = true →
        owner.pool.Along (InRange owner) events (owner.start attempts).2)) ↔
    KeepsStart owner attempts ∧
      ((owner.start attempts).1 = true →
        owner.pool.Admitted (KeepsPorts owner) events (owner.start attempts).2) := by
  rw [start_assigned_iff]
  refine and_congr_right fun hkeeps => forall_congr' fun hstart => ?_
  exact EventSystem.along_iff (fun _ => Settled.inRange) (fun _ _ _ => settled_step)
    (fun _ _ _ h hkeeps hstep => (strayed_step h hkeeps hstep).not_inRange)
    (start_settled hstart hkeeps) events

structure Undisturbed (owner : SocketRunner) (s t : Shared) : Prop where
  sockets : SameSockets s t
  ports : owner.ports t = owner.ports s
  assigned : t.assigned = s.assigned

-- The calls of the runner move its pool by these events, and by nothing else they do.
theorem exec_pool {owner : SocketRunner} {call : CallId} {op : SocketOp} {chance : SocketChance}
    {s : Shared} (hop : ∀ i, op = .respawn i → i < s.processCount) :
    (∃ event, owner.pool.step event s = some (owner.exec call op chance s).2) ∨
      Undisturbed owner s (owner.exec call op chance s).2 := by
  cases op with
  | ensureStarted => exact .inl ⟨.ensureStarted chance.attempts, rfl⟩
  | respawn i => exact .inl ⟨.respawn i chance.attempts, if_pos (hop i rfl)⟩
  | terminate i reason =>
      right
      change Undisturbed owner s (s.terminate i)
      exact ⟨sameSockets_modify i _ rfl, rfl, rfl⟩
  | tryAcquireOwned permits =>
      right
      change Undisturbed owner s (s.tryAcquireOwned call permits).2
      unfold Shared.tryAcquireOwned
      split_ifs <;> exact ⟨⟨fun _ => rfl, rfl⟩, rfl, rfl⟩
  | dropPermit =>
      right
      change Undisturbed owner s (s.dropPermit call)
      unfold Shared.dropPermit
      split <;> exact ⟨⟨fun _ => rfl, rfl⟩, rfl, rfl⟩
  | connect socket =>
      right
      change Undisturbed owner s (s.connect chance.succeeds).2
      unfold Shared.connect
      split_ifs <;> exact ⟨⟨fun _ => rfl, rfl⟩, rfl, rfl⟩
  | install i socket connection =>
      right
      change Undisturbed owner s (s.install i socket connection).2
      unfold Shared.install
      split_ifs
      · exact ⟨.refl s, rfl, rfl⟩
      · split
        · exact ⟨.refl s, rfl, rfl⟩
        · dsimp only
          exact ⟨sameSockets_modify i _ rfl, rfl, rfl⟩
  | invalidateConnection i connection =>
      right
      change Undisturbed owner s (s.invalidateConnection i connection)
      unfold Shared.invalidateConnection
      split_ifs
      · exact ⟨sameSockets_modify i _ rfl, rfl, rfl⟩
      · exact ⟨.refl s, rfl, rfl⟩
  | receive connection id =>
      right
      change Undisturbed owner s (s.receive connection id chance.outcome)
      unfold Shared.receive
      split_ifs <;> exact ⟨⟨fun _ => rfl, rfl⟩, rfl, rfl⟩
  | _ => exact .inr ⟨⟨fun _ => rfl, rfl⟩, rfl, rfl⟩

section Samples

def oneProcess : SocketRunner where
  external := false
  poolSize := 1
  maxInFlight := 1
  tcpPort := 8000
  responseTimeout := false
  sendCancelHints := true
  poolSize_pos := Nat.one_pos
  maxInFlight_pos := Nat.one_pos
  maxInFlight_le := by decide
  tcpPort_pos := by decide
  range_le := by decide

-- A process that gets its port back at the second attempt.
theorem inRange_along_oneProcess : oneProcess.pool.Along (InRange oneProcess)
    [.childExits 0, .respawn 0 fun _ n => if n = 0 then .busy else .connected]
    (oneProcess.start fun _ _ => .connected).2 := by
  have hstart : (oneProcess.start fun _ _ => .connected).1 = true := rfl
  refine ((inRange_along_iff oneProcess (fun _ _ => .connected) _).mpr ⟨?_, fun _ => ?_⟩).2 hstart
  · exact (keepsStart_iff_firstPorts hstart).mpr fun _ _ _ => rfl
  · intro exited _
    refine ⟨trivial, fun respawned _ => ⟨.inr (.inl ⟨1, by decide, ?_, rfl⟩), trivial⟩⟩
    intro k hk
    obtain rfl : k = 0 := by omega
    rfl

-- One whose port stays busy moves on to a port that the pool was not given. A runner is started
-- there even if it is not reached then.
theorem pool_leaves_range :
    (oneProcess.pool.run (fun _ _ => true)
      [.childExits 0, .respawn 0 fun spawn _ => if spawn = 0 then .busy else .connected]
      (oneProcess.start fun _ _ => .connected).2).map
        (fun s => (s.process 0).socket) = some 8001 ∧
    (oneProcess.pool.run (fun _ _ => true)
      [.childExits 0, .respawn 0 fun spawn _ => if spawn = 0 then .busy else .unreached]
      (oneProcess.start fun _ _ => .connected).2).map
        Shared.assigned = some [8001, 8000] ∧
    ¬ ∀ (owner : SocketRunner) (attempts : Nat → Nat → Attempt),
      (owner.start attempts).1 = true →
        ∀ events, owner.pool.Along (InRange owner) events (owner.start attempts).2 := by
  refine ⟨rfl, rfl, fun h => ?_⟩
  have hall := h oneProcess (fun _ _ => .connected) rfl
    [.childExits 0, .respawn 0 fun spawn _ => if spawn = 0 then .busy else .connected]
  have hlast := (hall.2 _ rfl).2 _ rfl
  have hsocket := Set.mem_Icc.mp (hlast.range 0 (by decide))
  exact absurd hsocket.2 (by decide)

end Samples

end Rrq.Runner
