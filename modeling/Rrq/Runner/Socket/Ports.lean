import Rrq.Runner.Socket

-- The sockets of the processes. Ports are given out once.

namespace Rrq.Runner

def SocketRunner.ports (owner : SocketRunner) (s : Shared) : Nat := owner.tcpPort + s.tcpPortCursor

-- The processes have the sockets that they had.
structure SameSockets (s t : Shared) : Prop where
  socket : ∀ i, (t.process i).socket = (s.process i).socket
  processCount : t.processCount = s.processCount

section SameSockets

variable {s t u : Shared}

theorem SameSockets.refl (s : Shared) : SameSockets s s := ⟨fun _ => rfl, rfl⟩

theorem SameSockets.trans (hst : SameSockets s t) (htu : SameSockets t u) : SameSockets s u :=
  ⟨fun i => (htu.socket i).trans (hst.socket i), htu.processCount.trans hst.processCount⟩

theorem sameSockets_modify (i : ProcessId) (update : SocketProcess → SocketProcess)
    (h : (update (s.process i)).socket = (s.process i).socket) : SameSockets s (s.modify i update) := by
  refine ⟨fun j => ?_, rfl⟩
  unfold Shared.modify
  by_cases hj : j = i
  · subst hj
    simpa only [Function.update_self] using h
  · simp only [Function.update_of_ne hj]

end SameSockets

-- A process keeps its socket or moves to a port that has not been given out before.
structure Moves (owner : SocketRunner) (s t : Shared) : Prop where
  ports_le : owner.ports s ≤ owner.ports t
  moved : ∀ i, (t.process i).socket = (s.process i).socket ∨
    owner.ports s ≤ (t.process i).socket ∧ (t.process i).socket < owner.ports t
  inFlight : t.inFlight = s.inFlight

section Moves

variable {owner : SocketRunner} {s t u : Shared}

theorem Moves.refl (s : Shared) : Moves owner s s := ⟨le_rfl, fun _ => .inl rfl, rfl⟩

theorem Moves.trans (hst : Moves owner s t) (htu : Moves owner t u) : Moves owner s u := by
  refine ⟨hst.ports_le.trans htu.ports_le, fun i => ?_, htu.inFlight.trans hst.inFlight⟩
  rcases htu.moved i with hkept | ⟨hle, hlt⟩
  · rw [hkept]
    exact (hst.moved i).imp_right fun ⟨hle, hlt⟩ => ⟨hle, hlt.trans_le htu.ports_le⟩
  · exact .inr ⟨hst.ports_le.trans hle, hlt⟩

-- The sockets of the processes and the ports are left alone.
theorem Moves.of_eq (hprocess : ∀ i, (t.process i).socket = (s.process i).socket)
    (hcursor : t.tcpPortCursor = s.tcpPortCursor) (hflight : t.inFlight = s.inFlight) :
    Moves owner s t := by
  refine ⟨?_, fun i => .inl (hprocess i), hflight⟩
  rw [SocketRunner.ports, SocketRunner.ports, hcursor]

theorem moves_modify (i : ProcessId) (update : SocketProcess → SocketProcess)
    (h : (update (s.process i)).socket = (s.process i).socket) :
    Moves owner s (s.modify i update) := .of_eq (sameSockets_modify i update h).socket rfl rfl

theorem moves_newSemaphore (s : Shared) : Moves owner s (s.newSemaphore owner) :=
  .of_eq (fun _ => rfl) rfl rfl

theorem moves_terminate (i : ProcessId) : Moves owner s (s.terminate i) := moves_modify i _ rfl

theorem moves_terminateAll (processes : List ProcessId) (s : Shared) :
    Moves owner s (s.terminateAll processes) := by
  induction processes generalizing s with
  | nil => exact .refl s
  | cons i rest ih => exact (moves_terminate i).trans (ih _)

theorem moves_nextTcpSocket (s : Shared) : Moves owner s (s.nextTcpSocket owner).2 :=
  ⟨Nat.le_succ _, fun _ => .inl rfl, rfl⟩

-- A socket as it is after a spawn: that of before, or a new one.
def Given (owner : SocketRunner) (reuseSocket : Option RunnerSocketTarget) (s t : Shared)
    (socket : RunnerSocketTarget) : Prop :=
  reuseSocket = some socket ∨ owner.ports s ≤ socket ∧ socket < owner.ports t

theorem Given.mono {reuseSocket : Option RunnerSocketTarget} {socket : RunnerSocketTarget}
    (hs : owner.ports u ≤ owner.ports s) (h : Given owner reuseSocket s t socket) :
    Given owner reuseSocket u t socket :=
  h.imp_right fun ⟨hle, hlt⟩ => ⟨hs.trans hle, hlt⟩

theorem socketFor_spec (owner : SocketRunner) (reuseSocket : Option RunnerSocketTarget) (s : Shared) :
    Moves owner s (s.socketFor owner reuseSocket).2 ∧
      ∀ socket, (s.socketFor owner reuseSocket).1 = some socket →
        Given owner reuseSocket s (s.socketFor owner reuseSocket).2 socket := by
  cases reuseSocket with
  | some socket => exact ⟨.refl s, fun _ h => .inl h⟩
  | none =>
      refine ⟨moves_nextTcpSocket s, fun socket h => .inr ?_⟩
      simp only [Shared.socketFor, Shared.nextTcpSocket, Option.ite_none_right_eq_some,
        Option.some.injEq] at h
      obtain ⟨-, rfl⟩ := h
      exact ⟨le_rfl, Nat.lt_succ_self _⟩

theorem moves_assign (socket : RunnerSocketTarget) (s : Shared) : Moves owner s (s.assign socket) :=
  .of_eq (fun _ => rfl) rfl rfl

theorem spawnAttempts_spec (reuseSocket : Option RunnerSocketTarget) (attempts : Nat → Attempt)
    (left : Nat) (s : Shared) :
    Moves owner s (Shared.spawnAttempts owner reuseSocket attempts left s).2 ∧
      ∀ process, (Shared.spawnAttempts owner reuseSocket attempts left s).1 = some process →
        Given owner reuseSocket s (Shared.spawnAttempts owner reuseSocket attempts left s).2
          process.socket := by
  induction left generalizing attempts s with
  | zero => exact ⟨.refl s, nofun⟩
  | succ left ih =>
      obtain ⟨hmoves, hgiven⟩ := socketFor_spec owner reuseSocket s
      unfold Shared.spawnAttempts
      generalize hsocket : s.socketFor owner reuseSocket = answer at hmoves hgiven ⊢
      obtain ⟨found, mid⟩ := answer
      cases found with
      | none => exact ⟨hmoves, nofun⟩
      | some socket =>
          have hassigned : Moves owner s (mid.assign socket) := hmoves.trans (moves_assign socket mid)
          dsimp only
          cases attempts 0 with
          | busy =>
              obtain ⟨hrest, hspawned⟩ := ih (fun n => attempts (n + 1)) mid
              exact ⟨hmoves.trans hrest, fun process h => (hspawned process h).mono hmoves.ports_le⟩
          | failed => exact ⟨hmoves, nofun⟩
          | unreached =>
              dsimp only
              split_ifs
              · exact ⟨hassigned, nofun⟩
              · obtain ⟨hrest, hspawned⟩ := ih (fun n => attempts (n + 1)) (mid.assign socket)
                exact ⟨hassigned.trans hrest,
                  fun process h => (hspawned process h).mono hassigned.ports_le⟩
          | connected =>
              refine ⟨hassigned.trans (moves_newSemaphore _), fun process h => ?_⟩
              cases h
              exact hgiven socket rfl

theorem spawnProcess_spec (owner : SocketRunner) (reuseSocket : Option RunnerSocketTarget)
    (attempts : Nat → Attempt) (s : Shared) :
    Moves owner s (s.spawnProcess owner reuseSocket attempts).2 ∧
      ∀ process, (s.spawnProcess owner reuseSocket attempts).1 = some process →
        Given owner reuseSocket s (s.spawnProcess owner reuseSocket attempts).2 process.socket :=
  spawnAttempts_spec reuseSocket attempts _ s

-- A process is put where another was or where there was none.
theorem Moves.put (h : Moves owner s t) {i : ProcessId} {process : SocketProcess}
    (hgiven : Given owner (some (s.process i).socket) s t process.socket)
    (hu : u.process = Function.update t.process i process)
    (hcursor : u.tcpPortCursor = t.tcpPortCursor) (hflight : u.inFlight = t.inFlight) :
    Moves owner s u := by
  have hports : owner.ports u = owner.ports t := by
    rw [SocketRunner.ports, SocketRunner.ports, hcursor]
  refine ⟨hports ▸ h.ports_le, fun j => ?_, hflight.trans h.inFlight⟩
  rw [hu, hports]
  by_cases hj : j = i
  · subst hj
    rw [Function.update_self]
    exact hgiven.imp_left fun heq => (Option.some.inj heq).symm
  · rw [Function.update_of_ne hj]
    exact h.moved j

theorem moves_push {process : SocketProcess} (h : Moves owner s t)
    (hgiven : Given owner none s t process.socket) : Moves owner s (t.push process) :=
  h.put (i := t.processCount) (.inr (hgiven.resolve_left nofun)) rfl rfl rfl

theorem moves_startExternal (n : Nat) (s : Shared) :
    Moves owner s (Shared.startExternal owner n s).2 := by
  induction n generalizing s with
  | zero => exact .refl s
  | succ n ih =>
      obtain ⟨hmoves, hgiven⟩ := socketFor_spec owner none s
      unfold Shared.startExternal
      change Moves owner s (s.nextTcpSocket owner).2 at hmoves
      change ∀ socket, (s.nextTcpSocket owner).1 = some socket → Given owner none s
        (s.nextTcpSocket owner).2 socket at hgiven
      generalize s.nextTcpSocket owner = answer at hmoves hgiven ⊢
      obtain ⟨found, mid⟩ := answer
      cases found with
      | none => exact hmoves
      | some socket =>
          have hsemaphore := hmoves.trans
            ((moves_assign socket mid).trans (moves_newSemaphore (mid.assign socket)))
          have hpushed : Moves owner s (((mid.assign socket).newSemaphore owner).push
              { socket, permits := mid.semaphoreCount }) := moves_push hsemaphore (hgiven socket rfl)
          exact hpushed.trans (ih _)

theorem moves_startProcesses (attempts : Nat → Nat → Attempt) (n : Nat) (s : Shared) :
    Moves owner s (Shared.startProcesses owner attempts n s).2 := by
  induction n generalizing s with
  | zero => exact .refl s
  | succ n ih =>
      obtain ⟨hmoves, hgiven⟩ := spawnProcess_spec owner none (attempts n) s
      unfold Shared.startProcesses
      generalize s.spawnProcess owner none (attempts n) = answer at hmoves hgiven ⊢
      obtain ⟨found, mid⟩ := answer
      cases found with
      | none =>
          refine hmoves.trans ((moves_terminateAll mid.processes mid).trans ?_)
          exact .of_eq (fun _ => rfl) rfl rfl
      | some process => exact (moves_push hmoves (hgiven process rfl)).trans (ih _)

theorem moves_ensureStarted (attempts : Nat → Nat → Attempt) (s : Shared) :
    Moves owner s (s.ensureStarted owner attempts).2 := by
  unfold Shared.ensureStarted
  split_ifs
  · exact .refl s
  · exact moves_startExternal _ s
  · exact moves_startProcesses attempts _ s

theorem moves_respawn (i : ProcessId) (attempts : Nat → Nat → Attempt) (s : Shared) :
    Moves owner s (s.respawn owner i attempts).2 := by
  unfold Shared.respawn
  split_ifs
  · exact moves_modify i (fun process => { process with connection := none }) rfl
  have hterminate : Moves owner s (s.terminate i) := moves_terminate i
  obtain ⟨hfirst, hgiven⟩ := spawnProcess_spec owner (some (s.process i).socket)
    (attempts 0) (s.terminate i)
  generalize (s.terminate i).spawnProcess owner (some (s.process i).socket) (attempts 0) = answer
    at hfirst hgiven ⊢
  obtain ⟨found, mid⟩ := answer
  cases found with
  | some process =>
      exact (hterminate.trans hfirst).put ((hgiven process rfl).mono hterminate.ports_le) rfl rfl rfl
  | none =>
      obtain ⟨hsecond, hfresh⟩ := spawnProcess_spec owner none (attempts 1) mid
      have hmid := hterminate.trans hfirst
      dsimp only
      generalize mid.spawnProcess owner none (attempts 1) = answer at hsecond hfresh ⊢
      obtain ⟨found, last⟩ := answer
      cases found with
      | none => exact hmid.trans hsecond
      | some process =>
          have hnew := ((hfresh process rfl).mono hmid.ports_le).resolve_left nofun
          exact (hmid.trans hsecond).put (.inr hnew) rfl rfl rfl

theorem moves_tryAcquireOwned (call : CallId) (permits : SemaphoreId) (s : Shared) :
    Moves owner s (s.tryAcquireOwned call permits).2 := by
  unfold Shared.tryAcquireOwned
  split_ifs
  · exact .of_eq (fun _ => rfl) rfl rfl
  · exact .refl s

theorem moves_dropPermit (call : CallId) (s : Shared) : Moves owner s (s.dropPermit call) := by
  unfold Shared.dropPermit
  split
  · exact .refl s
  · exact .of_eq (fun _ => rfl) rfl rfl

theorem moves_connect (succeeds : Bool) (s : Shared) : Moves owner s (s.connect succeeds).2 := by
  unfold Shared.connect
  split_ifs
  · exact .of_eq (fun _ => rfl) rfl rfl
  · exact .refl s

theorem moves_install (i : ProcessId) (socket : RunnerSocketTarget) (connection : ConnectionId)
    (s : Shared) : Moves owner s (s.install i socket connection).2 := by
  unfold Shared.install
  split_ifs
  · exact .refl s
  split
  · exact .refl s
  · exact moves_modify i (fun process => { process with connection := some connection }) rfl

theorem moves_invalidateConnection (i : ProcessId) (connection : ConnectionId) (s : Shared) :
    Moves owner s (s.invalidateConnection i connection) := by
  unfold Shared.invalidateConnection
  split_ifs
  · exact moves_modify i (fun process => { process with connection := none }) rfl
  · exact .refl s

theorem moves_receive (connection : ConnectionId) (id : RequestId)
    (outcome : Option ExecutionOutcome) (s : Shared) :
    Moves owner s (s.receive connection id outcome) := by
  unfold Shared.receive
  split_ifs
  · exact .of_eq (fun _ => rfl) rfl rfl
  · exact .refl s

theorem moves_move {event : SocketEvent} (h : owner.machine.move event s = some t) :
    Moves owner s t := by
  cases event with
  | call id call turns => exact Option.some.inj h ▸ .refl s
  | drop id => exact Option.some.inj h ▸ moves_dropPermit id s
  | childExits i =>
      obtain ⟨-, hmoved⟩ := Option.ite_none_right_eq_some.mp h
      cases hmoved
      exact moves_modify i (fun process => { process with child := some .exited }) rfl
  | connectionCloses connection => exact Option.some.inj h ▸ .of_eq (fun _ => rfl) rfl rfl

end Moves

-- The operations that put requests in flight and take them out.
def SocketOp.Enters : SocketOp → Prop
  | .insertInFlight _ _ | .removeInFlight _ | .takeTimedOut _ => True
  | _ => False

section Exec

variable {owner : SocketRunner} {call : CallId} {op : SocketOp} {chance : SocketChance} {s : Shared}

theorem moves_exec (hop : ¬ op.Enters) : Moves owner s (owner.exec call op chance s).2 := by
  cases op with
  | insertInFlight | removeInFlight | takeTimedOut => exact absurd trivial hop
  | ensureStarted => exact moves_ensureStarted _ s
  | respawn i => exact moves_respawn i _ s
  | tryAcquireOwned permits => exact moves_tryAcquireOwned call permits s
  | dropPermit => exact moves_dropPermit call s
  | connect socket => exact moves_connect _ s
  | install i socket connection => exact moves_install i socket connection s
  | invalidateConnection i connection => exact moves_invalidateConnection i connection s
  | receive connection id => exact moves_receive connection id _ s
  | terminate i reason => exact moves_terminate i
  | advanceCursor | insertPending | removePendingRequest | clearProcesses =>
      exact .of_eq (fun _ => rfl) rfl rfl
  | _ => exact .refl s

-- What is in flight after an operation was before, or the operation has put it there.
theorem mem_exec_inFlight {entry : RequestId × InFlightRequest}
    (h : entry ∈ (owner.exec call op chance s).2.inFlight) :
    entry ∈ s.inFlight ∨ op = .insertInFlight entry.1 entry.2 := by
  by_cases hop : op.Enters
  · cases op with
    | insertInFlight id info =>
        rcases List.mem_cons.mp h with rfl | hmem
        · exact .inr rfl
        · exact .inl (List.mem_filter.mp hmem).1
    | removeInFlight id => exact .inl (List.mem_filter.mp h).1
    | takeTimedOut id => exact .inl (List.mem_filter.mp h).1
    | _ => exact hop.elim
  · rw [(moves_exec hop).inFlight] at h
    exact .inl h

theorem ports_le_exec : owner.ports s ≤ owner.ports (owner.exec call op chance s).2 := by
  by_cases hop : op.Enters
  · cases op with
    | insertInFlight | removeInFlight | takeTimedOut => exact le_rfl
    | _ => exact hop.elim
  · exact (moves_exec hop).ports_le

theorem socket_exec (owner : SocketRunner) (call : CallId) (op : SocketOp) (chance : SocketChance)
    (s : Shared) (i : ProcessId) :
    ((owner.exec call op chance s).2.process i).socket = (s.process i).socket ∨
      owner.ports s ≤ ((owner.exec call op chance s).2.process i).socket ∧
        ((owner.exec call op chance s).2.process i).socket <
          owner.ports (owner.exec call op chance s).2 := by
  by_cases hop : op.Enters
  · cases op with
    | insertInFlight | removeInFlight | takeTimedOut => exact .inl rfl
    | _ => exact hop.elim
  · exact (moves_exec hop).moved i

end Exec

end Rrq.Runner
