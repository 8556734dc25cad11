import Rrq.Concurrent.Conduct
import Rrq.Runner.Socket.Ports

-- What the calls of a runner have seen of the requests in flight, and what that is worth later.

namespace Rrq.Runner

open Machine

-- What a call has found out about the request it cleans up after.
structure Look where
  request : RequestId
  info : InFlightRequest
  hasOtherOnSocket : Bool
  -- The targeted cancel has failed.
  refused : Bool := false
  found : Option ProcessId := none

structure Sight where
  socket : Option RunnerSocketTarget := none
  look : Option Look := none

-- The requests that have been put in flight since a call looked stand beside its sight.
structure Ledger where
  sight : CallId → Sight := fun _ => {}
  since : CallId → List RequestId := fun _ => []

def Sight.next : Sight → (op : SocketOp) → op.Reply → Sight
  | sight, .connectionOf _, (socket, _) => { sight with socket := some socket }
  | sight, .timeoutTarget request, target | sight, .takeTimedOut request, target =>
      { sight with look := target.map fun (info, hasOtherOnSocket) =>
          { request, info, hasOtherOnSocket } }
  | sight, .sendCancel _ _, reply =>
      { sight with look := sight.look.map fun look =>
          { look with refused := look.refused || !reply.toBool } }
  | sight, .matchesSocket i _, found =>
      { sight with look := sight.look.map fun look =>
          if found then { look with found := some i } else look }
  | sight, _, _ => sight

-- The operations that a sight takes no note of.
def SocketOp.Unseen : SocketOp → Prop
  | .connectionOf _ | .timeoutTarget _ | .takeTimedOut _ | .sendCancel _ _ | .matchesSocket _ _ =>
      False
  | _ => True

def Ledger.noteSince (ledger : Ledger) (call : CallId) : SocketOp → CallId → List RequestId
  | .insertInFlight id _ => fun other => id :: ledger.since other
  | .timeoutTarget _ | .takeTimedOut _ => Function.update ledger.since call []
  | _ => ledger.since

def Ledger.note (call : CallId) (op : SocketOp) (reply : op.Reply) (ledger : Ledger) : Ledger where
  sight := Function.update ledger.sight call ((ledger.sight call).next op reply)
  since := ledger.noteSince call op

theorem note_sight {call : CallId} {op : SocketOp} (reply : op.Reply) (ledger : Ledger) :
    (ledger.note call op reply).sight =
      Function.update ledger.sight call ((ledger.sight call).next op reply) := rfl

-- The request that a call executes.
def RunnerCall.execution : RunnerCall → Option ExecutionRequest
  | execute request | executeWithTimeout request _ => some request
  | _ => none

abbrev RunnerPool := Pool SocketOp SocketOp.Reply (Shared × Ledger) CallId RunnerCall
abbrev RunnerLabel := Label SocketChance CallId SocketEvent

def SocketRunner.watched (owner : SocketRunner) :
    Machine SocketOp SocketOp.Reply SocketChance (Shared × Ledger) CallId RunnerCall SocketEvent :=
  owner.machine.recording Ledger.note fun _ ledger => ledger

theorem step_watched (owner : SocketRunner) (pool : RunnerPool) (label : RunnerLabel) :
    (owner.watched.step pool label).map bare = owner.machine.step (bare pool) label :=
  step_recording owner.machine Ledger.note _ pool label

namespace RunnerPool

def start : RunnerPool where
  state := ({}, {})
  procs _ := none

-- The call is about to terminate the process, to clean up after its request.
def Terminates (pool : RunnerPool) (call : CallId) (request : ExecutionRequest) (i : ProcessId) :
    Prop :=
  ∃ role reason next, pool.procs call = some (role, .call (.terminate i reason) next) ∧
    role.execution = some request

def CancelFailed (pool : RunnerPool) (call : CallId) : Prop :=
  ∃ look, (pool.state.2.sight call).look = some look ∧ look.refused = true

-- The requests in flight on the socket of a process.
def OnProcess (pool : RunnerPool) (i : ProcessId) (id : RequestId) : Prop :=
  ∃ info, (id, info) ∈ pool.state.1.inFlight ∧ info.socket = (pool.state.1.process i).socket

-- No other request is in flight on the socket of a process that is terminated, or the targeted
-- cancel has failed.
def Spares (pool : RunnerPool) : RunnerLabel → Prop
  | .run caller _ => ∀ request i, pool.Terminates caller request i →
      (∀ id, pool.OnProcess i id → id = request.requestId) ∨ pool.CancelFailed caller
  | .env _ => True

-- No other request that was put in flight after the call had looked for any is there.
def Undisturbed (pool : RunnerPool) : RunnerLabel → Prop
  | .run caller _ => ∀ request i, pool.Terminates caller request i →
      (∀ id ∈ pool.state.2.since caller, pool.OnProcess i id → id = request.requestId) ∨
        pool.CancelFailed caller
  | .env _ => True

end RunnerPool

-- What executing calls may do at each stage.
def RunnerCall.conduct (call : RunnerCall) : Conduct SocketOp SocketOp.Reply Sight where
  allows
    | sight, .insertInFlight _ info => sight.socket = some info.socket
    | sight, .matchesSocket _ socket => ∀ look, sight.look = some look → socket = look.info.socket
    | sight, .terminate i _ => ∀ request, call.execution = some request →
        ∃ look, sight.look = some look ∧ look.request = request.requestId ∧
          look.found = some i ∧ (look.hasOtherOnSocket = false ∨ look.refused = true)
    | _, _ => True
  possible _ _ _ := True
  next := Sight.next

-- What a look at the map is still good for. Requests on the socket, and on ports that were not
-- given out then, have come since.
structure Look.Holds (look : Look) (s : Shared) (since : List RequestId) (bound : Nat) : Prop where
  fresh : look.hasOtherOnSocket = false → ∀ entry ∈ s.inFlight, entry.1 ≠ look.request →
    entry.2.socket = look.info.socket ∨ bound ≤ entry.2.socket → entry.1 ∈ since
  found : ∀ i, look.found = some i →
    (s.process i).socket = look.info.socket ∨ bound ≤ (s.process i).socket

structure Sighted (owner : SocketRunner) (s : Shared) (ledger : Ledger) : Prop where
  process_lt : ∀ i, (s.process i).socket < owner.ports s
  entry_lt : ∀ entry ∈ s.inFlight, entry.2.socket < owner.ports s
  socket_lt : ∀ call socket, (ledger.sight call).socket = some socket → socket < owner.ports s
  look : ∀ call look, (ledger.sight call).look = some look →
    ∃ bound ≤ owner.ports s, look.Holds s (ledger.since call) bound

section Sighted

variable {owner : SocketRunner} {s t : Shared} {ledger : Ledger} {call : CallId}

theorem Look.Holds.moves {look : Look} {since : List RequestId} {bound : Nat}
    (h : look.Holds s since bound) (hm : Moves owner s t) (hbound : bound ≤ owner.ports s) :
    look.Holds t since bound := by
  refine ⟨fun hother entry hentry => ?_, fun i hi => ?_⟩
  · rw [hm.inFlight] at hentry
    exact h.fresh hother entry hentry
  · rcases hm.moved i with hkept | ⟨hle, -⟩
    · rw [hkept]
      exact h.found i hi
    · exact .inr (hbound.trans hle)

theorem Sighted.moves (h : Sighted owner s ledger) (hm : Moves owner s t) : Sighted owner t ledger := by
  refine ⟨fun i => ?_, fun entry hentry => ?_, fun call socket hsocket => ?_,
    fun call look hlook => ?_⟩
  · rcases hm.moved i with hkept | ⟨-, hlt⟩
    · rw [hkept]
      exact (h.process_lt i).trans_le hm.ports_le
    · exact hlt
  · rw [hm.inFlight] at hentry
    exact (h.entry_lt entry hentry).trans_le hm.ports_le
  · exact (h.socket_lt call socket hsocket).trans_le hm.ports_le
  · obtain ⟨bound, hbound, hholds⟩ := h.look call look hlook
    exact ⟨bound, hbound.trans hm.ports_le, hholds.moves hm hbound⟩

-- The operation itself.

variable {sight : Sight} {op : SocketOp} {chance : SocketChance}

theorem next_unseen (hop : op.Unseen) (reply : op.Reply) : sight.next op reply = sight := by
  cases op <;> first | exact hop.elim | rfl

theorem next_socket {socket : RunnerSocketTarget}
    (h : (sight.next op (owner.exec call op chance s).1).socket = some socket) :
    sight.socket = some socket ∨ ∃ i, (s.process i).socket = socket := by
  unfold Sight.next at h
  split at h
  case h_1 i socket connection heq =>
    obtain rfl := Option.some.inj h
    exact .inr ⟨i, congrArg Prod.fst heq⟩
  all_goals exact .inl h

-- A call that has looked has done so now, or knows what it did before and what it has found.
theorem next_look {look : Look}
    (h : (sight.next op (owner.exec call op chance s).1).look = some look) :
    (op = .timeoutTarget look.request ∨ op = .takeTimedOut look.request) ∧
        s.timeoutTarget look.request = some (look.info, look.hasOtherOnSocket) ∧
          look.found = none ∨
      ∃ before, sight.look = some before ∧ look.request = before.request ∧
        look.info = before.info ∧ look.hasOtherOnSocket = before.hasOtherOnSocket ∧
        (∀ id, op ≠ .timeoutTarget id ∧ op ≠ .takeTimedOut id) ∧
        (look.found = before.found ∨ ∃ i socket, op = .matchesSocket i socket ∧
          (s.process i).socket = socket ∧ look.found = some i) := by
  by_cases hop : op.Unseen
  · rw [next_unseen hop] at h
    refine .inr ⟨look, h, rfl, rfl, rfl, fun id => ⟨?_, ?_⟩, .inl rfl⟩
    · rintro rfl
      exact hop
    · rintro rfl
      exact hop
  cases op with
  | timeoutTarget id =>
      obtain ⟨_, htarget, rfl⟩ := Option.map_eq_some_iff.mp h
      exact .inl ⟨.inl rfl, htarget, rfl⟩
  | takeTimedOut id =>
      obtain ⟨_, htarget, rfl⟩ := Option.map_eq_some_iff.mp h
      exact .inl ⟨.inr rfl, htarget, rfl⟩
  | connectionOf i => exact .inr ⟨look, h, rfl, rfl, rfl, fun _ => ⟨nofun, nofun⟩, .inl rfl⟩
  | sendCancel socket payload =>
      obtain ⟨before, hbefore, rfl⟩ := Option.map_eq_some_iff.mp h
      exact .inr ⟨before, hbefore, rfl, rfl, rfl, fun _ => ⟨nofun, nofun⟩, .inl rfl⟩
  | matchesSocket i socket =>
      obtain ⟨before, hbefore, rfl⟩ := Option.map_eq_some_iff.mp h
      split_ifs with hfound
      · exact .inr ⟨before, hbefore, rfl, rfl, rfl, fun _ => ⟨nofun, nofun⟩,
          .inr ⟨i, socket, rfl, of_decide_eq_true hfound, rfl⟩⟩
      · exact .inr ⟨before, hbefore, rfl, rfl, rfl, fun _ => ⟨nofun, nofun⟩, .inl rfl⟩
  | _ => exact absurd trivial hop

-- What was known keeps, if what is put in flight is noted.
theorem Look.Holds.exec {look : Look} {since later : List RequestId} {bound : Nat}
    (h : look.Holds s since bound) (hbound : bound ≤ owner.ports s)
    (hsince : ∀ id ∈ since, id ∈ later)
    (hnew : ∀ id info, op = .insertInFlight id info → id ∈ later) :
    look.Holds (owner.exec call op chance s).2 later bound := by
  refine ⟨fun hother entry hentry hne hsocket => ?_, fun i hi => ?_⟩
  · rcases mem_exec_inFlight hentry with hold | hop
    · exact hsince _ (h.fresh hother entry hold hne hsocket)
    · exact hnew _ _ hop
  · rcases socket_exec owner call op chance s i with hkept | ⟨hle, -⟩
    · rw [hkept]
      exact h.found i hi
    · exact .inr (hbound.trans hle)

-- A call that looks sees what is there.
theorem holds_look {look : Look} (hs : Sighted owner s ledger) {since : List RequestId}
    (htarget : s.timeoutTarget look.request = some (look.info, look.hasOtherOnSocket))
    (hfound : look.found = none) : look.Holds s since (owner.ports s) := by
  obtain ⟨info, -, hinfo⟩ := Option.map_eq_some_iff.mp htarget
  obtain ⟨rfl, hother⟩ := Prod.mk.inj hinfo
  refine ⟨fun hnone entry hentry hne hsocket => ?_, fun i hi => ?_⟩
  · rcases hsocket with hsame | hle
    · rw [hnone, Shared.hasOtherOnSocket, List.any_eq_false] at hother
      exact absurd (decide_eq_true ⟨hne, hsame⟩) (hother entry hentry)
    · exact absurd hle (not_le.mpr (hs.entry_lt entry hentry))
  · rw [hfound] at hi
    cases hi

theorem mem_noteSince {other : CallId} (h : other ≠ call ∨ ∀ id, op ≠ .timeoutTarget id ∧
    op ≠ .takeTimedOut id) {id : RequestId} (hid : id ∈ ledger.since other) :
    id ∈ ledger.noteSince call op other := by
  have hlooks : (∃ id, op = .timeoutTarget id ∨ op = .takeTimedOut id) →
      id ∈ Function.update ledger.since call [] other := by
    rintro ⟨looked, hop⟩
    rcases h with hne | hnot
    · rwa [Function.update_of_ne hne]
    · exact absurd hop (not_or.mpr (hnot looked))
  cases op with
  | insertInFlight => exact List.mem_cons_of_mem _ hid
  | timeoutTarget looked => exact hlooks ⟨looked, .inl rfl⟩
  | takeTimedOut looked => exact hlooks ⟨looked, .inr rfl⟩
  | _ => exact hid

theorem sighted_exec (hs : Sighted owner s ledger) {role : RunnerCall}
    (ha : role.conduct.allows (ledger.sight call) op) :
    Sighted owner (owner.exec call op chance s).2
      (ledger.note call op (owner.exec call op chance s).1) := by
  have hports : owner.ports s ≤ owner.ports (owner.exec call op chance s).2 := ports_le_exec
  have hnew (other : CallId) : ∀ id info, op = .insertInFlight id info →
      id ∈ ledger.noteSince call op other := by
    rintro id info rfl
    exact List.mem_cons_self
  refine ⟨fun i => ?_, fun entry hentry => ?_, fun other socket hsocket => ?_,
    fun other look hlook => ?_⟩
  · rcases socket_exec owner call op chance s i with hkept | ⟨-, hlt⟩
    · rw [hkept]
      exact (hs.process_lt i).trans_le hports
    · exact hlt
  · rcases mem_exec_inFlight hentry with hold | rfl
    · exact (hs.entry_lt entry hold).trans_le hports
    · exact (hs.socket_lt call _ ha).trans_le hports
  · by_cases hother : other = call
    · subst hother
      rw [note_sight, Function.update_self] at hsocket
      rcases next_socket hsocket with hold | ⟨i, rfl⟩
      · exact (hs.socket_lt other socket hold).trans_le hports
      · exact (hs.process_lt i).trans_le hports
    · rw [note_sight, Function.update_of_ne hother] at hsocket
      exact (hs.socket_lt other socket hsocket).trans_le hports
  · by_cases hother : other = call
    · subst hother
      rw [note_sight, Function.update_self] at hlook
      rcases next_look hlook with ⟨hop, htarget, hfound⟩ | ⟨before, hbefore, hrequest, hinfo,
        hshared, hnot, hfound⟩
      · refine ⟨owner.ports s, hports, ?_⟩
        exact (holds_look hs htarget hfound).exec le_rfl (fun _ h => absurd h List.not_mem_nil)
          (hnew other)
      · obtain ⟨bound, hbound, hholds⟩ := hs.look other before hbefore
        refine ⟨bound, hbound.trans hports, ?_⟩
        have hfirst : look.Holds s (ledger.since other) bound := by
          refine ⟨fun hnone entry hentry hne hsocket => ?_, fun i hi => ?_⟩
          · exact hholds.fresh (hshared ▸ hnone) entry hentry (hrequest ▸ hne) (hinfo ▸ hsocket)
          · rcases hfound with hsame | ⟨j, socket, rfl, hat, hj⟩
            · rw [hinfo]
              exact hholds.found i (hsame ▸ hi)
            · rw [hj] at hi
              cases hi
              rw [hat, hinfo]
              exact .inl (ha before hbefore)
        exact hfirst.exec hbound (fun _ => mem_noteSince (.inr hnot)) (hnew other)
    · rw [note_sight, Function.update_of_ne hother] at hlook
      obtain ⟨bound, hbound, hholds⟩ := hs.look other look hlook
      exact ⟨bound, hbound.trans hports,
        hholds.exec hbound (fun _ => mem_noteSince (.inl hother)) (hnew other)⟩

theorem sighted_start (owner : SocketRunner) : Sighted owner {} {} :=
  ⟨fun _ => owner.tcpPort_pos, nofun, nofun, nofun⟩

end Sighted

end Rrq.Runner
