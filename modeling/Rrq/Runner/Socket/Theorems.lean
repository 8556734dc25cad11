import Rrq.Runner.Socket.Sights

-- Whether a call that has timed out takes others with it when it has its process terminated.

namespace Rrq.Runner

open Prog Conduct Machine

-- The operations that say nothing about the sight and are always allowed.
def SocketOp.Calm : SocketOp → Prop
  | .insertInFlight _ _ | .terminate _ _ => False
  | op => op.Unseen

abbrev CalmCode {α : Type} (prog : Code α) : Prop := prog.Issues SocketOp.Calm fun _ _ => True

section Calm

variable {α : Type} {owner : SocketRunner} {role : RunnerCall} {sight : Sight} {op : SocketOp}

theorem unseen_of_calm (h : op.Calm) : op.Unseen := by
  cases op <;> first | exact h.elim | exact h

theorem allows_of_calm (h : op.Calm) : role.conduct.allows sight op := by
  cases op <;> first | exact h.elim | trivial

theorem conforms_calm_holding (keeps : Sight → Prop) {prog : Code α} (hp : CalmCode prog)
    (hs : keeps sight) : (role.conduct.holding keeps).Conforms (fun _ last => last = sight) prog
      sight :=
  conforms_of_issues hp fun _ hop => ⟨⟨hs, allows_of_calm hop⟩,
    fun reply _ => ⟨trivial, next_unseen (unseen_of_calm hop) reply⟩⟩

theorem conforms_calm {prog : Code α} (hp : CalmCode prog) :
    role.conduct.Conforms (fun _ last => last = sight) prog sight :=
  (conforms_calm_holding (fun _ => True) hp trivial).of_holding

theorem calm_timeout {prog : Code α} (hp : CalmCode prog) : CalmCode (timeout prog) := by
  induction prog with
  | ret value => trivial
  | call op next ih =>
      refine ⟨trivial, fun elapsed _ => ?_⟩
      cases elapsed with
      | true => trivial
      | false => exact ⟨hp.1, fun reply hreply => ih reply (hp.2 reply hreply)⟩

-- A call that is dropped has kept to its conduct as far as it has come.
theorem conforms_timeout {keeps : Sight → Prop} {prog : Code α}
    (hp : (role.conduct.holding keeps).Conforms (fun _ last => keeps last) prog sight) :
    role.conduct.Conforms (fun _ last => keeps last) (timeout prog) sight := by
  induction prog generalizing sight with
  | ret value => exact hp
  | call op next ih =>
      refine ⟨trivial, fun elapsed _ => ?_⟩
      have hsame : role.conduct.next sight .elapsed elapsed = sight := rfl
      rw [hsame]
      cases elapsed with
      | true => exact hp.1.1
      | false => exact ⟨hp.1.2, fun reply hreply => ih reply (hp.2 reply hreply)⟩

theorem ensureProcess_calm (i : ProcessId) : CalmCode (owner.ensureProcess i) := by
  unfold SocketRunner.ensureProcess
  split_ifs
  · trivial
  · refine issues_call trivial fun needsRespawn _ => ?_
    split_ifs
    · exact issues_perform trivial
    · trivial

theorem tryProcesses_calm (processes : List ProcessId) :
    CalmCode (owner.tryProcesses processes) := by
  induction processes with
  | nil => trivial
  | cons i rest ih =>
      refine issues_bind (ensureProcess_calm i) fun ensured => ?_
      split
      · trivial
      · refine issues_call trivial fun permits _ => issues_call trivial fun acquired _ => ?_
        split_ifs
        · trivial
        · exact ih

theorem acquireTurns_calm (turns : Nat) : CalmCode (owner.acquireTurns turns) := by
  induction turns with
  | zero => trivial
  | succ turns ih =>
      refine issues_call trivial fun processes _ => ?_
      split_ifs
      · trivial
      refine issues_call trivial fun start _ => issues_bind (tryProcesses_calm _) fun found => ?_
      split
      · trivial
      · exact ih

theorem acquireProcess_calm (turns : Nat) : CalmCode (owner.acquireProcess turns) := by
  refine issues_call trivial fun started _ => ?_
  split
  · trivial
  · exact acquireTurns_calm turns

theorem giveUp_calm (connection : ConnectionId) (id : RequestId) (error : CallError) :
    CalmCode (SocketRunner.giveUp connection id error) :=
  issues_call trivial fun _ _ => trivial

theorem responseTimedOut_calm : CalmCode owner.responseTimedOut := by
  unfold SocketRunner.responseTimedOut
  split
  · exact issues_perform trivial
  · trivial

theorem executeOn_calm (connection : ConnectionId) (request : ExecutionRequest) :
    CalmCode (owner.executeOn connection request) := by
  refine issues_call trivial fun closed _ => ?_
  split
  · trivial
  refine issues_call trivial fun _ _ => issues_call trivial fun closed _ => ?_
  split
  · exact giveUp_calm connection _ _
  refine issues_call trivial fun sent _ => ?_
  split
  · exact giveUp_calm connection _ _
  refine issues_bind responseTimedOut_calm fun late => ?_
  split
  · exact giveUp_calm connection _ _
  · refine issues_call trivial fun outcome _ => ?_
    split <;> trivial

theorem clearPendingRequestForTimeout_calm (id : RequestId) (socket : RunnerSocketTarget) :
    CalmCode (SocketRunner.clearPendingRequestForTimeout id socket) := by
  refine issues_call trivial fun processes _ => issues_bind ?_ fun _ => trivial
  induction processes with
  | nil => trivial
  | cons i rest ih =>
      refine issues_call trivial fun connection _ => ?_
      split
      · exact issues_perform trivial
      · exact ih

end Calm

-- Before it has timed out.

def Sight.Blind (sight : Sight) : Prop := sight.look = none

theorem blind_start : Sight.Blind {} := rfl

section Executing

variable {owner : SocketRunner} {role : RunnerCall} {sight : Sight}

theorem isGone_calm (existing : Option ConnectionId) : CalmCode (SocketRunner.isGone existing) := by
  cases existing with
  | none => trivial
  | some connection => exact issues_perform trivial

theorem getOrCreateConnection_conforms (i : ProcessId) (turns : Nat) (hs : sight.Blind) :
    (role.conduct.holding Sight.Blind).Conforms (fun answer last => last.Blind ∧
      ∀ socket connection, answer = some (.ok (socket, connection)) → last.socket = some socket)
      (SocketRunner.getOrCreateConnection i turns) sight := by
  induction turns generalizing sight with
  | zero => exact conforms_ret ⟨hs, nofun⟩
  | succ turns ih =>
      refine conforms_call ⟨hs, trivial⟩ fun reply _ => ?_
      obtain ⟨socket, existing⟩ := reply
      have hseen : Sight.Blind { sight with socket := some socket } := hs
      have hat : ∀ connection answered other, (some (.ok (socket, connection)) :
          Option (Except RunnerError (RunnerSocketTarget × ConnectionId))) =
            some (.ok (answered, other)) → some socket = some answered := by
        rintro connection answered other heq
        cases heq
        rfl
      refine conforms_bind (conforms_calm_holding _ (isGone_calm existing) hseen) ?_
      rintro gone _ rfl
      split
      · exact conforms_ret ⟨hseen, hat _⟩
      · refine conforms_call ⟨hseen, trivial⟩ fun connected _ => ?_
        split
        · exact conforms_ret ⟨hseen, nofun⟩
        · refine conforms_call ⟨hseen, trivial⟩ fun installed _ => ?_
          split
          · exact ih hseen
          · exact conforms_ret ⟨hseen, hat _⟩

theorem executeWithProcess_conforms (turns : Nat) (i : ProcessId) (request : ExecutionRequest)
    (hs : sight.Blind) :
    (role.conduct.holding Sight.Blind).Conforms (fun _ last => last.Blind)
      (owner.executeWithProcess turns i request) sight := by
  refine conforms_bind (getOrCreateConnection_conforms i turns hs) ?_
  rintro answer last ⟨hlast, hsocket⟩
  split
  · exact conforms_ret hlast
  · exact conforms_ret hlast
  · refine conforms_call ⟨hlast, hsocket _ _ rfl⟩ fun _ _ => ?_
    refine conforms_bind (conforms_calm_holding _ (executeOn_calm _ request) hlast) ?_
    rintro outcome _ rfl
    split
    · exact conforms_ret hlast
    · exact conforms_call ⟨hlast, trivial⟩ fun _ _ => conforms_ret hlast

end Executing

-- Cleaning up.

section Cleanup

variable {role : RunnerCall} {socket : Option RunnerSocketTarget} {sight : Sight}

-- What the call knows when it has tried to cancel.
structure Look.Tried (look : Look) (id : RequestId) (sent : Bool)
    (target : InFlightRequest × Bool) : Prop where
  request : look.request = id
  info : look.info = target.1
  shared : look.hasOtherOnSocket = target.2
  refused : target.2 = true → sent = false → look.refused = true

theorem cancelTimedOut_conforms (hints : Bool) (id : RequestId)
    (target : Option (InFlightRequest × Bool)) :
    role.conduct.Conforms (fun sent last => ∀ found, target = some found →
      ∃ look, last.look = some look ∧ look.Tried id sent found)
      (SocketRunner.cancelTimedOut hints id target)
      ⟨socket, target.map fun (info, hasOtherOnSocket) =>
        { request := id, info, hasOtherOnSocket }⟩ := by
  cases target with
  | none => exact conforms_ret nofun
  | some target =>
      obtain ⟨info, hasOtherOnSocket⟩ := target
      unfold SocketRunner.cancelTimedOut SocketRunner.tryCancel
      dsimp only
      split
      · refine conforms_call trivial fun reply _ => conforms_ret ?_
        rintro found ⟨⟩
        refine ⟨_, rfl, rfl, rfl, rfl, fun _ hsent => ?_⟩
        rw [hsent]
        rfl
      · rename_i hdue
        refine conforms_ret ?_
        rintro found ⟨⟩
        refine ⟨_, rfl, rfl, rfl, rfl, fun hshared => ?_⟩
        obtain rfl : hasOtherOnSocket = true := hshared
        exact absurd (Bool.true_or hints) hdue

theorem terminateAmong_conforms {socket : Option RunnerSocketTarget} {look : Look}
    (hlook : look.hasOtherOnSocket = false ∨ look.refused = true) (reason : String)
    (hrole : ∀ request, role.execution = some request → look.request = request.requestId)
    (processes : List ProcessId) :
    role.conduct.Conforms (fun _ _ => True)
      (SocketRunner.terminateAmong look.info.socket reason processes) ⟨socket, some look⟩ := by
  induction processes with
  | nil => exact conforms_ret trivial
  | cons i rest ih =>
      refine conforms_call (fun found hfound => ?_) fun found _ => ?_
      · cases hfound
        rfl
      · cases found with
        | true =>
            refine conforms_call (fun request hrequest => ?_) fun _ _ => conforms_ret trivial
            exact ⟨_, rfl, hrole request hrequest, rfl, hlook⟩
        | false => exact ih

theorem cleanUpTimedOut_conforms {id : RequestId} {sent : Bool}
    {target : Option (InFlightRequest × Bool)} (reason : String)
    (hrole : ∀ request, role.execution = some request → id = request.requestId)
    (hsight : ∀ found, target = some found →
      ∃ look, sight.look = some look ∧ look.Tried id sent found) :
    role.conduct.Conforms (fun _ _ => True)
      (SocketRunner.cleanUpTimedOut id reason sent target) sight := by
  cases target with
  | none => exact conforms_ret trivial
  | some target =>
      obtain ⟨info, hasOtherOnSocket⟩ := target
      obtain ⟨socket, _⟩ := sight
      obtain ⟨look, rfl, rfl, rfl, rfl, hrefused⟩ := hsight _ rfl
      refine conforms_bind (conforms_calm (clearPendingRequestForTimeout_calm _ _)) ?_
      rintro _ _ rfl
      split
      · exact conforms_ret trivial
      · rename_i hkeeps
        have hclears : look.hasOtherOnSocket = false ∨ look.refused = true := by
          cases hshared : look.hasOtherOnSocket with
          | false => exact .inl rfl
          | true =>
              rw [hshared, Bool.true_and] at hkeeps
              exact .inr (hrefused hshared (Bool.eq_false_of_not_eq_true hkeeps))
        exact conforms_call trivial fun processes _ =>
          terminateAmong_conforms hclears reason hrole _

theorem conforms_of_calm {α : Type} {prog : Code α} (hp : CalmCode prog) (sight : Sight) :
    role.conduct.Conforms (fun _ _ => True) prog sight :=
  (conforms_calm hp).mono fun _ _ _ => trivial

variable {owner : SocketRunner} {request : ExecutionRequest}

theorem request_of_execution (hrole : role.execution = some request) :
    ∀ other, role.execution = some other → request.requestId = other.requestId := by
  intro other hother
  cases hrole.symm.trans hother
  rfl

theorem cleanupWorkerTimeoutWithPermitHeld_conforms (sendCancelHint : Bool)
    (hrole : role.execution = some request) (sight : Sight) :
    role.conduct.Conforms (fun _ _ => True)
      (owner.cleanupWorkerTimeoutWithPermitHeld request sendCancelHint) sight := by
  refine conforms_call trivial fun target _ => ?_
  refine conforms_bind (cancelTimedOut_conforms _ request.requestId target) fun sent last hlast => ?_
  exact cleanUpTimedOut_conforms _ (request_of_execution hrole) hlast

theorem respawnExited_calm (i : ProcessId) (timedOut : Bool)
    (result : Except RunnerError ExecutionOutcome) :
    CalmCode (SocketRunner.respawnExited i timedOut result) := by
  cases result with
  | ok outcome => trivial
  | error error =>
      refine issues_call trivial fun exited _ => ?_
      split
      · exact issues_call trivial fun _ _ => trivial
      · trivial

theorem finalizeExecuteResult_conforms (i : ProcessId)
    (result : Except RunnerError ExecutionOutcome) (hrole : role.execution = some request)
    (hs : sight.Blind) :
    role.conduct.Conforms (fun _ _ => True) (owner.finalizeExecuteResult i request result)
      sight := by
  have hlooks : role.conduct.Conforms (fun target last => last = ⟨sight.socket,
      target.map fun (info, hasOtherOnSocket) =>
        { request := request.requestId, info, hasOtherOnSocket }⟩)
      (SocketRunner.findTimeoutTarget (hasTimedOut result) request.requestId) sight := by
    unfold SocketRunner.findTimeoutTarget
    split
    · exact conforms_call trivial fun target _ => conforms_ret rfl
    · obtain ⟨socket, look⟩ := sight
      cases hs
      exact conforms_ret rfl
  refine conforms_bind hlooks ?_
  rintro target _ rfl
  refine conforms_bind (cancelTimedOut_conforms _ request.requestId target) fun sent last hlast => ?_
  refine conforms_call trivial fun _ _ => ?_
  refine conforms_bind (cleanUpTimedOut_conforms _ (request_of_execution hrole) hlast) ?_
  exact fun _ last _ => conforms_of_calm (respawnExited_calm i _ result) last

theorem execute_conforms (turns : Nat) (request : ExecutionRequest) :
    (RunnerCall.execute request).conduct.Conforms (fun _ _ => True) (owner.execute turns request)
      {} := by
  refine conforms_bind (conforms_calm (acquireProcess_calm turns)) ?_
  rintro acquired _ rfl
  split
  · exact conforms_ret trivial
  · exact conforms_ret trivial
  refine conforms_bind (executeWithProcess_conforms turns _ request blind_start).of_holding ?_
  intro executed last hlast
  split
  · exact conforms_ret trivial
  · refine conforms_bind (finalizeExecuteResult_conforms _ _ rfl hlast) fun _ _ _ => ?_
    exact conforms_call trivial fun _ _ => conforms_ret trivial

theorem executeWithTimeout_conforms (turns : Nat) (request : ExecutionRequest)
    (sendCancelHint : Bool) :
    (RunnerCall.executeWithTimeout request sendCancelHint).conduct.Conforms (fun _ _ => True)
      (owner.executeWithTimeout turns request sendCancelHint) {} := by
  refine conforms_bind (conforms_calm (calm_timeout (acquireProcess_calm turns))) ?_
  rintro acquired _ rfl
  split
  · exact conforms_ret trivial
  · exact conforms_ret trivial
  refine conforms_call trivial fun late _ => ?_
  split
  · exact conforms_call trivial fun _ _ => conforms_ret trivial
  refine conforms_bind (conforms_timeout (executeWithProcess_conforms turns _ request blind_start)) ?_
  intro executed last hlast
  split
  · refine conforms_bind (finalizeExecuteResult_conforms _ _ rfl hlast) fun _ _ _ => ?_
    exact conforms_call trivial fun _ _ => conforms_ret trivial
  · refine conforms_bind (cleanupWorkerTimeoutWithPermitHeld_conforms sendCancelHint rfl last) ?_
    exact fun _ _ _ => conforms_call trivial fun _ _ => conforms_ret trivial

end Cleanup

-- The other calls execute nothing, and what they do is no concern of the sights.

def SocketOp.Aside : SocketOp → Prop
  | .connectionOf _ | .timeoutTarget _ | .takeTimedOut _ | .insertInFlight _ _ => False
  | _ => True

section Aside

variable {role : RunnerCall}

theorem conforms_aside {α : Type} (hrole : role.execution = none) {prog : Code α}
    (hp : prog.Issues SocketOp.Aside fun _ _ => True) :
    role.conduct.Conforms (fun _ _ => True) prog {} := by
  have hstep : ∀ op : SocketOp, op.Aside → role.conduct.allows {} op ∧
      ∀ reply, role.conduct.possible {} op reply → True ∧ role.conduct.next {} op reply = {} := by
    intro op hop
    cases op with
    | terminate i reason =>
        refine ⟨fun request hrequest => ?_, fun _ _ => ⟨trivial, rfl⟩⟩
        rw [hrole] at hrequest
        cases hrequest
    | matchesSocket i socket => exact ⟨nofun, fun _ _ => ⟨trivial, rfl⟩⟩
    | connectionOf | timeoutTarget | takeTimedOut | insertInFlight => exact hop.elim
    | _ => exact ⟨trivial, fun _ _ => ⟨trivial, rfl⟩⟩
  exact (conforms_of_issues hp hstep).mono fun _ _ _ => trivial

theorem aside_of_calm {op : SocketOp} (h : op.Calm) : op.Aside := by
  cases op <;> first | exact h.elim | trivial

theorem tryCancel_aside (due : Bool) (id : RequestId) (info : InFlightRequest) :
    (SocketRunner.tryCancel due id info).Issues SocketOp.Aside fun _ _ => True := by
  unfold SocketRunner.tryCancel
  split
  · exact issues_call trivial fun _ _ => trivial
  · trivial

theorem terminateProcessForSocket_aside (socket : RunnerSocketTarget) (reason : String) :
    (SocketRunner.terminateProcessForSocket socket reason).Issues SocketOp.Aside
      fun _ _ => True := by
  refine issues_call trivial fun processes _ => ?_
  induction processes with
  | nil => trivial
  | cons i rest ih =>
      refine issues_call trivial fun found _ => ?_
      split
      · exact issues_perform trivial
      · exact ih

theorem cancel_aside (jobId : JobId) (id : Option RequestId) :
    (SocketRunner.cancel jobId id).Issues SocketOp.Aside fun _ _ => True := by
  refine issues_call trivial fun target _ => ?_
  split
  · trivial
  · refine issues_call trivial fun sent _ => ?_
    split
    · exact issues_call trivial fun _ _ => trivial
    · trivial

theorem handleTimeout_aside (owner : SocketRunner) (jobId : JobId) (id : Option RequestId)
    (sendCancelHint : Bool) :
    (owner.handleTimeout jobId id sendCancelHint).Issues SocketOp.Aside fun _ _ => True := by
  refine issues_call trivial fun target _ => ?_
  split
  · trivial
  · refine issues_bind (tryCancel_aside _ _ _) fun _ => issues_call trivial fun _ _ => ?_
    refine issues_bind ?_ fun _ => issues_bind (terminateProcessForSocket_aside _ _) fun _ => trivial
    exact (clearPendingRequestForTimeout_calm _ _).mono fun _ => aside_of_calm

theorem close_aside : SocketRunner.close.Issues SocketOp.Aside fun _ _ => True := by
  refine issues_call trivial fun processes _ => issues_bind ?_ fun _ => issues_perform trivial
  induction processes with
  | nil => trivial
  | cons i rest ih => exact issues_call trivial fun _ _ => ih

end Aside

theorem code_conforms (owner : SocketRunner) (turns : Nat) (call : RunnerCall) :
    call.conduct.Conforms (fun _ _ => True) (call.code owner turns) {} := by
  cases call with
  | execute request => exact conforms_bind (execute_conforms turns request) fun _ _ _ => trivial
  | executeWithTimeout request sendCancelHint =>
      exact conforms_bind (executeWithTimeout_conforms turns request sendCancelHint)
        fun _ _ _ => trivial
  | cancel jobId id =>
      exact conforms_aside rfl (issues_bind (cancel_aside jobId id) fun _ => trivial)
  | handleTimeout jobId id sendCancelHint =>
      exact conforms_aside rfl
        (issues_bind (handleTimeout_aside owner jobId id sendCancelHint) fun _ => trivial)
  | close => exact conforms_aside rfl close_aside

-- Runs.

def anyStep : Assume SocketOp SocketChance (Shared × Ledger) CallId RunnerCall SocketEvent where
  run _ _ _ _ _ := True
  env _ _ _ := True

section Runs

variable {owner : SocketRunner} {pool : RunnerPool}

theorem admitted_anyStep (pool : RunnerPool) (label : RunnerLabel) :
    owner.watched.Admitted anyStep pool label := by
  cases label with
  | run => exact fun _ _ _ _ => trivial
  | env => exact fun _ _ => trivial

theorem conducted (owner : SocketRunner) : owner.machine.Conducted anyStep Ledger.note
    (fun _ ledger => ledger) Ledger.sight RunnerCall.conduct {} where
  fork _ _ _ _ := rfl
  note _ _ _ _ _ := rfl
  noteEnv _ _ := rfl
  possible _ _ _ _ _ _ _ := trivial
  spawn event pid role prog h := by
    cases event with
    | call id code turns =>
        cases h
        exact code_conforms owner turns _
    | _ => cases h

theorem inConduct_start :
    InConduct Ledger.sight RunnerCall.conduct {} RunnerPool.start where
  conforms _ _ _ h := by cases h
  idle _ _ := rfl

theorem sighted_reach (h : Reach owner.watched anyStep RunnerPool.start pool) :
    Sighted owner pool.state.1 pool.state.2 ∧
      InConduct Ledger.sight RunnerCall.conduct {} pool := by
  refine conducted_reach (conducted owner) (fun pid role op chance s t hs _ ha => ?_)
    (fun event s t moved hs hmove => hs.moves (moves_move hmove)) (sighted_start owner)
    inConduct_start h
  exact sighted_exec hs ha

-- Nobody who was there when a call looked for others is taken with it.
theorem spares_iff_undisturbed (h : Reach owner.watched anyStep RunnerPool.start pool)
    (label : RunnerLabel) : pool.Spares label ↔ pool.Undisturbed label := by
  cases label with
  | env event => exact Iff.rfl
  | run caller chance =>
      refine forall₃_congr fun request i hterminates => or_congr_left' fun hcancel => ?_
      refine ⟨fun hspares id _ => hspares id, fun hsince id hid => ?_⟩
      obtain ⟨hs, hconduct⟩ := sighted_reach h
      obtain ⟨role, reason, next, hproc, hrole⟩ := hterminates
      obtain ⟨look, hlook, hrequest, hfound, hclears⟩ :=
        (hconduct.conforms caller role _ hproc).1 request hrole
      have hshared : look.hasOtherOnSocket = false :=
        hclears.resolve_right fun hrefused => hcancel ⟨look, hlook, hrefused⟩
      obtain ⟨bound, -, hholds⟩ := hs.look caller look hlook
      obtain ⟨info, hentry, hsocket⟩ := hid
      by_contra hne
      refine hne (hsince id ?_ ⟨info, hentry, hsocket⟩)
      refine hholds.fresh hshared _ hentry (hrequest ▸ hne) ?_
      rw [hsocket]
      exact hholds.found i hfound

-- In a run, calls that time out take no others with them exactly if no other request is on the
-- process that was put in flight after the call had looked.
theorem timeouts_spare_neighbours_iff (owner : SocketRunner) (labels : List RunnerLabel) :
    owner.watched.Along RunnerPool.Spares labels RunnerPool.start ↔
      owner.watched.Along RunnerPool.Undisturbed labels RunnerPool.start :=
  along_iff (fun _ hpool label _ _ => spares_iff_undisturbed hpool label)
    (fun pool label _ => admitted_anyStep pool label) .start labels

end Runs

-- A second request is put in flight once the first has timed out and has found itself alone. The
-- process is terminated with the second request on it.

def twoInFlight : SocketRunner where
  external := false
  poolSize := 1
  maxInFlight := 2
  tcpPort := 9000
  responseTimeout := true
  sendCancelHints := false
  poolSize_pos := by decide
  maxInFlight_pos := by decide
  maxInFlight_le := by decide
  tcpPort_pos := by decide
  range_le := by decide

def slowRequest : ExecutionRequest := ⟨"slow", "job-slow"⟩
def neighbour : ExecutionRequest := ⟨"neighbour", "job-neighbour"⟩

def lateNeighbour : List RunnerLabel :=
  [.env (.call 0 (.execute slowRequest) 1)] ++ List.replicate 14 (.run 0 {}) ++
    [.run 0 { elapsed := true }] ++ List.replicate 3 (.run 0 {}) ++
    [.env (.call 1 (.execute neighbour) 1)] ++ List.replicate 10 (.run 1 {}) ++
    List.replicate 6 (.run 0 {})

def takesNeighbour (pool : RunnerPool) : Bool :=
  (match pool.procs 0 with
    | some (.execute request, .call (.terminate i _) _) => request.requestId = "slow" &&
        pool.state.1.inFlight.any fun entry =>
          entry.1 = "neighbour" && entry.2.socket = (pool.state.1.process i).socket
    | _ => false) &&
  ((pool.state.2.sight 0).look.all fun look => !look.refused) &&
  (twoInFlight.watched.step pool (.run 0 {})).isSome

theorem not_spares_of_takesNeighbour {pool : RunnerPool} (h : takesNeighbour pool = true) :
    ¬ pool.Spares (.run 0 {}) ∧ ∃ after, twoInFlight.watched.step pool (.run 0 {}) = some after := by
  simp only [takesNeighbour, Bool.and_eq_true] at h
  obtain ⟨⟨hneighbour, hcancel⟩, hstep⟩ := h
  refine ⟨fun hspares => ?_, Option.isSome_iff_exists.mp hstep⟩
  split at hneighbour
  case h_2 => cases hneighbour
  case h_1 request i reason next hproc =>
    rw [Bool.and_eq_true, decide_eq_true_eq, List.any_eq_true] at hneighbour
    obtain ⟨hrequest, ⟨id, info⟩, hentry, hat⟩ := hneighbour
    rw [Bool.and_eq_true, decide_eq_true_eq, decide_eq_true_eq] at hat
    obtain ⟨rfl, hsocket⟩ := hat
    rcases hspares request i ⟨_, reason, next, hproc, rfl⟩ with halone | ⟨look, hlook, hrefused⟩
    · have hsame := halone _ ⟨info, hentry, hsocket⟩
      rw [hrequest] at hsame
      exact absurd hsame (by decide)
    · rw [hlook, Option.all_some, hrefused] at hcancel
      cases hcancel

theorem timeouts_take_a_neighbour : ¬ ∀ (owner : SocketRunner) (labels : List RunnerLabel),
    owner.watched.Along RunnerPool.Spares labels RunnerPool.start := by
  intro h
  have hrun : (twoInFlight.watched.steps lateNeighbour RunnerPool.start).map takesNeighbour =
      some true := by decide +kernel
  obtain ⟨pool, hsteps, htakes⟩ := Option.map_eq_some_iff.mp hrun
  obtain ⟨hnot, after, hlast⟩ := not_spares_of_takesNeighbour htakes
  exact hnot (along_last (h twoInFlight (lateNeighbour ++ [.run 0 {}])) hsteps hlast)

end Rrq.Runner
