import DirectWire.Lib.Map
import DirectWire.Lib.Run
import DirectWire.Mesh.Crypto

/-!
# Mesh — the relay server

`relay/server.rs`: any number of connections, each with a handler and a task that writes what is
put into its channel, and the table of sessions they share. A handler holds the lock of the table
for one step at a time.

The table knows a session by the id of the node only, so the handler of an old connection removes
the session of a new one when it closes. A handler that fails to read after it has registered
leaves its session behind.
-/

namespace DirectWire.Mesh

open Lib List Option Function

abbrev Candidates := List (SocketAddr × UInt8)

inductive Frame where
  | hello (nodeId : NodeId) (cands : Candidates)
  | helloAck (observed : SocketAddr)
  | punchRequest (target : NodeId)
  | exchange (peer : NodeId) (cands : Candidates)
  | relayData (dest source : NodeId) (payload : Bytes)
  | statsQuery
  | statsReport (text : String)
  | error (msg : String)
deriving DecidableEq

/-- The counters of a node; they wrap around in a release build. -/
structure NodeTraffic where
  upBytes : UInt64
  downBytes : UInt64
  relayedMsgs : UInt64
deriving DecidableEq

def NodeTraffic.default : NodeTraffic := ⟨0, 0, 0⟩

structure Session where
  channel : Nat
  cands : Candidates
deriving DecidableEq

inductive Next where
  | serve (me : NodeId)
  | leave
deriving DecidableEq

inductive Handler where
  /-- In the first `read_frame`. -/
  | opening
  /-- The session is in the table, and nothing else is done. -/
  | registered (me : NodeId)
  /-- In `read_frame` of the loop. -/
  | serving (me : NodeId)
  | metering (me dest : NodeId) (channel : Nat) (payload : Bytes)
  | sending (frames : List (Nat × Frame)) (next : Next)
  | closing (me : NodeId)
  | leaving
  | ended (error : Option String)
deriving DecidableEq

def Handler.me : Handler → Option NodeId
  | .registered me | .serving me | .metering me _ _ _ | .sending _ (.serve me) | .closing me =>
    some me
  | .opening | .sending _ .leave | .leaving | .ended _ => none

def Handler.waits : Handler → Bool
  | .opening | .serving _ | .leaving | .ended _ => true
  | .registered _ | .metering .. | .sending .. | .closing _ => false

structure RelayConn where
  peerAddr : Option SocketAddr
  handler : Handler
  outbox : List Frame
  writing : Bool
  cands : Candidates

def channelSize : Nat := 256

structure RelayServer where
  sessions : Map NodeId Session
  stats : Map NodeId NodeTraffic
  conns : List RelayConn
  /-- The registrations with the connection each came over, the last one first. -/
  registrations : List (NodeId × Nat)

inductive RelayEvent where
  | accept (peerAddr : Option SocketAddr)
  /-- `read_frame` returns. -/
  | read (c : Nat) (result : Except String (Option Frame)) (ord : HashOrder NodeId)
  | act (c : Nat)
  | write (c : Nat) (written : Bool)

namespace RelayServer

variable (display : NodeId → String) (ord : HashOrder NodeId) (s : RelayServer) (c : Nat)

def new : RelayServer := ⟨∅, ∅, [], []⟩

def modify (s : RelayServer) (c : Nat) (f : RelayConn → RelayConn) : RelayServer :=
  { s with conns := s.conns.modify c f }

def setHandler (handler : Handler) : RelayServer := s.modify c fun k => { k with handler }

/-- `stats.entry(id).or_default()`, changed by `f`. -/
def meter (id : NodeId) (f : NodeTraffic → NodeTraffic) : RelayServer :=
  { s with stats := s.stats.insert id (f ((s.stats.lookup id).getD .default)) }

def statsText : String :=
  String.join ((s.stats.iterKeys ord).map fun id =>
    let t := (s.stats.lookup id).getD .default
    display id ++ " up=" ++ toString t.upBytes.toNat ++ "B down=" ++ toString t.downBytes.toNat ++
      "B msgs=" ++ toString t.relayedMsgs.toNat ++ "\n")

def onFirst : Except String (Option Frame) → RelayServer
  | .ok (some (.hello nodeId cands)) =>
    -- whoever has a session under this id loses it
    { s.modify c (fun k => { k with handler := .registered nodeId, cands }) with
      sessions := s.sessions.insert nodeId ⟨c, cands⟩
      registrations := (nodeId, c) :: s.registrations }
  | .ok _ => s.setHandler c (.sending [(c, .error "first frame must be Hello")] .leave)
  | .error e => s.setHandler c (.ended (some e))

def onFrame (me : NodeId) : Frame → RelayServer
  | .hello nodeId cands =>
    if nodeId = me then
      -- `get_mut`: whoever's session it is
      { s.modify c (fun k => { k with cands }) with
        sessions := match s.sessions.lookup me with
          | some session => s.sessions.insert me { session with cands }
          | none => s.sessions }
    else s
  | .punchRequest target =>
    match s.sessions.lookup target with
    | some t =>
      let mine := ((s.sessions.lookup me).map (·.cands)).getD []
      s.setHandler c
        (.sending [(c, .exchange target t.cands), (t.channel, .exchange me mine)] (.serve me))
    | none => s.setHandler c (.sending [(c, .error "target is not online")] (.serve me))
  | .relayData dest _ payload =>
    match s.sessions.lookup dest with
    | some t => s.setHandler c (.metering me dest t.channel payload)
    | none => s.setHandler c (.sending [(c, .error "recipient is not online")] (.serve me))
  | .statsQuery =>
    s.setHandler c (.sending [(c, .statsReport (s.statsText display ord))] (.serve me))
  | .helloAck _ | .exchange .. | .statsReport _ | .error _ => s

/-- `read_frame` of the loop has returned; an error leaves the function at once. -/
def onRead (me : NodeId) : Except String (Option Frame) → RelayServer
  | .ok (some frame) => s.onFrame display ord c me frame
  | .ok none => s.setHandler c (.closing me)
  | .error e => s.setHandler c (.ended (some e))

/-- `tx.send`: a frame for a task that has ended is dropped, and a full channel
makes the handler wait. -/
def send (d : Nat) (frame : Frame) (rest : Handler) : Option RelayServer :=
  s.conns[d]?.bind fun target =>
    if !target.writing then some (s.setHandler c rest)
    else if target.outbox.length < channelSize then
      some ((s.modify d fun k => { k with outbox := k.outbox ++ [frame] }).setHandler c rest)
    else none

def act (k : RelayConn) : Option RelayServer :=
  match k.handler with
  | .registered me =>
    let observed := k.peerAddr.getD (.v4 0 0)
    some ((s.meter me id).setHandler c (.sending [(c, .helloAck observed)] (.serve me)))
  | .metering me dest channel payload =>
    let n := UInt64.ofNat payload.length
    let s := s.meter me fun t =>
      { t with upBytes := t.upBytes + n, relayedMsgs := t.relayedMsgs + 1 }
    let s := s.meter dest fun t => { t with downBytes := t.downBytes + n }
    -- the id of the connection, not the one in the frame
    some (s.setHandler c (.sending [(channel, .relayData dest me payload)] (.serve me)))
  | .sending ((d, frame) :: rest) next => s.send c d frame (.sending rest next)
  | .sending [] (.serve me) => some (s.setHandler c (.serving me))
  | .sending [] .leave => some (s.setHandler c .leaving)
  | .closing me => some { s.setHandler c .leaving with sessions := s.sessions.erase me }
  | .leaving => if k.writing then none else some (s.setHandler c (.ended none))
  | .opening | .serving _ | .ended _ => none

def held : Bool :=
  (s.sessions.keys.any fun id => (s.sessions.lookup id).any (·.channel = c)) ||
    (s.conns[c]?.any fun k => match k.handler with
      | .leaving | .ended _ => false
      | _ => true) ||
    s.conns.any fun k => match k.handler with
      | .metering _ _ channel _ => channel = c
      | .sending frames _ => frames.any (·.1 = c)
      | _ => false

def write (k : RelayConn) (written : Bool) : Option RelayServer :=
  if !k.writing then none
  else match k.outbox with
    | _ :: rest =>
      if written then some (s.modify c fun k => { k with outbox := rest })
      else some (s.modify c fun k => { k with outbox := [], writing := false })
    | [] => if s.held c then none else some (s.modify c fun k => { k with writing := false })

def step : RelayEvent → Option RelayServer
  | .accept peerAddr => some { s with conns := s.conns ++ [⟨peerAddr, .opening, [], true, []⟩] }
  | .read c result ord => s.conns[c]?.bind fun k =>
    match k.handler with
    | .opening => some (s.onFirst c result)
    | .serving me => some (s.onRead display ord c me result)
    | _ => none
  | .act c => s.conns[c]?.bind (s.act c)
  | .write c written => s.conns[c]?.bind (s.write c · written)

/-- Where the handler of connection `c` is. -/
def handler? : Option Handler := s.conns[c]?.map (·.handler)

/-- The id under which connection `c` is at work. -/
def me (s : RelayServer) (c : Nat) : Option NodeId := s.conns[c]?.bind (·.handler.me)

/-- What connection `c` has registered last. -/
def cands (s : RelayServer) (c : Nat) : Candidates := (s.conns[c]?.map (·.cands)).getD []

end RelayServer

/-! ## Steps -/

structure RelayServer.Same (s s' : RelayServer) : Prop where
  sessions : s'.sessions = s.sessions
  registrations : s'.registrations = s.registrations
  me : s'.me = s.me
  cands : s'.cands = s.cands

/-- What can happen to the table and to the ids of the handlers. -/
inductive RelayStep (s : RelayServer) : RelayEvent → RelayServer → Prop where
  | quiet {e s'} (hSame : s.Same s') : RelayStep s e s'
  | register {c id cands ord s'} (hNew : s.me c = none) (hMe : s'.me = update s.me c (some id))
      (hCands : s'.cands = update s.cands c cands)
      (hSessions : s'.sessions = s.sessions.insert id ⟨c, cands⟩)
      (hRegistrations : s'.registrations = (id, c) :: s.registrations) :
      RelayStep s (.read c (.ok (some (.hello id cands))) ord) s'
  | update {e c id cands s'} (hServes : s.me c = some id) (hMe : s'.me = s.me)
      (hCands : s'.cands = update s.cands c cands)
      (hSessions : s'.sessions = match s.sessions.lookup id with
        | some session => s.sessions.insert id { session with cands }
        | none => s.sessions) (hRegistrations : s'.registrations = s.registrations) :
      RelayStep s e s'
  | remove {e c id s'} (hServes : s.me c = some id) (hMe : s'.me = update s.me c none)
      (hCands : s'.cands = s.cands) (hSessions : s'.sessions = s.sessions.erase id)
      (hRegistrations : s'.registrations = s.registrations) : RelayStep s e s'
  | fail {c id error ord s'} (hServes : s.me c = some id) (hMe : s'.me = update s.me c none)
      (hCands : s'.cands = s.cands) (hSessions : s'.sessions = s.sessions)
      (hRegistrations : s'.registrations = s.registrations) :
      RelayStep s (.read c (.error error) ord) s'

namespace RelayServer

variable {display : NodeId → String} {s s' : RelayServer} {e : RelayEvent} {c : Nat} {k : RelayConn}

variable {f : RelayConn → RelayConn} {id : NodeId}

section

variable (h : s.conns[c]? = some k)

include h

theorem me_modify (f : RelayConn → RelayConn) :
    (s.modify c f).me = update s.me c (f k).handler.me := by
  funext d
  simp only [me, modify, getElem?_modify, update_apply]
  by_cases hEq : c = d
  · subst hEq
    simp [h]
  · simp [hEq, Ne.symm hEq]

theorem cands_modify (f : RelayConn → RelayConn) :
    (s.modify c f).cands = update s.cands c (f k).cands := by
  funext d
  simp only [cands, modify, getElem?_modify, update_apply]
  by_cases hEq : c = d
  · subst hEq
    simp [h]
  · simp [hEq, Ne.symm hEq]

omit h in
theorem Same.refl (s : RelayServer) : s.Same s := ⟨rfl, rfl, rfl, rfl⟩

omit h in
theorem Same.trans {t} (h : s.Same s') (h' : s'.Same t) : s.Same t :=
  ⟨h'.sessions.trans h.sessions, h'.registrations.trans h.registrations, h'.me.trans h.me,
    h'.cands.trans h.cands⟩

theorem me_eq : s.me c = k.handler.me := by
  rw [me, h]
  rfl

theorem me_modify_same (hMe : (f k).handler.me = k.handler.me) : (s.modify c f).me = s.me := by
  rw [me_modify h f, hMe, ← me_eq h, update_eq_self]

theorem cands_modify_same (hCands : (f k).cands = k.cands) : (s.modify c f).cands = s.cands := by
  have hOld : s.cands c = k.cands := by
    rw [cands, h]
    rfl
  rw [cands_modify h f, hCands, ← hOld, update_eq_self]

theorem same_modify (hMe : (f k).handler.me = k.handler.me) (hCands : (f k).cands = k.cands) :
    s.Same (s.modify c f) :=
  ⟨rfl, rfl, me_modify_same h hMe, cands_modify_same h hCands⟩

omit h in
theorem same_setHandler {handler} (h : s.conns[c]? = some k) (hMe : handler.me = k.handler.me) :
    s.Same (s.setHandler c handler) :=
  same_modify h hMe rfl

omit h in
theorem same_meter (s : RelayServer) (id : NodeId) (f : NodeTraffic → NodeTraffic) :
    s.Same (s.meter id f) :=
  ⟨rfl, rfl, rfl, rfl⟩

omit h in
theorem same_accept (s : RelayServer) (peerAddr : Option SocketAddr) :
    s.Same { s with conns := s.conns ++ [⟨peerAddr, .opening, [], true, []⟩] } := by
  refine ⟨rfl, rfl, funext fun d => ?_, funext fun d => ?_⟩
  all_goals
    simp only [me, cands, getElem?_append]
    split
    · rfl
    · rename_i hOut
      rw [getElem?_eq_none (Nat.not_lt.mp hOut)]
      cases hNew : [RelayConn.mk peerAddr .opening [] true []][d - s.conns.length]? with
      | none => rfl
      | some =>
        obtain rfl := mem_singleton.mp (mem_of_getElem? hNew)
        rfl

theorem onFirst_cases (hOpening : k.handler = .opening) (result : Except String (Option Frame))
    (ord : HashOrder NodeId) : RelayStep s (.read c result ord) (s.onFirst c result) := by
  have hMe : k.handler.me = none := by rw [hOpening]; rfl
  have hQuiet : ∀ {handler : Handler}, handler.me = none → s.Same (s.setHandler c handler) :=
    fun hNone => same_setHandler h (hNone.trans hMe.symm)
  cases result with
  | error => exact .quiet (hQuiet rfl)
  | ok frame =>
    cases frame with
    | none => exact .quiet (hQuiet rfl)
    | some frame =>
      cases frame with
      | hello =>
        exact .register ((me_eq h).trans hMe) (me_modify h _) (cands_modify h _) rfl rfl
      | helloAck | punchRequest | exchange | relayData | statsQuery | statsReport | error =>
        exact .quiet (hQuiet rfl)

theorem onFrame_cases {me} (hServing : k.handler = .serving me) (ord : HashOrder NodeId)
    (frame : Frame) : RelayStep s e (s.onFrame display ord c me frame) := by
  have hMe : k.handler.me = some me := by rw [hServing]; rfl
  have hQuiet : ∀ {handler : Handler}, handler.me = some me → s.Same (s.setHandler c handler) :=
    fun hSome => same_setHandler h (hSome.trans hMe.symm)
  cases frame with
  | hello =>
    simp only [onFrame]
    split
    · exact .update ((me_eq h).trans hMe) (me_modify_same h rfl) (cands_modify h _) rfl rfl
    · exact .quiet (.refl s)
  | punchRequest | relayData =>
    simp only [onFrame]
    split
    · exact .quiet (hQuiet rfl)
    · exact .quiet (hQuiet rfl)
  | statsQuery => exact .quiet (hQuiet rfl)
  | helloAck | exchange | statsReport | error => exact .quiet (.refl s)

theorem send_same {d frame handler} (hMe : handler.me = k.handler.me)
    (hSend : s.send c d frame handler = some s') : s.Same s' := by
  obtain ⟨target, hTarget, hSend⟩ := bind_eq_some_iff.mp hSend
  split at hSend
  · cases hSend
    exact same_setHandler h hMe
  · split at hSend
    · cases hSend
      -- the frame goes into a channel, which may be that of the handler itself
      have hPush : s.Same (s.modify d fun k => { k with outbox := k.outbox ++ [frame] }) :=
        same_modify hTarget rfl rfl
      refine hPush.trans ?_
      by_cases hEq : d = c
      · subst hEq
        cases h.symm.trans hTarget
        refine same_setHandler (k := { k with outbox := k.outbox ++ [frame] }) ?_ hMe
        simp [modify, h]
      · refine same_setHandler (k := k) ?_ hMe
        simp [modify, hEq, h]
    · cases hSend

theorem act_cases (hAct : s.act c k = some s') : RelayStep s e s' := by
  unfold act at hAct
  have hQuiet : ∀ {handler : Handler}, handler.me = k.handler.me →
      s.Same (s.setHandler c handler) := fun hMe => same_setHandler h hMe
  split at hAct
  · rename_i me hHandler
    cases hAct
    refine .quiet ((same_meter s me id).trans (same_setHandler h ?_))
    rw [hHandler]
    rfl
  · rename_i me dest channel payload hHandler
    cases hAct
    refine .quiet ((same_meter s me _).trans ((same_meter _ dest _).trans (same_setHandler h ?_)))
    rw [hHandler]
    rfl
  · rename_i d frame rest next hHandler
    refine .quiet (send_same h ?_ hAct)
    rw [hHandler]
    cases next <;> rfl
  · rename_i me hHandler
    cases hAct
    exact .quiet (hQuiet (by rw [hHandler]; rfl))
  · rename_i hHandler
    cases hAct
    exact .quiet (hQuiet (by rw [hHandler]; rfl))
  · rename_i me hHandler
    cases hAct
    have hServes : s.me c = some me := by
      rw [me_eq h, hHandler]
      rfl
    exact .remove hServes (me_modify h _) (cands_modify_same h rfl) rfl rfl
  · rename_i hHandler
    split at hAct
    · cases hAct
    · cases hAct
      exact .quiet (hQuiet (by rw [hHandler]; rfl))
  · cases hAct
  · cases hAct
  · cases hAct

end

theorem step_cases (h : s.step display e = some s') : RelayStep s e s' := by
  cases e with
  | accept peerAddr =>
    cases h
    exact .quiet (same_accept s peerAddr)
  | read c result ord =>
    obtain ⟨k, hConn, h⟩ := bind_eq_some_iff.mp h
    split at h
    · rename_i hOpening
      cases h
      exact onFirst_cases hConn hOpening result ord
    · rename_i me hServing
      cases h
      have hMe : s.me c = some me := by
        rw [me_eq hConn, hServing]
        rfl
      cases result with
      | error =>
        exact .fail hMe (me_modify hConn _) (cands_modify_same hConn rfl) rfl rfl
      | ok frame =>
        cases frame with
        | none => exact .quiet (same_setHandler hConn (by rw [hServing]; rfl))
        | some frame => exact onFrame_cases hConn hServing ord frame
    · cases h
  | act c =>
    obtain ⟨k, hConn, h⟩ := bind_eq_some_iff.mp h
    exact act_cases hConn h
  | write c written =>
    obtain ⟨k, hConn, h⟩ := bind_eq_some_iff.mp h
    unfold write at h
    split at h
    · cases h
    · split at h
      · split at h
        · cases h
          exact .quiet (same_modify hConn rfl rfl)
        · cases h
          exact .quiet (same_modify hConn rfl rfl)
      · split at h
        · cases h
        · cases h
          exact .quiet (same_modify hConn rfl rfl)

/-! ## The table -/

def NoFail (s : RelayServer) : RelayEvent → Prop
  | .read c (.error _) _ => s.me c = none
  | _ => True

def Alone (s : RelayServer) : RelayEvent → Prop
  | .read c (.ok (some (.hello id _))) _ =>
    s.me c = none → ∀ k ∈ s.conns, k.handler.me ≠ some id
  | _ => True

def Live (s : RelayServer) : Prop := s.sessions.All fun id session => s.me session.channel = some id

/-- Every handler that works under an id is the only one, and has its session. -/
structure Current (s : RelayServer) : Prop where
  only : ∀ c d id, s.me c = some id → s.me d = some id → c = d
  session : ∀ c id, s.me c = some id → s.sessions.lookup id = some ⟨c, s.cands c⟩

theorem Live.step (hI : s.Live) (hOk : s.NoFail e) (h : RelayStep s e s') : s'.Live := by
  intro id session hLookup
  cases h with
  | quiet hSame =>
    rw [hSame.sessions] at hLookup
    rw [hSame.me]
    exact hI id session hLookup
  | register hNew hMe hCands hSessions hRegistrations =>
    rename_i c id' cands ord
    rw [hSessions, Map.lookup_insert_ite] at hLookup
    rw [hMe, update_apply]
    split at hLookup
    · rename_i hEq
      cases hLookup
      rw [if_pos rfl, hEq]
    · -- a session of another node is not of this connection
      have hOld : s.me session.channel = some id := hI id session hLookup
      have hNe : session.channel ≠ c := by
        intro hEq
        rw [hEq, hNew] at hOld
        cases hOld
      rw [if_neg hNe]
      exact hOld
  | update hServes hMe hCands hSessions hRegistrations =>
    rename_i c id' cands
    rw [hMe]
    rw [hSessions] at hLookup
    split at hLookup
    · rename_i old hOld
      rw [Map.lookup_insert_ite] at hLookup
      split at hLookup
      · rename_i hEq
        cases hLookup
        rw [hEq]
        exact hI id' old hOld
      · exact hI id session hLookup
    · exact hI id session hLookup
  | remove hServes hMe hCands hSessions hRegistrations =>
    rename_i c id'
    rw [hSessions, Map.lookup_erase_ite] at hLookup
    split at hLookup
    · cases hLookup
    · rename_i hOther
      have hOld : s.me session.channel = some id := hI id session hLookup
      have hNe : session.channel ≠ c := by
        intro hEq
        rw [hEq, hServes] at hOld
        exact hOther (some_inj.mp hOld).symm
      rw [hMe, update_of_ne hNe]
      exact hOld
  | fail hServes hMe hCands hSessions hRegistrations =>
    have hNone : s.me _ = none := hOk
    rw [hServes] at hNone
    cases hNone

theorem Alone.not_me {cands ord} (h : s.Alone (.read c (.ok (some (.hello id cands))) ord))
    (hNew : s.me c = none) (d : Nat) : s.me d ≠ some id := by
  intro hMe
  obtain ⟨k, hConn, hHandler⟩ := bind_eq_some_iff.mp hMe
  exact h hNew k (mem_of_getElem? hConn) hHandler

theorem me_of_left {d} (hMe : s'.me = update s.me c none) (h : s'.me d = some id) :
    d ≠ c ∧ s.me d = some id := by
  rw [hMe, update_apply] at h
  split at h
  · cases h
  · exact ⟨‹_›, h⟩

theorem Current.step (hI : s.Current) (hOk : s.Alone e) (h : RelayStep s e s') : s'.Current := by
  cases h with
  | quiet hSame =>
    refine ⟨?_, ?_⟩
    · rw [hSame.me]
      exact hI.only
    · rw [hSame.me, hSame.sessions, hSame.cands]
      exact hI.session
  | register hNew hMe hCands hSessions hRegistrations =>
    rename_i c id cands ord
    have hOther := Alone.not_me hOk hNew
    refine ⟨fun d d' id' hD hD' => ?_, fun d id' hD => ?_⟩
    · rw [hMe, update_apply] at hD hD'
      split at hD <;> split at hD'
      · simp_all
      · cases hD
        exact absurd hD' (hOther d')
      · cases hD'
        exact absurd hD (hOther d)
      · exact hI.only d d' id' hD hD'
    · rw [hMe, update_apply] at hD
      rw [hSessions, hCands, update_apply, Map.lookup_insert_ite]
      split at hD
      · rename_i hEq
        cases hD
        rw [if_pos rfl, if_pos hEq, hEq]
      · rename_i hNe
        have hId : id' ≠ id := fun hEq => hOther d (hEq ▸ hD)
        rw [if_neg hId, if_neg hNe]
        exact hI.session d id' hD
  | update hServes hMe hCands hSessions hRegistrations =>
    rename_i c id cands
    refine ⟨by rw [hMe]; exact hI.only, fun d id' hD => ?_⟩
    rw [hMe] at hD
    rw [hSessions, hI.session c id hServes, hCands, update_apply, Map.lookup_insert_ite]
    by_cases hEq : id' = id
    · subst hEq
      have hSame := hI.only d c id' hD hServes
      rw [if_pos rfl, if_pos hSame, hSame]
    · have hNe : d ≠ c := by
        rintro rfl
        exact hEq (some_inj.mp (hD.symm.trans hServes))
      rw [if_neg hEq, if_neg hNe]
      exact hI.session d id' hD
  | remove hServes hMe hCands hSessions hRegistrations =>
    rename_i c id
    refine ⟨fun d d' id' hD hD' => ?_, fun d id' hD => ?_⟩
    · exact hI.only d d' id' (me_of_left hMe hD).2 (me_of_left hMe hD').2
    · obtain ⟨hNe, hBefore⟩ := me_of_left hMe hD
      have hId : id' ≠ id := fun hEq => hNe (hI.only d c id' hBefore (hEq ▸ hServes))
      rw [hSessions, hCands, Map.lookup_erase_ite, if_neg hId]
      exact hI.session d id' hBefore
  | fail hServes hMe hCands hSessions =>
    refine ⟨fun d d' id' hD hD' => ?_, fun d id' hD => ?_⟩
    · exact hI.only d d' id' (me_of_left hMe hD).2 (me_of_left hMe hD').2
    · rw [hSessions, hCands]
      exact hI.session d id' (me_of_left hMe hD).2

def latest (s : RelayServer) (id : NodeId) : Option Nat :=
  (s.registrations.find? (·.1 = id)).map (·.2)

/-- The connection is open, and its handler reads the frames of the node. -/
def Open (s : RelayServer) (c : Nat) (id : NodeId) : Prop := s.handler? c = some (.serving id)

instance decidableOpen (s : RelayServer) (c : Nat) (id : NodeId) : Decidable (s.Open c id) :=
  inferInstanceAs (Decidable (_ = _))

instance decidableNoFail (s : RelayServer) (e : RelayEvent) : Decidable (s.NoFail e) :=
  match e with
  | .read c (.error _) _ => inferInstanceAs (Decidable (s.me c = none))
  | .read _ (.ok _) _ | .accept _ | .act _ | .write _ _ => .isTrue trivial

instance decidableAlone (s : RelayServer) (e : RelayEvent) : Decidable (s.Alone e) :=
  match e with
  | .read c (.ok (some (.hello id _))) _ =>
    inferInstanceAs (Decidable (s.me c = none → ∀ k ∈ s.conns, k.handler.me ≠ some id))
  | .read _ (.ok (some (.helloAck _))) _ | .read _ (.ok (some (.punchRequest _))) _
  | .read _ (.ok (some (.exchange _ _))) _ | .read _ (.ok (some (.relayData _ _ _))) _
  | .read _ (.ok (some .statsQuery)) _ | .read _ (.ok (some (.statsReport _))) _
  | .read _ (.ok (some (.error _))) _ | .read _ (.ok none) _ | .read _ (.error _) _
  | .accept _ | .act _ | .write _ _ => .isTrue trivial

end RelayServer

/-- **The table of sessions.** If no connection fails after it has registered (`NoFail`), every
session of the table is of a handler that has not ended. If no node registers while another handler
works under its id (`Alone`), the connection that registered last for an id, as long as it is open,
has its channel and its candidates in the table. -/
theorem sessions_track (display : NodeId → String) (s : RelayServer) :
    (Run (RelayServer.step display) RelayServer.NoFail .new s →
      ∀ id session, s.sessions.lookup id = some session →
        ∃ handler, s.handler? session.channel = some handler ∧ ∀ error, handler ≠ .ended error) ∧
    (Run (RelayServer.step display) RelayServer.Alone .new s →
      ∀ id c, s.latest id = some c → s.Open c id → s.sessions.lookup id = some ⟨c, s.cands c⟩) := by
  constructor
  · intro hRun id session hLookup
    have hLive : s.Live := hRun.invariant Map.All.empty fun _ _ _ hI hOk h =>
      hI.step hOk (RelayServer.step_cases h)
    obtain ⟨k, hConn, hMe⟩ := bind_eq_some_iff.mp (hLive id session hLookup)
    refine ⟨k.handler, by rw [RelayServer.handler?, hConn]; rfl, fun error hEnded => ?_⟩
    rw [hEnded] at hMe
    cases hMe
  · intro hRun id c hLatest hOpen
    have hCurrent : s.Current := hRun.invariant ⟨nofun, nofun⟩ fun _ _ _ hI hOk h =>
      hI.step hOk (RelayServer.step_cases h)
    obtain ⟨k, hConn, hHandler⟩ := map_eq_some_iff.mp hOpen
    exact hCurrent.session c id (by rw [RelayServer.me_eq hConn, hHandler]; rfl)

def loneNode : NodeId := ⟨replicate 32 1, length_replicate⟩

/-- Connection `c` registers, and its handler gets to the loop. -/
def registers (c : Nat) : List RelayEvent :=
  [.read c (.ok (some (.hello loneNode []))) (.stored _), .act c, .act c, .act c]

/-- The stream of connection `c` ends, and its handler with it. -/
def closes (c : Nat) : List RelayEvent :=
  [.read c (.ok none) (.stored _), .act c, .write c true, .write c true, .act c]

/-- A node connects, closes, and connects again. -/
theorem sessions_track_reconnect : ∃ s : RelayServer,
    (∃ session, s.sessions.lookup loneNode = some session ∧
      ∃ handler, s.handler? session.channel = some handler ∧ ∀ error, handler ≠ .ended error) ∧
    s.latest loneNode = some 1 ∧ s.Open 1 loneNode ∧
      s.sessions.lookup loneNode = some ⟨1, s.cands 1⟩ := by
  obtain ⟨s, hRun, hTest⟩ := exists_run_of_exec (RelayServer.step fun _ => "")
    (fun s e => s.NoFail e ∧ s.Alone e) .new
    ([.accept none] ++ registers 0 ++ closes 0 ++ [.accept none] ++ registers 1)
    (fun s => decide (s.latest loneNode = some 1 ∧ s.Open 1 loneNode)) (by decide +kernel)
  obtain ⟨hLatest, hOpen⟩ := of_decide_eq_true hTest
  obtain ⟨hLive, hCurrent⟩ := sessions_track (fun _ => "") s
  have hSession := hCurrent (hRun.mono fun _ _ h => h.2) loneNode 1 hLatest hOpen
  exact ⟨s, ⟨_, hSession, hLive (hRun.mono fun _ _ h => h.1) loneNode _ hSession⟩, hLatest, hOpen,
    hSession⟩

/-- A connection fails, and its session stays. A node connects twice: the second session goes with
the first connection, or gets its candidates. -/
theorem not_sessions_track :
    (∃ s : RelayServer, Run (RelayServer.step fun _ => "") Always .new s ∧
      (∀ k ∈ s.conns, k.handler.waits = true) ∧ ∃ session,
        s.sessions.lookup loneNode = some session ∧
        s.handler? session.channel = some (.ended (some "connection reset"))) ∧
    (∃ s : RelayServer, Run (RelayServer.step fun _ => "") Always .new s ∧
      (∀ k ∈ s.conns, k.handler.waits = true) ∧ s.latest loneNode = some 1 ∧
        s.Open 1 loneNode ∧ s.sessions.lookup loneNode = none) ∧
    (∃ s : RelayServer, Run (RelayServer.step fun _ => "") Always .new s ∧
      (∀ k ∈ s.conns, k.handler.waits = true) ∧ s.latest loneNode = some 1 ∧
        s.Open 1 loneNode ∧ s.cands 1 = [] ∧
        s.sessions.lookup loneNode = some ⟨1, [(.v4 1 1, 0)]⟩) := by
  refine ⟨?_, ?_, ?_⟩
  · obtain ⟨s, hRun, hTest⟩ := exists_run_of_exec (RelayServer.step fun _ => "") Always .new
      ([.accept none] ++ registers 0 ++ [.read 0 (.error "connection reset") (.stored _)])
      (fun s => decide ((∀ k ∈ s.conns, k.handler.waits = true) ∧
        s.sessions.lookup loneNode = some ⟨0, []⟩ ∧
        s.handler? 0 = some (.ended (some "connection reset")))) (by decide +kernel)
    obtain ⟨hWaits, hSession, hEnded⟩ := of_decide_eq_true hTest
    exact ⟨s, hRun, hWaits, _, hSession, hEnded⟩
  · obtain ⟨s, hRun, hTest⟩ := exists_run_of_exec (RelayServer.step fun _ => "") Always .new
      ([.accept none, .accept none] ++ registers 0 ++ registers 1 ++ closes 0)
      (fun s => decide ((∀ k ∈ s.conns, k.handler.waits = true) ∧ s.latest loneNode = some 1 ∧
        s.Open 1 loneNode ∧ s.sessions.lookup loneNode = none)) (by decide +kernel)
    exact ⟨s, hRun, of_decide_eq_true hTest⟩
  · obtain ⟨s, hRun, hTest⟩ := exists_run_of_exec (RelayServer.step fun _ => "") Always .new
      ([.accept none, .accept none] ++ registers 0 ++ registers 1 ++
        [.read 0 (.ok (some (.hello loneNode [(.v4 1 1, 0)]))) (.stored _)])
      (fun s => decide ((∀ k ∈ s.conns, k.handler.waits = true) ∧ s.latest loneNode = some 1 ∧
        s.Open 1 loneNode ∧ s.cands 1 = [] ∧
        s.sessions.lookup loneNode = some ⟨1, [(.v4 1 1, 0)]⟩)) (by decide +kernel)
    exact ⟨s, hRun, of_decide_eq_true hTest⟩

end DirectWire.Mesh
