import Hermes.Host
import Hermes.Base.Machine

/-!
# Listening, connecting and closing

The public operations of the library and the handlers their completions run.  A
completion is handled either at once, when the provider answers the call that starts
it with a result, or later, when `Run` is told of it; the handler is the same code.
`hostMachine` takes every operation and every completion as one step.

`TerminalCloser` is not part of the repository.  `closeTerminal` is what is assumed of it:
it destroys the regions of a started terminal and clears both pointers, and gives the
terminal and its socket back.  What the connection notifier is told is up to it.
-/

namespace Hermes

namespace Host

variable {queue : CircularQue ℕ} (config : HostConfig)

section Accepting

/-- `CreateSocket`: the status and the handle. -/
def createSocket : Code queue (StatusCode × UInt64) := do
  let host ← get
  if host.closing then return (ndCanceled, invalidHandle)
  else
    match ← allocateSocket with
    | (err, none) => return (err, invalidHandle)
    | (err, some pSock) => do
        let host ← get
        let handle := (host.sockTbl pSock).handle
        deliver handle
        return (err, handle)

/-- The clean-up of `Listen`. -/
def listenCleanup (pSock : ℕ) : Code queue PUnit := do
  modifySocket pSock fun sock => { sock with state := .disconnected, port := 0 }
  let host ← get
  match (host.sockTbl pSock).pListen with
  | some pListen => do
      release pListen
      modifySocket pSock fun sock => { sock with pListen := none }
  | none => pure ⟨⟩

/-- What `Listen` does under its clean-up guard. -/
def startToListen (pSock : ℕ) (port : UInt16) (replies : Replies) : Code queue StatusCode := do
  let host ← get
  if host.closing ∨ (host.sockTbl pSock).state = .stopping then return ndCanceled
  else do
    if failed replies.createListener then return replies.createListener
    else do
      let pListen ← createObject
      modifySocket pSock fun sock => { sock with pListen := some pListen }
      if replies.createListener ≠ hOk then return replies.createListener
      else if replies.bindListener ≠ hOk then return replies.bindListener
      else do
        modifySocket pSock fun sock => { sock with port }
        if replies.listen ≠ hOk then return replies.listen
        else do
          let host ← get
          audit ((host.sockTbl pSock).state = .startToListen)
            "Unexpect race condition detected in Listen."
          modifySocket pSock fun sock => { sock with state := .listening }
          return hOk

/-- `Listen`. -/
def listen (handle : UInt64) (port : UInt16) (replies : Replies) : Code queue StatusCode := do
  let host ← get
  match host.findSocket handle with
  | none => return eHandle
  | some pSock =>
      if host.closing ∨ (host.sockTbl pSock).state ≠ .disconnected then return eNotValidState
      else do
        modifySocket pSock fun sock => { sock with state := .startToListen }
        let err ← startToListen pSock port replies
        if err ≠ hOk then do
          listenCleanup pSock
          return err
        else return err

/-- The final block of `OnConnAccepted`, when it is not dismissed. -/
def onConnAcceptedFinal (connSock : ℕ) (err : StatusCode) (arena : ℕ) : Code queue PUnit :=
  if err ≠ hOk then do
    let host ← get
    let pTerm ← getTerminal config (host.sockTbl connSock).term
    audit (pTerm.pDisconnectCont ≠ none) "Terminal not started when connection is ready."
    let continuation ← derefPtr pTerm.pDisconnectCont "OnConnAccepted"
    post continuation err
    retire arena
  else retire arena

/-- The handler of the disconnect notification. -/
def onDisconNotified (termId : ℕ) : Code queue PUnit := do
  let host ← get
  let continuation ← derefPtr (host.connections termId).pDisconnectCont "onDisconNotified"
  post continuation errorGracefulDisconnect

/-- `OnConnAccepted`. -/
def onConnAccepted (connSock : ℕ) (hr : HRESULT) (arena : ℕ) (replies : Replies) :
    Code queue PUnit :=
  if hr ≠ hOk then onConnAcceptedFinal config connSock hr arena
  else do
    let host ← get
    audit ((host.sockTbl connSock).state = .accept1 ∨ (host.sockTbl connSock).state = .connAck)
      "Unexpected state found when accepting connections"
    modifySocket connSock fun sock => { sock with state := .connAgreed }
    let termId := (host.sockTbl connSock).term
    let pTerm ← getTerminal config termId
    let connector ← derefPtr pTerm.pConnector "GetPeerAddress"
    if replies.peerAddress ≠ hOk then
      onConnAcceptedFinal config connSock replies.peerAddress arena
    else do
      modifyTerminal termId fun term =>
        { term with rmtIpAddr := replies.peerIp, rmtPort := replies.peerPort }
      if replies.localAddress ≠ hOk then
        onConnAcceptedFinal config connSock replies.localAddress arena
      else do
        modifySocket connSock fun sock => { sock with port := replies.localPort }
        audit (replies.localIp = config.homeIp) "Local address mismatch!"
        let continuation ← derefPtr pTerm.pDisconnectCont "GetArena"
        let ov ← getObj (.onDisconNotified termId) continuation (some connector)
        finishCall ov replies.notifyDisconnect (onDisconNotified termId)
        let host ← get
        audit ((host.sockTbl connSock).state = .connAgreed) "Race condition in OnConnAccepted"
        modifySocket connSock fun sock => { sock with state := .connected }
        let host ← get
        let notifier ← derefPtr (host.connections termId).pConnFunc "m_pConnFunc"
        notify notifier (host.connections termId).handle hOk
        retire arena

/-- The final block of `ProcessConnReq`, when it is not dismissed. -/
def processConnReqFinal (connSock : ℕ) (err : StatusCode) (arena : ℕ) : Code queue PUnit := do
  let host ← get
  let termId := (host.sockTbl connSock).term
  let pT ← getTerminal config termId
  match pT.pDisconnectCont with
  | some continuation => post continuation err
  | none => do
      match pT.pConnFunc with
      | some notifier => notify notifier pT.handle err
      | none => pure ⟨⟩
      freeTerminal config termId
      modifySocket connSock fun sock => { sock with term := invalidTermId }
      freeSocket (handleToId (host.sockTbl connSock).handle)
  retire arena

/-- The hand shake of a peer that runs the same protocol. -/
def handShakeMatches (handShake : HandShake) : Prop :=
  handShake.tag.writeEdge = 0 ∧ handShake.tag.trailingEdge = UInt64.ofNat config.bufSize

instance (handShake : HandShake) : Decidable (handShakeMatches config handShake) :=
  inferInstanceAs (Decidable (_ ∧ _))

/-- `ProcessConnReq`. -/
def processConnReq (connSock : ℕ) (hr : HRESULT) (arena : ℕ) (replies : Replies) :
    Code queue PUnit := do
  let host ← get
  if hr ≠ hOk then processConnReqFinal config connSock hr arena
  else if host.closing then processConnReqFinal config connSock ndCanceled arena
  else do
    audit ((host.sockTbl connSock).state = .accept1)
      "Unexpected state found in connection sock while querying connection req."
    let termId := (host.sockTbl connSock).term
    let pTerm ← getTerminal config termId
    record (.used arena)
    let connector ← derefPtr pTerm.pConnector "GetPrivateData"
    if replies.privateData ≠ hOk ∧ replies.privateData ≠ ndBufferOverflow then
      processConnReqFinal config connSock replies.privateData arena
    else do
      audit (handShakeMatches config replies.handShake) "Rmote protocol mismatch!"
      startTerminal config termId replies.handShake replies
      let _ ← prepareHandShakeData config termId replies
      record (.used arena)
      let ov ← getObj (.onAccepted connSock) arena (some connector)
      finishCall ov replies.accept (onConnAccepted config connSock replies.accept arena replies)

/-- The handler of a connection request. -/
def onConn (connSock pListen : ℕ) (hr : HRESULT) (arena : ℕ) (replies : Replies) :
    Code queue PUnit := do
  release pListen
  processConnReq config connSock hr arena replies

/-- The clean-up of `Accept`, for a socket that was allocated. -/
def acceptCleanup (pConnect : ℕ) : Code queue PUnit := do
  let host ← get
  let sock := host.sockTbl pConnect
  if sock.term ≠ invalidTermId then do
    freeTerminal config sock.term
    modifySocket pConnect fun sock => { sock with term := invalidTermId }
    freeSocket (handleToId sock.handle)
  else freeSocket (handleToId sock.handle)

/-- A terminal gets the call's notifiers. -/
def setNotifiers (termId connectCallback rcvCallback : ℕ) : Code queue PUnit := do
  let host ← get
  set { host with calls := host.calls + 1 }
  modifyTerminal termId fun term =>
    { term with pConnFunc := some ⟨connectCallback, host.calls⟩, pRcvFunc := some rcvCallback }

/-- `Accept`. -/
def accept (handle : UInt64) (connectCallback rcvCallback : ℕ) (replies : Replies) :
    Code queue StatusCode := do
  let host ← get
  match host.findSocket handle with
  | none => return eHandle
  | some pSock =>
      if host.closing ∨ (host.sockTbl pSock).state ≠ .listening then return eNotValidState
      else
        match ← allocateSocket with
        | (err, none) => return err
        | (_, some pConnect) => do
            modifySocket pConnect fun sock => { sock with state := .accept1 }
            let host ← get
            match (host.sockTbl pSock).pListen with
            | none => do
                acceptCleanup config pConnect
                return ndCanceled
            | some pListen => do
                addRef pListen
                audit ((host.sockTbl pConnect).term = invalidTermId)
                  "Double allocation of connection block."
                let (err, termId) ← allocTerminal config (host.sockTbl pConnect).handle replies
                modifySocket pConnect fun sock => { sock with term := termId }
                if termId = invalidTermId then do
                  acceptCleanup config pConnect
                  return err
                else do
                  let _ ← getTerminal config termId
                  setNotifiers termId connectCallback rcvCallback
                  let arena ← getNewArena
                  record (.began arena)
                  let ov ← getObj (.onConn pConnect pListen) arena (some pListen)
                  finishCall ov replies.getConnectionRequest
                    (onConn config pConnect pListen replies.getConnectionRequest arena replies)
                  return hOk

end Accepting

section Closing

/-- `TryCloseSocket`: whether the socket is or will be closed. -/
def tryCloseSocket (pSock : ℕ) (err : StatusCode) : Code queue Bool := do
  let host ← get
  let sock := host.sockTbl pSock
  match sock.state with
  | .disconnected => do
      modifySocket pSock fun sock => { sock with state := .stopping }
      freeSocket (handleToId sock.handle)
      return true
  | .connected => do
      audit (sock.term ≠ invalidTermId) "Connected socket should have a terminal."
      let pTerm ← getTerminal config sock.term
      let continuation ← derefPtr pTerm.pDisconnectCont "TryCloseSocket"
      post continuation err
      return true
  | .listening => do
      audit (sock.pListen ≠ none) "Listener expected from a listening socket."
      modifySocket pSock fun sock => { sock with pListen := none, state := .stopping, port := 0 }
      releasePtr sock.pListen
      freeSocket (handleToId sock.handle)
      return true
  | _ => return false

/-- The loop of `CloseSocket`. -/
def closeLoop (pSock : ℕ) (err : StatusCode) : ℕ → Code queue PUnit
  | 0 => fail hUnexpected "Socket in transition state for too long: %d"
  | rounds + 1 => do
      let host ← get
      if (host.sockTbl pSock).state = .inpool then pure ⟨⟩
      else if ← tryCloseSocket config pSock err then pure ⟨⟩
      else closeLoop pSock err rounds

/-- `CloseSocket`. -/
def closeSocket (handle : UInt64) (err : StatusCode) : Code queue PUnit := do
  let host ← get
  match host.findSocket handle with
  | none => pure ⟨⟩
  | some pSock => closeLoop config pSock err 10000

/-- One socket in the closing loop of the destructor. -/
def destroySocket (id : ℕ) : Code queue PUnit := do
  let host ← get
  if (host.sockTbl id).state = .inpool then pure ⟨⟩
  else do
    let _ ← tryCloseSocket config id ndCanceled
    pure ⟨⟩

/-- A notifier is called once for each status. -/
def notifyEach (notifier : ConnectionNotifier) (handle : UInt64) :
    List StatusCode → Code queue PUnit
  | [] => pure ⟨⟩
  | err :: rest => do
      notify notifier handle err
      notifyEach notifier handle rest

/-- The notifier, if there is one, is called once for each status. -/
def notifyAny (pointer : Option ConnectionNotifier) (handle : UInt64)
    (notices : List StatusCode) : Code queue PUnit :=
  match pointer with
  | some notifier => notifyEach notifier handle notices
  | none => pure ⟨⟩

/-- What `TerminalCloser` is assumed to do with a started terminal: it calls the connection notifier
as often as it likes, destroys the regions and clears both pointers, and gives the terminal and its
socket back. -/
def closeTerminal (termId : ℕ) (notices : List StatusCode) : Code queue PUnit := do
  let pTerm ← getTerminal config termId
  if pTerm.pDisconnectCont = none then throw .blocked
  else do
    notifyAny pTerm.pConnFunc pTerm.handle notices
    let pSock := handleToId pTerm.handle
    releaseAny pTerm.pMemRegion
    releaseAny pTerm.pTagRegion
    modifyTerminal termId fun term => { term with pMemRegion := none, pTagRegion := none }
    freeTerminal config termId
    modifySocket pSock fun sock => { sock with term := invalidTermId }
    freeSocket pSock

end Closing

section Connecting

/-- The catch block of `OnConnAck`, when it is not dismissed. -/
def onConnAckCatch (pSock : ℕ) (err : StatusCode) : Code queue PUnit := do
  let host ← get
  closeSocket config (host.sockTbl pSock).handle err
  fail err "Query Connection req failed!"

/-- `OnConnAck`. -/
def onConnAck (pSock : ℕ) (hr : HRESULT) (arena : ℕ) (replies : Replies) : Code queue PUnit := do
  if hr ≠ hOk then onConnAckCatch config pSock hr
  else do
    let host ← get
    audit ((host.sockTbl pSock).state = .connecting)
      "Unexpected socket state detected when complete connect."
    modifySocket pSock fun sock => { sock with state := .connAck }
    let termId := (host.sockTbl pSock).term
    let pTerm ← getTerminal config termId
    record (.used arena)
    let connector ← derefPtr pTerm.pConnector "GetPrivateData"
    if replies.privateData ≠ hOk ∧ replies.privateData ≠ ndBufferOverflow then
      onConnAckCatch config pSock replies.privateData
    else do
      audit (handShakeMatches config replies.handShake) "Rmote protocol mismatch!"
      startTerminal config termId replies.handShake replies
      let ov ← getObj (.onAccepted pSock) arena (some connector)
      finishCall ov replies.completeConnect
        (onConnAccepted config pSock replies.completeConnect arena replies)

/-- The clean-up of `Connect`. -/
def connectCleanup (pSock arena : ℕ) : Code queue PUnit := do
  modifySocket pSock fun sock => { sock with state := .disconnected, port := 0 }
  let host ← get
  if (host.sockTbl pSock).term ≠ invalidTermId then do
    freeTerminal config (host.sockTbl pSock).term
    modifySocket pSock fun sock => { sock with term := invalidTermId }
    retire arena
  else retire arena

/-- `Connect`.  The remote address only goes to the provider. -/
def connect (handle : UInt64) (connectCallback rcvCallback : ℕ) (replies : Replies) :
    Code queue StatusCode := do
  let host ← get
  match host.findSocket handle with
  | none => return eHandle
  | some pSock =>
      if host.closing ∨ (host.sockTbl pSock).state ≠ .disconnected then return eNotValidState
      else do
        modifySocket pSock fun sock => { sock with state := .connecting }
        let arena ← getNewArena
        record (.began arena)
        let host ← get
        if host.closing ∨ (host.sockTbl pSock).state ≠ .connecting then do
          connectCleanup config pSock arena
          return ndCanceled
        else do
          audit ((host.sockTbl pSock).term = invalidTermId)
            "Double allocation of connection block."
          let (err, termId) ← allocTerminal config (host.sockTbl pSock).handle replies
          modifySocket pSock fun sock => { sock with term := termId }
          if termId = invalidTermId then do
            connectCleanup config pSock arena
            return err
          else do
            let pTerm ← getTerminal config termId
            setNotifiers termId connectCallback rcvCallback
            let connector ← derefPtr pTerm.pConnector "Bind"
            if replies.bindConnector ≠ hOk then do
              connectCleanup config pSock arena
              return replies.bindConnector
            else do
              let ov ← getObj (.onConnAck pSock) arena (some connector)
              let _ ← prepareHandShakeData config termId replies
              record (.used arena)
              finishCall ov replies.connect
                (onConnAck config pSock replies.connect arena replies)
              return hOk

end Connecting

section Running

/-- The handler of a job.  The handler of verb completions is not part of the repository. -/
def runJob (job : AsyncJob) (arena : ℕ) (hr : HRESULT) (replies : Replies) : Code queue PUnit :=
  match job with
  | .onTagRegistered conId region => onTagRegistered conId region hr
  | .onMemRegistered conId region => onMemRegistered conId region arena hr (pure ⟨⟩)
  | .onConn connSock pListen => onConn config connSock pListen hr arena replies
  | .onConnAck sock => onConnAck config sock hr arena replies
  | .onAccepted connSock => onConnAccepted config connSock hr arena replies
  | .onDisconNotified term => onDisconNotified term
  | .verbCompletion _ => throw .blocked

/-- `Run`: an overlapped operation has completed with a result. -/
def run (ov : ℕ) (hr : HRESULT) (replies : Replies) : Code queue PUnit := do
  unpend ov
  audit (hr ≠ ndPending) "Pending status not expected after IOCP notification!"
  let host ← get
  let (job, arena) ← derefPtr (host.overlaps ov).pNext "PNext"
  record (.ran ov)
  runJob config job arena hr replies
  freeObj ov

/-- `Send`, up to the end of its critical section; what it does then with the ring is the
business of one connection. -/
def send (handle : UInt64) (req : SndReq) : Code queue StatusCode := do
  if req.buf.size > maxMsgSize then return eInvalidArg
  else do
    let host ← get
    match host.findSocket handle with
    | none => return eHandle
    | some pSock =>
        if host.closing ∨ (host.sockTbl pSock).state ≠ .connected then return eNotValidState
        else if ¬sendAdmits req.buf then return eInvalidArg
        else do
          let termId := (host.sockTbl pSock).term
          let pTerm ← getTerminal config termId
          audit (pTerm.handle = handle) "Mismatched handle value found."
          modifyTerminal termId fun term => (term.sendLocked req).1
          return hOk

/-- `GetHomePort`. -/
def getHomePort (handle : UInt64) : Code queue UInt16 := do
  let host ← get
  let pSock ← derefPtr (host.getSocket (handleToId handle)) "GetHomePort"
  if (host.sockTbl pSock).handle ≠ handle then return 0
  else return (host.sockTbl pSock).port

/-- `GetRemoteIp`. -/
def getRemoteIp (handle : UInt64) : Code queue UInt32 := do
  let host ← get
  match host.findSocket handle with
  | none => return 0
  | some pSock =>
      if (host.sockTbl pSock).term = invalidTermId then return 0
      else do
        let pTerm ← getTerminal config (host.sockTbl pSock).term
        return pTerm.rmtIpAddr

/-- `GetRemotePort`. -/
def getRemotePort (handle : UInt64) : Code queue UInt16 := do
  let host ← get
  let pSock ← derefPtr (host.getSocket (handleToId handle)) "GetRemotePort"
  if (host.sockTbl pSock).handle ≠ handle ∨ (host.sockTbl pSock).term = invalidTermId then return 0
  else do
    let pTerm ← getTerminal config (host.sockTbl pSock).term
    return pTerm.rmtPort

end Running

end Host

end Hermes
