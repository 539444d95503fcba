import Hermes.SendQueue
import Hermes.Base.Program
import Hermes.Base.Queue
import Mathlib.Logic.Function.Basic

/-!
# The library object and its tables

`Host` is the state of one `HermesFixedRIO`: the socket table, the terminal table,
the pools of both, the pool of overlapped objects, and what the provider and the
scheduler hold for it.  This file has the code below the public operations: sockets
and terminals taken from and given back to their pools, overlapped objects, memory
regions, and what sets a terminal up for a connection.

Objects of the provider and of the scheduler are numbers.  A step of the library gets
the provider's answers as one record, `Replies`, one field for each call it can make.
-/

namespace Hermes

/-- What a completion runs: one constructor for each `AsyncJob` of the library. -/
inductive AsyncJob where
  | onTagRegistered (conId region : ℕ)
  | onMemRegistered (conId region : ℕ)
  | onConn (connSock listen : ℕ)
  | onConnAck (sock : ℕ)
  | onAccepted (connSock : ℕ)
  | onDisconNotified (term : ℕ)
  | verbCompletion (term : ℕ)
  deriving DecidableEq, Repr

/-- `HOverlap`, the job with the arena it is allocated on. -/
structure HOverlap where
  pReceiver : Option ℕ := none
  pNext : Option (AsyncJob × ℕ) := none
  deriving DecidableEq, Repr

/-- One call of a connection notifier. -/
structure Notification where
  notifier : ConnectionNotifier
  handle : UInt64
  status : StatusCode
  deriving DecidableEq, Repr

/-- A handle given to the client, with the number of times its slot had been freed. -/
structure Delivery where
  handle : UInt64
  frees : ℕ
  deriving DecidableEq, Repr

/-- What becomes of overlapped objects and arenas: an accept or a connect begins on an arena, an
object is taken for a job on an arena, the job runs, the object is given back, other data on an
arena is used, an arena is retired. -/
inductive ArenaEvent where
  | began (arena : ℕ)
  | took (ov : ℕ) (job : AsyncJob) (arena : ℕ)
  | ran (ov : ℕ)
  | gave (ov : ℕ)
  | used (arena : ℕ)
  | retired (arena : ℕ)
  deriving DecidableEq, Repr

/-- The flags of `IND2MemoryRegion::Register`. -/
inductive RegionFlag where
  | allowLocalWrite
  | allowRemoteRead
  | rdmaReadSink
  | allowRemoteWrite
  | doNotSecureVm
  deriving DecidableEq, Repr

/-- The arguments of a call of `IND2MemoryRegion::Register`. -/
structure Registration where
  span : Span
  flags : List RegionFlag
  deriving DecidableEq, Repr

/-- What is fixed for one `HermesFixedRIO`: its constant members, its memory, the sizes the
compiler gives the tables' records, and the tokens the provider gives regions. -/
structure HostConfig where
  bufSize : ℕ
  maxConnection : ℕ
  memory : Span
  terminalSize : ℕ
  socketSize : ℕ
  edgeOffset : ℕ
  homeIp : UInt32
  quePairsPool : Bool
  remoteToken : ℕ → UInt32

/-- State of the library.  The last seven fields are histories that serve the statements: how often
each slot was freed, the handles given to the client, how many calls passed a notifier, the
notifications, the regions whose tokens were put in a hand shake, the regions registered, and what
became of overlapped objects and arenas. -/
structure Host (queue : CircularQue ℕ) where
  buffers : Span := ⟨0, 0⟩
  connectionSpan : Span := ⟨0, 0⟩
  sockSpan : Span := ⟨0, 0⟩
  sockTbl : ℕ → HSocket
  connections : ℕ → Terminal
  connPool : queue.Que
  sockPool : queue.Que
  overlapPool : queue.Que
  overlaps : ℕ → HOverlap := fun _ => {}
  closing : Bool := false
  pending : List ℕ := []
  objects : ℕ := 0
  refs : ℕ → ℕ := fun _ => 0
  arenas : ℕ := 0
  retired : List ℕ := []
  posts : List (ℕ × StatusCode) := []
  frees : ℕ → ℕ := fun _ => 0
  delivered : List Delivery := []
  calls : ℕ := 0
  notified : List Notification := []
  disclosed : List ℕ := []
  registered : List (ℕ × Registration) := []
  events : List ArenaEvent := []

/-- The provider's answers during one step.  `whileTag` and `whileRegions` are the registrations
that complete while the step waits for them, with their results. -/
structure Replies where
  createListener : HRESULT := ndSuccess
  bindListener : HRESULT := ndSuccess
  listen : HRESULT := ndSuccess
  createObjects : HRESULT := ndSuccess
  createCompletionQueue : HRESULT := ndSuccess
  createQueuePair : HRESULT := ndSuccess
  createConnector : HRESULT := ndSuccess
  createTagRegion : HRESULT := ndSuccess
  registerTag : HRESULT := ndPending
  createMemRegion : HRESULT := ndSuccess
  registerMem : HRESULT := ndPending
  whileTag : List (ℕ × HRESULT) := []
  getConnectionRequest : HRESULT := ndPending
  bindConnector : HRESULT := ndSuccess
  connect : HRESULT := ndPending
  privateData : HRESULT := ndSuccess
  handShake : HandShake := ⟨⟨0, 0⟩, 0, 0, 0, 0⟩
  notify : HRESULT := ndPending
  whileRegions : List (ℕ × HRESULT) := []
  accept : HRESULT := ndPending
  completeConnect : HRESULT := ndPending
  peerAddress : HRESULT := ndSuccess
  peerIp : UInt32 := 0
  peerPort : UInt16 := 0
  localAddress : HRESULT := ndSuccess
  localIp : UInt32 := 0
  localPort : UInt16 := 0
  notifyDisconnect : HRESULT := ndPending

/-- The library's code. -/
abbrev Code (queue : CircularQue ℕ) (Result : Type) : Type :=
  Program (Host queue) Stop Result

/-- `HandleToId`: the low 32 bits. -/
def handleToId (handle : UInt64) : ℕ := handle.toNat % 2 ^ 32

/-- `INVALID_HANDLE_VALUE` as a handle. -/
def invalidHandle : UInt64 := 0xFFFFFFFFFFFFFFFF

/-- `uint32_t` arithmetic. -/
def wrap32 (value : ℕ) : ℕ := value % 2 ^ 32

namespace Host

variable {queue : CircularQue ℕ}

section Basics

def audit (condition : Prop) [Decidable condition] (text : String) : Code queue PUnit :=
  if condition then pure ⟨⟩ else throw (.abort (.assert text))

/-- `Audit::OutOfLine::Fail`. -/
def fail {Result : Type} (status : StatusCode) (text : String) : Code queue Result :=
  throw (.abort (.fail status text))

/-- Use of an object through a pointer. -/
def derefPtr {Object : Type} (pointer : Option Object) (text : String) : Code queue Object :=
  match pointer with
  | some object => pure object
  | none => throw (.abort (.undefined text))

def modifySocket (id : ℕ) (change : HSocket → HSocket) : Code queue PUnit :=
  modify fun host =>
    { host with sockTbl := Function.update host.sockTbl id (change (host.sockTbl id)) }

def modifyTerminal (conId : ℕ) (change : Terminal → Terminal) : Code queue PUnit :=
  modify fun host =>
    { host with
      connections := Function.update host.connections conId (change (host.connections conId)) }

/-- The provider makes an object, with one reference. -/
def createObject : Code queue ℕ := do
  let host ← get
  set { host with
    objects := host.objects + 1, refs := Function.update host.refs host.objects 1 }
  return host.objects

def addRef (object : ℕ) : Code queue PUnit :=
  modify fun host =>
    { host with refs := Function.update host.refs object (host.refs object + 1) }

def release (object : ℕ) : Code queue PUnit :=
  modify fun host =>
    { host with refs := Function.update host.refs object (host.refs object - 1) }

def releasePtr (pointer : Option ℕ) : Code queue PUnit := do
  let object ← derefPtr pointer "Release of a null object"
  release object

/-- Release an object if there is one. -/
def releaseAny (pointer : Option ℕ) : Code queue PUnit :=
  match pointer with
  | some object => release object
  | none => pure ⟨⟩

def record (event : ArenaEvent) : Code queue PUnit :=
  modify fun host => { host with events := host.events ++ [event] }

/-- `GetNewArena`. -/
def getNewArena : Code queue ℕ := do
  let host ← get
  set { host with arenas := host.arenas + 1 }
  return host.arenas

def retire (arena : ℕ) : Code queue PUnit :=
  modify fun host =>
    { host with retired := host.retired ++ [arena], events := host.events ++ [.retired arena] }

/-- A continuation is posted to the scheduler. -/
def post (continuation : ℕ) (err : StatusCode) : Code queue PUnit :=
  modify fun host => { host with posts := host.posts ++ [(continuation, err)] }

/-- The client learns a handle. -/
def deliver (handle : UInt64) : Code queue PUnit :=
  modify fun host =>
    { host with delivered := host.delivered ++ [⟨handle, host.frees (handleToId handle)⟩] }

/-- A connection notifier is called. -/
def notify (notifier : ConnectionNotifier) (handle : UInt64) (status : StatusCode) :
    Code queue PUnit := do
  modify fun host => { host with notified := host.notified ++ [⟨notifier, handle, status⟩] }
  deliver handle

end Basics

section Sockets

/-- `GetSocket`: the pointer is the id. -/
def getSocket (host : Host queue) (id : ℕ) : Option ℕ :=
  if 1 ≤ id ∧ id ≤ queue.getCapacity host.sockPool then some id else none

/-- `AllocateSocket`: the status and the pointer. -/
def allocateSocket : Code queue (StatusCode × Option ℕ) := do
  let host ← get
  match queue.get host.sockPool with
  | none => return (eNotSufficientBuffer, none)
  | some (id, sockPool) => do
      set { host with sockPool }
      let pSock ← derefPtr (host.getSocket id) "AllocateSocket"
      let sock := host.sockTbl pSock
      audit (sock.state = .inpool) "Socket state changed while in socket pool!"
      audit (sock.term = invalidTermId ∧ sock.pListen = none) "Socket state not cleared."
      audit (handleToId sock.handle = id) "Lower 32b of handle should be the index"
      modifySocket pSock fun sock => { sock with state := .disconnected }
      return (hOk, some pSock)

/-- `FreeSocket`. -/
def freeSocket (id : ℕ) : Code queue PUnit := do
  let host ← get
  let pSock ← derefPtr (host.getSocket id) "FreeSocket"
  audit ((host.sockTbl pSock).state ≠ .inpool) "Double free of socket"
  let handle := (host.sockTbl pSock).handle + 0x100000000
  modifySocket pSock fun sock => { sock with state := .inpool, handle }
  modify fun host => { host with frees := Function.update host.frees pSock (host.frees pSock + 1) }
  audit (handleToId handle = id) "Lower 32b of handle should be the index"
  match queue.add host.sockPool id with
  | none => throw (.abort (.assert "Unexpected sock pool overflow during deallocation"))
  | some sockPool => modify fun host => { host with sockPool }

/-- `GetSocket(HandleToId(handle))`, when the socket there has this handle. -/
def findSocket (host : Host queue) (handle : UInt64) : Option ℕ :=
  match host.getSocket (handleToId handle) with
  | none => none
  | some pSock => if (host.sockTbl pSock).handle = handle then some pSock else none

end Sockets

section Buffers

variable (config : HostConfig)

/-- The check `GetTerminal`, `GetBufPair`, `GetRcvBuf` and `GetSndBuf` start with: `conId--` wraps
for id zero. -/
def checkConId (conId : ℕ) : Code queue PUnit :=
  audit (1 ≤ conId ∧ conId ≤ config.maxConnection) "Invalid Connection Id"

/-- `GetTerminal`: the pointer is the id. -/
def getTerminal (conId : ℕ) : Code queue Terminal := do
  checkConId config conId
  let host ← get
  return host.connections conId

/-- `pTerm` and `sizeof(Terminal)`. -/
def terminalSpan (host : Host queue) (conId : ℕ) : Span :=
  ⟨host.connectionSpan.data + (conId - 1) * config.terminalSize, config.terminalSize⟩

def subspan (span : Span) (offset count : ℕ) : Code queue Span :=
  match span.subspan offset count with
  | .ok part => pure part
  | .error reason => throw (.abort reason)

def getBufPair (conId : ℕ) : Code queue Span := do
  checkConId config conId
  let host ← get
  subspan host.buffers (wrap32 ((conId - 1) * config.bufSize * 2)) (wrap32 (config.bufSize * 2))

def getRcvBuf (conId : ℕ) : Code queue Span := do
  checkConId config conId
  let host ← get
  subspan host.buffers (wrap32 ((conId - 1) * config.bufSize * 2)) config.bufSize

def getSndBuf (conId : ℕ) : Code queue Span := do
  checkConId config conId
  let host ← get
  subspan host.buffers (wrap32 ((conId - 1) * config.bufSize * 2 + config.bufSize)) config.bufSize

end Buffers

section Overlaps

/-- `HOverlapPool::GetObj`, with `ObjectPool::Alloc`. -/
def getObj (job : AsyncJob) (arena : ℕ) (pReceiver : Option ℕ) : Code queue ℕ := do
  let host ← get
  match queue.get host.overlapPool with
  | none => throw (.abort (.assert "Resource pool empty!"))
  | some (ov, overlapPool) => do
      set { host with overlapPool }
      audit (host.overlaps ov = {}) "Object stat changed while in pool!"
      modify fun host =>
        { host with overlaps := Function.update host.overlaps ov ⟨pReceiver, some (job, arena)⟩ }
      record (.took ov job arena)
      return ov

/-- `HOverlapPool::FreeObj`, with `ObjectPool::Free`. -/
def freeObj (ov : ℕ) : Code queue PUnit := do
  let host ← get
  audit ((host.overlaps ov).pNext ≠ none ∨ (host.overlaps ov).pReceiver ≠ none) "Double free!"
  modify fun host => { host with overlaps := Function.update host.overlaps ov {} }
  match queue.add host.overlapPool ov with
  | none => throw (.abort (.assert "Double free overflow!"))
  | some overlapPool => do
      modify fun host => { host with overlapPool }
      record (.gave ov)

/-- The provider keeps an overlapped operation. -/
def pend (ov : ℕ) : Code queue PUnit :=
  modify fun host => { host with pending := host.pending ++ [ov] }

/-- An overlapped operation of the provider ends. -/
def unpend (ov : ℕ) : Code queue PUnit := do
  let host ← get
  if ov ∈ host.pending then set { host with pending := host.pending.erase ov }
  else throw .blocked

/-- What follows an overlapped call: the handler runs at once and the overlapped object is free
again, or the operation is pending. -/
def finishCall (ov : ℕ) (hr : HRESULT) (handler : Code queue PUnit) : Code queue PUnit :=
  if hr ≠ ndPending then do
    record (.ran ov)
    handler
    freeObj ov
  else pend ov

end Overlaps

section Regions

variable (config : HostConfig)

/-- The tag region is registered. -/
def onTagRegistered (conId region : ℕ) (hr : HRESULT) : Code queue PUnit :=
  if hr ≠ ndSuccess then fail hr "Failed to register tag region."
  else do
    let host ← get
    audit ((host.connections conId).pTagRegion = none) "Duplicate init of tag mem region."
    modifyTerminal conId fun term => { term with pTagRegion := some region }

/-- The buffer region is registered; `waiting` runs while the handler waits for the tag region. -/
def onMemRegistered (conId region arena : ℕ) (hr : HRESULT) (waiting : Code queue PUnit) :
    Code queue PUnit :=
  if hr ≠ ndSuccess then fail hr "Failed to register buffer region."
  else do
    waiting
    let host ← get
    if (host.connections conId).pTagRegion = none then throw .blocked
    else do
      audit ((host.connections conId).pMemRegion = none) "Duplicate init of buffer mem region."
      modifyTerminal conId fun term => { term with pMemRegion := some region }
      retire arena

/-- A registration completes on another thread while this one waits. -/
def completeRegistration (ov : ℕ) (hr : HRESULT) : Code queue PUnit := do
  unpend ov
  audit (hr ≠ ndPending) "Pending status not expected after IOCP notification!"
  record (.ran ov)
  let host ← get
  match (host.overlaps ov).pNext with
  | some (.onTagRegistered conId region, _) => onTagRegistered conId region hr
  | some (.onMemRegistered conId region, arena) =>
      onMemRegistered conId region arena hr (pure ⟨⟩)
  | _ => throw .blocked
  freeObj ov

def completeRegistrations : List (ℕ × HRESULT) → Code queue PUnit
  | [] => pure ⟨⟩
  | (ov, hr) :: rest => do
      completeRegistration ov hr
      completeRegistrations rest

/-- The flags `CreateMemRegions` registers both regions with. -/
def regionFlags : List RegionFlag :=
  [.allowLocalWrite, .allowRemoteRead, .rdmaReadSink, .allowRemoteWrite, .doNotSecureVm]

/-- The arguments of a call of `Register`; its answer is for `finishCall`. -/
def register (region : ℕ) (registration : Registration) : Code queue PUnit :=
  modify fun host => { host with registered := host.registered ++ [(region, registration)] }

/-- `CreateMemRegions`. -/
def createMemRegions (conId : ℕ) (replies : Replies) : Code queue PUnit := do
  let pTerm ← getTerminal config conId
  if pTerm.pMemRegion ≠ none then
    audit (pTerm.pTagRegion ≠ none) "Memory region state mismatch!"
  else do
    let buf ← getBufPair config conId
    let arena ← getNewArena
    if replies.createTagRegion ≠ ndSuccess then
      fail replies.createTagRegion "Failed creating memory region."
    else do
      let tagRegion ← createObject
      let tagOv ← getObj (.onTagRegistered conId tagRegion) arena (some tagRegion)
      let host ← get
      register tagRegion ⟨host.terminalSpan config conId, regionFlags⟩
      finishCall tagOv replies.registerTag (onTagRegistered conId tagRegion replies.registerTag)
      if replies.createMemRegion ≠ ndSuccess then
        fail replies.createTagRegion "Failed creating memory region."
      else do
        let memRegion ← createObject
        let memOv ← getObj (.onMemRegistered conId memRegion) arena (some memRegion)
        register memRegion ⟨buf, regionFlags⟩
        finishCall memOv replies.registerMem
          (onMemRegistered conId memRegion arena replies.registerMem
            (completeRegistrations replies.whileTag))

end Regions

section Terminals

variable (config : HostConfig)

/-- `InitQues`: the objects made are stored as they are made. -/
def initQues (conId : ℕ) (replies : Replies) : Code queue StatusCode :=
  if config.quePairsPool then
    if failed replies.createObjects then pure replies.createObjects
    else do
      let quePair ← createObject
      let cq ← createObject
      modifyTerminal conId fun term => { term with pQuePair := some quePair, pCQ := some cq }
      createConnector
  else
    if failed replies.createCompletionQueue then pure replies.createCompletionQueue
    else do
      let cq ← createObject
      modifyTerminal conId fun term => { term with pCQ := some cq }
      if failed replies.createQueuePair then return replies.createQueuePair
      else do
        let quePair ← createObject
        modifyTerminal conId fun term => { term with pQuePair := some quePair }
        createConnector
where
  createConnector : Code queue StatusCode :=
    if failed replies.createConnector then pure replies.createConnector
    else do
      let connector ← createObject
      modifyTerminal conId fun term => { term with pConnector := some connector }
      return replies.createConnector

/-- `Terminal::Prepare`. -/
def prepare (conId : ℕ) (replies : Replies) : Code queue StatusCode := do
  let host ← get
  let pTerm := host.connections conId
  audit (pTerm.pQuePair = none ∧ pTerm.pCQ = none ∧ pTerm.pConnector = none)
    "ND resources leaking detected!"
  modifyTerminal conId fun term =>
    { term with
      rcvEnd := ⟨UInt64.ofNat config.bufSize, 0⟩
      sndEnd := ⟨UInt64.ofNat config.bufSize, 0⟩ }
  initQues config conId replies

/-- `Terminal::Cleanup`. -/
def cleanup (conId : ℕ) : Code queue PUnit := do
  let host ← get
  let pTerm := host.connections conId
  match pTerm.pConnector with
  | some connector => do
      release connector
      releasePtr pTerm.pQuePair
      releasePtr pTerm.pCQ
  | none => pure ⟨⟩
  modifyTerminal conId Terminal.voidFlds

/-- `FreeTerminal`. -/
def freeTerminal (id : ℕ) : Code queue PUnit := do
  let pTerm ← getTerminal config id
  audit (pTerm.rcvEnd.trailingEdge ≠ 0 ∧ pTerm.sndEnd.trailingEdge ≠ 0)
    "Double free to connection pool"
  cleanup id
  let host ← get
  match queue.add host.connPool id with
  | none => throw (.abort (.assert "Connection pool internal error."))
  | some connPool => set { host with connPool }

/-- `AllocTerminal`: the status and the terminal's id. -/
def allocTerminal (parent : UInt64) (replies : Replies) : Code queue (StatusCode × ℕ) := do
  let host ← get
  match queue.get host.connPool with
  | none => throw (.abort (.assert "Exhausted connection!"))
  | some (id, connPool) => do
      set { host with connPool }
      let ptr ← getTerminal config id
      audit (ptr.rcvEnd.trailingEdge = 0 ∧ ptr.sndEnd.trailingEdge = 0)
        "Invalid connection state from connection pool"
      let err ← prepare config id replies
      if err ≠ hOk then do
        modifyTerminal id fun term =>
          { term with sndEnd := { term.sndEnd with trailingEdge := UInt64.ofNat config.bufSize } }
        freeTerminal config id
        return (err, invalidTermId)
      else do
        createMemRegions config id replies
        modifyTerminal id fun term => { term with handle := parent }
        return (err, id)

/-- `PrepareHandShakeData`; other threads complete registrations while it waits for both
regions. -/
def prepareHandShakeData (termId : ℕ) (replies : Replies) : Code queue HandShake := do
  let pTerm ← getTerminal config termId
  let rcvBuf ← getRcvBuf config termId
  completeRegistrations replies.whileRegions
  let host ← get
  match (host.connections termId).pMemRegion, (host.connections termId).pTagRegion with
  | some memRegion, some tagRegion => do
      modify fun host => { host with disclosed := host.disclosed ++ [memRegion, tagRegion] }
      return {
        tag := pTerm.rcvEnd
        tagAddr := host.connectionSpan.data + (termId - 1) * config.terminalSize + config.edgeOffset
        bufAddr := rcvBuf.data
        memToken := config.remoteToken memRegion
        tagToken := config.remoteToken tagRegion }
  | _, _ => throw .blocked

/-- `StartTerminal`.  The activity has one continuation of each kind, so they go by the number of
its arena. -/
def startTerminal (termId : ℕ) (handShake : HandShake) (replies : Replies) : Code queue PUnit := do
  let _ ← getTerminal config termId
  modifyTerminal termId fun term =>
    { term.saveRemoteKeys handShake with sndRunning := false, sndQue := [] }
  let arena ← getNewArena
  modifyTerminal termId fun term =>
    { term with
      pRcvCont := some arena
      pDisconnectCont := some arena
      pVerbCompletion := some arena }
  let host ← get
  let ov ← getObj (.verbCompletion termId) arena (host.connections termId).pCQ
  audit (replies.notify = ndPending)
    "Notification error not handled! We don't expect immediate return either!"
  pend ov

end Terminals

end Host

end Hermes
