import Hermes.HostConnect

/-!
# Setting the library up

The checks of `HermesFixedRIOFactory`, the size `LargePageBuffer` allocates, the
construction of the pools, and `SliceNregister`, which lays the rings and the two
tables out in the memory allocated and fills the pools.  `hostMachine` starts where
this succeeds.
-/

namespace Hermes

/-- `SI::Ki` and `SI::Mi`. -/
def kibi : ℕ := 1024
def mebi : ℕ := 1024 * 1024

/-- `LargePageBuffer::LargePageBuffer`: the size it allocates. -/
def allocatedSize (oneBufferSize bufferCount granularity : ℕ) : ℕ :=
  ((oneBufferSize * bufferCount + granularity - 1) % sizeLimit) &&&
    (sizeLimit - granularity)

/-- The checks of `HermesFixedRIOFactory` on its arguments. -/
def factoryChecks (conBufSize maxConnections : ℕ) : Except Abort Unit := do
  auditAssert (conBufSize < 16 * mebi ∧ conBufSize > 4 * kibi) "Buffer size out of bound."
  auditAssert (isPower2 conBufSize) "Buffer size must be power of 2."
  auditAssert (maxConnections < 100 * kibi) "Do not support massive scale yet."
  auditAssert (isPower2 maxConnections) "maxConnections must be power of 2 in this prototype."

/-- One call of the factory: its two arguments, and what the environment provides, namely the
sizes of the tables' records, the large page granularity, the address of the pages allocated, and
the provider. -/
structure Setup where
  conBufSize : ℕ
  maxConnections : ℕ
  terminalSize : ℕ
  socketSize : ℕ
  edgeOffset : ℕ
  granularity : ℕ
  pages : ℕ
  homeIp : UInt32
  quePairsPool : Bool
  remoteToken : ℕ → UInt32

namespace Setup

/-- The memory the factory allocates for each connection: two rings, one terminal, two sockets. -/
def tSize (setup : Setup) : ℕ := setup.conBufSize + setup.terminalSize + 2 * setup.socketSize

/-- The constant members of the library object the factory makes. -/
def config (setup : Setup) : HostConfig where
  bufSize := wrap32 (setup.conBufSize >>> 1)
  maxConnection := setup.maxConnections
  memory := ⟨setup.pages, allocatedSize setup.tSize setup.maxConnections setup.granularity⟩
  terminalSize := setup.terminalSize
  socketSize := setup.socketSize
  edgeOffset := setup.edgeOffset
  homeIp := setup.homeIp
  quePairsPool := setup.quePairsPool
  remoteToken := setup.remoteToken

end Setup

/-- Items are added to a queue one by one. -/
def addAll {queue : CircularQue ℕ} (que : queue.Que) (text : String) :
    List ℕ → Except Abort queue.Que
  | [] => .ok que
  | item :: items =>
      match queue.add que item with
      | none => .error (.assert text)
      | some que => addAll que text items

/-- `ObjectPool::ObjectPool`: the objects go by their index. -/
def objectPool (queue : CircularQue ℕ) (size : ℕ) : Except Abort queue.Que :=
  let pool := queue.make size
  addAll pool "Internal error, pool size mismatch." (List.range (queue.getCapacity pool))

namespace Host

variable {queue : CircularQue ℕ} (config : HostConfig)

def addConnection (conId : ℕ) : Code queue PUnit := do
  let host ← get
  match queue.add host.connPool conId with
  | none => throw (.abort (.assert "Connection pool size error!"))
  | some connPool => set { host with connPool }

/-- A socket enters its pool and gets its first handle. -/
def addSocket (id : ℕ) : Code queue PUnit := do
  let host ← get
  match queue.add host.sockPool id with
  | none => throw (.abort (.assert "Socket pool size error!"))
  | some sockPool => do
      set { host with sockPool }
      let pSock ← derefPtr (host.getSocket id) "SliceNregister"
      modifySocket pSock fun sock => { sock with handle := UInt64.ofNat (2 ^ 32 ||| id) }

/-- The loop of `SliceNregister`. -/
def sliceLoop : ℕ → ℕ → Code queue PUnit
  | 0, _ => pure ⟨⟩
  | rounds + 1, conId => do
      let _ ← getBufPair config conId
      let _ ← getTerminal config conId
      modifyTerminal conId fun _ => {}
      addConnection conId
      addSocket conId
      addSocket (wrap32 (conId + config.maxConnection))
      sliceLoop rounds (conId + 1)

/-- `gsl::span::subspan(offset)`: everything from `offset` on. -/
def tailSpan (span : Span) (offset : ℕ) : Code queue Span :=
  subspan span offset (span.size - offset)

/-- `SliceNregister`. -/
def sliceNregister : Code queue PUnit := do
  let totalBufSize := wrap32 (config.maxConnection * config.bufSize * 2)
  let buffers ← subspan config.memory 0 totalBufSize
  let connectionRegion ← tailSpan config.memory totalBufSize
  audit (connectionRegion.size / config.terminalSize > config.maxConnection)
    "Not enough memory for connections."
  let connectionSpan : Span :=
    ⟨connectionRegion.data, config.maxConnection * config.terminalSize⟩
  let sockRegion ← tailSpan connectionRegion connectionSpan.size
  let host ← get
  let numSockets := queue.getCapacity host.sockPool
  audit (numSockets = wrap32 (config.maxConnection <<< 1))
    "number of socket should be double number of connections"
  audit (sockRegion.size / config.socketSize ≥ numSockets) "Not enough memory for sockets."
  let sockSpan : Span := ⟨sockRegion.data, numSockets * config.socketSize⟩
  set { host with buffers, connectionSpan, sockSpan }
  sliceLoop config config.maxConnection 1

/-- The members as the constructor initializes them; the pages are zeroed. -/
def blank (queue : CircularQue ℕ) (config : HostConfig) (overlapPool : queue.Que) :
    Host queue where
  sockTbl _ := { handle := 0 }
  connections _ := {}
  connPool := queue.make config.maxConnection
  sockPool := queue.make (wrap32 (config.maxConnection <<< 1))
  overlapPool := overlapPool

/-- The constructor `HermesFixedRIO`, as far as it fills the tables and pools. -/
def construct (queue : CircularQue ℕ) (config : HostConfig) : Except Stop (Host queue) := do
  let overlapPool ← runCode (objectPool queue kibi)
  let (_, host) ← sliceNregister config (blank queue config overlapPool)
  return host

end Host

/-- `HermesFixedRIOFactory`, where the allocation succeeds. -/
def hermesFixedRIOFactory (queue : CircularQue ℕ) (setup : Setup) : Except Stop (Host queue) := do
  runCode (factoryChecks setup.conBufSize setup.maxConnections)
  let allocatedBuffers := wrap32 (setup.config.memory.size / setup.tSize)
  runCode (auditAssert (allocatedBuffers ≥ setup.maxConnections)
    "can not allocate enough memory for registered buffers")
  Host.construct queue setup.config

/-- What can happen to the library.  `complete` is the completion of an overlapped operation,
`shutdown` and `destroySocket` belong to the destructor, and `closeTerminal` stands for
`TerminalCloser`. -/
inductive HostAction where
  | createSocket
  | listen (handle : UInt64) (port : UInt16) (replies : Replies)
  | accept (handle : UInt64) (connectCallback rcvCallback : ℕ) (replies : Replies)
  | connect (handle : UInt64) (connectCallback rcvCallback : ℕ) (replies : Replies)
  | send (handle : UInt64) (req : SndReq)
  | closeSocket (handle : UInt64) (err : StatusCode)
  | complete (ov : ℕ) (hr : HRESULT) (replies : Replies)
  | shutdown
  | destroySocket (id : ℕ)
  | closeTerminal (term : ℕ) (notices : List StatusCode)

namespace Host

variable {queue : CircularQue ℕ} (config : HostConfig)

/-- The code an action runs. -/
def perform (config : HostConfig) : HostAction → Code queue PUnit
  | .createSocket => do
      let _ ← createSocket
      pure ⟨⟩
  | .listen handle port replies => do
      let _ ← listen handle port replies
      pure ⟨⟩
  | .accept handle connectCallback rcvCallback replies => do
      let _ ← accept config handle connectCallback rcvCallback replies
      pure ⟨⟩
  | .connect handle connectCallback rcvCallback replies => do
      let _ ← connect config handle connectCallback rcvCallback replies
      pure ⟨⟩
  | .send handle req => do
      let _ ← send config handle req
      pure ⟨⟩
  | .closeSocket handle err => closeSocket config handle err
  | .complete ov hr replies => run config ov hr replies
  | .shutdown => modify fun host => { host with closing := true }
  | .destroySocket id => do
      let host ← get
      if host.closing ∧ (host.getSocket id).isSome then destroySocket config id
      else throw .blocked
  | .closeTerminal term notices => closeTerminal config term notices

/-- One step of the library. -/
def step (config : HostConfig) (host : Host queue) (action : HostAction) :
    Except Stop (Host queue) := do
  let (_, host) ← perform config action host
  return host

end Host

/-- The library, from its construction by the factory on. -/
def hostMachine (queue : CircularQue ℕ) (setup : Setup) :
    Machine (Host queue) HostAction Stop where
  start host := hermesFixedRIOFactory queue setup = .ok host
  step := Host.step setup.config

end Hermes
