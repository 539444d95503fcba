import Hermes.HostUndisturbed
import Hermes.LinkSafety
import Hermes.Base.Component

/-!
# The library with its connections at work

`Library` puts the two machines together: the tables of the library object, and for
each terminal whose socket is connected the connection that sends through it.  A
step is a step of the tables, a call of `Send`, a step of one connection, or a
change of the fields receiving uses, whose code is not part of the repository.  A
terminal is one record: a step of its connection writes the fields sending uses
back to it, and a connection begins with the record its socket got connected with.

`canceled` counts for each terminal the edge reads that were answered `ND_CANCELED`;
it serves the statements only.
-/

namespace Hermes

variable {queue : CircularQue ℕ}

/-- The record with the fields receiving uses as in another one. -/
def Terminal.withReceiving (terminal other : Terminal) : Terminal :=
  { terminal with
    rcvEnd := other.rcvEnd
    mRcvSize := other.mRcvSize
    mRcvIdx := other.mRcvIdx
    rcvBuf := other.rcvBuf
    rcvProcessing := other.rcvProcessing }

namespace Link

/-- No thread is at work on the connection, and every edge read has been completed. -/
def AtRest (link : Link) : Prop :=
  link.outReads = 0 ∧ ∀ thread, link.threads thread = []

/-- The edge reads an action has answered `ND_CANCELED`. -/
def cancels (link : Link) : LinkAction → ℕ
  | .run thread replies =>
      match link.threads thread with
      | .readingEdge _ _ :: _ => if accepted replies.read then 0 else 1
      | _ => 0
  | _ => 0

end Link

/-- A connection at work, with its rings. -/
structure Connection where
  rings : LinkConfig
  link : Link

namespace Connection

/-- The connection that begins on a terminal, if the send ring is what a ring has to be. -/
def start? (sendBuf : Span) (terminal : Terminal) (memories : Memory UInt8 × Memory UInt8) :
    Option Connection :=
  if fits : sendBuf.size = 2 ^ Nat.log2 sendBuf.size ∧ Nat.log2 sendBuf.size < 32 ∧
      16 ∣ sendBuf.data then
    some {
      rings := ⟨sendBuf, terminal.rmtBufAddr, Nat.log2 sendBuf.size, fits.2.1, fits.1, fits.2.2⟩
      link := {
        term := terminal
        mem := memories.1
        rmt := memories.2
        landed := sendBuf.size } }
  else none

end Connection

/-- One connection, on a terminal that may have edge reads counted as pending from before. -/
def connectionMachine : Machine Connection LinkAction Stop where
  start connection := ∃ terminal mem rmt,
    connection.rings.Prepared { terminal with pendingRead := 0 } ∧
      connection.link =
        { term := terminal, mem := mem, rmt := rmt, landed := connection.rings.ring }
  step connection action := do
    let link ← connection.link.step connection.rings action
    return { connection with link }

/-- The terminal has a connected socket. -/
def Host.attached (host : Host queue) (conId : ℕ) : Bool :=
  match host.findSocket (host.connections conId).handle with
  | some pSock => (host.sockTbl pSock).state = .connected ∧ (host.sockTbl pSock).term = conId
  | none => false

/-- The library object and the connections of its terminals. -/
structure Library (queue : CircularQue ℕ) where
  host : Host queue
  links : ℕ → Option Connection := fun _ => none
  canceled : ℕ → ℕ := fun _ => 0

/-- What can happen.  `memories` is what the local and the remote memory hold when a terminal gets
connected. -/
inductive LibraryAction where
  | host (action : HostAction) (memories : ℕ → Memory UInt8 × Memory UInt8)
  | send (handle : UInt64) (thread : ℕ) (req : SndReq)
  | link (conId : ℕ) (action : LinkAction)
  | receive (conId : ℕ) (other : Terminal)

namespace Library

variable (config : HostConfig)

/-- The connections after a step of the tables. -/
def relink (lib : Library queue) (host : Host queue)
    (memories : ℕ → Memory UInt8 × Memory UInt8) (conId : ℕ) : Option Connection :=
  if host.attached conId then
    match lib.links conId with
    | some connection => some connection
    | none =>
        match Host.getSndBuf config conId host with
        | .ok (sendBuf, _) => Connection.start? sendBuf (host.connections conId) (memories conId)
        | .error _ => none
  else none

def setTerminal (lib : Library queue) (conId : ℕ) (terminal : Terminal) : Library queue :=
  { lib with host := { lib.host with
      connections := Function.update lib.host.connections conId terminal } }

/-- A step of the connection of a terminal. -/
def advance (lib : Library queue) (conId : ℕ) (action : LinkAction) :
    Except Stop (Library queue) :=
  match lib.links conId with
  | none => .error .blocked
  | some connection => do
      let after ← connectionMachine.step connection action
      let terminal := after.link.term.withReceiving (lib.host.connections conId)
      return { lib.setTerminal conId terminal with
        links := Function.update lib.links conId (some after)
        canceled := Function.update lib.canceled conId
          (lib.canceled conId + connection.link.cancels action) }

/-- One step. -/
def step (lib : Library queue) : LibraryAction → Except Stop (Library queue)
  | .host action memories => do
      let host ← Host.step config lib.host action
      return { lib with host, links := lib.relink config host memories }
  | .send handle thread req => do
      let (status, _) ← Host.send config handle req lib.host
      match lib.host.findSocket handle with
      | some pSock =>
          if status = hOk then lib.advance (lib.host.sockTbl pSock).term (.call thread req)
          else return lib
      | none => return lib
  | .link conId action => lib.advance conId action
  | .receive conId other =>
      match lib.links conId with
      | none => .error .blocked
      | some _ => .ok (lib.setTerminal conId ((lib.host.connections conId).withReceiving other))

/-- The steps considered.  A request gets to a connection through `Send`.  A terminal is closed when
its connection is at rest, and its edges do not come round to zero, which `FreeTerminal` takes for
a terminal in its pool. -/
def Allowed (lib : Library queue) : LibraryAction → Prop
  | .host (.send _ _) _ => False
  | .host (.closeTerminal conId _) _ =>
      ∀ connection, lib.links conId = some connection → connection.link.AtRest
  | .link _ (.call _ _) => False
  | .link _ (.land edge) => UInt64.ofNat edge ≠ 0
  | .receive _ other => other.rcvEnd.trailingEdge ≠ 0
  | _ => True

end Library

/-- The library and its connections, from the construction by the factory on. -/
def libraryMachine (queue : CircularQue ℕ) (setup : Setup) :
    Machine (Library queue) LibraryAction Stop where
  start lib := ∃ host, hermesFixedRIOFactory queue setup = .ok host ∧ lib = { host }
  step := Library.step setup.config

end Hermes
