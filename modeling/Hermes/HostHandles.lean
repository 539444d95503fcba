import Hermes.HostTables

/-!
# Handles

A handle names a slot of the socket table and an incarnation of this slot.  A handle that
no entry of the table has is rejected by the operations, except that `GetHomePort` and
`GetRemotePort` use the socket before they know that there is one.
-/

namespace Hermes

open Program

variable {queue : CircularQue ℕ} {config : HostConfig} {mode : Mode} {listeners : List ℕ}
  {host : Host queue} {setup : Setup} {handle : UInt64} {id : ℕ}

/-- No socket of the table has the handle. -/
def Host.Unknown (config : HostConfig) (host : Host queue) (handle : UInt64) : Prop :=
  ∀ id, config.SockId id → (host.sockTbl id).handle ≠ handle

/-- The operations that look at the socket's handle first reject the handle and change nothing. -/
structure RejectedAtEntry (config : HostConfig) (host : Host queue) (handle : UInt64) : Prop where
  listen : ∀ port replies, Host.listen handle port replies host = .ok (eHandle, host)
  accept : ∀ connectCallback rcvCallback replies,
    Host.accept config handle connectCallback rcvCallback replies host = .ok (eHandle, host)
  connect : ∀ connectCallback rcvCallback replies,
    Host.connect config handle connectCallback rcvCallback replies host = .ok (eHandle, host)
  send : ∀ req, ∃ status, status ≠ hOk ∧ Host.send config handle req host = .ok (status, host)
  closeSocket : ∀ err, Host.closeSocket config handle err host = .ok (⟨⟩, host)
  getRemoteIp : Host.getRemoteIp config handle host = .ok (0, host)

/-- All operations reject the handle and change nothing. -/
structure Rejected (config : HostConfig) (host : Host queue) (handle : UInt64) : Prop
    extends RejectedAtEntry config host handle where
  getHomePort : Host.getHomePort handle host = .ok (0, host)
  getRemotePort : Host.getRemotePort config handle host = .ok (0, host)

namespace Host

theorem getSocket_none (ok : HostOk config mode listeners {} host) (outside : ¬config.SockId id) :
    host.getSocket id = none := by
  cases found : host.getSocket id with
  | none => rfl
  | some pSock =>
      rcases sockId_of_getSocket ok found with ⟨same, sockId⟩
      exact absurd sockId outside

theorem findSocket_none (ok : HostOk config mode listeners {} host)
    (unknown : host.Unknown config handle) : host.findSocket handle = none := by
  cases found : host.findSocket handle with
  | none => rfl
  | some id =>
      rcases findSocket_some ok found with ⟨sockId, _, same⟩
      exact absurd same (unknown id sockId)

theorem rejectedAtEntry (ok : HostOk config mode listeners {} host)
    (unknown : host.Unknown config handle) : RejectedAtEntry config host handle := by
  have nothing := findSocket_none ok unknown
  constructor
  case listen =>
    intro port replies
    rw [listen, apply_bind apply_get, nothing]
    rfl
  case accept =>
    intro connectCallback rcvCallback replies
    rw [accept, apply_bind apply_get, nothing]
    rfl
  case connect =>
    intro connectCallback rcvCallback replies
    rw [connect, apply_bind apply_get, nothing]
    rfl
  case send =>
    intro req
    unfold send
    split
    · exact ⟨eInvalidArg, by decide, rfl⟩
    · rw [apply_bind apply_get, nothing]
      exact ⟨eHandle, by decide, rfl⟩
  case closeSocket =>
    intro err
    rw [closeSocket, apply_bind apply_get, nothing]
    rfl
  case getRemoteIp =>
    rw [getRemoteIp, apply_bind apply_get, nothing]
    rfl

/-- A handle whose low half is the id of a socket is rejected. -/
theorem rejected (ok : HostOk config mode listeners {} host)
    (unknown : host.Unknown config handle) (sockId : config.SockId (handleToId handle)) :
    Rejected config host handle := by
  refine { rejectedAtEntry ok unknown with getHomePort := ?_, getRemotePort := ?_ }
  · rw [getHomePort, apply_bind apply_get, getSocket_eq ok sockId]
    exact congrFun (if_pos (unknown _ sockId)) host
  · rw [getRemotePort, apply_bind apply_get, getSocket_eq ok sockId]
    exact congrFun (if_pos (.inl (unknown _ sockId))) host

/-- For all other handles there is no socket that `GetHomePort` could look at. -/
theorem getHomePort_outside (ok : HostOk config mode listeners {} host)
    (outside : ¬config.SockId (handleToId handle)) :
    getHomePort handle host = .error (.abort (.undefined "GetHomePort")) := by
  rw [getHomePort, apply_bind apply_get, getSocket_none ok outside]
  rfl

theorem getRemotePort_outside (ok : HostOk config mode listeners {} host)
    (outside : ¬config.SockId (handleToId handle)) :
    getRemotePort config handle host = .error (.abort (.undefined "GetRemotePort")) := by
  rw [getRemotePort, apply_bind apply_get, getSocket_none ok outside]
  rfl

end Host

section Unknown

/-- In every reachable state, an unknown handle is rejected by six operations, and by all exactly
when its low half is the id of a socket; for the others, two dereference a null pointer. -/
theorem unknown_handle_rejected_iff (queue : CircularQue ℕ) (setup : Setup) {host : Host queue}
    (reachable : (hostMachine queue setup).Reachable (fun _ _ => True) host) {handle : UInt64}
    (unknown : host.Unknown setup.config handle) :
    RejectedAtEntry setup.config host handle ∧
      (Rejected setup.config host handle ↔ setup.config.SockId (handleToId handle)) ∧
      (¬setup.config.SockId (handleToId handle) →
        Host.getHomePort handle host = .error (.abort (.undefined "GetHomePort")) ∧
        Host.getRemotePort setup.config handle host =
          .error (.abort (.undefined "GetRemotePort"))) := by
  have admitted : (hostMachine queue setup).Reachable (Host.Admits setup.config openMode) host :=
    reachable.mono fun _ => Host.admits_openMode
  rcases hostOk_of_reachable admitted with ⟨listeners, ok⟩
  refine ⟨Host.rejectedAtEntry ok unknown, ⟨?_, Host.rejected ok unknown⟩, ?_⟩
  · intro rejected
    by_contra outside
    have returned := rejected.getHomePort
    rw [Host.getHomePort_outside ok outside] at returned
    cases returned
  · exact fun outside =>
      ⟨Host.getHomePort_outside ok outside, Host.getRemotePort_outside ok outside⟩

/-- The first socket's next handle, before the socket is allocated. -/
theorem unknown_handle_rejected_next_generation :
    Rejected (sampleSetup 8192 1).config sampleHost 0x200000001 ↔
      (sampleSetup 8192 1).config.SockId (handleToId 0x200000001) := by
  refine (unknown_handle_rejected_iff (boundedQueue ℕ) (sampleSetup 8192 1)
    (.of_start sampleHost_made) ?_).2.1
  rintro id ⟨low, high⟩
  have cases : id = 1 ∨ id = 2 := by
    have max : (sampleSetup 8192 1).config.maxConnection = 1 := rfl
    omega
  rcases cases with rfl | rfl
  · decide
  · decide

/-- The handle a failed `CreateSocket` returns is unknown, and `GetHomePort` does not reject it. -/
theorem invalid_handle_dereferenced :
    (hostMachine (boundedQueue ℕ) (sampleSetup 8192 1)).Reachable (fun _ _ => True) sampleHost ∧
      sampleHost.Unknown (sampleSetup 8192 1).config invalidHandle ∧
      Host.getHomePort invalidHandle sampleHost = .error (.abort (.undefined "GetHomePort")) := by
  refine ⟨.of_start sampleHost_made, ?_, rfl⟩
  rintro id ⟨low, high⟩
  have cases : id = 1 ∨ id = 2 := by
    have max : (sampleSetup 8192 1).config.maxConnection = 1 := rfl
    omega
  rcases cases with rfl | rfl
  · decide
  · decide

end Unknown

section Dangling

theorem handleOf_toNat {id frees : ℕ} (small : id < 2 ^ 32) :
    (handleOf id frees).toNat = (frees + 1) % 2 ^ 32 * 2 ^ 32 + id := by
  simp only [handleOf, UInt64.toNat_ofNat']
  omega

/-- Handles of different slots differ. -/
theorem handleOf_slots {id id' frees frees' : ℕ} (small : id < 2 ^ 32) (small' : id' < 2 ^ 32)
    (same : handleOf id frees = handleOf id' frees') : id = id' := by
  have lower := congrArg handleToId same
  rwa [handleToId_handleOf small, handleToId_handleOf small'] at lower

/-- Handles of incarnations of one slot differ until the generation wraps. -/
theorem handleOf_generations {id frees frees' : ℕ} (small : id < 2 ^ 32) (later : frees < frees')
    (few : frees' < frees + 2 ^ 32) : handleOf id frees ≠ handleOf id frees' := by
  intro same
  have values := congrArg UInt64.toNat same
  rw [handleOf_toNat small, handleOf_toNat small] at values
  omega

/-- The slot of a handle given to the client has been freed since. -/
structure Dangling (host : Host queue) (given : Delivery) : Prop where
  known : given ∈ host.delivered
  freed : given.frees < host.frees (handleToId given.handle)
  few : host.frees (handleToId given.handle) < given.frees + 2 ^ 32

/-- A handle given to the client whose slot was freed since, and not 2^32 times, is no socket's
handle and is rejected by all operations.  No two slots and no two such incarnations of a slot, in
whatever states, have the same handle. -/
theorem dangling_handle_rejected (queue : CircularQue ℕ) (setup : Setup) {host : Host queue}
    (reachable : (hostMachine queue setup).Reachable (fun _ _ => True) host) {given : Delivery}
    (dangling : Dangling host given) :
    host.Unknown setup.config given.handle ∧ Rejected setup.config host given.handle ∧
      ∀ later : Host queue, (hostMachine queue setup).Reachable (fun _ _ => True) later →
        ∀ id id', setup.config.SockId id → setup.config.SockId id' →
          id ≠ id' ∨ (host.frees id < later.frees id ∧ later.frees id < host.frees id + 2 ^ 32) →
            (host.sockTbl id).handle ≠ (later.sockTbl id').handle := by
  have invariant : ∀ {state : Host queue},
      (hostMachine queue setup).Reachable (fun _ _ => True) state →
        ∃ listeners, HostOk setup.config openMode listeners {} state := by
    intro state reachable
    exact hostOk_of_reachable (reachable.mono fun _ => Host.admits_openMode)
  rcases invariant reachable with ⟨listeners, ok⟩
  have small : ∀ {id}, setup.config.SockId id → id < 2 ^ 32 :=
    fun sockId => Nat.lt_of_le_of_lt sockId.2 ok.sane.few
  rcases ok.handles.known given dangling.known with ⟨slot, same, _⟩
  have unknown : host.Unknown setup.config given.handle := by
    intro id sockId equal
    rw [ok.slots.handles id sockId, same] at equal
    have slots := handleOf_slots (small sockId) (small slot) equal
    rw [slots] at equal
    exact handleOf_generations (small slot) dangling.freed dangling.few equal.symm
  refine ⟨unknown, Host.rejected ok unknown slot, ?_⟩
  intro later reachable' id id' sockId sockId' apart equal
  rcases invariant reachable' with ⟨listeners', ok'⟩
  rw [ok.slots.handles id sockId, ok'.slots.handles id' sockId'] at equal
  have slots := handleOf_slots (small sockId) (small sockId') equal
  rcases apart with other | ⟨less, few⟩
  · exact other slots
  · rw [← slots] at equal
    exact handleOf_generations (small sockId) less few equal

/-- A socket is created and closed. -/
theorem dangling_handle_rejected_closed_socket :
    ∃ host : Host (boundedQueue ℕ), ⟨sampleHandle, 0⟩ ∈ host.delivered ∧
      Rejected (sampleSetup 8192 1).config host sampleHandle := by
  have passes : (sampleRun [.createSocket, .closeSocket sampleHandle 0]).toOption.any
      (fun host => ⟨sampleHandle, 0⟩ ∈ host.delivered ∧ host.frees 1 = 1) = true := by
    decide +kernel
  rcases sampleRun_reaches (fun _ _ _ => trivial) passes with ⟨host, reachable, holds⟩
  rcases of_decide_eq_true holds with ⟨given, frees⟩
  have slot : handleToId sampleHandle = 1 := by decide
  have dangling : Dangling host ⟨sampleHandle, 0⟩ :=
    ⟨given, by rw [slot, frees]; decide, by rw [slot, frees]; decide⟩
  exact ⟨host, given, (dangling_handle_rejected _ _ reachable dangling).2.1⟩

end Dangling

end Hermes
