import HicnTransport.Implementation.TlsProducerSocket.Socket

/-!
# The handshake read path

OpenSSL reads the handshake through `readOld`, which copies from `handshake_packet_`, a single
slot that `onInterest` and `cacheMiss` overwrite with the payload of each interest they keep,
setting `something_to_read_`. A `Mailbox` runs the socket together with two logs nobody in the
code keeps: the bytes of every payload the handlers stored, in arrival order, and the bytes
every `readOld` returned. OpenSSL itself moves on by its own steps, which only change what
`SSL_in_before` and `SSL_in_init` answer.

While interests are only stored when the flag is clear, the returned bytes plus the slot are the
arrived bytes, so `readOld` returns a prefix of the arrivals and clears the flag exactly when it
has returned all of them. An interest stored while part of the slot is unread drops that part.
-/

namespace HicnTransport.Implementation

/-- The states in which `onInterest` keeps the interest's payload for `readOld`. -/
def HandshakeState.onInterestStores : HandshakeState → Bool
  | .uninitiated | .clientHello | .serverFinished => true
  | .clientFinished => false

/-- The states in which `cacheMiss` keeps the interest's payload for `readOld`. -/
def HandshakeState.cacheMissStores : HandshakeState → Bool
  | .clientHello | .serverFinished => true
  | .uninitiated | .clientFinished => false

namespace TlsProducerSocket

/-- What `readOld` reads and waits on: `handshake_packet_` and `something_to_read_`. -/
def mailbox (s : TlsProducerSocket) : List (BitVec 8) × Bool :=
  (s.handshakePacket, s.somethingToRead)

variable (s : TlsProducerSocket) (interest : Interest)

theorem mailbox_onInterest : (s.onInterest interest).mailbox =
    if s.getHandshakeState.1.onInterestStores then (interest.payload, true) else s.mailbox := by
  cases h : s.getHandshakeState.1 <;>
    simp [onInterest, h, HandshakeState.onInterestStores, mailbox, getHandshakeState_snd]

theorem mailbox_cacheMiss : (s.cacheMiss interest).mailbox =
    if s.getHandshakeState.1.cacheMissStores then (interest.payload, true) else s.mailbox := by
  cases h : s.getHandshakeState.1 <;>
    simp [cacheMiss, h, HandshakeState.cacheMissStores, mailbox, getHandshakeState_snd]

theorem readOld_mailbox (size : ℕ) (hflag : s.somethingToRead = true) :
    (s.readOld size).1 ++ (s.readOld size).2.handshakePacket = s.handshakePacket ∧
      ((s.readOld size).2.somethingToRead = false ↔ (s.readOld size).2.handshakePacket = []) := by
  unfold readOld
  split
  next h =>
    refine ⟨List.take_append_drop _ _, ?_⟩
    simpa [hflag] using h
  next => simp

end TlsProducerSocket

/-- A step of the read path: an interest reaching `onInterest` or `cacheMiss`, a `readOld` of
`size` bytes, or OpenSSL moving to another state. -/
inductive HandshakeStep
  | onInterest (interest : Interest)
  | cacheMiss (interest : Interest)
  | readOld (size : ℕ)
  | openSsl (ssl : SslStatus)
  deriving DecidableEq, Repr

/-- The socket with the bytes the handlers stored and the bytes `readOld` returned. -/
structure Mailbox where
  socket : TlsProducerSocket
  arrived : List (BitVec 8)
  returned : List (BitVec 8)
  deriving DecidableEq, Repr

namespace Mailbox

/-- A fresh mailbox: nothing arrived, nothing returned. -/
def init (s : TlsProducerSocket) : Mailbox := ⟨s, [], []⟩

/-- One step. `readOld` goes on only when `something_to_read_` is set: it waits on `cv_`
otherwise, and every `notify_one` comes right after a handler set the flag. -/
def step (m : Mailbox) : HandshakeStep → Mailbox
  | .onInterest interest =>
    { socket := m.socket.onInterest interest
      arrived := if m.socket.getHandshakeState.1.onInterestStores then m.arrived ++ interest.payload
        else m.arrived
      returned := m.returned }
  | .cacheMiss interest =>
    { socket := m.socket.cacheMiss interest
      arrived := if m.socket.getHandshakeState.1.cacheMissStores then m.arrived ++ interest.payload
        else m.arrived
      returned := m.returned }
  | .readOld size =>
    if m.socket.somethingToRead then
      { m with socket := (m.socket.readOld size).2, returned := m.returned ++ (m.socket.readOld size).1 }
    else m
  | .openSsl ssl => { m with socket := { m.socket with ssl := ssl } }

/-- The mailbox after a sequence of steps. -/
def run : Mailbox → List HandshakeStep → Mailbox
  | m, [] => m
  | m, op :: ops => run (m.step op) ops

/-- Whether a step may be taken under the discipline the read path needs: a handler stores an
interest only while `something_to_read_` is clear. -/
def allowed (m : Mailbox) : HandshakeStep → Bool
  | .onInterest _ => !m.socket.getHandshakeState.1.onInterestStores || !m.socket.somethingToRead
  | .cacheMiss _ => !m.socket.getHandshakeState.1.cacheMissStores || !m.socket.somethingToRead
  | .readOld _ | .openSsl _ => true

/-- Every step of the run is allowed in the state it is taken from. -/
def allowedRun : Mailbox → List HandshakeStep → Bool
  | _, [] => true
  | m, op :: ops => m.allowed op && allowedRun (m.step op) ops

/-- The read path at a state: the bytes returned are a prefix of those arrived, and `readOld`
clears `something_to_read_` exactly when nothing arrived is left. -/
def ReadLaw (m : Mailbox) : Prop :=
  m.returned <+: m.arrived ∧
    ∀ size, m.socket.somethingToRead = true →
      ((m.step (.readOld size)).socket.somethingToRead = false ↔
        (m.step (.readOld size)).returned = (m.step (.readOld size)).arrived)

/-- The slot and the flag account for every arrived byte: with the flag clear everything has
been returned, with it set the returned bytes followed by the slot are the arrivals. -/
def Accounted (m : Mailbox) : Prop :=
  (m.socket.somethingToRead = false → m.returned = m.arrived) ∧
    (m.socket.somethingToRead = true → m.returned ++ m.socket.handshakePacket = m.arrived)

theorem accounted_init {s : TlsProducerSocket} (h : s.somethingToRead = false) :
    (init s).Accounted :=
  ⟨fun _ => rfl, fun h' => absurd h' (by simp [init, h])⟩

theorem accounted_arrive {m : Mailbox} {socket : TlsProducerSocket} {stores : Bool}
    {payload : List (BitVec 8)} (hm : m.Accounted)
    (hmail : socket.mailbox = if stores then (payload, true) else m.socket.mailbox)
    (hallowed : (!stores || !m.socket.somethingToRead) = true) :
    (Mailbox.mk socket (if stores then m.arrived ++ payload else m.arrived) m.returned).Accounted := by
  simp only [TlsProducerSocket.mailbox] at hmail
  cases stores
  · obtain ⟨hslot, hflag⟩ := Prod.mk.inj (by simpa using hmail)
    exact ⟨fun h => hm.1 (hflag ▸ h), fun h => hslot ▸ hm.2 (hflag ▸ h)⟩
  · obtain ⟨hslot, hflag⟩ := Prod.mk.inj (by simpa using hmail)
    refine ⟨fun h => absurd (hflag ▸ h) (by simp), fun _ => ?_⟩
    simp only [if_true, hslot, hm.1 (by simpa using hallowed)]

theorem accounted_step {m : Mailbox} {op : HandshakeStep} (hm : m.Accounted)
    (hallowed : m.allowed op = true) : (m.step op).Accounted := by
  cases op with
  | onInterest interest =>
    exact accounted_arrive hm (m.socket.mailbox_onInterest interest) hallowed
  | cacheMiss interest =>
    exact accounted_arrive hm (m.socket.mailbox_cacheMiss interest) hallowed
  | readOld size =>
    simp only [step]
    split
    next hflag =>
      obtain ⟨happ, hclear⟩ := m.socket.readOld_mailbox size hflag
      refine ⟨fun h => ?_, fun _ => ?_⟩
      · rw [hclear.1 h, List.append_nil] at happ
        rw [happ, hm.2 hflag]
      · rw [List.append_assoc, happ, hm.2 hflag]
    next => exact hm
  | openSsl ssl => exact hm

theorem accounted_run {m : Mailbox} {ops : List HandshakeStep} (hm : m.Accounted)
    (hops : m.allowedRun ops = true) : (m.run ops).Accounted := by
  induction ops generalizing m with
  | nil => exact hm
  | cons op ops ih =>
    obtain ⟨hop, hops⟩ := Bool.and_eq_true_iff.1 hops
    exact ih (accounted_step hm hop) hops

theorem readLaw_of_accounted {m : Mailbox} (hm : m.Accounted) : m.ReadLaw := by
  refine ⟨?_, fun size hflag => ?_⟩
  · cases h : m.socket.somethingToRead
    · rw [hm.1 h]
    · exact ⟨_, hm.2 h⟩
  · obtain ⟨happ, hclear⟩ := m.socket.readOld_mailbox size hflag
    simp only [step, hflag, if_true]
    rw [hclear, ← hm.2 hflag, ← happ, ← List.append_assoc]
    simp

end Mailbox

/-- Under the discipline, along any run from a socket with nothing to read, `readOld` returns the
stored payloads in arrival order and clears the flag exactly when all are returned. -/
theorem handshake_reads_in_order (s : TlsProducerSocket) (h : s.somethingToRead = false)
    (ops : List HandshakeStep) (hops : (Mailbox.init s).allowedRun ops = true) :
    ((Mailbox.init s).run ops).ReadLaw :=
  Mailbox.readLaw_of_accounted (Mailbox.accounted_run (Mailbox.accounted_init h) hops)

/-- A socket before the handshake: OpenSSL in its before state, nothing to read. -/
def fresh : TlsProducerSocket where
  ssl := ⟨true, false⟩
  handshakeState := .uninitiated
  somethingToRead := false
  handshakePacket := []
  name := ⟨.inet6, List.replicate 16 0, 0⟩
  lastSegment := 0
  first := true
  tlsChunks := 0
  toCallOnContentProduced := 0
  stillWriting := false
  asyncThread := []
  onContentProducedApplication := false

theorem handshake_reads_client_hello :
    fresh.somethingToRead = false ∧
      (Mailbox.init fresh).allowedRun [.onInterest ⟨fresh.name, [1, 2, 3]⟩, .readOld 2, .readOld 2,
        .openSsl ⟨false, true⟩, .cacheMiss ⟨fresh.name, [4]⟩, .readOld 1] = true ∧
      ((Mailbox.init fresh).run [.onInterest ⟨fresh.name, [1, 2, 3]⟩, .readOld 2, .readOld 2,
        .openSsl ⟨false, true⟩, .cacheMiss ⟨fresh.name, [4]⟩, .readOld 1]).ReadLaw :=
  ⟨rfl, rfl, handshake_reads_in_order fresh rfl _ rfl⟩

/-- A second interest stored while the first payload is partly read: the unread byte is lost. -/
theorem handshake_reads_counterexample :
    ((Mailbox.init fresh).run [.onInterest ⟨fresh.name, [1, 2]⟩, .readOld 1,
        .onInterest ⟨fresh.name, [3, 4]⟩, .readOld 10]).arrived = [1, 2, 3, 4] ∧
      ((Mailbox.init fresh).run [.onInterest ⟨fresh.name, [1, 2]⟩, .readOld 1,
        .onInterest ⟨fresh.name, [3, 4]⟩, .readOld 10]).returned = [1, 3, 4] ∧
      ¬ ((Mailbox.init fresh).run [.onInterest ⟨fresh.name, [1, 2]⟩, .readOld 1,
        .onInterest ⟨fresh.name, [3, 4]⟩, .readOld 10]).ReadLaw :=
  ⟨rfl, rfl, fun h => absurd h.1 (by decide)⟩

end HicnTransport.Implementation
