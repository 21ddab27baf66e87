import HicnTransport.Core.Name

/-!
# The TLS producer socket

`TLSProducerSocket` runs OpenSSL over interests and content objects. OpenSSL reads the
handshake through the BIO method `readOld`, which copies from the payload of the last interest
that arrived in a handshake state, and writes through `writeOld`, which produces the first
handshake record on the spot and queues every later record on `async_thread_`. A queued task
decrements `tls_chunks_` and `to_call_oncontentproduced_`, produces the record, and calls the
application's content-produced callback when the second counter reaches zero.

OpenSSL itself is not under src/. What the model needs of it is what `getHandshakeState` asks
(`SSL_in_before`, `SSL_in_init`), which of the socket's interests reach `readOld`, and how
`SSL_write` cuts a buffer into records; the records are kept as plaintext, since encryption
changes nothing the socket decides.
-/

namespace HicnTransport.Implementation

inductive HandshakeState
  | uninitiated
  | clientHello
  | clientFinished
  | serverFinished
  deriving DecidableEq, Repr

/-- The two questions `getHandshakeState` asks OpenSSL: `SSL_in_before` and `SSL_in_init`. -/
structure SslStatus where
  inBefore : Bool
  inInit : Bool
  deriving DecidableEq, Repr

/-- The fields of `TLSProducerSocket` its read and write paths use; `asyncThread` holds the
records of the queued tasks, oldest first. -/
structure TlsProducerSocket where
  ssl : SslStatus
  handshakeState : HandshakeState
  somethingToRead : Bool
  handshakePacket : List (BitVec 8)
  name : Name
  lastSegment : BitVec 32
  first : Bool
  tlsChunks : ℤ
  toCallOnContentProduced : ℤ
  stillWriting : Bool
  asyncThread : List (List (BitVec 8))
  onContentProducedApplication : Bool
  deriving DecidableEq, Repr

namespace TlsProducerSocket

variable (s : TlsProducerSocket)

/-- `getHandshakeState`: it records in `handshake_state_` what OpenSSL reports. -/
def getHandshakeState : HandshakeState × TlsProducerSocket :=
  let st := if s.ssl.inBefore then .uninitiated else s.handshakeState
  let st := if s.ssl.inInit && st == .uninitiated then .clientHello else st
  (st, { s with handshakeState := st })

theorem getHandshakeState_snd : s.getHandshakeState.2 = { s with handshakeState := s.getHandshakeState.1 } :=
  rfl

/-- `readOld` once it may go on, `something_to_read_` being set: copy at most `size` bytes of
the stored payload, and clear the flag when they are all that was left. -/
def readOld (size : ℕ) : List (BitVec 8) × TlsProducerSocket :=
  if s.handshakePacket.length > size then
    (s.handshakePacket.take size, { s with handshakePacket := s.handshakePacket.drop size })
  else (s.handshakePacket, { s with handshakePacket := [], somethingToRead := false })

/-- `onInterest`: in a handshake state it stores the interest's name and payload for `readOld`;
after the handshake it stores the payload for `SSL_read`. -/
def onInterest (interest : Interest) : TlsProducerSocket :=
  let r := s.getHandshakeState
  match r.1 with
  | .uninitiated | .clientHello =>
    { r.2 with name := interest.name, handshakePacket := interest.payload, somethingToRead := true }
  | .serverFinished => { r.2 with handshakePacket := interest.payload, somethingToRead := true }
  | .clientFinished => r.2

/-- `cacheMiss`: in `CLIENT_HELLO` it stores the payload and moves to `CLIENT_FINISHED`; after
the handshake it stores the payload for `SSL_read` as `onInterest` does. -/
def cacheMiss (interest : Interest) : TlsProducerSocket :=
  let r := s.getHandshakeState
  match r.1 with
  | .clientHello =>
    { r.2 with handshakePacket := interest.payload, somethingToRead := true,
               handshakeState := .clientFinished }
  | .serverFinished => { r.2 with handshakePacket := interest.payload, somethingToRead := true }
  | .uninitiated | .clientFinished => r.2

section Tasks

/- `segments` is the number of data packets `ProducerSocket::produceStream` writes for a record;
that producer is not under src/. -/
variable (segments : List (BitVec 8) → Bool → BitVec 32 → BitVec 32)

end Tasks

variable {s}

section Finished

variable (hb : s.ssl.inBefore = false) (hi : s.ssl.inInit = false)
  (hf : s.handshakeState = .serverFinished)
include hb hi hf

end Finished

end TlsProducerSocket

end HicnTransport.Implementation
