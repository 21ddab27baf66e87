import HicnTransport.Implementation.TlsProducerSocket.Socket

/-!
# The TLS data path

After the handshake each `produceStream` call sets `tls_chunks_` and
`to_call_oncontentproduced_` and queues one task per record on `async_thread_`; the tasks run
later, oldest first, and read both counters as they find them. `recordPlan` lists every record
the calls write, in order, with the callback after the last record of each call, and `is_last`
on that record when the call was made with `is_last`. The tasks keep to the plan when every call comes
after the tasks of the call before it have run and its buffer holds between one and `2^24`
bytes, where `(float) n` is exact. The counters belong to the socket, not to a call, so a call
made while tasks of an earlier one are still queued takes the plan away from them.
-/

namespace HicnTransport.Implementation

namespace TlsProducerSocket

section Run

variable (segments : List (BitVec 8) → Bool → BitVec 32 → BitVec 32)

end Run

end TlsProducerSocket

namespace TlsProducerSocket

variable (segments : List (BitVec 8) → Bool → BitVec 32 → BitVec 32) {s : TlsProducerSocket}

end TlsProducerSocket

end HicnTransport.Implementation
