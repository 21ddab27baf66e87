import HicnTransport.Hiperf.TestMode
import HicnTransport.Core.Name

/-!
# The server's ring of content objects

`HIperfServer` builds 256 content objects once, each named after the configured prefix and
carrying `payload_size_` bytes `'X'`, and serves from them in turn: `content_objects_index_`, a
`uint16_t`, is incremented by every handler that takes an object and masked with `mask_ = 255`
to choose it. The RTC handlers copy the clock over the first eight bytes of the object's payload
in place and hand a prefix of it to `produceDatagram`; the virtual producer renames the object
after the interest and hands it to `produce`. The objects keep what was written into them: a
slot's payload carries the clock of the last tick that used it, and its name the last
interest's.

What the ring stands for is a server that builds a fresh payload for every datagram and a fresh
object for every interest. A clock copied over a payload that already carries one leaves the
same bytes as on a fresh payload, so in any interleaving of handler calls every datagram is the
fresh one; on every run `setup` allows, ticks only in RTC mode and interests only with the
virtual producer, the ring's output is the fresh server's. Since 256 divides `2^16` the index
runs through the slots in turn across its wrap, and an object written by one handler call stays
as it was handed to the producer socket through the next 255 calls.
-/

namespace HicnTransport.Hiperf

/-- A `ContentObject` of the server: its full name and its payload. -/
structure ServerObject where
  name : Name
  payload : List (BitVec 8)
  deriving DecidableEq, Repr

/-- What a handler hands to the producer socket: the bytes given to `produceDatagram`, or the
object given to `produce`. -/
inductive ServerOutput
  | datagram (bytes : List (BitVec 8))
  | contentObject (obj : ServerObject)
  deriving DecidableEq, Repr

/-- The fields of `HIperfServer` the producing handlers share: `content_objects_` (256 objects),
`content_objects_index_`, and `configuration_.trace_index_`. -/
structure ContentRing where
  contentObjects : List ServerObject
  length_contentObjects : contentObjects.length = 256
  contentObjectsIndex : BitVec 16
  traceIndex : BitVec 32

/-- What reaches the handlers: the RTC timer expiring without error at `now` (constant rate or
trace), or an interest that missed the producer's cache. -/
inductive RingEvent
  | rtcTick (now : BitVec 64)
  | traceTick (now : BitVec 64)
  | interest (interest : Interest)
  deriving DecidableEq, Repr

/-- `setup` installs the virtual producer only when not in RTC mode, and `run` starts the RTC
timer only in RTC mode: a run of the server brings ticks only or interests only. -/
def RingEvent.isTick : RingEvent → Bool
  | .rtcTick _ => true
  | .traceTick _ => true
  | .interest _ => false

namespace ContentRing

/-- `mask_`, `(1 << log2_content_object_buffer_size) - 1` as a `uint16_t`. -/
def mask : BitVec 16 := 255#16

/-- The constructor: 256 objects named `conf.name.getName()` with `payload_size_` bytes `'X'`,
and both indices zero. -/
def init (name : Name) (payloadSize : ℕ) : ContentRing :=
  ⟨List.replicate 256 ⟨name, contentPayload payloadSize⟩, List.length_replicate _ _, 0, 0⟩

variable (r : ContentRing)

/-- `content_objects_index_ & mask_`, the slot the next handler takes. -/
def slot : ℕ := (r.contentObjectsIndex &&& mask).toNat

theorem slot_eq : r.slot = r.contentObjectsIndex.toNat % 256 := by
  rw [slot, BitVec.toNat_and, show mask.toNat = 2 ^ 8 - 1 from rfl,
    Nat.and_pow_two_sub_one_eq_mod]

theorem slot_lt_256 : r.slot < 256 := r.slot_eq ▸ Nat.mod_lt _ (by decide)

theorem slot_lt : r.slot < r.contentObjects.length := r.length_contentObjects ▸ r.slot_lt_256

/-- The object in the slot the next handler takes. -/
def current : ServerObject := r.contentObjects.get ⟨r.slot, r.slot_lt⟩

/-- The ring after a handler wrote `obj` into its slot and took the next index,
`content_objects_[content_objects_index_++ & mask_]`. -/
def advance (obj : ServerObject) : ContentRing where
  contentObjects := r.contentObjects.set r.slot obj
  length_contentObjects := by rw [List.length_set, r.length_contentObjects]
  contentObjectsIndex := r.contentObjectsIndex + 1
  traceIndex := r.traceIndex

/-- `virtualProcessInterest`: the object in the slot is renamed after the interest and handed to
`produce`. -/
def virtualProcessInterest (interest : Interest) : ServerObject × ContentRing :=
  let obj := { r.current with name := interest.name }
  (obj, r.advance obj)

/-- `sendRTCContentObjectCallback` on a timer that expired without error: the clock is copied over
the payload in the slot, and at most 1400 bytes of it go to `produceDatagram`. -/
def sendRTCContentObjectCallback (o : ByteOrder) (now : BitVec 64) :
    List (BitVec 8) × ContentRing :=
  let payload := stampPayload o now r.current.payload
  (payload.take (if payload.length < 1400 then payload.length else 1400),
    r.advance { r.current with payload := payload })

/-- `sendRTCContentObjectCallbackWithTrace` on a timer that expired without error: the stamped
payload in the slot, cut at the tick's `packet_len`, goes to `produceDatagram`. -/
def sendRTCContentObjectCallbackWithTrace (o : ByteOrder) (trace : List PacketT)
    (now : BitVec 64) : Except Fault (List (BitVec 8) × ContentRing) :=
  let payload := stampPayload o now r.current.payload
  match Hiperf.sendRTCContentObjectCallbackWithTrace r.current.payload.length trace r.traceIndex with
  | .error f => .error f
  | .ok t => .ok (payload.take t.packetLen.toNat,
      { r.advance { r.current with payload := payload } with traceIndex := t.traceIndex })

/-- One event through its handler: what it hands to the producer socket, and the ring after. -/
def step (o : ByteOrder) (trace : List PacketT) : RingEvent → Except Fault (ServerOutput × ContentRing)
  | .rtcTick now => .ok (.datagram (r.sendRTCContentObjectCallback o now).1,
      (r.sendRTCContentObjectCallback o now).2)
  | .traceTick now => match r.sendRTCContentObjectCallbackWithTrace o trace now with
    | .error f => .error f
    | .ok (d, r') => .ok (.datagram d, r')
  | .interest i => .ok (.contentObject (r.virtualProcessInterest i).1,
      (r.virtualProcessInterest i).2)

end ContentRing

/-- A run of the handlers: what they handed to the producer socket, and the ring after them. -/
def ContentRing.run (o : ByteOrder) (trace : List PacketT) :
    ContentRing → List RingEvent → Except Fault (List ServerOutput × ContentRing)
  | r, [] => .ok ([], r)
  | r, e :: es => match r.step o trace e with
    | .error f => .error f
    | .ok (p, r') => (ContentRing.run o trace r' es).map fun q => (p :: q.1, q.2)

/-- What the ring stands for: a fresh stamped payload for every tick and a fresh object for every
interest; its only state is `trace_index_`. -/
def freshStep (o : ByteOrder) (payloadSize : ℕ) (trace : List PacketT) (traceIndex : BitVec 32) :
    RingEvent → Except Fault (ServerOutput × BitVec 32)
  | .rtcTick now => .ok (.datagram (rtcDatagram o payloadSize now), traceIndex)
  | .traceTick now => match sendRTCContentObjectCallbackWithTrace payloadSize trace traceIndex with
    | .error f => .error f
    | .ok t => .ok (.datagram (traceDatagram o payloadSize now t), t.traceIndex)
  | .interest i => .ok (.contentObject ⟨i.name, contentPayload payloadSize⟩, traceIndex)

/-- A run of the fresh-payload server. -/
def freshRun (o : ByteOrder) (payloadSize : ℕ) (trace : List PacketT) :
    BitVec 32 → List RingEvent → Except Fault (List ServerOutput × BitVec 32)
  | i, [] => .ok ([], i)
  | i, e :: es => match freshStep o payloadSize trace i e with
    | .error f => .error f
    | .ok (p, i') => (freshRun o payloadSize trace i' es).map fun q => (p :: q.1, q.2)

theorem stampPayload_stampPayload (o : ByteOrder) (now t : BitVec 64) (p : List (BitVec 8)) :
    stampPayload o now (stampPayload o t p) = stampPayload o now p := by
  have hdrop : (stampPayload o t p).drop 8 = p.drop 8 := by
    rw [stampPayload, List.drop_take, List.drop_left' (length_store o 8 t.toNat),
      List.take_of_length_le (by simp)]
  rw [stampPayload, hdrop, length_stampPayload, ← stampPayload]

section Invariant

variable (o : ByteOrder) (payloadSize : ℕ)

/-- The payloads a slot can hold: the fresh one, or the fresh one with a clock copied over it. -/
def Stamped (p : List (BitVec 8)) : Prop :=
  p = contentPayload payloadSize ∨ ∃ t, p = stampPayload o t (contentPayload payloadSize)

theorem stampPayload_of_stamped {p : List (BitVec 8)} (h : Stamped o payloadSize p)
    (now : BitVec 64) : stampPayload o now p = stampPayload o now (contentPayload payloadSize) := by
  obtain rfl | ⟨t, rfl⟩ := h
  · rfl
  · exact stampPayload_stampPayload o now t _

theorem length_of_stamped {p : List (BitVec 8)} (h : Stamped o payloadSize p) :
    p.length = payloadSize := by
  obtain rfl | ⟨t, rfl⟩ := h <;> simp

/-- Every slot holds a payload the ring can hold, and `fresh` says whether every slot still
holds the fresh payload itself. -/
structure Fresh (fresh : Bool) (r : ContentRing) : Prop where
  stamped : ∀ obj ∈ r.contentObjects, Stamped o payloadSize obj.payload
  unstamped : fresh = true → ∀ obj ∈ r.contentObjects, obj.payload = contentPayload payloadSize

end Invariant

namespace ContentRing

variable (r : ContentRing) (obj : ServerObject)

@[simp] theorem advance_traceIndex : (r.advance obj).traceIndex = r.traceIndex := rfl

theorem slot_of_index_succ {r r' : ContentRing}
    (h : r'.contentObjectsIndex = r.contentObjectsIndex + 1) : r'.slot = (r.slot + 1) % 256 := by
  rw [slot_eq, slot_eq, h, BitVec.toNat_add]
  have : (1 : BitVec 16).toNat = 1 := rfl
  omega

theorem getElem?_advance_ne {j : ℕ} (hj : j ≠ r.slot) :
    (r.advance obj).contentObjects[j]? = r.contentObjects[j]? :=
  List.getElem?_set_ne (Ne.symm hj)

theorem mem_advance {obj' : ServerObject} (h : obj' ∈ (r.advance obj).contentObjects) :
    obj' ∈ r.contentObjects ∨ obj' = obj :=
  List.mem_or_eq_of_mem_set h

theorem current_mem : r.current ∈ r.contentObjects := List.get_mem _ _ _

variable {r} {o : ByteOrder} {trace : List PacketT}

theorem step_ok {e : RingEvent} {p : ServerOutput} {r' : ContentRing}
    (h : r.step o trace e = .ok (p, r')) :
    ∃ obj, r'.contentObjects = (r.advance obj).contentObjects ∧
      r'.contentObjectsIndex = r.contentObjectsIndex + 1 := by
  cases e with
  | rtcTick now =>
    cases h
    exact ⟨_, rfl, rfl⟩
  | traceTick now =>
    cases ht : Hiperf.sendRTCContentObjectCallbackWithTrace r.current.payload.length trace
      r.traceIndex <;> simp only [step, sendRTCContentObjectCallbackWithTrace, ht] at h <;> cases h
    exact ⟨_, rfl, rfl⟩
  | interest i =>
    cases h
    exact ⟨_, rfl, rfl⟩

theorem run_cons_ok {e : RingEvent} {es : List RingEvent} {ps : List ServerOutput}
    {r' : ContentRing} (h : ContentRing.run o trace r (e :: es) = .ok (ps, r')) :
    ∃ p r₁ ps', r.step o trace e = .ok (p, r₁) ∧ ContentRing.run o trace r₁ es = .ok (ps', r') ∧
      ps = p :: ps' := by
  rw [ContentRing.run] at h
  rcases hs : r.step o trace e with f | ⟨p, r₁⟩ <;> rw [hs] at h
  · cases h
  · rcases hr : ContentRing.run o trace r₁ es with f | ⟨ps', r''⟩ <;>
      simp only [hr, Except.map] at h <;> cases h
    exact ⟨p, r₁, ps', rfl, hr, rfl⟩

theorem run_slots : ∀ {r : ContentRing} {es : List RingEvent} {ps : List ServerOutput}
    {r' : ContentRing}, ContentRing.run o trace r es = .ok (ps, r') →
      r'.slot = (r.slot + es.length) % 256 ∧
        ∀ j, (∀ k < es.length, j ≠ (r.slot + k) % 256) → r'.contentObjects[j]? = r.contentObjects[j]?
  | r, [], _, _, h => by
    cases h
    exact ⟨(Nat.mod_eq_of_lt r.slot_lt_256).symm, fun _ _ => rfl⟩
  | r, e :: es, _, _, h => by
    obtain ⟨p, r₁, ps', h₁, h₂, -⟩ := run_cons_ok h
    obtain ⟨obj, hobj, hidx⟩ := step_ok h₁
    have hs₁ := slot_of_index_succ hidx
    have hlt := r.slot_lt_256
    obtain ⟨ihs, ihk⟩ := run_slots h₂
    refine ⟨by rw [ihs, hs₁, List.length_cons]; omega, fun j hj => ?_⟩
    have hne : j ≠ r.slot := fun h' => hj 0 (Nat.succ_pos _) (by omega)
    rw [ihk j fun k hk => by have := hj (k + 1) (Nat.succ_lt_succ hk); omega, hobj,
      getElem?_advance_ne _ _ hne]

end ContentRing

/-- Across the `uint16_t` wrap too, what a call writes into its slot stays there through the next
255 calls, and the call after them takes that slot again. -/
theorem ring_slot_reuse (o : ByteOrder) (trace : List PacketT) (r : ContentRing) (e : RingEvent)
    (es : List RingEvent) {p : ServerOutput} {r₁ r₂ : ContentRing} {ps : List ServerOutput}
    (h₁ : r.step o trace e = .ok (p, r₁)) (h₂ : ContentRing.run o trace r₁ es = .ok (ps, r₂))
    (hlen : es.length < 256) :
    r₂.contentObjects[r.slot]? = r₁.contentObjects[r.slot]? ∧
      r₂.slot = (r.slot + es.length + 1) % 256 := by
  obtain ⟨_, -, hidx⟩ := ContentRing.step_ok h₁
  have hs₁ := ContentRing.slot_of_index_succ hidx
  have hlt := r.slot_lt_256
  obtain ⟨hs, hk⟩ := ContentRing.run_slots h₂
  exact ⟨hk r.slot fun k hk => by omega, by omega⟩

theorem ring_slot_reuse_interest_then_tick :
    ∃ p r₁ ps r₂,
      (ContentRing.init ⟨.inet6, List.replicate 16 0, 0⟩ 16).step .little []
          (.interest ⟨⟨.inet6, List.replicate 16 0, 1⟩, []⟩) = .ok (p, r₁) ∧
        ContentRing.run .little [] r₁ [.rtcTick 5] = .ok (ps, r₂) ∧
        [RingEvent.rtcTick 5].length < 256 ∧
        r₂.contentObjects[(ContentRing.init ⟨.inet6, List.replicate 16 0, 0⟩ 16).slot]? =
          r₁.contentObjects[(ContentRing.init ⟨.inet6, List.replicate 16 0, 0⟩ 16).slot]? ∧
        r₂.slot = ((ContentRing.init ⟨.inet6, List.replicate 16 0, 0⟩ 16).slot +
          [RingEvent.rtcTick 5].length + 1) % 256 :=
  ⟨_, _, _, _, rfl, rfl, by decide, ring_slot_reuse .little [] _
    (.interest ⟨⟨.inet6, List.replicate 16 0, 1⟩, []⟩) [.rtcTick 5] rfl rfl (by decide)⟩

section Refinement

variable {o : ByteOrder} {payloadSize : ℕ} {trace : List PacketT}

theorem Fresh.advance {b : Bool} {r : ContentRing} (hr : Fresh o payloadSize b r)
    {obj : ServerObject} (hs : Stamped o payloadSize obj.payload)
    (hf : b = true → obj.payload = contentPayload payloadSize) :
    Fresh o payloadSize b (r.advance obj) :=
  ⟨fun x hx => (r.mem_advance obj hx).elim (hr.stamped x) fun h => h ▸ hs,
    fun hb x hx => (r.mem_advance obj hx).elim (hr.unstamped hb x) fun h => h ▸ hf hb⟩

theorem Fresh.of_contentObjects {b : Bool} {r r' : ContentRing} (hr : Fresh o payloadSize b r)
    (h : r'.contentObjects = r.contentObjects) : Fresh o payloadSize b r' :=
  ⟨fun x hx => hr.stamped x (h ▸ hx), fun hb x hx => hr.unstamped hb x (h ▸ hx)⟩

theorem fresh_init (name : Name) (b : Bool) :
    Fresh o payloadSize b (ContentRing.init name payloadSize) := by
  have hmem : ∀ x ∈ (ContentRing.init name payloadSize).contentObjects,
      x.payload = contentPayload payloadSize := fun x hx => by
    rw [List.eq_of_mem_replicate hx]
  exact ⟨fun x hx => .inl (hmem x hx), fun _ => hmem⟩

theorem step_refines (trace : List PacketT) {b : Bool} {r : ContentRing}
    (hr : Fresh o payloadSize b r) {e : RingEvent} (he : e.isTick = !b) :
    (r.step o trace e).map (fun q => (q.1, q.2.traceIndex)) =
        freshStep o payloadSize trace r.traceIndex e ∧
      ∀ q, r.step o trace e = .ok q → Fresh o payloadSize b q.2 := by
  have hcur := hr.stamped _ r.current_mem
  have hlen := length_of_stamped o payloadSize hcur
  cases e with
  | rtcTick now =>
    have hstamp := stampPayload_of_stamped o payloadSize hcur now
    refine ⟨?_, fun q hq => ?_⟩
    · simp only [ContentRing.step, ContentRing.sendRTCContentObjectCallback, freshStep, rtcDatagram,
        hstamp, Except.map, ContentRing.advance_traceIndex]
    · cases hq
      refine hr.advance (.inr ⟨now, ?_⟩) fun hb => by simp [hb, RingEvent.isTick] at he
      exact hstamp
  | traceTick now =>
    have hstamp := stampPayload_of_stamped o payloadSize hcur now
    simp only [ContentRing.step, ContentRing.sendRTCContentObjectCallbackWithTrace, freshStep, hlen]
    cases sendRTCContentObjectCallbackWithTrace payloadSize trace r.traceIndex with
    | error f => exact ⟨rfl, fun q hq => by cases hq⟩
    | ok t =>
      refine ⟨by simp only [Except.map, traceDatagram, hstamp], fun q hq => ?_⟩
      cases hq
      refine Fresh.of_contentObjects (hr.advance (.inr ⟨now, ?_⟩) fun hb => ?_) rfl
      · exact hstamp
      · simp [hb, RingEvent.isTick] at he
  | interest i =>
    have hfresh := hr.unstamped (by simpa [RingEvent.isTick] using he.symm) _ r.current_mem
    refine ⟨?_, fun q hq => ?_⟩
    · simp only [ContentRing.step, ContentRing.virtualProcessInterest, freshStep, hfresh,
        Except.map, ContentRing.advance_traceIndex]
    · cases hq
      exact hr.advance hcur fun _ => hfresh

theorem run_refines (trace : List PacketT) {b : Bool} :
    ∀ {r : ContentRing} {es : List RingEvent}, Fresh o payloadSize b r →
      (∀ e ∈ es, e.isTick = !b) →
      (ContentRing.run o trace r es).map (fun q => (q.1, q.2.traceIndex)) =
        freshRun o payloadSize trace r.traceIndex es
  | _, [], _, _ => rfl
  | r, e :: es, hr, hes => by
    obtain ⟨hstep, hinv⟩ := step_refines trace hr (hes e (List.mem_cons_self _ _))
    rw [ContentRing.run, freshRun, ← hstep]
    rcases h : r.step o trace e with f | ⟨p, r₁⟩
    · rfl
    · have ih := run_refines trace (hinv _ h) fun e' he' => hes e' (List.mem_cons_of_mem _ he')
      simp only [Except.map] at ih ⊢
      rw [← ih]
      cases ContentRing.run o trace r₁ es <;> rfl

theorem run_init_of_freshRun (name : Name) {es : List RingEvent} (hes : ∀ e ∈ es, e.isTick = true)
    {ps : List ServerOutput} {i : BitVec 32} (h : freshRun o payloadSize trace 0 es = .ok (ps, i)) :
    ∃ r, ContentRing.run o trace (ContentRing.init name payloadSize) es = .ok (ps, r) := by
  have href := run_refines trace (fresh_init name false : Fresh o payloadSize false _) hes
  rw [show (ContentRing.init name payloadSize).traceIndex = 0 from rfl, h] at href
  rcases hrun : ContentRing.run o trace (ContentRing.init name payloadSize) es with f | ⟨ps', r⟩ <;>
    rw [hrun] at href
  · cases href
  · obtain rfl : ps' = ps := (Prod.mk.inj (Except.ok.inj href)).1
    exact ⟨r, rfl⟩

end Refinement

/-- On a run of ticks only or interests only, the ring hands the producer socket what the
fresh-payload server would, and faults where it would. -/
theorem ring_refines_fresh (o : ByteOrder) (trace : List PacketT) (name : Name)
    (payloadSize : ℕ) (es : List RingEvent)
    (hmode : es.all RingEvent.isTick ∨ es.all fun e => !e.isTick) :
    (ContentRing.run o trace (ContentRing.init name payloadSize) es).map
        (fun q => (q.1, q.2.traceIndex)) =
      freshRun o payloadSize trace 0 es := by
  rcases hmode with h | h
  · exact run_refines trace (fresh_init name false) (by simpa using h)
  · exact run_refines trace (fresh_init name true) (by simpa using h)

theorem ring_refines_fresh_two_ticks :
    ([RingEvent.rtcTick 1, .rtcTick 2].all RingEvent.isTick ∨
        [RingEvent.rtcTick 1, .rtcTick 2].all fun e => !e.isTick) ∧
      (ContentRing.run .little [] (ContentRing.init ⟨.inet6, List.replicate 16 0, 0⟩ 1400)
          [.rtcTick 1, .rtcTick 2]).map (fun q => (q.1, q.2.traceIndex)) =
        freshRun .little 1400 [] 0 [.rtcTick 1, .rtcTick 2] :=
  ⟨by decide, ring_refines_fresh .little [] _ 1400 _ (by decide)⟩

section TraceReplay

variable {o : ByteOrder} {payloadSize : ℕ} {trace : List PacketT}

theorem freshRun_traceTicks (hlen : trace.length < 2 ^ 32) (hpay : payloadSize < 2 ^ 32) :
    ∀ (nows : List (BitVec 64)) (j : ℕ), j < trace.length →
      ∃ ps i, freshRun o payloadSize trace (BitVec.ofNat 32 j) (nows.map .traceTick) =
          .ok (ps, i) ∧ ps.length = nows.length ∧
        ∀ k < nows.length, ps[k]? = some (.datagram
          ((stampPayload o (nows.getD k 0) (contentPayload payloadSize)).take
            (min (min (trace.getD ((j + k) % trace.length) default).size.toNat payloadSize) 1400)))
  | [], _, _ => ⟨[], _, rfl, rfl, fun _ h => absurd h (Nat.not_lt_zero _)⟩
  | now :: nows, j, hj => by
    obtain ⟨t, ht, hlen', -, hidx⟩ := tick_of_lt_length hlen hpay hj
    obtain ⟨ps, i, hrun, hps, hall⟩ :=
      freshRun_traceTicks hlen hpay nows ((j + 1) % trace.length) (Nat.mod_lt _ (by omega))
    refine ⟨.datagram (traceDatagram o payloadSize now t) :: ps, i, ?_, by simp [hps],
      fun k hk => ?_⟩
    · simp only [List.map_cons, freshRun, freshStep, ht, hidx, hrun, Except.map]
    · cases k with
      | zero =>
        simp only [List.getElem?_cons_zero, List.getD_cons_zero, Nat.add_zero, Nat.mod_eq_of_lt hj,
          traceDatagram, hlen']
      | succ k =>
        have e : ((j + 1) % trace.length + k) % trace.length = (j + (k + 1)) % trace.length := by
          rw [Nat.mod_add_mod, Nat.add_right_comm, Nat.add_assoc]
        rw [List.getElem?_cons_succ, List.getD_cons_succ, ← e]
        exact hall k (Nat.lt_of_succ_lt_succ hk)

end TraceReplay

/-- In trace-based mode every run hands `produceDatagram` one datagram per tick: the `k`-th stamped
payload, cut at the size of entry `k` modulo the trace's length, at `payload_size_` and at 1400. -/
theorem trace_replay_through_ring (o : ByteOrder) (name : Name) (payloadSize : ℕ)
    (trace : List PacketT) (hne : trace ≠ []) (hlen : trace.length < 2 ^ 32)
    (hpay : payloadSize < 2 ^ 32) (nows : List (BitVec 64)) :
    ∃ ps r, ContentRing.run o trace (ContentRing.init name payloadSize) (nows.map .traceTick) =
        .ok (ps, r) ∧ ps.length = nows.length ∧
      ∀ k < nows.length, ps[k]? = some (.datagram
        ((stampPayload o (nows.getD k 0) (contentPayload payloadSize)).take
          (min (min (trace.getD (k % trace.length) default).size.toNat payloadSize) 1400))) := by
  obtain ⟨ps, i, hfresh, hps, hall⟩ :=
    freshRun_traceTicks (o := o) hlen hpay nows 0 (List.length_pos.2 hne)
  obtain ⟨r, hrun⟩ := run_init_of_freshRun name (by simp [RingEvent.isTick]) hfresh
  exact ⟨ps, r, hrun, hps, fun k hk => by simpa only [Nat.zero_add] using hall k hk⟩

theorem trace_replay_one_entry :
    [(⟨1, 100⟩ : PacketT)] ≠ [] ∧ [(⟨1, 100⟩ : PacketT)].length < 2 ^ 32 ∧ 1400 < 2 ^ 32 ∧
      ∃ ps r, ContentRing.run .little [⟨1, 100⟩]
          (ContentRing.init ⟨.inet6, List.replicate 16 0, 0⟩ 1400) ([5, 6].map .traceTick) =
          .ok (ps, r) ∧ ps.length = [5, 6].length ∧
        ∀ k < [5, 6].length, ps[k]? = some (.datagram
          ((stampPayload .little ([5, 6].getD k 0) (contentPayload 1400)).take
            (min (min ([(⟨1, 100⟩ : PacketT)].getD (k % [(⟨1, 100⟩ : PacketT)].length)
              default).size.toNat 1400) 1400))) :=
  ⟨by decide, by decide, by decide,
    trace_replay_through_ring .little _ 1400 [⟨1, 100⟩] (by decide) (by decide) (by decide) _⟩

section TestModeRun

variable {o : ByteOrder} {payloadSize : ℕ} {trace : List PacketT}

theorem freshRun_rtcTicks (i : BitVec 32) :
    ∀ nows : List (BitVec 64), freshRun o payloadSize trace i (nows.map .rtcTick) =
      .ok (nows.map fun now => .datagram (rtcDatagram o payloadSize now), i)
  | [] => rfl
  | now :: nows => by
    simp only [List.map_cons, freshRun, freshStep, freshRun_rtcTicks i nows, Except.map]

theorem delaySamples_rtcDatagrams (hdr : RtcHeader) (h8 : 8 ≤ payloadSize) :
    ∀ (nows : List (BitVec 64)) (arrivals : List (BitVec 32 × BitVec 64)),
      delaySamples o (((nows.map (rtcDatagram o payloadSize)).zip arrivals).map
          fun p => (received hdr p.2.1 p.1, p.2.2)) =
        (nows.zip arrivals).map fun p => (((p.2.2.toNat : ℤ) - p.1.toNat : ℤ) : ℚ)
  | [], _ => rfl
  | _ :: _, [] => rfl
  | now :: nows, (suffix, t) :: arrivals => by
    obtain ⟨hdata, hts⟩ := rtcDatagram_read_back o hdr suffix now payloadSize h8
    simp only [List.map_cons, List.zip_cons_cons, delaySamples_cons, hdata, if_true,
      RtcClient.newDelay_eq_sub, hts, delaySamples_rtcDatagrams hdr h8 nows arrivals]

end TestModeRun

/-- In test mode, over exact rationals, a client receiving a constant-rate run ends with
`delay_sample_` the number of datagrams and `avg_data_delay_` the mean delay. -/
theorem test_mode_measures_delay (o : ByteOrder) (trace : List PacketT) (hdr : RtcHeader)
    (name : Name) (payloadSize : ℕ) (h8 : 8 ≤ payloadSize) (nows : List (BitVec 64))
    (arrivals : List (BitVec 32 × BitVec 64)) (hlen : arrivals.length = nows.length)
    (h32 : nows.length < 2 ^ 32) :
    ∃ (ds : List (List (BitVec 8))) (r : ContentRing),
      ContentRing.run o trace (ContentRing.init name payloadSize) (nows.map .rtcTick) =
        .ok (ds.map .datagram, r) ∧
      (RtcClient.init.checkAll o ((ds.zip arrivals).map
          fun p => (received hdr p.2.1 p.1, p.2.2))).avgDataDelay =
        mean ((nows.zip arrivals).map fun p => (((p.2.2.toNat : ℤ) - p.1.toNat : ℤ) : ℚ)) ∧
      (RtcClient.init.checkAll o ((ds.zip arrivals).map
          fun p => (received hdr p.2.1 p.1, p.2.2))).delaySample.toNat = nows.length := by
  obtain ⟨r, hrun⟩ := run_init_of_freshRun name (by simp [RingEvent.isTick])
    (@freshRun_rtcTicks o payloadSize trace 0 nows)
  have hsamples := delaySamples_rtcDatagrams (o := o) hdr h8 nows arrivals
  have hzip : ((nows.zip arrivals).map fun p => (((p.2.2.toNat : ℤ) - p.1.toNat : ℤ) : ℚ)).length =
      nows.length := by simp [hlen]
  obtain ⟨havg, hn⟩ := checkAll_mean o _ RtcClient.init []
    (by simp [RtcClient.init, mean]) rfl (by rw [hsamples, hzip]; simpa using h32)
  refine ⟨nows.map (rtcDatagram o payloadSize), r, by rw [List.map_map]; exact hrun, ?_, ?_⟩
  · rw [havg, List.nil_append, hsamples]
  · rw [hn, List.nil_append, hsamples, hzip]

theorem test_mode_measures_delay_two_ticks :
    8 ≤ 1400 ∧ [((0 : BitVec 32), (7 : BitVec 64)), (1, 12)].length = [(5 : BitVec 64), 9].length ∧
      [(5 : BitVec 64), 9].length < 2 ^ 32 ∧
      ∃ (ds : List (List (BitVec 8))) (r : ContentRing),
        ContentRing.run .little [] (ContentRing.init ⟨.inet6, List.replicate 16 0, 0⟩ 1400)
            ([5, 9].map .rtcTick) = .ok (ds.map .datagram, r) ∧
        (RtcClient.init.checkAll .little ((ds.zip [(0, 7), (1, 12)]).map
            fun p => (received ⟨List.replicate 12 0, rfl⟩ p.2.1 p.1, p.2.2))).avgDataDelay =
          mean (([(5 : BitVec 64), 9].zip [((0 : BitVec 32), (7 : BitVec 64)), (1, 12)]).map
            fun p => (((p.2.2.toNat : ℤ) - p.1.toNat : ℤ) : ℚ)) ∧
        (RtcClient.init.checkAll .little ((ds.zip [(0, 7), (1, 12)]).map
            fun p => (received ⟨List.replicate 12 0, rfl⟩ p.2.1 p.1, p.2.2))).delaySample.toNat =
          [(5 : BitVec 64), 9].length :=
  ⟨by decide, rfl, by decide,
    test_mode_measures_delay .little [] ⟨List.replicate 12 0, rfl⟩ _ 1400 (by decide) [5, 9]
      [(0, 7), (1, 12)] rfl (by decide)⟩

end HicnTransport.Hiperf
