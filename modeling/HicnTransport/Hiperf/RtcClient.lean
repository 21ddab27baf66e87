import HicnTransport.Hiperf.NackPacket

/-!
# The RTC client's test-mode checker

In test mode the hiperf client passes every content object it receives to
`checkReceivedRtcContent`. A 16-byte payload is a NACK: a stopped producer is reported, a NACK
for a segment below the production segment moves `expected_seg_` to it, and the others are only
reported. Any other payload is data: the counters and the delay average are updated, a suffix
above `expected_seg_` reports the segments in between as lost, a suffix below it is recovered
when it was lost and out of order otherwise, and `expected_seg_` moves past the suffix.

An `Audit` runs the checker together with the set of data suffixes received and the set of
segments reported lost and not received since. While no NACK moves `expected_seg_` backwards and
no data suffix is `0xFFFFFFFF`, every suffix received and every segment in `lost_packets_` stays
below `expected_seg_`, and `lost_packets_` is exactly the set of segments reported lost and not
received since. A stale out-of-sync NACK, or the wrap of `expected_seg_` past `0xFFFFFFFF`, breaks
this.

The delay sample of a data packet is the receiver's clock minus the sender's timestamp as signed
integers, whichever of the two is larger, and `avg_data_delay_` moves by
`avg + (sample - avg) / delay_sample_`: from a cleared checker it is the mean of the samples so far
until `delay_sample_`, a `uint32_t`, wraps to 0 and the `2^32`-th sample divides by it.
-/

namespace HicnTransport.Hiperf

/-- `MIN_PROBE_SEQ`. -/
def minProbeSeq : BitVec 32 := 0xefffffff#32

/-- A content object as the checker reads it: the name's suffix and the payload. -/
structure ContentObject where
  suffix : BitVec 32
  payload : List (BitVec 8)
  deriving DecidableEq, Repr

/-- The lines the checker prints. -/
inductive Report
  | stop
  | outOfSynch (received next : BitVec 32)
  | windowTooLarge (received next : BitVec 32)
  | probe (received : BitVec 32)
  | loss (seg : BitVec 32)
  | recover (seg : BitVec 32)
  | outOfOrder (received expected : BitVec 32)
  deriving DecidableEq, Repr

/-- The fields of `HIperfClient` the checker uses. `avg_data_delay_`, a `double`, is kept as an
exact rational, without the rounding of its running update. -/
structure RtcClient where
  expectedSeg : BitVec 32
  lostPackets : Finset (BitVec 32)
  receivedBytes : BitVec 32
  receivedDataPkt : BitVec 32
  delaySample : BitVec 32
  avgDataDelay : ℚ
  deriving DecidableEq

/-- The client as constructed. -/
def RtcClient.init : RtcClient := ⟨0, ∅, 0, 0, 0, 0⟩

/-- The segments the `[LOSS]` loop walks, `for (uint32_t i = expected; i < received; i++)`. -/
def lossRange (expected received : BitVec 32) : List (BitVec 32) :=
  (List.range (received.toNat - expected.toNat)).map fun k => expected + BitVec.ofNat 32 k

/-- Whether the checker takes a payload as data: its length as a `uint32_t` is not 16. -/
def ContentObject.isData (obj : ContentObject) : Bool := BitVec.ofNat 32 obj.payload.length != 16

namespace RtcClient

/-- The delay sample of a data packet, against the timestamp at payload offset 12 in host order;
bytes past the payload's end are taken as absent, where the code reads whatever follows. -/
def newDelay (o : ByteOrder) (now : BitVec 64) (payload : List (BitVec 8)) : ℚ :=
  let senderTimeStamp := BitVec.ofNat 64 (o.load ((payload.drop 12).take 8))
  if senderTimeStamp > now then -((senderTimeStamp - now).toNat : ℚ) else (now - senderTimeStamp).toNat

/-- `checkReceivedRtcContent` with test mode `testMode`, on a host of byte order `o` whose clock
reads `now` milliseconds: the lines printed and the client after the call. -/
def checkReceivedRtcContent (o : ByteOrder) (testMode : Bool) (now : BitVec 64) (c : RtcClient)
    (obj : ContentObject) : List Report × RtcClient :=
  if !testMode then ([], c)
  else
    let receivedSeg := obj.suffix
    if !obj.isData then
      let productionSeg := (NackPacket.ofBytes o obj.payload).getProductionSegement o
      let productionRate := (NackPacket.ofBytes o obj.payload).getProductionRate o
      if productionRate = 0 then ([.stop], c)
      else if receivedSeg < productionSeg then
        ([.outOfSynch receivedSeg (productionSeg + 1)], { c with expectedSeg := productionSeg })
      else if receivedSeg > productionSeg ∧ receivedSeg < minProbeSeq then
        ([.windowTooLarge receivedSeg productionSeg], c)
      else if receivedSeg ≥ minProbeSeq then ([.probe receivedSeg], c)
      else ([], c)
    else
      let c := { c with
        receivedBytes := c.receivedBytes + BitVec.ofInt 32 ((obj.payload.length : ℤ) - 12)
        receivedDataPkt := c.receivedDataPkt + 1
        delaySample := c.delaySample + 1
        avgDataDelay := c.avgDataDelay +
          (newDelay o now obj.payload - c.avgDataDelay) / (c.delaySample + 1).toNat }
      if receivedSeg > c.expectedSeg ∧ c.expectedSeg ≠ 0 then
        ((lossRange c.expectedSeg receivedSeg).map .loss,
          { c with
            lostPackets := c.lostPackets ∪ (lossRange c.expectedSeg receivedSeg).toFinset
            expectedSeg := receivedSeg + 1 })
      else if receivedSeg < c.expectedSeg then
        if receivedSeg ∈ c.lostPackets then
          ([.recover receivedSeg], { c with lostPackets := c.lostPackets.erase receivedSeg })
        else ([.outOfOrder receivedSeg c.expectedSeg], c)
      else ([], { c with expectedSeg := receivedSeg + 1 })

theorem mem_lossRange {e r x : BitVec 32} (h : e ≤ r) : x ∈ lossRange e r ↔ e ≤ x ∧ x < r := by
  rw [BitVec.le_def] at h
  simp only [lossRange, List.mem_map, List.mem_range, BitVec.le_def, BitVec.lt_def]
  constructor
  · rintro ⟨k, hk, rfl⟩
    have : (e + BitVec.ofNat 32 k).toNat = e.toNat + k := by
      rw [BitVec.toNat_add, BitVec.toNat_ofNat]
      have := r.isLt
      rw [Nat.mod_eq_of_lt (by omega : k < 2 ^ 32), Nat.mod_eq_of_lt (by omega)]
    omega
  · rintro ⟨h1, h2⟩
    refine ⟨x.toNat - e.toNat, by omega, BitVec.eq_of_toNat_eq ?_⟩
    have := x.isLt
    rw [BitVec.toNat_add, BitVec.toNat_ofNat, Nat.mod_eq_of_lt (by omega : x.toNat - e.toNat < 2 ^ 32),
      Nat.mod_eq_of_lt (by omega)]
    omega

variable (o : ByteOrder) (now : BitVec 64) (c : RtcClient) (obj : ContentObject)

theorem checkReceivedRtcContent_nack (h : obj.isData = false) :
    (∀ i, Report.loss i ∉ (checkReceivedRtcContent o true now c obj).1) ∧
      (checkReceivedRtcContent o true now c obj).2.lostPackets = c.lostPackets ∧
      ((checkReceivedRtcContent o true now c obj).2.expectedSeg = c.expectedSeg ∨
        (NackPacket.ofBytes o obj.payload).getProductionRate o ≠ 0 ∧
          obj.suffix < (NackPacket.ofBytes o obj.payload).getProductionSegement o ∧
          (checkReceivedRtcContent o true now c obj).2.expectedSeg =
            (NackPacket.ofBytes o obj.payload).getProductionSegement o) := by
  simp only [checkReceivedRtcContent, h, Bool.not_true, Bool.not_false, if_true, if_false,
    Bool.false_eq_true]
  split_ifs with h1 h2
  · simp
  · exact ⟨by simp, rfl, .inr ⟨h1, h2, rfl⟩⟩
  all_goals simp

theorem checkReceivedRtcContent_data (h : obj.isData = true) :
    let r := checkReceivedRtcContent o true now c obj
    (c.expectedSeg < obj.suffix ∧ c.expectedSeg ≠ 0 ∧
        r.1 = (lossRange c.expectedSeg obj.suffix).map .loss ∧
        r.2.lostPackets = c.lostPackets ∪ (lossRange c.expectedSeg obj.suffix).toFinset ∧
        r.2.expectedSeg = obj.suffix + 1) ∨
      (obj.suffix < c.expectedSeg ∧ r.2.expectedSeg = c.expectedSeg ∧
        (obj.suffix ∈ c.lostPackets →
          r.1 = [.recover obj.suffix] ∧ r.2.lostPackets = c.lostPackets.erase obj.suffix) ∧
        (obj.suffix ∉ c.lostPackets →
          r.1 = [.outOfOrder obj.suffix c.expectedSeg] ∧ r.2.lostPackets = c.lostPackets)) ∨
      ((c.expectedSeg = 0 ∨ obj.suffix = c.expectedSeg) ∧ r.1 = [] ∧
        r.2.lostPackets = c.lostPackets ∧ r.2.expectedSeg = obj.suffix + 1) := by
  simp only [checkReceivedRtcContent, h, Bool.not_true, Bool.false_eq_true, if_false]
  split_ifs with h1 h2 h3
  · exact .inl ⟨h1.1, h1.2, rfl, rfl, rfl⟩
  · exact .inr (.inl ⟨h2, rfl, fun _ => ⟨rfl, rfl⟩, fun h => absurd h3 h⟩)
  · exact .inr (.inl ⟨h2, rfl, fun h => absurd h h3, fun _ => ⟨rfl, rfl⟩⟩)
  · refine .inr (.inr ⟨?_, rfl, rfl, rfl⟩)
    rw [not_and_or, not_not] at h1
    rcases h1 with h1 | h1
    · refine .inr (BitVec.eq_of_toNat_eq ?_)
      simp only [gt_iff_lt, BitVec.lt_def, not_lt] at h1 h2
      omega
    · exact .inl h1

end RtcClient

/-- The segments a list of lines reports lost. -/
def lossesOf (rs : List Report) : Finset (BitVec 32) :=
  (rs.filterMap fun | .loss i => some i | _ => none).toFinset

@[simp] theorem mem_lossesOf {rs : List Report} {i : BitVec 32} :
    i ∈ lossesOf rs ↔ Report.loss i ∈ rs := by
  simp only [lossesOf, List.mem_toFinset, List.mem_filterMap]
  constructor
  · rintro ⟨r, hr, h⟩
    cases r <;> simp at h
    exact h ▸ hr
  · exact fun h => ⟨_, h, rfl⟩

/-- The checker, with the data suffixes received so far and the segments reported lost and not
received since. -/
structure Audit where
  client : RtcClient
  received : Finset (BitVec 32)
  pending : Finset (BitVec 32)
  deriving DecidableEq

namespace Audit

/-- Nothing received, nothing reported. -/
def init : Audit := ⟨RtcClient.init, ∅, ∅⟩

variable (o : ByteOrder)

/-- The checker in test mode on one content object arriving at `now`. -/
def step (a : Audit) (obj : ContentObject) (now : BitVec 64) : Audit :=
  let r := RtcClient.checkReceivedRtcContent o true now a.client obj
  { client := r.2
    received := if obj.isData then insert obj.suffix a.received else a.received
    pending := (if obj.isData then a.pending.erase obj.suffix else a.pending) ∪ lossesOf r.1 }

/-- On one content object: no segment received as data, this one included, is reported lost; a
lost segment received is recovered; and `lost_packets_` is what was reported lost since. -/
def LossLaw (a : Audit) (obj : ContentObject) (now : BitVec 64) : Prop :=
  let r := RtcClient.checkReceivedRtcContent o true now a.client obj
  (∀ i, Report.loss i ∈ r.1 → i ∉ (a.step o obj now).received) ∧
    (obj.isData = true → obj.suffix ∈ a.pending →
      Report.recover obj.suffix ∈ r.1 ∧ obj.suffix ∉ r.2.lostPackets) ∧
    r.2.lostPackets = (a.step o obj now).pending

/-- The law on every content object of a run. -/
def LossLawAlong : Audit → List (ContentObject × BitVec 64) → Prop
  | _, [] => True
  | a, (obj, now) :: rest => a.LossLaw o obj now ∧ LossLawAlong (a.step o obj now) rest

/-- Whether a content object keeps to what the law needs: a data suffix is not `0xFFFFFFFF`, and
a NACK taken as out of sync carries a production segment at least `expected_seg_`. -/
def keepsOrder (a : Audit) (obj : ContentObject) : Bool :=
  if obj.isData then obj.suffix != 0xFFFFFFFF#32
  else
    decide ((NackPacket.ofBytes o obj.payload).getProductionRate o = 0 ∨
      ¬ obj.suffix < (NackPacket.ofBytes o obj.payload).getProductionSegement o ∨
      a.client.expectedSeg ≤ (NackPacket.ofBytes o obj.payload).getProductionSegement o)

/-- Every content object of the run keeps to what the law needs. -/
def keepsOrderAlong : Audit → List (ContentObject × BitVec 64) → Bool
  | _, [] => true
  | a, (obj, now) :: rest => a.keepsOrder o obj && keepsOrderAlong (a.step o obj now) rest

/-- `lost_packets_` is the set of segments reported lost and not received since, and every
received suffix and every such segment lies below `expected_seg_`. -/
structure Sound (a : Audit) : Prop where
  lost_eq : a.client.lostPackets = a.pending
  received_lt : ∀ x ∈ a.received, x < a.client.expectedSeg
  pending_lt : ∀ x ∈ a.pending, x < a.client.expectedSeg

theorem lt_add_one_of_le {x s : BitVec 32} (hs : s ≠ 0xFFFFFFFF#32) (h : x ≤ s) : x < s + 1 := by
  bv_omega

variable {o} {a : Audit} {obj : ContentObject} (now : BitVec 64)

theorem step_nack (ha : a.Sound) (hd : obj.isData = false) (hk : a.keepsOrder o obj = true) :
    a.LossLaw o obj now ∧ (a.step o obj now).Sound := by
  obtain ⟨hnl, hlost, hexp⟩ := RtcClient.checkReceivedRtcContent_nack o now a.client obj hd
  have hnone : lossesOf (RtcClient.checkReceivedRtcContent o true now a.client obj).1 = ∅ :=
    Finset.eq_empty_of_forall_not_mem fun i hi => hnl i (mem_lossesOf.1 hi)
  have hpend : (a.step o obj now).pending = a.pending := by simp [step, hd, hnone]
  have hmono : ∀ x, x < a.client.expectedSeg → x < (a.step o obj now).client.expectedSeg := by
    intro x hx
    rcases hexp with he | ⟨hr, hs, he⟩
    · simpa [step, he] using hx
    · simp only [keepsOrder, hd, Bool.false_eq_true, if_false, decide_eq_true_eq, hr, hs,
        false_or, not_true_eq_false] at hk
      simp only [step, he]
      bv_omega
  refine ⟨⟨fun i hi => absurd hi (hnl i), fun h => absurd h (by simp [hd]), ?_⟩, ?_, ?_, ?_⟩
  · rw [hpend, hlost, ha.lost_eq]
  · rw [hpend, ← ha.lost_eq, ← hlost]; rfl
  · intro x hx
    exact hmono x (ha.received_lt x (by simpa [step, hd] using hx))
  · intro x hx
    exact hmono x (ha.pending_lt x (hpend ▸ hx))

theorem sound_of_advance {a' : Audit} {s : BitVec 32} (hs : s ≠ 0xFFFFFFFF#32)
    (hexp : a'.client.expectedSeg = s + 1) (hlost : a'.client.lostPackets = a'.pending)
    (hR : ∀ x ∈ a'.received, x ≤ s) (hP : ∀ x ∈ a'.pending, x ≤ s) : a'.Sound :=
  ⟨hlost, fun x hx => hexp ▸ lt_add_one_of_le hs (hR x hx),
    fun x hx => hexp ▸ lt_add_one_of_le hs (hP x hx)⟩

theorem received_step_le (ha : a.Sound) (hd : obj.isData = true)
    (hle : a.client.expectedSeg ≤ obj.suffix) : ∀ x ∈ (a.step o obj now).received, x ≤ obj.suffix := by
  intro x hx
  rcases Finset.mem_insert.1 (by simpa [step, hd] using hx) with rfl | hx
  · exact BitVec.le_refl _
  · have := ha.received_lt x hx
    bv_omega

theorem pending_step_le (ha : a.Sound) (hd : obj.isData = true)
    (hle : a.client.expectedSeg ≤ obj.suffix)
    (hloss : ∀ i ∈ lossesOf (RtcClient.checkReceivedRtcContent o true now a.client obj).1,
      i ≤ obj.suffix) :
    ∀ x ∈ (a.step o obj now).pending, x ≤ obj.suffix := by
  intro x hx
  simp only [step, hd, if_true, Finset.mem_union] at hx
  rcases hx with hx | hx
  · have := ha.pending_lt x (Finset.mem_of_mem_erase hx)
    bv_omega
  · exact hloss x hx

theorem step_data (ha : a.Sound) (hd : obj.isData = true) (hk : a.keepsOrder o obj = true) :
    a.LossLaw o obj now ∧ (a.step o obj now).Sound := by
  have hs : obj.suffix ≠ 0xFFFFFFFF#32 := by simpa [keepsOrder, hd] using hk
  have hcases := RtcClient.checkReceivedRtcContent_data o now a.client obj hd
  set r := RtcClient.checkReceivedRtcContent o true now a.client obj with hr_def
  have hpend : (a.step o obj now).pending = a.pending.erase obj.suffix ∪ lossesOf r.1 := by
    simp [step, hd, hr_def]
  have hE := ha.received_lt
  have hP := ha.pending_lt
  rcases hcases with
    ⟨hlt, -, hr, hlost, hexp⟩ | ⟨hlt, hexp, hin, hout⟩ | ⟨heq, hr, hlost, hexp⟩
  · -- a gap: the segments from `expected_seg_` up to the suffix are reported lost
    have hle : a.client.expectedSeg ≤ obj.suffix := by bv_omega
    have hgap : ∀ i, i ∈ lossesOf r.1 ↔ a.client.expectedSeg ≤ i ∧ i < obj.suffix := by
      intro i
      rw [mem_lossesOf, hr, List.mem_map_of_injective (fun _ _ h => by cases h; rfl),
        RtcClient.mem_lossRange hle]
    have hnp : obj.suffix ∉ a.pending := fun h => by have := hP _ h; bv_omega
    have hlaw : r.2.lostPackets = (a.step o obj now).pending := by
      rw [hpend, hlost, ha.lost_eq, Finset.erase_eq_of_not_mem hnp]
      congr 1
      ext i
      rw [List.mem_toFinset, RtcClient.mem_lossRange hle, hgap]
    refine ⟨⟨fun i hi hrc => ?_, fun _ h => absurd h hnp, hlaw⟩,
      sound_of_advance hs hexp hlaw (received_step_le now ha hd hle)
        (pending_step_le now ha hd hle fun i hi => ?_)⟩
    · have := (hgap i).1 (mem_lossesOf.2 hi)
      rcases Finset.mem_insert.1 (by simpa [step, hd] using hrc) with rfl | hrc
      · bv_omega
      · have := hE i hrc
        bv_omega
    · have := (hgap i).1 hi
      bv_omega
  · -- from behind: recovered when it was reported lost
    have hrec : (a.step o obj now).received = insert obj.suffix a.received := by simp [step, hd]
    have hnone : lossesOf r.1 = ∅ := by
      refine Finset.eq_empty_of_forall_not_mem fun i hi => ?_
      rw [mem_lossesOf] at hi
      by_cases hl : obj.suffix ∈ a.client.lostPackets
      · simp [(hin hl).1] at hi
      · simp [(hout hl).1] at hi
    have hlaw : r.2.lostPackets = (a.step o obj now).pending := by
      rw [hpend, hnone, Finset.union_empty, ← ha.lost_eq]
      by_cases hl : obj.suffix ∈ a.client.lostPackets
      · exact (hin hl).2
      · rw [(hout hl).2, Finset.erase_eq_of_not_mem hl]
    refine ⟨⟨fun i hi => absurd (mem_lossesOf.2 hi) (by simp [hnone]), fun _ h => ?_, hlaw⟩,
      hlaw, fun x hx => ?_, fun x hx => ?_⟩
    · have hl : obj.suffix ∈ a.client.lostPackets := ha.lost_eq ▸ h
      rw [(hin hl).1, (hin hl).2]
      exact ⟨List.mem_singleton_self _, Finset.not_mem_erase _ _⟩
    · rcases Finset.mem_insert.1 (hrec ▸ hx) with rfl | hx
      · exact hexp ▸ hlt
      · exact hexp ▸ hE x hx
    · rw [hpend, hnone, Finset.union_empty] at hx
      exact hexp ▸ hP x (Finset.mem_of_mem_erase hx)
  · -- in order: `expected_seg_` moves past the suffix
    have hle : a.client.expectedSeg ≤ obj.suffix := by
      rcases heq with h | h
      · rw [h]; exact BitVec.le_def.2 (Nat.zero_le _)
      · rw [h]; exact BitVec.le_refl _
    have hnp : obj.suffix ∉ a.pending := fun h => by have := hP _ h; bv_omega
    have hnone : lossesOf r.1 = ∅ := by rw [hr]; rfl
    have hlaw : r.2.lostPackets = (a.step o obj now).pending := by
      rw [hpend, hnone, Finset.union_empty, hlost, ha.lost_eq, Finset.erase_eq_of_not_mem hnp]
    refine ⟨⟨fun i hi => absurd (mem_lossesOf.2 hi) (by simp [hnone]), fun _ h => absurd h hnp,
      hlaw⟩, sound_of_advance hs hexp hlaw (received_step_le now ha hd hle)
        (pending_step_le now ha hd hle (by simp [hnone]))⟩

theorem step_sound (ha : a.Sound) (hk : a.keepsOrder o obj = true) :
    a.LossLaw o obj now ∧ (a.step o obj now).Sound := by
  cases hd : obj.isData
  · exact step_nack now ha hd hk
  · exact step_data now ha hd hk

theorem lossLawAlong_of_sound {objs : List (ContentObject × BitVec 64)} (ha : a.Sound)
    (hk : a.keepsOrderAlong o objs = true) : a.LossLawAlong o objs := by
  induction objs generalizing a with
  | nil => trivial
  | cons p objs ih =>
    obtain ⟨h1, h2⟩ := Bool.and_eq_true_iff.1 hk
    obtain ⟨hlaw, hs⟩ := step_sound p.2 ha h1
    exact ⟨hlaw, ih hs h2⟩

end Audit

/-- With no data suffix `0xFFFFFFFF` and no stale out-of-sync NACK, the checker keeps the loss
law on every content object of every run. -/
theorem loss_reports_consistent (o : ByteOrder) (objs : List (ContentObject × BitVec 64))
    (hk : Audit.init.keepsOrderAlong o objs = true) : Audit.init.LossLawAlong o objs :=
  Audit.lossLawAlong_of_sound ⟨rfl, by simp [Audit.init], by simp [Audit.init]⟩ hk

/-- A data packet: the 12-byte transport header and an 8-byte timestamp, all zero. -/
def dataObject (suffix : BitVec 32) : ContentObject := ⟨suffix, List.replicate 20 0⟩

/-- A NACK for `suffix` as the producer sends it: a zero timestamp, then the rate and the
production segment, in network order. -/
def nackObject (suffix prodSeg rate : BitVec 32) : ContentObject :=
  ⟨suffix, bytesBE 8 0 ++ bytesBE 4 rate.toNat ++ bytesBE 4 prodSeg.toNat⟩

theorem loss_reports_recovered :
    Audit.init.keepsOrderAlong .little [(dataObject 1, 0), (dataObject 3, 0), (dataObject 2, 0),
      (nackObject 4 3 1, 0), (dataObject 4, 0)] = true ∧
    Audit.init.LossLawAlong .little [(dataObject 1, 0), (dataObject 3, 0), (dataObject 2, 0),
      (nackObject 4 3 1, 0), (dataObject 4, 0)] :=
  ⟨by decide, loss_reports_consistent .little _ (by decide)⟩

/-- A NACK overtaken by data makes data 2 report the received 1 lost; after data `0xFFFFFFFF` the
lost `0xFFFFFFFD` is not recovered. -/
theorem loss_reports_counterexample :
    ¬ Audit.init.LossLawAlong .little
        [(dataObject 1, 0), (nackObject 0 1 1, 0), (dataObject 2, 0)] ∧
      ¬ Audit.init.LossLawAlong .little
        [(dataObject 0xfffffffc, 0), (dataObject 0xffffffff, 0), (dataObject 0xfffffffd, 0)] := by
  refine ⟨fun h => h.2.2.1.1 1 (by decide) (by decide), fun h => ?_⟩
  exact absurd (h.2.2.1.2.1 rfl (by decide)).1 (by decide)

namespace RtcClient

/-- The sender's timestamp as the checker reads it: the eight bytes at payload offset 12 in host
order, those past the payload's end taken as absent. -/
def senderTimeStamp (o : ByteOrder) (payload : List (BitVec 8)) : BitVec 64 :=
  BitVec.ofNat 64 (o.load ((payload.drop 12).take 8))

theorem newDelay_eq_sub (o : ByteOrder) (now : BitVec 64) (payload : List (BitVec 8)) :
    newDelay o now payload = ((now.toNat : ℤ) - (senderTimeStamp o payload).toNat : ℤ) := by
  rw [newDelay, ← senderTimeStamp]
  split_ifs with h
  · have hle := Nat.le_of_lt (BitVec.lt_def.1 h)
    rw [BitVec.toNat_sub_of_le (BitVec.le_def.2 hle), Nat.cast_sub hle]
    push_cast
    ring
  · have hle : (senderTimeStamp o payload).toNat ≤ now.toNat := by
      simpa [BitVec.lt_def] using h
    rw [BitVec.toNat_sub_of_le (BitVec.le_def.2 hle), Nat.cast_sub hle]
    push_cast
    ring

theorem checkReceivedRtcContent_delay (o : ByteOrder) (now : BitVec 64) (c : RtcClient)
    (obj : ContentObject) :
    (c.checkReceivedRtcContent o true now obj).2.delaySample =
        (if obj.isData then c.delaySample + 1 else c.delaySample) ∧
      (c.checkReceivedRtcContent o true now obj).2.avgDataDelay =
        (if obj.isData then
          c.avgDataDelay + (newDelay o now obj.payload - c.avgDataDelay) / (c.delaySample + 1).toNat
        else c.avgDataDelay) := by
  cases h : obj.isData <;>
    simp only [checkReceivedRtcContent, h, Bool.not_true, Bool.not_false, if_true, if_false,
      Bool.false_eq_true] <;>
    split_ifs <;> exact ⟨rfl, rfl⟩

/-- The checker in test mode on content objects arriving one after another, each with the clock
reading at its arrival. -/
def checkAll (o : ByteOrder) : RtcClient → List (ContentObject × BitVec 64) → RtcClient
  | c, [] => c
  | c, (obj, now) :: rest => checkAll o (c.checkReceivedRtcContent o true now obj).2 rest

theorem checkAll_append (o : ByteOrder) (c : RtcClient) (objs objs' : List (ContentObject × BitVec 64)) :
    c.checkAll o (objs ++ objs') = (c.checkAll o objs).checkAll o objs' := by
  induction objs generalizing c with
  | nil => rfl
  | cons p objs ih => exact ih _

end RtcClient

/-- The delay samples of the data packets among content objects. -/
def delaySamples (o : ByteOrder) (objs : List (ContentObject × BitVec 64)) : List ℚ :=
  objs.filterMap fun p => if p.1.isData then some (RtcClient.newDelay o p.2 p.1.payload) else none

theorem delaySamples_cons (o : ByteOrder) (obj : ContentObject) (now : BitVec 64)
    (objs : List (ContentObject × BitVec 64)) :
    delaySamples o ((obj, now) :: objs) =
      if obj.isData then RtcClient.newDelay o now obj.payload :: delaySamples o objs
      else delaySamples o objs := by
  cases h : obj.isData <;> simp [delaySamples, h]

theorem delaySamples_append (o : ByteOrder) (objs objs' : List (ContentObject × BitVec 64)) :
    delaySamples o (objs ++ objs') = delaySamples o objs ++ delaySamples o objs' :=
  List.filterMap_append _ _ _

/-- The mean of a list of samples, 0 for none. -/
def mean (xs : List ℚ) : ℚ := xs.sum / xs.length

theorem mean_append_singleton (xs : List ℚ) (x : ℚ) :
    mean xs + (x - mean xs) / (xs.length + 1) = mean (xs ++ [x]) := by
  by_cases h : xs = []
  · subst h
    simp [mean]
  · have hn : (xs.length : ℚ) ≠ 0 := by exact_mod_cast (List.length_pos.2 h).ne'
    simp only [mean, List.sum_append, List.sum_singleton, List.length_append, List.length_singleton,
      Nat.cast_add, Nat.cast_one]
    field_simp
    ring

/-- The law that `avg_data_delay_` is the mean of the delay samples so far. -/
def MeanLaw (o : ByteOrder) (c : RtcClient) (objs : List (ContentObject × BitVec 64)) : Prop :=
  (c.checkAll o objs).avgDataDelay = mean (delaySamples o objs)

theorem checkAll_mean (o : ByteOrder) (objs : List (ContentObject × BitVec 64)) :
    ∀ (c : RtcClient) (S : List ℚ), c.avgDataDelay = mean S → c.delaySample.toNat = S.length →
      S.length + (delaySamples o objs).length < 2 ^ 32 →
      (c.checkAll o objs).avgDataDelay = mean (S ++ delaySamples o objs) ∧
        (c.checkAll o objs).delaySample.toNat = (S ++ delaySamples o objs).length := by
  induction objs with
  | nil =>
    intro c S ha hn _
    rw [show delaySamples o [] = [] from rfl, List.append_nil]
    exact ⟨ha, hn⟩
  | cons p objs ih =>
    intro c S ha hn hlen
    obtain ⟨obj, now⟩ := p
    obtain ⟨hd, havg⟩ := RtcClient.checkReceivedRtcContent_delay o now c obj
    rw [delaySamples_cons] at hlen ⊢
    cases h : obj.isData
    · simp only [h, if_false, Bool.false_eq_true] at hd havg hlen ⊢
      exact ih _ S (havg.trans ha) (hd ▸ hn) hlen
    · simp only [h, if_true, List.length_cons] at hd havg hlen ⊢
      have hsucc : (c.delaySample + 1).toNat = S.length + 1 := by
        rw [BitVec.toNat_add, hn, show (1 : BitVec 32).toNat = 1 from rfl]
        exact Nat.mod_eq_of_lt (by omega)
      simpa using ih _ (S ++ [RtcClient.newDelay o now obj.payload])
        (by rw [havg, hsucc, ha, Nat.cast_add, Nat.cast_one, mean_append_singleton])
        (by rw [hd, hsucc, List.length_append, List.length_singleton])
        (by rw [List.length_append, List.length_singleton]; omega)

/-- From cleared delay statistics, over exact rationals and below `2^32` samples,
`avg_data_delay_` is the mean of the signed delay samples and `delay_sample_` their number. -/
theorem delay_average_is_mean (o : ByteOrder) (c : RtcClient)
    (hc : c.delaySample = 0 ∧ c.avgDataDelay = 0) (objs : List (ContentObject × BitVec 64))
    (hlen : (delaySamples o objs).length < 2 ^ 32) :
    (c.checkAll o objs).avgDataDelay = mean (delaySamples o objs) ∧
      (c.checkAll o objs).delaySample.toNat = (delaySamples o objs).length ∧
      delaySamples o objs = objs.filterMap fun p => if p.1.isData then
        some (((p.2.toNat : ℤ) - (RtcClient.senderTimeStamp o p.1.payload).toNat : ℤ) : ℚ)
        else none := by
  obtain ⟨hs, ha⟩ := hc
  have h := checkAll_mean o objs c [] (by simp [ha, mean]) (by simp [hs]) (by simpa using hlen)
  rw [List.nil_append] at h
  exact ⟨h.1, h.2, by simp only [delaySamples, RtcClient.newDelay_eq_sub]⟩

theorem delay_average_two_samples :
    (RtcClient.init.checkAll .little [(dataObject 1, 5), (dataObject 2, 9)]).avgDataDelay =
      mean (delaySamples .little [(dataObject 1, 5), (dataObject 2, 9)]) :=
  (delay_average_is_mean .little _ ⟨rfl, rfl⟩ _ (by decide)).1

theorem delaySamples_replicate (o : ByteOrder) (n : ℕ) (p : ContentObject × BitVec 64)
    (h : p.1.isData = true) :
    delaySamples o (List.replicate n p) = List.replicate n (RtcClient.newDelay o p.2 p.1.payload) := by
  induction n with
  | zero => rfl
  | succ n ih => rw [List.replicate_succ, List.replicate_succ, ← ih]; simp [delaySamples, h]

theorem meanLaw_fails_at_wrap (n : ℕ) (hn : n + 1 = 2 ^ 32) :
    (RtcClient.init.checkAll .little (List.replicate n (dataObject 0, 0))).delaySample + 1 = 0 ∧
      ¬ MeanLaw .little RtcClient.init
        (List.replicate n (dataObject 0, 0) ++ [(dataObject 0, 1)]) := by
  have hdata : (dataObject 0).isData = true := by decide
  have h0 : RtcClient.newDelay .little 0 (dataObject 0).payload = 0 := by decide
  have h1 : RtcClient.newDelay .little 1 (dataObject 0).payload = 1 := by decide
  have hz := delaySamples_replicate .little n (dataObject 0, 0) hdata
  rw [h0] at hz
  obtain ⟨havg, hcount⟩ := checkAll_mean .little (List.replicate n (dataObject 0, 0))
    RtcClient.init [] (by simp [mean]; rfl) rfl
    (by rw [hz, List.length_replicate, List.length_nil]; omega)
  rw [List.nil_append, hz] at havg hcount
  rw [List.length_replicate] at hcount
  have hwrap : (RtcClient.init.checkAll .little
      (List.replicate n (dataObject 0, 0))).delaySample + 1 = 0 := by
    apply BitVec.eq_of_toNat_eq
    rw [BitVec.toNat_add, hcount, show (1 : BitVec 32).toNat = 1 from rfl, hn, Nat.mod_self]
    rfl
  refine ⟨hwrap, fun h => ?_⟩
  have hs : delaySamples .little (List.replicate n (dataObject 0, 0) ++ [(dataObject 0, 1)]) =
      List.replicate n 0 ++ [1] := by
    rw [delaySamples_append, hz]
    congr 1
  rw [MeanLaw, RtcClient.checkAll_append, hs] at h
  rw [RtcClient.checkAll, RtcClient.checkAll, (RtcClient.checkReceivedRtcContent_delay _ _ _ _).2,
    if_pos hdata, hwrap, havg, h1] at h
  have hpos : (0 : ℚ) < n + 1 := by positivity
  simp [mean, List.sum_replicate] at h
  exact absurd h (by positivity)

/-- After `2^32 - 1` data packets `delay_sample_` wraps: the next packet divides by 0 and the
average is no longer the mean. -/
theorem delay_average_counterexample :
    (RtcClient.init.checkAll .little (List.replicate (2 ^ 32 - 1) (dataObject 0, 0))).delaySample +
        1 = 0 ∧
      ¬ MeanLaw .little RtcClient.init
        (List.replicate (2 ^ 32 - 1) (dataObject 0, 0) ++ [(dataObject 0, 1)]) :=
  meanLaw_fails_at_wrap _ (by norm_num)

end HicnTransport.Hiperf
