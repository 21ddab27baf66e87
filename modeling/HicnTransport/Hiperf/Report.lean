import HicnTransport.Hiperf.RtcClient
import HicnTransport.Hiperf.Trace
import HicnTransport.Interfaces.Statistics

/-!
# The client's periodic report

Every `report_interval_milliseconds_` the transport calls `handleTimerExpiration` with its
statistics block. The report takes, for each counter, the difference between its value and the one
`old_*_value_` kept at the previous report, divides the bytes received by the whole milliseconds
elapsed since `t_stats_`, prints, then keeps the counters and clears the delay statistics of the
test-mode checker.

Two reports within one millisecond divide by zero: the bandwidth is an integer division by the
elapsed milliseconds. The retransmission and interest counts are kept as `uint32_t` against
`uint64_t` counters, so once either counter passes `2^32` its difference is off by a multiple of
`2^32`. Between reports a millisecond or more apart, with counters that are neither reset nor
wrap and the two counts below `2^32`, every difference is the exact increase of its counter since
the previous report.

Between two reports the checker's `avg_data_delay_` is the mean of the delay samples of the data
packets received since the first, each sample the signed difference of the receiver's clock and
the sender's timestamp, as long as `delay_sample_` has not wrapped: the `2^32`-th sample divides by
zero.
-/

namespace HicnTransport.Hiperf

open HicnTransport.Interfaces

/-- The fields of `HIperfClient` that reports read and write, those of the test-mode checker
among them. `t_stats_` is a reading of the steady clock in nanoseconds. -/
structure HiperfClient where
  checker : RtcClient
  totalDurationMilliseconds : BitVec 32
  oldBytesValue : BitVec 64
  oldFecInterestTxValue : BitVec 64
  oldFecDataRxValue : BitVec 64
  oldLostDataValue : BitVec 64
  oldBytesRecoveredValue : BitVec 64
  oldRetxValue : BitVec 32
  oldSentIntValue : BitVec 32
  oldReceivedNacksValue : BitVec 32
  tStats : ℕ

/-- The differences a report computes, `stats.getX() - old_x_value_`. -/
structure Differences where
  bytesRecv : BitVec 64
  lostData : BitVec 64
  bytesRecoveredData : BitVec 64
  retxCount : BitVec 64
  interestTx : BitVec 64
  receivedNacks : BitVec 32
  deriving DecidableEq

/-- The columns of a report in RTC mode. -/
structure RtcColumns where
  interval : ℕ × ℕ
  recvData : BitVec 32
  bandwidth : ℚ
  goodput : ℚ
  lossRate : ℚ
  retr : BitVec 64
  interestSent : BitVec 64
  receivedNacks : BitVec 32
  syncWnd : ℚ
  minRtt : ℚ
  lostData : BitVec 64
  recoveredData : BitVec 64
  state : BitVec 32
  dataDelay : ℚ
  deriving DecidableEq

/-- The columns of a report otherwise. -/
structure PlainColumns where
  interval : ℕ × ℕ
  transfer : ℚ
  bandwidth : ℚ
  retr : BitVec 64
  cwnd : ℚ
  avgRtt : ℚ
  deriving DecidableEq

/-- What a report prints. -/
inductive StatsReport
  | rtc (columns : RtcColumns)
  | plain (columns : PlainColumns)
  deriving DecidableEq

namespace HiperfClient

/-- The client as constructed, once `run` has read the steady clock into `t_stats_`. -/
def init (tStart : ℕ) : HiperfClient := ⟨RtcClient.init, 0, 0, 0, 0, 0, 0, 0, 0, 0, tStart⟩

variable (c : HiperfClient) (stats : TransportStatistics)

def differences : Differences :=
  ⟨stats.getBytesRecv - c.oldBytesValue, stats.getLostData - c.oldLostDataValue,
    stats.getBytesRecoveredData - c.oldBytesRecoveredValue,
    stats.getRetxCount - c.oldRetxValue.setWidth 64,
    stats.getInterestTx - c.oldSentIntValue.setWidth 64,
    stats.getReceivedNacks - c.oldReceivedNacksValue⟩

/-- The line printed when `exact_duration.count()` is `ms`: the bandwidth is the `uint64_t`
quotient of eight times the bytes received by `ms`, over 1000. -/
def report (rtc : Bool) (ms : ℕ) : StatsReport :=
  let d := c.differences stats
  let bandwidth : ℚ := (((d.bytesRecv * 8).toNat / ms : ℕ) : ℚ) / 1000
  if rtc then
    .rtc ⟨(c.totalDurationMilliseconds.toNat, c.totalDurationMilliseconds.toNat + ms),
      c.checker.receivedDataPkt, bandwidth, (c.checker.receivedBytes.toNat * 8 : ℚ) / ms / 1000,
      stats.getLossRatio * 100, d.retxCount, d.interestTx, d.receivedNacks,
      stats.getAverageWindowSize, stats.getAverageRtt, d.lostData, d.bytesRecoveredData,
      stats.getCCStatus, c.checker.avgDataDelay⟩
  else
    .plain ⟨(c.totalDurationMilliseconds.toNat / 1000,
        c.totalDurationMilliseconds.toNat / 1000 + ms / 1000),
      (d.bytesRecv.toNat : ℚ) / 1000000, bandwidth, stats.getRetxCount,
      stats.getAverageWindowSize, stats.getAverageRtt⟩

/-- What a report leaves behind: the counters kept, the retransmission and interest counts as
`uint32_t`, the checker's delay statistics and packet counts cleared, and `t_stats_` read again. -/
def afterReport (ms tEnd : ℕ) : HiperfClient :=
  { c with
    checker := { c.checker with
      delaySample := 0, avgDataDelay := 0, receivedBytes := 0, receivedDataPkt := 0 }
    totalDurationMilliseconds := c.totalDurationMilliseconds + BitVec.ofNat 32 ms
    oldBytesValue := stats.getBytesRecv
    oldLostDataValue := stats.getLostData
    oldBytesRecoveredValue := stats.getBytesRecoveredData
    oldFecInterestTxValue := stats.getInterestFecTxCount
    oldFecDataRxValue := stats.getBytesFecRecv
    oldRetxValue := stats.getRetxCount.setWidth 32
    oldSentIntValue := stats.getInterestTx.setWidth 32
    oldReceivedNacksValue := stats.getReceivedNacks
    tStats := tEnd }

/-- `handleTimerExpiration(c, stats)` with the steady clock at `t2`, then `tEnd`: the line printed
and the client after, or the division by zero within a millisecond of `t_stats_`. -/
def handleTimerExpiration (rtc : Bool) (t2 tEnd : ℕ) :
    Except Fault (StatsReport × HiperfClient) :=
  let ms := (t2 - c.tStats) / 1000000
  if ms = 0 then .error .divisionByZero else .ok (c.report stats rtc ms, c.afterReport stats ms tEnd)

/-- `checkReceivedRtcContent` on a content object, the lines it prints left aside. -/
def receive (o : ByteOrder) (testMode : Bool) (obj : ContentObject) (now : BitVec 64) :
    HiperfClient :=
  { c with checker := (c.checker.checkReceivedRtcContent o testMode now obj).2 }

/-- The value `old_*_value_` keeps for each counter. -/
def recorded : Counter → ℕ
  | .retxCount => c.oldRetxValue.toNat
  | .bytesReceived => c.oldBytesValue.toNat
  | .interestTx => c.oldSentIntValue.toNat
  | .interestFecTx => c.oldFecInterestTxValue.toNat
  | .bytesFecReceived => c.oldFecDataRxValue.toNat
  | .lostData => c.oldLostDataValue.toNat
  | .recoveredData => c.oldBytesRecoveredValue.toNat
  | .receivedNacks => c.oldReceivedNacksValue.toNat

end HiperfClient

/-- A statistics update, a content object reaching the checker at `now` ms, or the stats timer at
steady-clock `t2` with `tEnd` once the report is printed. -/
inductive ClientEvent
  | update (op : StatsOp)
  | content (obj : ContentObject) (now : BitVec 64)
  | timer (t2 tEnd : ℕ)

/-- The client and the statistics block, with the counters as they stood at the previous report,
or at the start. -/
structure ReportAudit where
  client : HiperfClient
  stats : TransportStatistics
  prev : Counter → ℕ

/-- The law a report is meant to keep: every difference it computes is the exact increase of its
counter since the previous report. -/
structure ExactDifferences (d : Differences) (stats : TransportStatistics) (prev : Counter → ℕ) :
    Prop where
  bytesRecv : (d.bytesRecv.toNat : ℤ) = stats.counter .bytesReceived - prev .bytesReceived
  lostData : (d.lostData.toNat : ℤ) = stats.counter .lostData - prev .lostData
  bytesRecoveredData :
    (d.bytesRecoveredData.toNat : ℤ) = stats.counter .recoveredData - prev .recoveredData
  retxCount : (d.retxCount.toNat : ℤ) = stats.counter .retxCount - prev .retxCount
  interestTx : (d.interestTx.toNat : ℤ) = stats.counter .interestTx - prev .interestTx
  receivedNacks :
    (d.receivedNacks.toNat : ℤ) = stats.counter .receivedNacks - prev .receivedNacks

namespace ReportAudit

/-- A fresh client and statistics block. -/
def init (tStart : ℕ) (alpha : ℚ) : ReportAudit :=
  ⟨HiperfClient.init tStart, TransportStatistics.init alpha, fun _ => 0⟩

variable (o : ByteOrder) (testMode rtc : Bool)

/-- One event; a report keeps the counters as they stand. -/
def step (a : ReportAudit) : ClientEvent → ReportAudit
  | .update op => { a with stats := a.stats.apply op }
  | .content obj now => { a with client := a.client.receive o testMode obj now }
  | .timer t2 tEnd =>
    match a.client.handleTimerExpiration a.stats rtc t2 tEnd with
    | .ok (_, c) => { a with client := c, prev := a.stats.counter }
    | .error _ => a

/-- A report succeeds and keeps the law. -/
def DeltaLaw (a : ReportAudit) : ClientEvent → Prop
  | .timer t2 tEnd => (∃ r, a.client.handleTimerExpiration a.stats rtc t2 tEnd = .ok r) ∧
      ExactDifferences (a.client.differences a.stats) a.stats a.prev
  | _ => True

/-- Every report of the run succeeds and keeps the law. -/
def DeltaLawAlong : ReportAudit → List ClientEvent → Prop
  | _, [] => True
  | a, e :: es => a.DeltaLaw rtc e ∧ DeltaLawAlong (a.step o testMode rtc e) es

/-- What the law needs of an event: an update neither resets nor wraps, and a report comes a
millisecond or more after `t_stats_` with both 32-bit counts below `2^32`. -/
def keepsCounts (a : ReportAudit) : ClientEvent → Bool
  | .update op =>
    op != .reset && decide (∀ k, a.stats.counter k + op.increment k < 2 ^ k.width)
  | .content _ _ => true
  | .timer t2 _ => decide (a.client.tStats + 1000000 ≤ t2 ∧
      a.stats.counter .retxCount < 2 ^ 32 ∧ a.stats.counter .interestTx < 2 ^ 32)

/-- Every event of the run keeps to what the law needs. -/
def keepsCountsAlong : ReportAudit → List ClientEvent → Bool
  | _, [] => true
  | a, e :: es => a.keepsCounts e && keepsCountsAlong (a.step o testMode rtc e) es

/-- `old_*_value_` holds the counters of the previous report, which have not decreased since. -/
structure Tracks (a : ReportAudit) : Prop where
  recorded : ∀ k, a.client.recorded k = a.prev k
  grown : ∀ k, a.prev k ≤ a.stats.counter k

end ReportAudit

namespace HiperfClient

variable (c : HiperfClient) (stats : TransportStatistics) (rtc : Bool) (tEnd : ℕ)

theorem handleTimerExpiration_of_lt {t2 : ℕ} (h : t2 < c.tStats + 1000000) :
    c.handleTimerExpiration stats rtc t2 tEnd = .error .divisionByZero := by
  simp [handleTimerExpiration, Nat.div_eq_of_lt (by omega : t2 - c.tStats < 1000000)]

theorem handleTimerExpiration_of_le {t2 : ℕ} (h : c.tStats + 1000000 ≤ t2) :
    c.handleTimerExpiration stats rtc t2 tEnd =
      .ok (c.report stats rtc ((t2 - c.tStats) / 1000000),
        c.afterReport stats ((t2 - c.tStats) / 1000000) tEnd) := by
  have : (t2 - c.tStats) / 1000000 ≠ 0 := by
    rw [Ne, Nat.div_eq_zero_iff (by norm_num)]
    omega
  simp [handleTimerExpiration, this]

theorem recorded_receive (o : ByteOrder) (testMode : Bool) (obj : ContentObject)
    (now : BitVec 64) : (c.receive o testMode obj now).recorded = c.recorded :=
  funext fun k => by cases k <;> rfl

theorem recorded_afterReport (ms : ℕ) (hr : stats.counter .retxCount < 2 ^ 32)
    (hi : stats.counter .interestTx < 2 ^ 32) (k : Counter) :
    (c.afterReport stats ms tEnd).recorded k = stats.counter k := by
  cases k <;> simp_all [afterReport, recorded, TransportStatistics.counter,
    TransportStatistics.getRetxCount, TransportStatistics.getInterestTx, Nat.mod_eq_of_lt]
  all_goals rfl

theorem toNat_sub_cast {w : ℕ} {x y : BitVec w} (h : y.toNat ≤ x.toNat) :
    ((x - y).toNat : ℤ) = x.toNat - y.toNat := by
  rw [BitVec.toNat_sub_of_le (BitVec.le_def.2 h), Nat.cast_sub h]

theorem toNat_sub_setWidth_cast {x : BitVec 64} {y : BitVec 32} (h : y.toNat ≤ x.toNat) :
    ((x - y.setWidth 64).toNat : ℤ) = x.toNat - y.toNat := by
  have hy : (y.setWidth 64).toNat = y.toNat := by
    rw [BitVec.toNat_setWidth, Nat.mod_eq_of_lt (lt_trans y.isLt (by norm_num))]
  rw [toNat_sub_cast (hy ▸ h), hy]

theorem differences_exact {prev : Counter → ℕ} (hr : ∀ k, c.recorded k = prev k)
    (hg : ∀ k, prev k ≤ stats.counter k) :
    ExactDifferences (c.differences stats) stats prev := by
  obtain rfl : c.recorded = prev := funext hr
  exact ⟨toNat_sub_cast (hg .bytesReceived), toNat_sub_cast (hg .lostData),
    toNat_sub_cast (hg .recoveredData), toNat_sub_setWidth_cast (hg .retxCount),
    toNat_sub_setWidth_cast (hg .interestTx), toNat_sub_cast (hg .receivedNacks)⟩

end HiperfClient

namespace ReportAudit

variable {o : ByteOrder} {testMode rtc : Bool} {a : ReportAudit}

theorem init_tracks (tStart : ℕ) (alpha : ℚ) : (init tStart alpha).Tracks :=
  ⟨fun k => by cases k <;> rfl, fun _ => Nat.zero_le _⟩

theorem step_tracks (ha : a.Tracks) {e : ClientEvent} (hk : a.keepsCounts e = true) :
    a.DeltaLaw rtc e ∧ (a.step o testMode rtc e).Tracks := by
  cases e with
  | update op =>
    simp only [keepsCounts, Bool.and_eq_true, bne_iff_ne, decide_eq_true_eq] at hk
    refine ⟨trivial, ha.recorded, fun k => ?_⟩
    have hc := a.stats.counter_apply op k
    rw [if_neg hk.1, Nat.mod_eq_of_lt (hk.2 k)] at hc
    exact (ha.grown k).trans (hc ▸ Nat.le_add_right _ _)
  | content obj now =>
    exact ⟨trivial,
      fun k => (congrFun (a.client.recorded_receive o testMode obj now) k).trans (ha.recorded k),
      ha.grown⟩
  | timer t2 tEnd =>
    simp only [keepsCounts, decide_eq_true_eq] at hk
    obtain ⟨ht, hr, hi⟩ := hk
    have hok := a.client.handleTimerExpiration_of_le a.stats rtc tEnd ht
    refine ⟨⟨⟨_, hok⟩, a.client.differences_exact a.stats ha.recorded ha.grown⟩, ?_, ?_⟩
    · intro k
      simp only [step, hok]
      exact HiperfClient.recorded_afterReport _ _ _ _ hr hi k
    · intro k
      simp only [step, hok, le_refl]

theorem deltaLawAlong_of_tracks {es : List ClientEvent} (ha : a.Tracks)
    (hk : a.keepsCountsAlong o testMode rtc es = true) : a.DeltaLawAlong o testMode rtc es := by
  induction es generalizing a with
  | nil => trivial
  | cons e es ih =>
    obtain ⟨h1, h2⟩ := Bool.and_eq_true_iff.1 hk
    obtain ⟨hlaw, hs⟩ := step_tracks ha h1
    exact ⟨hlaw, ih hs h2⟩

end ReportAudit

/-- With reports a millisecond or more apart, no reset, no wrap and the 32-bit counts below
`2^32`, every report succeeds and each difference is the exact increase of its counter. -/
theorem reports_exact (o : ByteOrder) (testMode rtc : Bool) (tStart : ℕ) (alpha : ℚ)
    (es : List ClientEvent)
    (hk : (ReportAudit.init tStart alpha).keepsCountsAlong o testMode rtc es = true) :
    (ReportAudit.init tStart alpha).DeltaLawAlong o testMode rtc es :=
  ReportAudit.deltaLawAlong_of_tracks (ReportAudit.init_tracks tStart alpha) hk

theorem reports_exact_two_reports :
    (ReportAudit.init 0 0).keepsCountsAlong .little true true
        [.update (.updateRetxCount 3), .update (.updateBytesRecv 1500), .timer 1000000 1000000,
          .update (.updateRetxCount 2), .update (.updateInterestTx 7),
          .update (.updateBytesRecv 500), .timer 2000000 2000000] = true ∧
      (ReportAudit.init 0 0).DeltaLawAlong .little true true
        [.update (.updateRetxCount 3), .update (.updateBytesRecv 1500), .timer 1000000 1000000,
          .update (.updateRetxCount 2), .update (.updateInterestTx 7),
          .update (.updateBytesRecv 500), .timer 2000000 2000000] :=
  ⟨by decide, reports_exact .little true true 0 0 _ (by decide)⟩

/-- A report within a millisecond of `t_stats_` divides by zero; past `2^32` retransmissions the
next difference is off by `2^32`. -/
theorem report_divides_by_zero :
    (∀ (c : HiperfClient) (stats : TransportStatistics) (rtc : Bool) (tEnd : ℕ),
      c.handleTimerExpiration stats rtc (c.tStats + 999999) tEnd = .error .divisionByZero) ∧
    ¬ (ReportAudit.init 0 0).DeltaLawAlong .little false true
      [.update (.updateRetxCount 0x100000001#64), .timer 1000000 1000000,
        .update (.updateRetxCount 2), .timer 2000000 2000000] :=
  ⟨fun c stats rtc tEnd => c.handleTimerExpiration_of_lt stats rtc tEnd (by omega),
    fun h => absurd h.2.2.2.1.2.retxCount (by decide)⟩

end HicnTransport.Hiperf
