import Mathlib.Tactic

/-!
# Transport statistics

`TransportStatistics` is the block of counters and moving averages a consumer socket keeps and
hands to the stats-summary callback. Eight counters add what their update method is given, three
averages move by `x := alpha * x + (1 - alpha) * new`, four fields are set outright, and `reset()`
clears the block field by field.

The counters are `uint64_t`, `received_nacks_` a `uint32_t`: each holds the sum of the increments
since construction or the last `reset()` modulo its width, so it grows by exactly what it is given
as long as that sum fits. `reset()` repeats the constructor's list field by field but skips
`queuing_delay_` and sets `status_` to 0 where the constructor sets -1. The `double` fields are
kept as exact rationals, without the rounding of the code's averages.
-/

namespace HicnTransport.Interfaces

/-- `default_alpha`. -/
def defaultAlpha : ℚ := 7 / 10

/-- `TransportStatistics`; the `double` fields are kept as rationals. -/
structure TransportStatistics where
  retxCount : BitVec 64
  bytesReceived : BitVec 64
  averageRtt : ℚ
  avgWindowSize : ℚ
  interestTx : BitVec 64
  alpha : ℚ
  lossRatio : ℚ
  queuingDelay : ℚ
  interestFecTx : BitVec 64
  bytesFecReceived : BitVec 64
  lostData : BitVec 64
  recoveredData : BitVec 64
  status : BitVec 32
  avgPendingPkt : ℚ
  receivedNacks : BitVec 32
  deriving DecidableEq

/-- The eight cumulative counters. -/
inductive Counter
  | retxCount
  | bytesReceived
  | interestTx
  | interestFecTx
  | bytesFecReceived
  | lostData
  | recoveredData
  | receivedNacks
  deriving DecidableEq, Repr, Fintype

/-- The width of a counter's field: `received_nacks_` is a `uint32_t`, the others `uint64_t`. -/
def Counter.width : Counter → ℕ
  | .receivedNacks => 32
  | _ => 64

/-- The moving average `alpha * x + (1 - alpha) * new` of the three `update*Average*` methods. -/
def movingAverage (alpha x new : ℚ) : ℚ := alpha * x + (1 - alpha) * new

namespace TransportStatistics

/-- `TransportStatistics(alpha)`. -/
def init (alpha : ℚ) : TransportStatistics := ⟨0, 0, 0, 0, 0, alpha, 0, 0, 0, 0, 0, 0, -1, 0, 0⟩

variable (s : TransportStatistics)

/-- The value of a counter. -/
def counter : Counter → ℕ
  | .retxCount => s.retxCount.toNat
  | .bytesReceived => s.bytesReceived.toNat
  | .interestTx => s.interestTx.toNat
  | .interestFecTx => s.interestFecTx.toNat
  | .bytesFecReceived => s.bytesFecReceived.toNat
  | .lostData => s.lostData.toNat
  | .recoveredData => s.recoveredData.toNat
  | .receivedNacks => s.receivedNacks.toNat

/-- `counter_ += v`, in the width of the counter's field. -/
def addTo : Counter → ℕ → TransportStatistics
  | .retxCount, v => { s with retxCount := s.retxCount + BitVec.ofNat 64 v }
  | .bytesReceived, v => { s with bytesReceived := s.bytesReceived + BitVec.ofNat 64 v }
  | .interestTx, v => { s with interestTx := s.interestTx + BitVec.ofNat 64 v }
  | .interestFecTx, v => { s with interestFecTx := s.interestFecTx + BitVec.ofNat 64 v }
  | .bytesFecReceived, v => { s with bytesFecReceived := s.bytesFecReceived + BitVec.ofNat 64 v }
  | .lostData, v => { s with lostData := s.lostData + BitVec.ofNat 64 v }
  | .recoveredData, v => { s with recoveredData := s.recoveredData + BitVec.ofNat 64 v }
  | .receivedNacks, v => { s with receivedNacks := s.receivedNacks + BitVec.ofNat 32 v }

def updateRetxCount (retx : BitVec 64) : TransportStatistics := s.addTo .retxCount retx.toNat

def updateBytesRecv (bytes : BitVec 64) : TransportStatistics := s.addTo .bytesReceived bytes.toNat

def updateAverageRtt (rtt : BitVec 64) : TransportStatistics :=
  { s with averageRtt := movingAverage s.alpha s.averageRtt rtt.toNat }

def updateAverageWindowSize (currentWindow : ℚ) : TransportStatistics :=
  { s with avgWindowSize := movingAverage s.alpha s.avgWindowSize currentWindow }

def updateInterestTx (intTx : BitVec 64) : TransportStatistics := s.addTo .interestTx intTx.toNat

def updateLossRatio (lossRatio : ℚ) : TransportStatistics := { s with lossRatio := lossRatio }

def updateQueuingDelay (queuingDelay : ℚ) : TransportStatistics :=
  { s with queuingDelay := queuingDelay }

def updateInterestFecTx (intTx : BitVec 64) : TransportStatistics :=
  s.addTo .interestFecTx intTx.toNat

def updateBytesFecRecv (bytes : BitVec 64) : TransportStatistics :=
  s.addTo .bytesFecReceived bytes.toNat

def updateLostData (pkt : BitVec 64) : TransportStatistics := s.addTo .lostData pkt.toNat

def updateRecoveredData (bytes : BitVec 64) : TransportStatistics :=
  s.addTo .recoveredData bytes.toNat

def updateCCState (status : BitVec 32) : TransportStatistics := { s with status := status }

def updateAveragePendingPktCount (pkt : ℚ) : TransportStatistics :=
  { s with avgPendingPkt := movingAverage s.alpha s.avgPendingPkt pkt }

def updateReceivedNacks (nacks : BitVec 32) : TransportStatistics :=
  s.addTo .receivedNacks nacks.toNat

def setAlpha (val : ℚ) : TransportStatistics := { s with alpha := val }

/-- `reset()`: every field it lists, which are all but `alpha_` and `queuing_delay_`, set to 0. -/
def reset : TransportStatistics :=
  { s with
    retxCount := 0, bytesReceived := 0, averageRtt := 0, avgWindowSize := 0, interestTx := 0,
    lossRatio := 0, interestFecTx := 0, bytesFecReceived := 0, lostData := 0, recoveredData := 0,
    status := 0, avgPendingPkt := 0, receivedNacks := 0 }

def getRetxCount : BitVec 64 := s.retxCount

def getBytesRecv : BitVec 64 := s.bytesReceived

def getAverageRtt : ℚ := s.averageRtt

def getAverageWindowSize : ℚ := s.avgWindowSize

def getInterestTx : BitVec 64 := s.interestTx

def getLossRatio : ℚ := s.lossRatio

def getQueuingDelay : ℚ := s.queuingDelay

def getInterestFecTxCount : BitVec 64 := s.interestFecTx

def getBytesFecRecv : BitVec 64 := s.bytesFecReceived

def getLostData : BitVec 64 := s.lostData

def getBytesRecoveredData : BitVec 64 := s.recoveredData

def getCCStatus : BitVec 32 := s.status

def getAveragePendingPktCount : ℚ := s.avgPendingPkt

def getReceivedNacks : BitVec 32 := s.receivedNacks

end TransportStatistics

/-- What the fourteen getters return. -/
structure Readings where
  retxCount : BitVec 64
  bytesRecv : BitVec 64
  averageRtt : ℚ
  averageWindowSize : ℚ
  interestTx : BitVec 64
  lossRatio : ℚ
  queuingDelay : ℚ
  interestFecTxCount : BitVec 64
  bytesFecRecv : BitVec 64
  lostData : BitVec 64
  bytesRecoveredData : BitVec 64
  ccStatus : BitVec 32
  averagePendingPktCount : ℚ
  receivedNacks : BitVec 32
  deriving DecidableEq

/-- The public methods that change the block. -/
inductive StatsOp
  | updateRetxCount (retx : BitVec 64)
  | updateBytesRecv (bytes : BitVec 64)
  | updateAverageRtt (rtt : BitVec 64)
  | updateAverageWindowSize (currentWindow : ℚ)
  | updateInterestTx (intTx : BitVec 64)
  | updateLossRatio (lossRatio : ℚ)
  | updateQueuingDelay (queuingDelay : ℚ)
  | updateInterestFecTx (intTx : BitVec 64)
  | updateBytesFecRecv (bytes : BitVec 64)
  | updateLostData (pkt : BitVec 64)
  | updateRecoveredData (bytes : BitVec 64)
  | updateCCState (status : BitVec 32)
  | updateAveragePendingPktCount (pkt : ℚ)
  | updateReceivedNacks (nacks : BitVec 32)
  | setAlpha (val : ℚ)
  | reset
  deriving DecidableEq

namespace TransportStatistics

variable (s : TransportStatistics)

def readings : Readings :=
  ⟨s.getRetxCount, s.getBytesRecv, s.getAverageRtt, s.getAverageWindowSize, s.getInterestTx,
    s.getLossRatio, s.getQueuingDelay, s.getInterestFecTxCount, s.getBytesFecRecv, s.getLostData,
    s.getBytesRecoveredData, s.getCCStatus, s.getAveragePendingPktCount, s.getReceivedNacks⟩

/-- One method call. -/
def apply : StatsOp → TransportStatistics
  | .updateRetxCount retx => s.updateRetxCount retx
  | .updateBytesRecv bytes => s.updateBytesRecv bytes
  | .updateAverageRtt rtt => s.updateAverageRtt rtt
  | .updateAverageWindowSize currentWindow => s.updateAverageWindowSize currentWindow
  | .updateInterestTx intTx => s.updateInterestTx intTx
  | .updateLossRatio lossRatio => s.updateLossRatio lossRatio
  | .updateQueuingDelay queuingDelay => s.updateQueuingDelay queuingDelay
  | .updateInterestFecTx intTx => s.updateInterestFecTx intTx
  | .updateBytesFecRecv bytes => s.updateBytesFecRecv bytes
  | .updateLostData pkt => s.updateLostData pkt
  | .updateRecoveredData bytes => s.updateRecoveredData bytes
  | .updateCCState status => s.updateCCState status
  | .updateAveragePendingPktCount pkt => s.updateAveragePendingPktCount pkt
  | .updateReceivedNacks nacks => s.updateReceivedNacks nacks
  | .setAlpha val => s.setAlpha val
  | .reset => s.reset

/-- A sequence of method calls, first to last. -/
def run : TransportStatistics → List StatsOp → TransportStatistics
  | s, [] => s
  | s, op :: ops => run (s.apply op) ops

theorem run_append_singleton (ops : List StatsOp) (op : StatsOp) :
    s.run (ops ++ [op]) = (s.run ops).apply op := by
  induction ops generalizing s with
  | nil => rfl
  | cons op' ops ih => exact ih _

end TransportStatistics

/-- What a call adds to a counter: the argument of the counter's own update method, and nothing
for every other call. -/
def StatsOp.increment : StatsOp → Counter → ℕ
  | .updateRetxCount retx, .retxCount => retx.toNat
  | .updateBytesRecv bytes, .bytesReceived => bytes.toNat
  | .updateInterestTx intTx, .interestTx => intTx.toNat
  | .updateInterestFecTx intTx, .interestFecTx => intTx.toNat
  | .updateBytesFecRecv bytes, .bytesFecReceived => bytes.toNat
  | .updateLostData pkt, .lostData => pkt.toNat
  | .updateRecoveredData bytes, .recoveredData => bytes.toNat
  | .updateReceivedNacks nacks, .receivedNacks => nacks.toNat
  | _, _ => 0

/-- The exact sum of what the calls after the last `reset()` add to a counter. -/
def sinceReset (c : Counter) (ops : List StatsOp) : ℕ :=
  ((ops.reverse.takeWhile (· != .reset)).map (·.increment c)).sum

theorem sinceReset_append_singleton (c : Counter) (ops : List StatsOp) (op : StatsOp) :
    sinceReset c (ops ++ [op]) = if op = .reset then 0 else sinceReset c ops + op.increment c := by
  by_cases h : op = .reset <;> simp [sinceReset, h, List.takeWhile_cons, add_comm]

/-- The law that every counter is the exact sum of what the calls since construction or the last
`reset()` added to it. -/
def ExactCounts (alpha : ℚ) (ops : List StatsOp) : Prop :=
  ∀ c, ((TransportStatistics.init alpha).run ops).counter c = sinceReset c ops

namespace TransportStatistics

variable (s : TransportStatistics)

theorem counter_lt (c : Counter) : s.counter c < 2 ^ c.width := by
  cases c <;> exact BitVec.isLt _

theorem counter_addTo (c : Counter) (v : ℕ) (c' : Counter) :
    (s.addTo c v).counter c' =
      if c' = c then (s.counter c + v) % 2 ^ c.width else s.counter c' := by
  cases c <;> cases c' <;> simp [addTo, counter, Counter.width, BitVec.toNat_add]

theorem counter_apply (op : StatsOp) (c : Counter) :
    (s.apply op).counter c =
      if op = .reset then 0 else (s.counter c + op.increment c) % 2 ^ c.width := by
  have hlt := s.counter_lt c
  cases op <;> cases c <;>
    simp_all [apply, updateRetxCount, updateBytesRecv, updateInterestTx, updateInterestFecTx,
      updateBytesFecRecv, updateLostData, updateRecoveredData, updateReceivedNacks,
      counter_addTo, StatsOp.increment, Nat.mod_eq_of_lt] <;> rfl

theorem counter_run (alpha : ℚ) (ops : List StatsOp) (c : Counter) :
    ((init alpha).run ops).counter c = sinceReset c ops % 2 ^ c.width := by
  induction ops using List.reverseRecOn with
  | nil => cases c <;> rfl
  | append_singleton ops op ih =>
    rw [run_append_singleton, counter_apply, sinceReset_append_singleton, ih]
    split_ifs <;> simp [Nat.mod_add_mod]

end TransportStatistics

/-- Every counter holds the sum added since construction or the last `reset()` modulo its width,
exactly while that sum fits, and only `reset()` lowers it. -/
theorem counters_exact_below_width (alpha : ℚ) (ops : List StatsOp) (c : Counter) :
    ((TransportStatistics.init alpha).run ops).counter c = sinceReset c ops % 2 ^ c.width ∧
    (sinceReset c ops < 2 ^ c.width →
      ((TransportStatistics.init alpha).run ops).counter c = sinceReset c ops) ∧
    ∀ op, op ≠ .reset → sinceReset c (ops ++ [op]) < 2 ^ c.width →
      ((TransportStatistics.init alpha).run ops).counter c ≤
        ((TransportStatistics.init alpha).run (ops ++ [op])).counter c := by
  refine ⟨TransportStatistics.counter_run alpha ops c, fun h => ?_, fun op hop h => ?_⟩
  · rw [TransportStatistics.counter_run, Nat.mod_eq_of_lt h]
  · rw [sinceReset_append_singleton, if_neg hop] at h
    rw [TransportStatistics.counter_run, TransportStatistics.counter_run,
      sinceReset_append_singleton, if_neg hop, Nat.mod_eq_of_lt h, Nat.mod_eq_of_lt (by omega)]
    omega

theorem counters_exact_nacks :
    ((TransportStatistics.init defaultAlpha).run [.updateReceivedNacks 3]).counter
        .receivedNacks = 3 ∧
      ((TransportStatistics.init defaultAlpha).run [.updateReceivedNacks 3]).counter
          .receivedNacks ≤
        ((TransportStatistics.init defaultAlpha).run
          ([.updateReceivedNacks 3] ++ [.updateReceivedNacks 4])).counter .receivedNacks :=
  ⟨(counters_exact_below_width _ _ _).2.1 (by decide),
    (counters_exact_below_width _ _ _).2.2 _ (by decide) (by decide)⟩

/-- `received_nacks_` and `bytes_received_` wrap to 0 one past their maximum, and drop without a
`reset()`. -/
theorem counters_wrap_counterexample :
    ¬ ExactCounts defaultAlpha [.updateReceivedNacks 0xffffffff#32, .updateReceivedNacks 1] ∧
      ¬ ExactCounts defaultAlpha
        [.updateBytesRecv 0xffffffffffffffff#64, .updateBytesRecv 1] ∧
      ((TransportStatistics.init defaultAlpha).run
          [.updateReceivedNacks 0xffffffff#32, .updateReceivedNacks 1]).counter .receivedNacks <
        ((TransportStatistics.init defaultAlpha).run
          [.updateReceivedNacks 0xffffffff#32]).counter .receivedNacks :=
  ⟨fun h => absurd (h .receivedNacks) (by decide), fun h => absurd (h .bytesReceived) (by decide),
    by decide⟩

/-- The law that `reset()` followed by any calls reads, from every getter, what the same calls
read on a block constructed with the current `alpha_`. -/
def ResetLaw (s : TransportStatistics) (ops : List StatsOp) : Prop :=
  (s.reset.run ops).readings = ((TransportStatistics.init s.alpha).run ops).readings

/-- `reset()` skips `queuing_delay_` and sets `status_` to 0, not -1: a delay of 5 survives it,
and a reset block reads status 0 where a fresh one reads -1. -/
theorem reset_skips_queuing_delay :
    ((TransportStatistics.init defaultAlpha).run
        [.updateQueuingDelay 5, .reset, .updateCCState 3]).getQueuingDelay = 5 ∧
      ((TransportStatistics.init defaultAlpha).run [.updateCCState 3]).getQueuingDelay = 0 ∧
      (TransportStatistics.init defaultAlpha).reset.getCCStatus = 0 ∧
      (TransportStatistics.init defaultAlpha).getCCStatus = -1 ∧
      ¬ ResetLaw (TransportStatistics.init defaultAlpha) [] ∧
      ¬ ResetLaw ((TransportStatistics.init defaultAlpha).run [.updateQueuingDelay 5])
        [.updateCCState 3] :=
  ⟨rfl, rfl, rfl, rfl, fun h => absurd (congrArg Readings.ccStatus h) (by decide),
    fun h => absurd (congrArg Readings.queuingDelay h) (by decide)⟩

end HicnTransport.Interfaces
