import HicnTransport.Protocols.IncrementalIndexer

/-!
# Switching from the incremental to the manifest indexer

`ManifestIncrementalIndexer(IncrementalIndexer &&)` takes over the cursors of an incremental
indexer, starts its suffix strategy at the download cursor, and queues the suffixes
`first_suffix_, …, next_download_suffix_ - 1` for verification. After `setFirstSuffix k`,
`reset k` and `n` requests the queue is exactly the requested suffixes, in order and each once,
as long as the download cursor has not wrapped, that is `k + n < 2^32`.
-/

namespace HicnTransport.Protocols

/-- The suffix strategy of a manifest indexer. `utils/suffix_strategy.h` is not under src/:
only the suffix the strategy starts from is modelled. -/
structure SuffixStrategy where
  suffix : BitVec 32
  deriving DecidableEq, Repr

/-- The fields of `ManifestIncrementalIndexer` that its converting constructor sets; the hash
and unverified-segment maps start empty and are not modelled. -/
structure ManifestIncrementalIndexer where
  toIncrementalIndexer : IncrementalIndexer
  suffixStrategy : SuffixStrategy
  suffixQueue : List (BitVec 32)
  deriving DecidableEq, Repr

/-- The constructor's loop `for (uint32_t i = first; i < next; i++) suffix_queue_.push(i)`. -/
def pushSuffixes (i next : BitVec 32) (queue : List (BitVec 32)) : List (BitVec 32) :=
  if i < next then pushSuffixes (i + 1) next (queue ++ [i]) else queue
termination_by next.toNat - i.toNat
decreasing_by bv_omega

namespace ManifestIncrementalIndexer

/-- The converting constructor `ManifestIncrementalIndexer(IncrementalIndexer &&)`. -/
def ofIncrementalIndexer (s : IncrementalIndexer) : ManifestIncrementalIndexer where
  toIncrementalIndexer := s
  suffixStrategy := ⟨s.nextDownloadSuffix⟩
  suffixQueue := pushSuffixes s.firstSuffix s.nextDownloadSuffix []

end ManifestIncrementalIndexer

theorem pushSuffixes_eq (i next : BitVec 32) (queue : List (BitVec 32)) :
    pushSuffixes i next queue =
      queue ++ (List.range' i.toNat (next.toNat - i.toNat)).map (BitVec.ofNat 32) := by
  induction i, next, queue using pushSuffixes.induct with
  | case1 i next queue h ih =>
    have hi : (i + 1).toNat = i.toNat + 1 := by bv_omega
    have hn : next.toNat - i.toNat = (next.toNat - (i.toNat + 1)) + 1 := by bv_omega
    rw [pushSuffixes, if_pos h, ih, hi, hn, List.range'_succ]
    simp
  | case2 i next queue h =>
    rw [pushSuffixes, if_neg h]
    simp [show next.toNat - i.toNat = 0 by bv_omega]

/-- After `setFirstSuffix k`, `reset k` and `n` requests: the queue holds the valid suffixes handed
out, in order and once each, and the strategy continues at the download cursor. -/
def SwitchLaw (s : IncrementalIndexer) (k : BitVec 32) (n : ℕ) : Prop :=
  let r := ((s.setFirstSuffix k).reset k).run (List.replicate n (.next .download))
  let m := ManifestIncrementalIndexer.ofIncrementalIndexer r.2
  m.suffixQueue = (r.1.map (·.value)).filter (· ≠ invalidIndex) ∧ m.suffixQueue.Nodup ∧
    m.suffixStrategy.suffix = r.2.nextDownloadSuffix

/-- From `k = 0xFFFFFFFE` two requests hand out `0xFFFFFFFE` and `0xFFFFFFFF` and wrap the
cursor to 0, and the rebuilt queue is empty. -/
theorem switch_law_counterexample : ¬ SwitchLaw IncrementalIndexer.init 0xFFFFFFFE#32 2 := by
  rintro ⟨h, -⟩
  have hr : ((IncrementalIndexer.init.setFirstSuffix 0xFFFFFFFE#32).reset 0xFFFFFFFE#32).run
      (List.replicate 2 (.next .download)) =
      ([⟨.download, 0xFFFFFFFE#32, BitVec.allOnes 32⟩, ⟨.download, 0xFFFFFFFF#32, BitVec.allOnes 32⟩],
        ⟨BitVec.allOnes 32, 0xFFFFFFFE#32, 0#32, 0xFFFFFFFE#32⟩) := by decide
  simp only [hr, ManifestIncrementalIndexer.ofIncrementalIndexer] at h
  rw [pushSuffixes, if_neg (by decide)] at h
  exact absurd h (by decide)

/-- While the download cursor has not wrapped, the converted indexer's queue is the suffixes
requested since the reset, in order and once each, with the strategy at the next one. -/
theorem switch_keeps_requests (s : IncrementalIndexer) (k : BitVec 32) (n : ℕ)
    (hw : k.toNat + n ≤ 0xFFFFFFFF) :
    SwitchLaw s k n ∧
      (ManifestIncrementalIndexer.ofIncrementalIndexer (((s.setFirstSuffix k).reset k).run
        (List.replicate n (.next .download))).2).suffixStrategy.suffix.toNat = k.toNat + n := by
  obtain ⟨h1, h2⟩ := ((s.setFirstSuffix k).reset k).run_requests n rfl (by simpa using hw)
  simp only [IncrementalIndexer.nextDownloadSuffix_reset] at h1 h2
  have hk : (BitVec.ofNat 32 (k.toNat + n)).toNat = k.toNat + n := by
    rw [BitVec.toNat_ofNat]; omega
  have hq : pushSuffixes k (BitVec.ofNat 32 (k.toNat + n)) [] =
      (List.range' k.toNat n).map (BitVec.ofNat 32) := by
    rw [pushSuffixes_eq, hk, Nat.add_sub_cancel_left, List.nil_append]
  have hofNat : ∀ j ∈ List.range' k.toNat n, (BitVec.ofNat 32 j).toNat = j := by
    intro j hj
    rw [List.mem_range'_1] at hj
    rw [BitVec.toNat_ofNat]; omega
  refine ⟨⟨?_, ?_, rfl⟩, ?_⟩ <;> simp only [ManifestIncrementalIndexer.ofIncrementalIndexer, h2]
  · show pushSuffixes k (BitVec.ofNat 32 (k.toNat + n)) [] = _
    rw [h1, hq, eq_comm, List.filter_eq_self]
    simp only [List.mem_map, decide_eq_true_eq]
    rintro _ ⟨j, hj, rfl⟩ he
    have := hofNat j hj
    rw [he, invalidIndex, BitVec.toNat_allOnes] at this
    rw [List.mem_range'_1] at hj
    omega
  · show (pushSuffixes k (BitVec.ofNat 32 (k.toNat + n)) []).Nodup
    rw [hq]
    refine (List.nodup_range' _ _).map_on fun a ha b hb he => ?_
    rw [← hofNat a ha, ← hofNat b hb, he]
  · exact hk

theorem switch_keeps_requests_from_ten :
    (10#32).toNat + 3 ≤ 0xFFFFFFFF ∧ SwitchLaw IncrementalIndexer.init 10#32 3 ∧
      (ManifestIncrementalIndexer.ofIncrementalIndexer (((IncrementalIndexer.init.setFirstSuffix
        10#32).reset 10#32).run (List.replicate 3 (.next .download))).2).suffixStrategy.suffix.toNat =
        (10#32).toNat + 3 :=
  ⟨by decide, switch_keeps_requests _ 10#32 3 (by decide)⟩

end HicnTransport.Protocols
