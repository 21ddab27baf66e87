import Mathlib.Tactic

/-!
# Live production in the hiperf server

With live production on, a cache miss of the producer socket reaches `asyncProcessInterest` or,
while an asynchronous production runs, `cacheMiss`, which appends the interest's suffix to
`unsatisfied_interests_` in arrival order. The next `asyncProcessInterest` looks in that vector
with `std::lower_bound` for the first suffix not below the producer's last segment, starts
production there, and erases everything before it.

`std::lower_bound` is a binary search and assumes a sorted range. On a sorted queue it finds the
least queued suffix at least the last segment and keeps exactly those suffixes; on an unsorted
queue, which retransmissions produce, it can do neither.
-/

namespace HicnTransport.Hiperf

/-- libstdc++'s `std::__lower_bound` with `<` on `len` elements from `first`, halving the range;
`fuel` passes suffice when `len ≤ fuel`. -/
def lowerBoundLoop (v : List (BitVec 32)) (val : BitVec 32) : ℕ → ℕ → ℕ → ℕ
  | 0, first, _ => first
  | fuel + 1, first, len =>
    if 0 < len then
      let half := len / 2
      let middle := first + half
      if v.getD middle 0 < val then lowerBoundLoop v val fuel (middle + 1) (len - half - 1)
      else lowerBoundLoop v val fuel first half
    else first

/-- `std::lower_bound(v.begin(), v.end(), val)`, as an index into `v`. -/
def lowerBound (v : List (BitVec 32)) (val : BitVec 32) : ℕ :=
  lowerBoundLoop v val v.length 0 v.length

/-- The fields live production uses: `unsatisfied_interests_`, and what `*ptr_last_segment_`
reads (`last_segment_`, or the producer's counter once `asyncProduce` took the pointer). -/
structure HiperfServer where
  unsatisfiedInterests : List (BitVec 32)
  lastSegment : BitVec 32
  deriving DecidableEq, Repr

namespace HiperfServer

/-- `cacheMiss`: the interest's suffix goes to the back of `unsatisfied_interests_`. -/
def cacheMiss (s : HiperfServer) (suffix : BitVec 32) : HiperfServer :=
  { s with unsatisfiedInterests := s.unsatisfiedInterests ++ [suffix] }

/-- `asyncProcessInterest` for suffix `suffix`: where production starts, and the server after;
suffix zero restarts the stream and clears the queue. -/
def asyncProcessInterest (s : HiperfServer) (suffix : BitVec 32) : BitVec 32 × HiperfServer :=
  let s := if suffix = 0 then ⟨[], 0⟩ else s
  if s.unsatisfiedInterests.isEmpty then (suffix, s)
  else
    let it := lowerBound s.unsatisfiedInterests s.lastSegment
    (if it ≠ s.unsatisfiedInterests.length then s.unsatisfiedInterests.getD it 0 else suffix,
      { s with unsatisfiedInterests := s.unsatisfiedInterests.drop it })

end HiperfServer

/-- The linear search of the code's comment: start at the least queued suffix at least `L`, or at
`s` if none, and keep queued exactly the suffixes at least `L`, in order. -/
def LinearSearchLaw (q : List (BitVec 32)) (L s : BitVec 32) (r : BitVec 32 × HiperfServer) :
    Prop :=
  ((∃ x ∈ q, L ≤ x) → r.1 ∈ q ∧ L ≤ r.1 ∧ ∀ x ∈ q, L ≤ x → r.1 ≤ x) ∧
    ((∀ x ∈ q, x < L) → r.1 = s) ∧
    r.2.unsatisfiedInterests = q.filter (L ≤ ·)

/-- Index `r` splits `v` at `val`: the elements before it are below `val`, the others are
not. -/
def Splits (v : List (BitVec 32)) (val : BitVec 32) (r : ℕ) : Prop :=
  r ≤ v.length ∧ (∀ i < r, v.getD i 0 < val) ∧ ∀ i, r ≤ i → i < v.length → val ≤ v.getD i 0

variable {v : List (BitVec 32)} {val : BitVec 32}

theorem getD_le_getD (hv : v.Sorted (· ≤ ·)) {i j : ℕ} (hij : i ≤ j) (hj : j < v.length) :
    v.getD i 0 ≤ v.getD j 0 := by
  rw [List.getD_eq_getElem _ _ (by omega), List.getD_eq_getElem _ _ hj]
  rcases hij.lt_or_eq with h | rfl
  · exact @List.Sorted.rel_get_of_lt _ _ _ hv ⟨i, by omega⟩ ⟨j, hj⟩ h
  · exact BitVec.le_refl _

theorem lowerBoundLoop_splits (hv : v.Sorted (· ≤ ·)) :
    ∀ fuel first len, len ≤ fuel → first + len ≤ v.length →
      (∀ i < first, v.getD i 0 < val) →
      (∀ i, first + len ≤ i → i < v.length → val ≤ v.getD i 0) →
      Splits v val (lowerBoundLoop v val fuel first len)
  | 0, first, len, hfuel, hlen, hbelow, habove => by
    obtain rfl : len = 0 := by omega
    exact show Splits v val first from ⟨by omega, hbelow, fun i hi => habove i (by omega)⟩
  | fuel + 1, first, len, hfuel, hlen, hbelow, habove => by
    rw [lowerBoundLoop]
    split
    next hpos =>
      dsimp only
      split
      next hmid =>
        refine lowerBoundLoop_splits hv fuel (first + len / 2 + 1) (len - len / 2 - 1) (by omega)
          (by omega) (fun i hi => ?_) (fun i hi => habove i (by omega))
        have hle := getD_le_getD hv (show i ≤ first + len / 2 by omega) (by omega)
        exact BitVec.lt_def.2 (lt_of_le_of_lt (BitVec.le_def.1 hle) (BitVec.lt_def.1 hmid))
      next hmid =>
        refine lowerBoundLoop_splits hv fuel first (len / 2) (by omega) (by omega) hbelow
          (fun i hi hi' => ?_)
        exact BitVec.le_trans (BitVec.not_lt.1 hmid) (getD_le_getD hv hi hi')
    next hpos =>
      obtain rfl : len = 0 := by omega
      exact ⟨by omega, hbelow, fun i hi => habove i (by omega)⟩

theorem lowerBound_splits (hv : v.Sorted (· ≤ ·)) : Splits v val (lowerBound v val) :=
  lowerBoundLoop_splits hv _ _ _ le_rfl (by simp) (fun _ h => absurd h (Nat.not_lt_zero _))
    (fun _ h h' => absurd h' (by omega))

theorem exists_index_of_splits {r : ℕ} (h : Splits v val r) {x : BitVec 32} (hx : x ∈ v)
    (hle : val ≤ x) : ∃ j, r ≤ j ∧ j < v.length ∧ v.getD j 0 = x := by
  obtain ⟨j, hj, rfl⟩ := List.mem_iff_getElem.1 hx
  refine ⟨j, Nat.le_of_not_lt fun hjr => ?_, hj, List.getD_eq_getElem _ _ hj⟩
  have := h.2.1 j hjr
  rw [List.getD_eq_getElem _ _ hj] at this
  exact BitVec.not_le.2 this hle

theorem drop_eq_filter_of_splits {r : ℕ} (h : Splits v val r) :
    v.drop r = v.filter (val ≤ ·) := by
  have htake : (v.take r).filter (val ≤ ·) = [] := by
    refine List.filter_eq_nil_iff.2 fun x hx => ?_
    obtain ⟨i, hi, rfl⟩ := List.mem_take_iff_getElem.1 hx
    have := h.2.1 i (by omega)
    rw [List.getD_eq_getElem _ _ (by omega)] at this
    simpa [BitVec.not_le] using this
  have hdrop : (v.drop r).filter (val ≤ ·) = v.drop r := by
    refine List.filter_eq_self.2 fun x hx => ?_
    obtain ⟨i, hi, rfl⟩ := List.mem_drop_iff_getElem.1 hx
    have := h.2.2 (r + i) (by omega) (by omega)
    rw [List.getD_eq_getElem _ _ (by omega)] at this
    simpa using this
  conv_rhs => rw [← List.take_append_drop r v]
  rw [List.filter_append, htake, hdrop, List.nil_append]

theorem linearSearchLaw_of_sorted (q : List (BitVec 32)) (L s : BitVec 32)
    (hq : q.Sorted (· ≤ ·)) (hs : s ≠ 0) :
    LinearSearchLaw q L s ((HiperfServer.mk q L).asyncProcessInterest s) := by
  simp only [HiperfServer.asyncProcessInterest, if_neg hs]
  split
  next hnil =>
    obtain rfl : q = [] := List.isEmpty_iff.1 hnil
    simp [LinearSearchLaw]
  next =>
    have hsp : Splits q L (lowerBound q L) := lowerBound_splits hq
    have hqueue := drop_eq_filter_of_splits hsp
    by_cases hr : lowerBound q L = q.length
    · refine ⟨fun ⟨x, hx, hle⟩ => ?_, fun _ => by simp [hr], hqueue⟩
      obtain ⟨j, hj, hj', -⟩ := exists_index_of_splits hsp hx hle
      omega
    · have hlt : lowerBound q L < q.length := lt_of_le_of_ne hsp.1 hr
      have hmem : q.getD (lowerBound q L) 0 ∈ q := by
        rw [List.getD_eq_getElem _ _ hlt]
        exact List.getElem_mem hlt
      have hge : L ≤ q.getD (lowerBound q L) 0 := hsp.2.2 _ le_rfl hlt
      simp only [ne_eq, hr, not_false_eq_true, if_true]
      refine ⟨fun _ => ⟨hmem, hge, fun x hx hle => ?_⟩, fun hall => ?_, hqueue⟩
      · obtain ⟨j, hj, hj', rfl⟩ := exists_index_of_splits hsp hx hle
        exact getD_le_getD hq hj hj'
      · exact absurd hge (BitVec.not_le.2 (hall _ hmem))

/-- Misses 3, 10, 6 with the producer at 5, then an interest for 7: production starts at 10
although 6 is queued; misses 10, 3, 7 erase the pending 10. -/
theorem lowerBound_unsorted_queue :
    ((((HiperfServer.mk [] 5).cacheMiss 3).cacheMiss 10).cacheMiss 6 = ⟨[3, 10, 6], 5⟩ ∧
      (HiperfServer.mk [3, 10, 6] 5).asyncProcessInterest 7 = (10, ⟨[10, 6], 5⟩) ∧
      ¬ LinearSearchLaw [3, 10, 6] 5 7 ((HiperfServer.mk [3, 10, 6] 5).asyncProcessInterest 7)) ∧
    ((((HiperfServer.mk [] 5).cacheMiss 10).cacheMiss 3).cacheMiss 7 = ⟨[10, 3, 7], 5⟩ ∧
      (HiperfServer.mk [10, 3, 7] 5).asyncProcessInterest 7 = (7, ⟨[7], 5⟩) ∧
      ¬ LinearSearchLaw [10, 3, 7] 5 7 ((HiperfServer.mk [10, 3, 7] 5).asyncProcessInterest 7)) := by
  have hs : (HiperfServer.mk [3, 10, 6] 5).asyncProcessInterest 7 = (10, ⟨[10, 6], 5⟩) := by
    decide
  have ht : (HiperfServer.mk [10, 3, 7] 5).asyncProcessInterest 7 = (7, ⟨[7], 5⟩) := by decide
  refine ⟨⟨rfl, hs, fun h => ?_⟩, ⟨rfl, ht, fun h => ?_⟩⟩
  · rw [hs] at h
    exact absurd ((h.1 ⟨6, by simp, by decide⟩).2.2 6 (by simp) (by decide)) (by decide)
  · rw [ht] at h
    exact absurd h.2.2 (by decide)

end HicnTransport.Hiperf
