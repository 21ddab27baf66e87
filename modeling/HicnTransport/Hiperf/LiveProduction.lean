import HicnTransport.Hiperf.Server

/-!
# Live production as a protocol

In live production the producer socket calls one `CACHE_MISS` callback at a time. `setup`
installs `asyncProcessInterest`; that handler installs `cacheMiss` before it starts an
asynchronous production, and `onContentProduced`, the socket's `CONTENT_PRODUCED` callback,
installs `asyncProcessInterest` again. While a production runs every miss is queued in
`unsatisfied_interests_`, and the next `asyncProcessInterest` picks the start of the next
production from that queue with `std::lower_bound` against the producer's counter, which it
reads through `ptr_last_segment_`.

The producer socket is not under src/: its `CONTENT_PRODUCED` calls and the moves of its counter
are events of the environment and may come at any time. On a run whose interests arrive in
nondecreasing suffix order, that is without retransmissions, the queue stays sorted, and every
production starts where the linear search the code's comment describes would start it, never
above the interest that triggers it.
-/

namespace HicnTransport.Hiperf

/-- The `CACHE_MISS` callbacks live production installs. -/
inductive CacheMissCallback
  | asyncProcessInterest
  | cacheMiss
  deriving DecidableEq, Repr

/-- The server in live production: its queue and counter reading, and the installed
`CACHE_MISS` callback. -/
structure LiveServer where
  server : HiperfServer
  cacheMissCallback : CacheMissCallback
  deriving DecidableEq, Repr

/-- What reaches the server: a miss for an interest with suffix `suffix`, the producer socket's
`CONTENT_PRODUCED` callback, or a move of the producer's counter to `lastSegment`. -/
inductive LiveEvent
  | interest (suffix : BitVec 32)
  | contentProduced
  | segment (lastSegment : BitVec 32)
  deriving DecidableEq, Repr

/-- The suffix of a miss. -/
def LiveEvent.suffix? : LiveEvent → Option (BitVec 32)
  | .interest suffix => some suffix
  | _ => none

/-- The suffixes of the misses of a run, in arrival order. -/
def interestSuffixes (es : List LiveEvent) : List (BitVec 32) := es.filterMap LiveEvent.suffix?

namespace LiveServer

/-- After `setup` with live production: an empty queue, `last_segment_ = 0`, and
`asyncProcessInterest` installed. -/
def init : LiveServer := ⟨⟨[], 0⟩, .asyncProcessInterest⟩

/-- One event: the suffix `produceContentAsync` is asked to start at, if any, and the server
after it. -/
def step (s : LiveServer) : LiveEvent → Option (BitVec 32) × LiveServer
  | .interest suffix => match s.cacheMissCallback with
    | .asyncProcessInterest =>
      (some (s.server.asyncProcessInterest suffix).1,
        ⟨(s.server.asyncProcessInterest suffix).2, .cacheMiss⟩)
    | .cacheMiss => (none, { s with server := s.server.cacheMiss suffix })
  | .contentProduced => (none, { s with cacheMissCallback := .asyncProcessInterest })
  | .segment lastSegment => (none, { s with server := { s.server with lastSegment := lastSegment } })

/-- The law along a run: the queue is sorted in every state, and every production started at a
miss with a nonzero suffix starts where the linear search would, and not above that suffix. -/
def ProductionLawAlong : LiveServer → List LiveEvent → Prop
  | s, [] => s.server.unsatisfiedInterests.Sorted (· ≤ ·)
  | s, e :: es =>
    s.server.unsatisfiedInterests.Sorted (· ≤ ·) ∧
      (∀ suffix, e = .interest suffix → s.cacheMissCallback = .asyncProcessInterest → suffix ≠ 0 →
        LinearSearchLaw s.server.unsatisfiedInterests s.server.lastSegment suffix
            (s.server.asyncProcessInterest suffix) ∧
          (s.server.asyncProcessInterest suffix).1 ≤ suffix) ∧
      ProductionLawAlong (s.step e).2 es

/-- The queue is sorted, and no queued suffix is above a miss still to come. -/
structure Ordered (s : LiveServer) (rest : List (BitVec 32)) : Prop where
  sorted : s.server.unsatisfiedInterests.Sorted (· ≤ ·)
  le_rest : ∀ x ∈ s.server.unsatisfiedInterests, ∀ y ∈ rest, x ≤ y

end LiveServer

theorem HiperfServer.asyncProcessInterest_sublist (s : HiperfServer) (suffix : BitVec 32) :
    List.Sublist (s.asyncProcessInterest suffix).2.unsatisfiedInterests s.unsatisfiedInterests := by
  simp only [HiperfServer.asyncProcessInterest]
  split_ifs <;> simp [List.drop_sublist]

namespace LiveServer

variable {s : LiveServer} {e : LiveEvent} {es : List LiveEvent}

theorem step_ordered (hs : s.Ordered (interestSuffixes (e :: es)))
    (hsorted : (interestSuffixes (e :: es)).Sorted (· ≤ ·)) :
    (∀ suffix, e = .interest suffix → s.cacheMissCallback = .asyncProcessInterest → suffix ≠ 0 →
      LinearSearchLaw s.server.unsatisfiedInterests s.server.lastSegment suffix
          (s.server.asyncProcessInterest suffix) ∧
        (s.server.asyncProcessInterest suffix).1 ≤ suffix) ∧
      (s.step e).2.Ordered (interestSuffixes es) := by
  cases e with
  | interest a =>
    have hrest : interestSuffixes (.interest a :: es) = a :: interestSuffixes es := rfl
    rw [hrest] at hs hsorted
    have hle : ∀ x ∈ s.server.unsatisfiedInterests, x ≤ a := fun x hx =>
      hs.le_rest x hx a (List.mem_cons_self _ _)
    have hafter : ∀ y ∈ interestSuffixes es, a ≤ y := (List.sorted_cons.1 hsorted).1
    refine ⟨?_, ?_⟩
    · rintro _ ⟨⟩ - ha
      have hlaw := linearSearchLaw_of_sorted _ s.server.lastSegment a hs.sorted ha
      refine ⟨hlaw, ?_⟩
      by_cases hex : ∃ x ∈ s.server.unsatisfiedInterests, s.server.lastSegment ≤ x
      · exact hle _ (hlaw.1 hex).1
      · rw [hlaw.2.1 fun x hx => BitVec.not_le.1 fun h => hex ⟨x, hx, h⟩]
        exact BitVec.le_refl _
    · cases hc : s.cacheMissCallback with
      | asyncProcessInterest =>
        simp only [step, hc]
        have hsub := s.server.asyncProcessInterest_sublist a
        exact ⟨hs.sorted.sublist hsub, fun x hx y hy =>
          hs.le_rest x (hsub.subset hx) y (List.mem_cons_of_mem _ hy)⟩
      | cacheMiss =>
        simp only [step, hc, HiperfServer.cacheMiss]
        refine ⟨List.pairwise_append.2 ⟨hs.sorted, List.sorted_singleton a, ?_⟩, fun x hx y hy => ?_⟩
        · intro x hx y hy
          rw [List.mem_singleton.1 hy]
          exact hle x hx
        · rcases List.mem_append.1 hx with hx | hx
          · exact hs.le_rest x hx y (List.mem_cons_of_mem _ hy)
          · rw [List.mem_singleton.1 hx]
            exact hafter y hy
  | contentProduced => exact ⟨fun _ h => (nomatch h), hs.sorted, hs.le_rest⟩
  | segment L => exact ⟨fun _ h => (nomatch h), hs.sorted, hs.le_rest⟩

theorem productionLawAlong_of_ordered :
    ∀ {s : LiveServer} {es : List LiveEvent}, s.Ordered (interestSuffixes es) →
      (interestSuffixes es).Sorted (· ≤ ·) → s.ProductionLawAlong es
  | _, [], hs, _ => hs.sorted
  | _, e :: es, hs, hsorted => by
    obtain ⟨hlaw, hs'⟩ := step_ordered hs hsorted
    have htail : (interestSuffixes es).Sorted (· ≤ ·) := by
      cases e <;> simp only [interestSuffixes, List.filterMap_cons, LiveEvent.suffix?] at hsorted
      · exact hsorted.of_cons
      all_goals exact hsorted
    exact ⟨hs.sorted, hlaw, productionLawAlong_of_ordered hs' htail⟩

end LiveServer

/-- In live production, on every run whose interests arrive in nondecreasing suffix order, the
queue stays sorted and every production starts where the linear search would. -/
theorem live_production_in_order (es : List LiveEvent)
    (h : (interestSuffixes es).Sorted (· ≤ ·)) : LiveServer.init.ProductionLawAlong es :=
  LiveServer.productionLawAlong_of_ordered ⟨List.sorted_nil, fun _ hx => absurd hx (List.not_mem_nil _)⟩ h

theorem live_production_in_order_restart :
    (interestSuffixes [.interest 0, .interest 1, .segment 2, .interest 5, .contentProduced,
        .interest 6]).Sorted (· ≤ ·) ∧
      LiveServer.init.ProductionLawAlong [.interest 0, .interest 1, .segment 2, .interest 5,
        .contentProduced, .interest 6] :=
  ⟨by decide, live_production_in_order _ (by decide)⟩

end HicnTransport.Hiperf
