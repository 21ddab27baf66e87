import Mathlib.Tactic

/-!
# The incremental indexer

`IncrementalIndexer` hands out the suffixes a consumer requests and the suffixes it reassembles
through two unchecked `uint32_t` cursors. `reset` moves both to an offset and forgets the final
suffix, which the indexer writes as `UINT32_MAX` while it is unknown. A getter hands its cursor
out while the cursor is at most the final suffix and post-increments it; otherwise it returns the
invalid index and leaves the cursor alone.

Along a run from `reset k` with at most one discovery of the final suffix, each cursor hands
out `k, k + 1, …` and then only the invalid index, every value at most the final suffix it was
checked against, as long as the cursor does not reach `0xFFFFFFFF`. Nothing keeps a cursor out
of the probe range `≥ 0xEFFFFFFF`, and one that reaches `0xFFFFFFFF` hands it out and wraps to 0.
-/

namespace HicnTransport.Protocols

/-- Modelled from the spec, not under src/: `IndexManager::invalid_index`, the all-ones suffix,
also the value of an undiscovered final suffix. -/
def invalidIndex : BitVec 32 := BitVec.allOnes 32

/-- The fields of `IncrementalIndexer` its suffix arithmetic reads and writes. -/
structure IncrementalIndexer where
  finalSuffix : BitVec 32
  firstSuffix : BitVec 32
  nextDownloadSuffix : BitVec 32
  nextReassemblySuffix : BitVec 32
  deriving DecidableEq, Repr

namespace IncrementalIndexer

/-- The values the constructor gives the fields. -/
def init : IncrementalIndexer := ⟨BitVec.allOnes 32, 0, 0, 0⟩

def reset (s : IncrementalIndexer) (offset : BitVec 32) : IncrementalIndexer :=
  { s with
    finalSuffix := BitVec.allOnes 32
    nextDownloadSuffix := offset
    nextReassemblySuffix := offset }

/-- The step both getters take on their cursor: hand it out and post-increment it while it is
at most the final suffix, return the invalid index otherwise. -/
def nextOf (cursor finalSuffix : BitVec 32) : BitVec 32 × BitVec 32 :=
  if cursor ≤ finalSuffix then (cursor, cursor + 1) else (invalidIndex, cursor)

def getNextSuffix (s : IncrementalIndexer) : BitVec 32 × IncrementalIndexer :=
  let r := nextOf s.nextDownloadSuffix s.finalSuffix
  (r.1, { s with nextDownloadSuffix := r.2 })

def getNextReassemblySegment (s : IncrementalIndexer) : BitVec 32 × IncrementalIndexer :=
  let r := nextOf s.nextReassemblySuffix s.finalSuffix
  (r.1, { s with nextReassemblySuffix := r.2 })

def setFirstSuffix (s : IncrementalIndexer) (suffix : BitVec 32) : IncrementalIndexer :=
  { s with firstSuffix := suffix }

def isFinalSuffixDiscovered (s : IncrementalIndexer) : Bool :=
  s.finalSuffix != BitVec.allOnes 32

def getFinalSuffix (s : IncrementalIndexer) : BitVec 32 := s.finalSuffix

/-- Modelled from the spec: the indexer "learns the final suffix from a final segment flag";
`onContentObject`, which does it, is not under src/. -/
def discoverFinalSuffix (s : IncrementalIndexer) (suffix : BitVec 32) : IncrementalIndexer :=
  { s with finalSuffix := suffix }

end IncrementalIndexer

/-- The two cursors of the indexer. -/
inductive Cursor
  | download
  | reassembly
  deriving DecidableEq, Repr

/-- A call on the indexer: a cursor's getter, or the discovery of the final suffix. -/
inductive IndexerOp
  | next (c : Cursor)
  | discover (finalSuffix : BitVec 32)
  deriving DecidableEq, Repr

/-- What one getter call returned, with the final suffix it checked its cursor against. -/
structure Handout where
  cursor : Cursor
  value : BitVec 32
  finalSuffix : BitVec 32
  deriving DecidableEq, Repr

namespace IncrementalIndexer

def cursorValue (s : IncrementalIndexer) : Cursor → BitVec 32
  | .download => s.nextDownloadSuffix
  | .reassembly => s.nextReassemblySuffix

/-- The getter of a cursor. -/
def call (s : IncrementalIndexer) : Cursor → BitVec 32 × IncrementalIndexer
  | .download => s.getNextSuffix
  | .reassembly => s.getNextReassemblySegment

def step (s : IncrementalIndexer) : IndexerOp → List Handout × IncrementalIndexer
  | .next c => ([⟨c, (s.call c).1, s.finalSuffix⟩], (s.call c).2)
  | .discover f => ([], s.discoverFinalSuffix f)

def run (s : IncrementalIndexer) : List IndexerOp → List Handout × IncrementalIndexer
  | [] => ([], s)
  | op :: ops => ((s.step op).1 ++ ((s.step op).2.run ops).1, ((s.step op).2.run ops).2)

/-- What one cursor handed out along a run. -/
def handouts (s : IncrementalIndexer) (c : Cursor) (ops : List IndexerOp) : List Handout :=
  (s.run ops).1.filter (·.cursor == c)

end IncrementalIndexer

def calls (c : Cursor) (ops : List IndexerOp) : ℕ := ops.count (.next c)

def discoveries (ops : List IndexerOp) : ℕ :=
  ops.countP fun op => match op with | .discover _ => true | .next _ => false

@[simp] theorem calls_next_self (c : Cursor) (ops : List IndexerOp) :
    calls c (.next c :: ops) = calls c ops + 1 := by
  simp [calls]

theorem calls_next_other {c c' : Cursor} (ops : List IndexerOp) (h : c' ≠ c) :
    calls c (.next c' :: ops) = calls c ops := by
  simp [calls, List.count_cons, h]

@[simp] theorem calls_discover (c : Cursor) (f : BitVec 32) (ops : List IndexerOp) :
    calls c (.discover f :: ops) = calls c ops := by
  simp [calls, List.count_cons]

namespace IncrementalIndexer

theorem nextOf_of_le {x f : BitVec 32} (h : x ≤ f) : nextOf x f = (x, x + 1) := if_pos h

theorem nextOf_of_lt {x f : BitVec 32} (h : f < x) : nextOf x f = (invalidIndex, x) :=
  if_neg (by bv_omega)

variable (s : IncrementalIndexer)

@[simp] theorem cursorValue_reset (k : BitVec 32) (c : Cursor) : (s.reset k).cursorValue c = k := by
  cases c <;> rfl

@[simp] theorem finalSuffix_reset (k : BitVec 32) : (s.reset k).finalSuffix = BitVec.allOnes 32 :=
  rfl

@[simp] theorem nextDownloadSuffix_reset (k : BitVec 32) : (s.reset k).nextDownloadSuffix = k :=
  rfl

theorem call_spec (c : Cursor) :
    (s.call c).1 = (nextOf (s.cursorValue c) s.finalSuffix).1 ∧
      (s.call c).2.cursorValue c = (nextOf (s.cursorValue c) s.finalSuffix).2 ∧
      (s.call c).2.finalSuffix = s.finalSuffix ∧
      ∀ c', c' ≠ c → (s.call c).2.cursorValue c' = s.cursorValue c' := by
  cases c <;> refine ⟨rfl, rfl, rfl, fun c' h => ?_⟩ <;> cases c' <;> first | rfl | simp at h

theorem call_of_le {c : Cursor} (h : s.cursorValue c ≤ s.finalSuffix) :
    (s.call c).1 = s.cursorValue c ∧ (s.call c).2.cursorValue c = s.cursorValue c + 1 := by
  obtain ⟨h1, h2, -⟩ := s.call_spec c
  rw [nextOf_of_le h] at h1 h2
  exact ⟨h1, h2⟩

theorem call_of_lt {c : Cursor} (h : s.finalSuffix < s.cursorValue c) :
    (s.call c).1 = invalidIndex ∧ (s.call c).2.cursorValue c = s.cursorValue c := by
  obtain ⟨h1, h2, -⟩ := s.call_spec c
  rw [nextOf_of_lt h] at h1 h2
  exact ⟨h1, h2⟩

theorem handouts_next_self (c : Cursor) (ops : List IndexerOp) :
    s.handouts c (.next c :: ops) = ⟨c, (s.call c).1, s.finalSuffix⟩ :: (s.call c).2.handouts c ops := by
  simp [handouts, run, step]

theorem handouts_next_other {c c' : Cursor} (h : c' ≠ c) (ops : List IndexerOp) :
    s.handouts c (.next c' :: ops) = (s.call c').2.handouts c ops := by
  simp [handouts, run, step, h]

theorem handouts_discover (c : Cursor) (f : BitVec 32) (ops : List IndexerOp) :
    s.handouts c (.discover f :: ops) = (s.discoverFinalSuffix f).handouts c ops := by
  simp [handouts, run, step]

theorem handouts_of_stuck (c : Cursor) :
    ∀ (s : IncrementalIndexer) (ops : List IndexerOp), s.finalSuffix < s.cursorValue c →
      discoveries ops = 0 →
        s.handouts c ops = List.replicate (calls c ops) ⟨c, invalidIndex, s.finalSuffix⟩
  | s, [], _, _ => rfl
  | s, .next c' :: ops, hx, hd => by
    have h3 := (s.call_spec c').2.2.1
    have hd' : discoveries ops = 0 := by simpa [discoveries] using hd
    by_cases hc : c' = c
    · subst hc
      obtain ⟨h1, h2⟩ := s.call_of_lt hx
      rw [handouts_next_self, handouts_of_stuck c' _ ops (by rwa [h2, h3]) hd', h1, h3,
        calls_next_self, List.replicate_succ]
    · rw [handouts_next_other _ hc,
        handouts_of_stuck c _ ops (by rwa [(s.call_spec c').2.2.2 c (Ne.symm hc), h3]) hd', h3,
        calls_next_other _ hc]
  | s, .discover _ :: _, _, hd => by simp [discoveries] at hd

theorem handouts_of_counting (c : Cursor) :
    ∀ (s : IncrementalIndexer) (ops : List IndexerOp), discoveries ops ≤ 1 →
      (s.finalSuffix ≠ BitVec.allOnes 32 → discoveries ops = 0) →
      (s.cursorValue c).toNat + calls c ops ≤ 0xFFFFFFFF →
      ∃ m r, (s.handouts c ops).map (·.value.toNat) =
          List.range' (s.cursorValue c).toNat m ++ List.replicate r invalidIndex.toNat ∧
        ∀ h ∈ (s.handouts c ops).drop m, h.finalSuffix.toNat < (s.cursorValue c).toNat + m
  | s, [], _, _, _ => ⟨0, 0, rfl, by simp [handouts, run]⟩
  | s, .next c' :: ops, hd, hf, hw => by
    have h3 := (s.call_spec c').2.2.1
    have hd' : discoveries ops ≤ 1 := by simpa [discoveries] using hd
    have hf' : s.finalSuffix ≠ BitVec.allOnes 32 → discoveries ops = 0 := by
      simpa [discoveries] using hf
    by_cases hc : c' = c
    · subst hc
      rw [calls_next_self] at hw
      by_cases hle : s.cursorValue c' ≤ s.finalSuffix
      · obtain ⟨h1, h2⟩ := s.call_of_le hle
        have hx : (s.cursorValue c' + 1).toNat = (s.cursorValue c').toNat + 1 := by bv_omega
        obtain ⟨m, r, ih, ihd⟩ := handouts_of_counting c' _ ops hd' (by rwa [h3])
          (by rw [h2, hx]; omega)
        rw [h2, hx] at ih ihd
        refine ⟨m + 1, r, ?_, fun h hh => ?_⟩
        · rw [handouts_next_self, List.map_cons, ih, h1, List.range'_succ, List.cons_append]
        · rw [handouts_next_self, List.drop_succ_cons] at hh
          have := ihd h hh
          omega
      · have hlt : s.finalSuffix < s.cursorValue c' := by bv_omega
        obtain ⟨h1, h2⟩ := s.call_of_lt hlt
        have hne : s.finalSuffix ≠ BitVec.allOnes 32 := by
          intro he
          rw [he, BitVec.lt_def, BitVec.toNat_allOnes] at hlt
          have := (s.cursorValue c').isLt
          omega
        have hstuck : s.handouts c' (.next c' :: ops) =
            List.replicate (calls c' ops + 1) ⟨c', invalidIndex, s.finalSuffix⟩ := by
          rw [handouts_next_self, handouts_of_stuck c' _ ops (by rwa [h2, h3]) (hf' hne), h1, h3,
            List.replicate_succ]
        refine ⟨0, calls c' ops + 1, by simp [hstuck], fun h hh => ?_⟩
        rw [List.drop_zero, hstuck, List.mem_replicate] at hh
        rw [hh.2, Nat.add_zero]
        exact hlt
    · have h4 := (s.call_spec c').2.2.2 c (Ne.symm hc)
      obtain ⟨m, r, ih, ihd⟩ := handouts_of_counting c _ ops hd' (by rwa [h3])
        (by rwa [h4, ← calls_next_other ops hc])
      rw [h4] at ih ihd
      exact ⟨m, r, by rw [handouts_next_other _ hc, ih], by rwa [handouts_next_other _ hc]⟩
  | s, .discover f :: ops, hd, _, hw => by
    have hd' : discoveries ops = 0 := by simpa [discoveries] using hd
    obtain ⟨m, r, ih, ihd⟩ := handouts_of_counting c (s.discoverFinalSuffix f) ops (by omega)
      (fun _ => hd') (by simpa [calls] using hw)
    exact ⟨m, r, by rw [handouts_discover, ih]; rfl, by rw [handouts_discover]; exact ihd⟩

theorem run_requests (n : ℕ) :
    ∀ s : IncrementalIndexer, s.finalSuffix = BitVec.allOnes 32 →
      s.nextDownloadSuffix.toNat + n ≤ 0xFFFFFFFF →
      (s.run (List.replicate n (.next .download))).1.map (·.value) =
          (List.range' s.nextDownloadSuffix.toNat n).map (BitVec.ofNat 32) ∧
        (s.run (List.replicate n (.next .download))).2 =
          { s with nextDownloadSuffix := BitVec.ofNat 32 (s.nextDownloadSuffix.toNat + n) } := by
  induction n with
  | zero => intro s _ _; simp [run]
  | succ n ih =>
    intro s hf hw
    have hle : s.nextDownloadSuffix ≤ s.finalSuffix := by
      rw [hf, BitVec.le_def, BitVec.toNat_allOnes]
      have := s.nextDownloadSuffix.isLt
      omega
    have hx : (s.nextDownloadSuffix + 1).toNat = s.nextDownloadSuffix.toNat + 1 := by bv_omega
    obtain ⟨ih1, ih2⟩ := ih { s with nextDownloadSuffix := s.nextDownloadSuffix + 1 } hf
      (by simp only [hx]; omega)
    simp only [hx] at ih1 ih2
    have hstep : s.step (.next .download) = ([⟨.download, s.nextDownloadSuffix, s.finalSuffix⟩],
        { s with nextDownloadSuffix := s.nextDownloadSuffix + 1 }) := by
      simp only [step, call, getNextSuffix, nextOf_of_le hle]
    refine ⟨?_, ?_⟩
    · rw [List.replicate_succ, run, hstep, List.map_append, ih1, List.range'_succ]
      simp
    · rw [List.replicate_succ, run, hstep, ih2, Nat.add_right_comm, Nat.add_assoc]

theorem value_le_finalSuffix :
    ∀ (s : IncrementalIndexer) (ops : List IndexerOp), ∀ h ∈ (s.run ops).1,
      h.value ≠ invalidIndex → h.value ≤ h.finalSuffix
  | s, [] => by simp [run]
  | s, op :: ops => by
    intro h hh hv
    rw [run, List.mem_append] at hh
    rcases hh with hh | hh
    · cases op with
      | next c =>
        obtain ⟨h1, -⟩ := s.call_spec c
        simp only [step, List.mem_singleton] at hh
        subst hh
        by_cases hle : s.cursorValue c ≤ s.finalSuffix
        · simpa [h1, nextOf_of_le hle] using hle
        · simp [h1, nextOf_of_lt (by bv_omega : s.finalSuffix < s.cursorValue c)] at hv
      | discover f => simp [step] at hh
    · exact value_le_finalSuffix _ ops h hh hv

end IncrementalIndexer

/-- One cursor's handouts from `reset k`: `k, k + 1, …` while the cursor is at most the final
suffix, then the invalid index, every value within the final suffix and below the probe range. -/
def CursorLaw (k : BitVec 32) (hs : List Handout) : Prop :=
  (∃ m r, hs.map (·.value.toNat) = List.range' k.toNat m ++ List.replicate r invalidIndex.toNat ∧
    ∀ h ∈ hs.drop m, h.finalSuffix.toNat < k.toNat + m) ∧
    ∀ h ∈ hs, h.value ≠ invalidIndex → h.value ≤ h.finalSuffix ∧ h.value < 0xEFFFFFFF#32

/-- The law fails after a reset into the probe range, and after a reset to `0xFFFFFFFF`, where the
cursor hands out `0xFFFFFFFF` and wraps to 0. -/
theorem cursor_law_counterexample :
    ¬ CursorLaw 0xEFFFFFFF#32
        ((IncrementalIndexer.init.reset 0xEFFFFFFF#32).handouts .download [.next .download]) ∧
      ¬ CursorLaw 0xFFFFFFFF#32 ((IncrementalIndexer.init.reset 0xFFFFFFFF#32).handouts
        .download [.next .download, .next .download]) := by
  constructor
  · rintro ⟨-, h⟩
    exact absurd (h ⟨.download, 0xEFFFFFFF#32, BitVec.allOnes 32⟩ (by decide) (by decide)).2
      (by decide)
  · rintro ⟨⟨m, r, h, -⟩, -⟩
    have hv : ((IncrementalIndexer.init.reset 0xFFFFFFFF#32).handouts .download
        [.next .download, .next .download]).map (·.value.toNat) = [4294967295, 0] := by decide
    rw [hv] at h
    rcases m with _ | _ | m <;> rcases r with _ | _ | r <;>
      simp [List.range'_succ, List.replicate_succ, invalidIndex] at h

/-- After `reset k`, with at most one discovery and the cursor below `0xFFFFFFFF`, each cursor hands
out `k, k + 1, …` while at most the final suffix, then only the invalid index. -/
theorem cursor_handouts (s : IncrementalIndexer) (k : BitVec 32) (ops : List IndexerOp)
    (c : Cursor) (hd : discoveries ops ≤ 1) (hw : k.toNat + calls c ops ≤ 0xFFFFFFFF) :
    (∃ m r, ((s.reset k).handouts c ops).map (·.value.toNat) =
        List.range' k.toNat m ++ List.replicate r invalidIndex.toNat ∧
      ∀ h ∈ ((s.reset k).handouts c ops).drop m, h.finalSuffix.toNat < k.toNat + m) ∧
      ∀ h ∈ (s.reset k).handouts c ops, h.value ≠ invalidIndex → h.value ≤ h.finalSuffix := by
  refine ⟨?_, fun h hh => IncrementalIndexer.value_le_finalSuffix _ ops h
    (List.mem_of_mem_filter hh)⟩
  have := IncrementalIndexer.handouts_of_counting c (s.reset k) ops hd (by simp)
    (by simpa using hw)
  simpa only [IncrementalIndexer.cursorValue_reset] using this

theorem cursor_handouts_past_final :
    (discoveries [.next .download, .discover 6#32, .next .download, .next .download] ≤ 1 ∧
        (5#32).toNat + calls .download
          [.next .download, .discover 6#32, .next .download, .next .download] ≤ 0xFFFFFFFF) ∧
      (∃ m r, ((IncrementalIndexer.init.reset 5#32).handouts .download
          [.next .download, .discover 6#32, .next .download, .next .download]).map
            (·.value.toNat) = List.range' (5#32).toNat m ++ List.replicate r invalidIndex.toNat ∧
        ∀ h ∈ ((IncrementalIndexer.init.reset 5#32).handouts .download
          [.next .download, .discover 6#32, .next .download, .next .download]).drop m,
          h.finalSuffix.toNat < (5#32).toNat + m) ∧
      ∀ h ∈ (IncrementalIndexer.init.reset 5#32).handouts .download
          [.next .download, .discover 6#32, .next .download, .next .download],
        h.value ≠ invalidIndex → h.value ≤ h.finalSuffix :=
  ⟨⟨by decide, by decide⟩, cursor_handouts _ 5#32 _ .download (by decide) (by decide)⟩

end HicnTransport.Protocols
