import Mathlib.Tactic

/-!
# The interactive RTC server

In interactive mode every line on standard input runs `handleInput`, which toggles
`rtc_running_`: a start arms `rtc_timer_` with `expires_from_now` and `async_wait`, a stop calls
`cancel`. The handler of every wait is `sendRTCContentObjectCallback`, which, unless its error
code is set, re-arms the timer and produces one datagram.

asio completes a wait with success when the timer expires, and with `operation_aborted` when
`cancel` or `expires_from_now` finds it still pending; the completed wait's handler then waits in
the queue of `io_service_` until it runs. A stop handled after the expiry and before the handler
finds no pending wait to abort, and the handler, which does not look at `rtc_running_`, produces
and re-arms the timer while stopped. A stop handled while no successful completion is queued does
stop production.
-/

namespace HicnTransport.Hiperf

/-- The error code a completion handler receives. -/
inductive ErrorCode
  | success
  | operationAborted
  deriving DecidableEq, Repr

/-- The interactive RTC server: `rtc_running_`, the waits pending on `rtc_timer_`, the completed
waits not yet handled, whether `io_service_` stopped, and `rtc_running_` at each datagram. -/
structure RtcServer where
  rtcRunning : Bool
  pendingWaits : ℕ
  completed : List ErrorCode
  stopped : Bool
  produced : List Bool
  deriving DecidableEq, Repr

namespace RtcServer

/-- The server when `run` starts reading standard input. -/
def init : RtcServer := ⟨false, 0, [], false, []⟩

variable (s : RtcServer)

/-- `rtc_timer_.cancel()`: every pending wait completes with `operation_aborted`. -/
def cancel : RtcServer :=
  { s with
    pendingWaits := 0
    completed := s.completed ++ List.replicate s.pendingWaits .operationAborted }

/-- `rtc_timer_.expires_from_now(d)` aborts the pending waits as `cancel` does; the expiry time
itself is left to the `expire` step. -/
def expiresFromNow : RtcServer := s.cancel

/-- `rtc_timer_.async_wait(handler)`. -/
def asyncWait : RtcServer := { s with pendingWaits := s.pendingWaits + 1 }

/-- The timer expires: every pending wait completes with success. -/
def expire : RtcServer :=
  { s with
    pendingWaits := 0
    completed := s.completed ++ List.replicate s.pendingWaits .success }

/-- `sendRTCContentObjectCallback(ec)`: unless `ec` is set, re-arm the timer and produce a
datagram. -/
def sendRTCContentObjectCallback : ErrorCode → RtcServer
  | .operationAborted => s
  | .success =>
    let t := s.expiresFromNow.asyncWait
    { t with produced := t.produced ++ [t.rtcRunning] }

/-- `handleInput(error, length)`: a read error stops the producer and `io_service_`; then, error
or not, the line toggles production. -/
def handleInput (error : Bool) : RtcServer :=
  let s := if error then { s with stopped := true } else s
  if s.rtcRunning then { s with rtcRunning := false }.cancel
  else { s with rtcRunning := true }.expiresFromNow.asyncWait

end RtcServer

/-- What can happen next: a line or a read error on standard input, the timer expiring, the
oldest queued completion handler running, or `SIGINT`. -/
inductive RtcEvent
  | input (error : Bool)
  | expire
  | runHandler
  | signal
  deriving DecidableEq, Repr

namespace RtcServer

/-- One event; once `io_service_` is stopped no handler runs. -/
def step (s : RtcServer) : RtcEvent → RtcServer
  | .input error => if s.stopped then s else s.handleInput error
  | .expire => s.expire
  | .runHandler =>
    if s.stopped then s
    else
      match s.completed with
      | [] => s
      | ec :: rest => { s with completed := rest }.sendRTCContentObjectCallback ec
  | .signal => { s with stopped := true }

/-- The server after a sequence of events. -/
def run : RtcServer → List RtcEvent → RtcServer
  | s, [] => s
  | s, e :: es => run (s.step e) es

/-- Every datagram so far was produced while `rtc_running_` was set. -/
def ProducesOnlyRunning (s : RtcServer) : Prop := ∀ b ∈ s.produced, b = true

/-- Whether an event keeps clear of the race: a line that stops production comes only while no
successful completion is queued. -/
def clearOfRace (s : RtcServer) : RtcEvent → Bool
  | .input _ => !s.rtcRunning || !s.completed.contains .success
  | .expire | .runHandler | .signal => true

/-- Every event of the run keeps clear of the race. -/
def clearRun : RtcServer → List RtcEvent → Bool
  | _, [] => true
  | s, e :: es => s.clearOfRace e && clearRun (s.step e) es

/-- While production is stopped nothing is left that could produce: no pending wait and no
successful completion. -/
def Quiet (s : RtcServer) : Prop :=
  s.rtcRunning = false → s.pendingWaits = 0 ∧ ErrorCode.success ∉ s.completed

variable (s : RtcServer)

theorem produced_sendRTCContentObjectCallback (ec : ErrorCode) :
    (s.sendRTCContentObjectCallback ec).produced =
      s.produced ++ if ec = .success then [s.rtcRunning] else [] := by
  cases ec <;> simp [sendRTCContentObjectCallback, expiresFromNow, cancel, asyncWait]

theorem produced_handleInput (error : Bool) : (s.handleInput error).produced = s.produced := by
  cases error <;> cases h : s.rtcRunning <;>
    simp [handleInput, h, cancel, expiresFromNow, asyncWait]

theorem quiet_handleInput (error : Bool)
    (hclear : (!s.rtcRunning || !s.completed.contains .success) = true) :
    (s.handleInput error).Quiet := by
  cases hr : s.rtcRunning
  · cases error <;> simp [handleInput, hr, Quiet, expiresFromNow, cancel, asyncWait]
  · simp [hr] at hclear
    cases error <;> simp [handleInput, hr, Quiet, cancel, hclear]

theorem step_quiet {e : RtcEvent} (hq : s.Quiet) (hp : s.ProducesOnlyRunning)
    (hclear : s.clearOfRace e = true) : (s.step e).Quiet ∧ (s.step e).ProducesOnlyRunning := by
  cases e with
  | input error =>
    simp only [step]
    split
    · exact ⟨hq, hp⟩
    · exact ⟨quiet_handleInput s error hclear, by simpa [ProducesOnlyRunning,
        produced_handleInput] using hp⟩
  | expire =>
    refine ⟨fun hr => ?_, hp⟩
    obtain ⟨h0, hs⟩ := hq hr
    simp [step, expire, h0, hs]
  | runHandler =>
    simp only [step]
    split
    · exact ⟨hq, hp⟩
    · split
      · exact ⟨hq, hp⟩
      next ec rest hc =>
        cases ec
        · cases hr : s.rtcRunning
          · exact absurd (hc ▸ List.mem_cons_self _ _) (hq hr).2
          · refine ⟨fun h => by simp [sendRTCContentObjectCallback, expiresFromNow, cancel,
              asyncWait] at h, fun b hb => ?_⟩
            rw [produced_sendRTCContentObjectCallback] at hb
            simp only [if_true, List.mem_append, List.mem_singleton] at hb
            exact hb.elim (hp b) id
        · refine ⟨fun hr => ?_, hp⟩
          obtain ⟨h0, hs⟩ := hq hr
          exact ⟨h0, fun h => hs (hc ▸ List.mem_cons_of_mem _ h)⟩
  | signal => exact ⟨hq, hp⟩

theorem run_quiet {es : List RtcEvent} (hq : s.Quiet) (hp : s.ProducesOnlyRunning)
    (hclear : s.clearRun es = true) : (s.run es).Quiet ∧ (s.run es).ProducesOnlyRunning := by
  induction es generalizing s with
  | nil => exact ⟨hq, hp⟩
  | cons e es ih =>
    obtain ⟨he, hes⟩ := Bool.and_eq_true_iff.1 hclear
    obtain ⟨hq', hp'⟩ := s.step_quiet hq hp he
    exact ih _ hq' hp' hes

/-- Along every run from the start in which each stop is handled while no successful completion
is queued, every datagram is produced while `rtc_running_` is set. -/
theorem produces_only_running_of_clear (es : List RtcEvent) (h : init.clearRun es = true) :
    (init.run es).ProducesOnlyRunning :=
  (run_quiet init (fun _ => ⟨rfl, by simp [init]⟩) (fun _ h => by simp [init] at h) h).2

theorem produces_only_running_start_stop :
    init.clearRun [.input false, .expire, .runHandler, .input false] = true ∧
      (init.run [.input false, .expire, .runHandler, .input false]).ProducesOnlyRunning :=
  ⟨by decide, produces_only_running_of_clear _ (by decide)⟩

/-- Start, the timer expires, stop, and only then the expired wait's handler runs: it produces a
datagram with `rtc_running_` clear and re-arms the timer. -/
theorem rtc_stop_after_expiry :
    (init.run [.input false, .expire, .input false, .runHandler]).rtcRunning = false ∧
      (init.run [.input false, .expire, .input false, .runHandler]).pendingWaits = 1 ∧
      (init.run [.input false, .expire, .input false, .runHandler]).produced = [false] ∧
      ¬ (init.run [.input false, .expire, .input false, .runHandler]).ProducesOnlyRunning :=
  ⟨rfl, rfl, rfl, fun h => absurd (h false (by decide)) (by decide)⟩

end RtcServer

end HicnTransport.Hiperf
