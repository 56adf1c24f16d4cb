import Sthrip.Db.ChannelRepo
import Mathlib.Tactic.Linarith

set_option autoImplicit false

/-! # The stream service

`StreamService` of `sthrip/services/stream_service.py`, on the row of one stream. Each method is
given what it reads: the row, if there is one, and the clock.
-/

namespace Sthrip

open Txn

def minStreamDuration : ℤ := 60

/-- `timedelta.total_seconds()` -/
def totalSeconds (d : ℤ) : ℚ := d / 1000000

/-- `_calculate_accrued` at the time `now`. -/
def calculateAccrued (stream : PaymentStream) (now : Time) : ℚ :=
  match stream.state with
  | .STOPPED => stream.total_streamed
  | .PAUSED =>
      match stream.started_at, stream.paused_at with
      | some started, some paused => stream.rate_per_second * max 0 (totalSeconds (paused - started))
      | _, _ => 0
  | .ACTIVE =>
      match stream.started_at with
      | some started => stream.rate_per_second * max 0 (totalSeconds (now - started))
      | none => 0

/-- The row of a request. -/
def findStream (stream_id : Id) : Option PaymentStream → Except Exn PaymentStream
  | some stream => .ok stream
  | none => .error (.LookupError "Stream %s not found" [.int stream_id])

/-- `_verify_participant` -/
def verifyStreamParticipant (stream_id agent_id : Id) (stream : PaymentStream) : Except Exn Unit :=
  if stream.from_agent_id ≠ agent_id ∧ stream.to_agent_id ≠ agent_id then
    .error (.PermissionError "Agent %s is not a participant of stream %s"
      [.int agent_id, .int stream_id])
  else .ok ()

namespace StreamService

variable (col : Columns)

def startStream (channel_id from_agent_id : Id) (rate_per_second : ℚ) (now : Time)
    (channel : Option PaymentChannel) : Except Exn PaymentStream :=
  match channel with
  | none => .error (.LookupError "Channel %s not found" [.int channel_id])
  | some channel =>
      if channel.status ≠ .OPEN then
        .error (.ValueError "Channel must be OPEN to start a stream (current: %s)"
          [.str channel.status.name])
      else if channel.agent_a_id ≠ from_agent_id then
        .error (.PermissionError "Only agent_a of the channel can initiate a stream")
      else if rate_per_second * minStreamDuration > channel.balance_a then
        .error (.ValueError
          "Rate %s/s requires %s to sustain for %ss, but channel.balance_a=%s"
          [.dec rate_per_second, .dec (rate_per_second * minStreamDuration), .int minStreamDuration,
            .dec channel.balance_a])
      -- the constraint `ck_stream_rate_positive` of the table
      else if col 12 rate_per_second ≤ 0 then .error .IntegrityError
      else .ok (PaymentStreamRepository.create col channel_id from_agent_id channel.agent_b_id
        rate_per_second now)

def getAccrued (stream_id : Id) (now : Time) (stream : Option PaymentStream) :
    Except Exn (PaymentStream × ℚ) := do
  let stream ← findStream stream_id stream
  return (stream, calculateAccrued stream now)

def pauseStream (stream_id agent_id : Id) (now : Time) (stream : Option PaymentStream) :
    Except Exn PaymentStream := do
  let stream ← findStream stream_id stream
  verifyStreamParticipant stream_id agent_id stream
  match PaymentStreamRepository.pause now stream with
  | none => .error (.ValueError "Stream %s is not ACTIVE (state: %s)"
      [.int stream_id, .str stream.state.name])
  | some refreshed => .ok refreshed

def resumeStream (stream_id agent_id : Id) (stream : Option PaymentStream) :
    Except Exn PaymentStream := do
  let stream ← findStream stream_id stream
  verifyStreamParticipant stream_id agent_id stream
  match PaymentStreamRepository.resume stream with
  | none => .error (.ValueError "Stream %s is not PAUSED (state: %s)"
      [.int stream_id, .str stream.state.name])
  | some refreshed => .ok refreshed

/-- The total is computed at `now`, and the row is written at `later`. -/
def stopStream (stream_id agent_id : Id) (now later : Time) (stream : Option PaymentStream) :
    Except Exn PaymentStream := do
  let stream ← findStream stream_id stream
  verifyStreamParticipant stream_id agent_id stream
  if stream.state = .STOPPED then
    .error (.ValueError "Stream %s is already STOPPED" [.int stream_id])
  else
    match PaymentStreamRepository.stop col (calculateAccrued stream now) later stream with
    | none => .error (.ValueError "Stream %s could not be stopped" [.int stream_id])
    | some refreshed => .ok refreshed

end StreamService

/-! ## Calls -/

/-- The calls that change a stream. -/
inductive StreamCall where
  | pauseStream (agent_id : Id)
  | resumeStream (agent_id : Id)
  | stopStream (agent_id : Id) (later : Time)

/-- A call at the time `now`. -/
def StreamCall.body (col : Columns) (stream_id : Id) (now : Time) (stream : PaymentStream) :
    StreamCall → Except Exn PaymentStream
  | .pauseStream agent_id => StreamService.pauseStream stream_id agent_id now (some stream)
  | .resumeStream agent_id => StreamService.resumeStream stream_id agent_id (some stream)
  | .stopStream agent_id later =>
      StreamService.stopStream col stream_id agent_id now later (some stream)

/-- The row after a call. A call that raises is rolled back. -/
def StreamCall.run (col : Columns) (stream_id : Id) (now : Time) (stream : PaymentStream)
    (call : StreamCall) : PaymentStream :=
  match call.body col stream_id now stream with
  | .ok stream' => stream'
  | .error _ => stream

end Sthrip

/-! # What a stream accrues

A stream is to accrue its rate for the time it was active. While it is active the service computes
the time from `started_at` to now, and `started_at` stays as it is when the stream is resumed. So a
pause is charged as soon as it is over. Apart from that the sums are right, up to the digits that the
column of the total keeps.
-/

namespace Sthrip

open Txn

/-! ## The time a stream was active -/

/-- A stream, the time of the last call, and how long the stream was active until then. -/
structure StreamTrace where
  stream : PaymentStream
  since : Time
  active : ℤ

namespace StreamTrace

/-- How long the stream was active until `t`, when there is no call before. -/
def activeAt (h : StreamTrace) (t : Time) : ℤ :=
  h.active + if h.stream.state = .ACTIVE then t - h.since else 0

/-- A call at a time. -/
def next (col : Columns) (stream_id : Id) (h : StreamTrace) (x : Time × StreamCall) : StreamTrace where
  stream := x.2.run col stream_id x.1 h.stream
  since := x.1
  active := h.activeAt x.1

/-- The calls of `l`, after a start at `t₀`. -/
def after (col : Columns) (stream_id : Id) (s : PaymentStream) (t₀ : Time)
    (l : List (Time × StreamCall)) : StreamTrace :=
  l.foldl (next col stream_id) ⟨s, t₀, 0⟩

/-- From now on the service reports what is due, until the next call. -/
def Bills (h : StreamTrace) : Prop :=
  ∀ t, h.since ≤ t →
    calculateAccrued h.stream t = h.stream.rate_per_second * totalSeconds (h.activeAt t)

/-- The condition on a call: a resume comes at the moment of the pause, and the total of a stop has
no more digits than its column. -/
def Exact (col : Columns) (stream_id : Id) (h : StreamTrace) (x : Time × StreamCall) : Prop :=
  (h.stream.state = .PAUSED → (h.next col stream_id x).stream.state = .ACTIVE →
    h.stream.paused_at = some x.1) ∧
  (h.stream.state ≠ .STOPPED → (h.next col stream_id x).stream.state = .STOPPED →
    col 8 (h.stream.rate_per_second * totalSeconds (h.activeAt x.1))
      = h.stream.rate_per_second * totalSeconds (h.activeAt x.1))

/-- What the timestamps of a stream say. -/
structure Sane (h : StreamTrace) : Prop where
  rate : 0 < h.stream.rate_per_second
  started : ∃ t ≤ h.since, h.stream.started_at = some t
  paused : h.stream.state = .PAUSED →
    ∃ p ≤ h.since, h.stream.paused_at = some p ∧ ∀ t, h.stream.started_at = some t → t ≤ p

end StreamTrace

/-! ## Calls -/

/-- What a call can do to a stream. -/
theorem StreamCall.run_cases (col : Columns) (stream_id : Id) (now : Time) (s : PaymentStream)
    (call : StreamCall) :
    call.run col stream_id now s = s ∨
    (s.state = .ACTIVE ∧
      call.run col stream_id now s = { s with state := .PAUSED, paused_at := some now }) ∨
    (s.state = .PAUSED ∧
      call.run col stream_id now s = { s with state := .ACTIVE, paused_at := none }) ∨
    (s.state ≠ .STOPPED ∧ ∃ later,
      call.run col stream_id now s = { s with state := .STOPPED, stopped_at := some later
                                              total_streamed := col 8 (calculateAccrued s now) }) := by
  have hverify : ∀ agent_id, verifyStreamParticipant stream_id agent_id s = .ok () ∨
      ∃ e, verifyStreamParticipant stream_id agent_id s = .error e := by
    intro agent_id
    unfold verifyStreamParticipant
    split
    · exact .inr ⟨_, rfl⟩
    · exact .inl rfl
  cases call with
  | pauseStream agent_id =>
      rcases hverify agent_id with hv | ⟨e, hv⟩
      · by_cases hs : s.state = .ACTIVE
        · refine .inr (.inl ⟨hs, ?_⟩)
          simp [run, body, StreamService.pauseStream, findStream, hv, PaymentStreamRepository.pause,
            hs, bind, Except.bind]
        · refine .inl ?_
          simp [run, body, StreamService.pauseStream, findStream, hv, PaymentStreamRepository.pause,
            hs, bind, Except.bind]
      · refine .inl ?_
        simp [run, body, StreamService.pauseStream, findStream, hv, bind, Except.bind]
  | resumeStream agent_id =>
      rcases hverify agent_id with hv | ⟨e, hv⟩
      · by_cases hs : s.state = .PAUSED
        · refine .inr (.inr (.inl ⟨hs, ?_⟩))
          simp [run, body, StreamService.resumeStream, findStream, hv,
            PaymentStreamRepository.resume, hs, bind, Except.bind]
        · refine .inl ?_
          simp [run, body, StreamService.resumeStream, findStream, hv,
            PaymentStreamRepository.resume, hs, bind, Except.bind]
      · refine .inl ?_
        simp [run, body, StreamService.resumeStream, findStream, hv, bind, Except.bind]
  | stopStream agent_id later =>
      rcases hverify agent_id with hv | ⟨e, hv⟩
      · by_cases hs : s.state = .STOPPED
        · refine .inl ?_
          simp [run, body, StreamService.stopStream, findStream, hv, hs, bind, Except.bind]
        · refine .inr (.inr (.inr ⟨hs, later, ?_⟩))
          simp [run, body, StreamService.stopStream, findStream, hv, PaymentStreamRepository.stop,
            hs, bind, Except.bind]
      · refine .inl ?_
        simp [run, body, StreamService.stopStream, findStream, hv, bind, Except.bind]

namespace StreamTrace

variable {col : Columns} {stream_id : Id} {h : StreamTrace} {x : Time × StreamCall}

theorem totalSeconds_nonneg {d : ℤ} (hd : 0 ≤ d) : 0 ≤ totalSeconds d := by
  have : (0 : ℚ) ≤ d := by exact_mod_cast hd
  unfold totalSeconds
  linarith

theorem totalSeconds_inj {d d' : ℤ} (h : totalSeconds d = totalSeconds d') : d = d' := by
  unfold totalSeconds at h
  have : (d : ℚ) = d' := by linarith
  exact_mod_cast this

theorem accrued_active (hs : h.stream.state = .ACTIVE) {started : Time}
    (hst : h.stream.started_at = some started) {t : Time} (ht : started ≤ t) :
    calculateAccrued h.stream t = h.stream.rate_per_second * totalSeconds (t - started) := by
  have hsec : 0 ≤ totalSeconds (t - started) := totalSeconds_nonneg (sub_nonneg.mpr ht)
  simp [calculateAccrued, hs, hst, max_eq_right hsec]

theorem accrued_paused (hs : h.stream.state = .PAUSED) {started paused : Time}
    (hst : h.stream.started_at = some started) (hp : h.stream.paused_at = some paused)
    (hle : started ≤ paused) (t : Time) :
    calculateAccrued h.stream t = h.stream.rate_per_second * totalSeconds (paused - started) := by
  have hsec : 0 ≤ totalSeconds (paused - started) :=
    totalSeconds_nonneg (sub_nonneg.mpr hle)
  simp [calculateAccrued, hs, hst, hp, max_eq_right hsec]

theorem accrued_stopped (hs : h.stream.state = .STOPPED) (t : Time) :
    calculateAccrued h.stream t = h.stream.total_streamed := by
  simp [calculateAccrued, hs]

theorem Sane.next (hs : h.Sane) (ht : h.since ≤ x.1) : (h.next col stream_id x).Sane := by
  obtain ⟨started, hle, hst⟩ := hs.started
  have hnow : started ≤ x.1 := hle.trans ht
  rcases StreamCall.run_cases col stream_id x.1 h.stream x.2 with
    hrun | ⟨-, hrun⟩ | ⟨-, hrun⟩ | ⟨-, later, hrun⟩
  · refine ⟨?_, ?_, ?_⟩
    · simpa [StreamTrace.next, hrun] using hs.rate
    · exact ⟨started, hnow, by simpa [StreamTrace.next, hrun] using hst⟩
    · intro hp
      obtain ⟨p, hple, hpa, hpst⟩ := hs.paused (by simpa [StreamTrace.next, hrun] using hp)
      exact ⟨p, hple.trans ht, by simpa [StreamTrace.next, hrun] using hpa,
        by simpa [StreamTrace.next, hrun] using hpst⟩
  · refine ⟨by simpa [StreamTrace.next, hrun] using hs.rate, ⟨started, hnow, ?_⟩, fun _ => ?_⟩
    · simpa [StreamTrace.next, hrun] using hst
    · refine ⟨x.1, le_rfl, by simp [StreamTrace.next, hrun], fun t hts => ?_⟩
      obtain rfl : started = t := by simpa [StreamTrace.next, hrun, hst] using hts
      exact hnow
  · refine ⟨by simpa [StreamTrace.next, hrun] using hs.rate, ⟨started, hnow, ?_⟩, fun hp => ?_⟩
    · simpa [StreamTrace.next, hrun] using hst
    · simp [StreamTrace.next, hrun] at hp
  · refine ⟨by simpa [StreamTrace.next, hrun] using hs.rate, ⟨started, hnow, ?_⟩, fun hp => ?_⟩
    · simpa [StreamTrace.next, hrun] using hst
    · simp [StreamTrace.next, hrun] at hp

/-- A call that changes nothing keeps what is due. -/
theorem bills_same (hb : h.Bills) (ht : h.since ≤ x.1)
    (hrun : x.2.run col stream_id x.1 h.stream = h.stream) :
    (h.next col stream_id x).Bills ↔ h.Exact col stream_id x := by
  refine ⟨fun _ => ⟨fun hp ha => ?_, fun hp ha => ?_⟩, fun _ t htt => ?_⟩
  · simp [StreamTrace.next, hrun, hp] at ha
  · simp [StreamTrace.next, hrun] at ha
    exact absurd ha hp
  · have hdue := hb t (ht.trans htt)
    have hact : (h.next col stream_id x).activeAt t = h.activeAt t := by
      simp only [StreamTrace.next, activeAt, hrun]
      split
      · ring
      · ring
    rw [hact]
    simpa [StreamTrace.next, hrun] using hdue

/-- A pause keeps what was due at its moment. -/
theorem bills_pause (hs : h.Sane) (hb : h.Bills) (ht : h.since ≤ x.1)
    (hactive : h.stream.state = .ACTIVE) (hrun : x.2.run col stream_id x.1 h.stream
      = { h.stream with state := .PAUSED, paused_at := some x.1 }) :
    (h.next col stream_id x).Bills ↔ h.Exact col stream_id x := by
  obtain ⟨started, hle, hst⟩ := hs.started
  have hnow : started ≤ x.1 := hle.trans ht
  refine ⟨fun _ => ⟨fun hp => ?_, fun _ ha => ?_⟩, fun _ t htt => ?_⟩
  · rw [hactive] at hp
    cases hp
  · simp [StreamTrace.next, hrun] at ha
  · have hdue := hb x.1 ht
    rw [accrued_active hactive hst hnow] at hdue
    have hstarted : (h.next col stream_id x).stream.started_at = some started := by
      simpa [StreamTrace.next, hrun] using hst
    have hpaused : (h.next col stream_id x).stream.paused_at = some x.1 := by
      simp [StreamTrace.next, hrun]
    rw [accrued_paused (by simp [StreamTrace.next, hrun]) hstarted hpaused hnow]
    simpa [StreamTrace.next, hrun, activeAt] using hdue

/-- A resume goes on as if there had been no pause. -/
theorem bills_resume (hs : h.Sane) (hb : h.Bills) (ht : h.since ≤ x.1)
    (hpaused : h.stream.state = .PAUSED) (hrun : x.2.run col stream_id x.1 h.stream
      = { h.stream with state := .ACTIVE, paused_at := none }) :
    (h.next col stream_id x).Bills ↔ h.Exact col stream_id x := by
  obtain ⟨started, hle, hst⟩ := hs.started
  have hnow : started ≤ x.1 := hle.trans ht
  have hrate : h.stream.rate_per_second ≠ 0 := ne_of_gt hs.rate
  obtain ⟨p, hple, hpa, hpst⟩ := hs.paused hpaused
  have hdue := hb x.1 ht
  rw [accrued_paused hpaused hst hpa (hpst _ hst)] at hdue
  have hact : h.activeAt x.1 = p - started :=
    (totalSeconds_inj (mul_left_cancel₀ hrate hdue)).symm
  have hstate : (h.next col stream_id x).stream.state = .ACTIVE := by
    simp [StreamTrace.next, hrun]
  have hstarted : (h.next col stream_id x).stream.started_at = some started := by
    simpa [StreamTrace.next, hrun] using hst
  have hrate' : (h.next col stream_id x).stream.rate_per_second = h.stream.rate_per_second := by
    simp [StreamTrace.next, hrun]
  have hactive : ∀ t, (h.next col stream_id x).activeAt t = p - started + (t - x.1) := by
    intro t
    rw [← hact]
    show h.activeAt x.1 + (if (h.next col stream_id x).stream.state = .ACTIVE then t - x.1 else 0)
      = _
    rw [if_pos hstate]
  constructor
  · intro hb'
    refine ⟨fun _ _ => ?_, fun _ ha => ?_⟩
    · have hdue' := hb' x.1 le_rfl
      rw [accrued_active hstate hstarted hnow, hrate', hactive] at hdue'
      have := totalSeconds_inj (mul_left_cancel₀ hrate hdue')
      rw [hpa, Option.some.injEq]
      linarith
    · rw [hstate] at ha
      cases ha
  · intro hexact t htt
    have hp := hexact.1 hpaused hstate
    rw [hpa, Option.some.injEq] at hp
    have htt' : x.1 ≤ t := htt
    rw [accrued_active hstate hstarted (hnow.trans htt'), hactive]
    congr 2
    linarith

/-- A stop records what was due at its moment. -/
theorem bills_stop (hb : h.Bills) (ht : h.since ≤ x.1) {later : Time}
    (hrunning : h.stream.state ≠ .STOPPED) (hrun : x.2.run col stream_id x.1 h.stream
      = { h.stream with
          state := .STOPPED, stopped_at := some later
          total_streamed := col 8 (calculateAccrued h.stream x.1) }) :
    (h.next col stream_id x).Bills ↔ h.Exact col stream_id x := by
  have hdue := hb x.1 ht
  have hstate : (h.next col stream_id x).stream.state = .STOPPED := by
    simp [StreamTrace.next, hrun]
  have htotal : (h.next col stream_id x).stream.total_streamed
      = col 8 (h.stream.rate_per_second * totalSeconds (h.activeAt x.1)) := by
    rw [← hdue]
    simp [StreamTrace.next, hrun]
  have hrate' : (h.next col stream_id x).stream.rate_per_second = h.stream.rate_per_second := by
    simp [StreamTrace.next, hrun]
  have hactive : ∀ t, (h.next col stream_id x).activeAt t = h.activeAt x.1 := by
    intro t
    show h.activeAt x.1 + (if (h.next col stream_id x).stream.state = .ACTIVE then t - x.1 else 0)
      = _
    rw [hstate]
    simp
  constructor
  · intro hb'
    refine ⟨fun _ ha => ?_, fun _ _ => ?_⟩
    · rw [hstate] at ha
      cases ha
    · have hdue' := hb' x.1 le_rfl
      rwa [accrued_stopped hstate, htotal, hrate', hactive] at hdue'
  · intro hexact t htt
    rw [accrued_stopped hstate, htotal, hrate', hactive]
    exact hexact.2 hrunning hstate

/-- **The step lemma.** A trace that bills what is due goes on doing so iff the call is exact. -/
theorem bills_next (hs : h.Sane) (hb : h.Bills) (ht : h.since ≤ x.1) :
    (h.next col stream_id x).Bills ↔ h.Exact col stream_id x := by
  rcases StreamCall.run_cases col stream_id x.1 h.stream x.2 with
    hrun | ⟨hactive, hrun⟩ | ⟨hpaused, hrun⟩ | ⟨hrunning, later, hrun⟩
  · exact bills_same hb ht hrun
  · exact bills_pause hs hb ht hactive hrun
  · exact bills_resume hs hb ht hpaused hrun
  · exact bills_stop hb ht hrunning hrun

theorem after_concat (s : PaymentStream) (t₀ : Time) (l : List (Time × StreamCall)) :
    after col stream_id s t₀ (l ++ [x]) = (after col stream_id s t₀ l).next col stream_id x := by
  simp [after]

theorem rate_next : (h.next col stream_id x).stream.rate_per_second = h.stream.rate_per_second := by
  rcases StreamCall.run_cases col stream_id x.1 h.stream x.2 with
    hrun | ⟨-, hrun⟩ | ⟨-, hrun⟩ | ⟨-, later, hrun⟩
  all_goals simp [StreamTrace.next, hrun]

theorem rate_after (s : PaymentStream) (t₀ : Time) (l : List (Time × StreamCall)) :
    (after col stream_id s t₀ l).stream.rate_per_second = s.rate_per_second := by
  induction l using List.reverseRecOn with
  | nil => rfl
  | append_singleton l x ih => rw [after_concat, rate_next, ih]

/-- At each call of `l`, `Q` holds of the calls before it and of the call. -/
def AtEach (Q : List (Time × StreamCall) → Time × StreamCall → Prop)
    (l : List (Time × StreamCall)) : Prop := ∀ pre x, pre ++ [x] <+: l → Q pre x

theorem atEach_nil {Q : List (Time × StreamCall) → Time × StreamCall → Prop} : AtEach Q [] := by
  intro pre x hx
  simp at hx

theorem atEach_concat {Q : List (Time × StreamCall) → Time × StreamCall → Prop}
    {l : List (Time × StreamCall)} : AtEach Q (l ++ [x]) ↔ AtEach Q l ∧ Q l x := by
  constructor
  · intro hall
    exact ⟨fun pre y hy => hall pre y (hy.trans (List.prefix_append l [x])),
      hall l x List.prefix_rfl⟩
  · rintro ⟨hall, hlast⟩ pre y hy
    rcases List.prefix_concat_iff.mp hy with heq | hpre
    · obtain ⟨rfl, hxy⟩ := List.append_inj' heq rfl
      obtain rfl := List.cons.inj hxy |>.1
      exact hlast
    · exact hall pre y hpre

/-- The run lemma, over the calls of a stream that is sane at its start. -/
theorem bills_iff {s : PaymentStream} {t₀ : Time} (hsane : (⟨s, t₀, 0⟩ : StreamTrace).Sane)
    (hbills : (⟨s, t₀, 0⟩ : StreamTrace).Bills) {l : List (Time × StreamCall)}
    (htimes : AtEach (fun pre x => (after col stream_id s t₀ pre).since ≤ x.1) l) :
    (∀ pre, pre <+: l → (after col stream_id s t₀ pre).Bills) ↔
      AtEach (fun pre x => (after col stream_id s t₀ pre).Exact col stream_id x) l := by
  have hall : (after col stream_id s t₀ l).Sane ∧
      ((∀ pre, pre <+: l → (after col stream_id s t₀ pre).Bills) ↔
        AtEach (fun pre x => (after col stream_id s t₀ pre).Exact col stream_id x) l) := by
    induction l using List.reverseRecOn with
    | nil =>
        refine ⟨hsane, fun _ => atEach_nil, fun _ pre hpre => ?_⟩
        · rw [List.prefix_nil.mp hpre]
          exact hbills
    | append_singleton l x ih =>
        obtain ⟨htimes, ht⟩ := atEach_concat.mp htimes
        obtain ⟨hs, hiff⟩ := ih htimes
        refine ⟨by rw [after_concat]; exact hs.next ht, ?_⟩
        rw [atEach_concat, ← hiff]
        constructor
        · intro hb
          have hl : ∀ pre, pre <+: l → (after col stream_id s t₀ pre).Bills :=
            fun pre hpre => hb pre (hpre.trans (List.prefix_append l [x]))
          have hx := hb (l ++ [x]) List.prefix_rfl
          rw [after_concat] at hx
          exact ⟨hl, (bills_next hs (hl l List.prefix_rfl) ht).mp hx⟩
        · rintro ⟨hl, hexact⟩ pre hpre
          rcases List.prefix_concat_iff.mp hpre with rfl | hpre
          · rw [after_concat]
            exact (bills_next hs (hl l List.prefix_rfl) ht).mpr hexact
          · exact hl pre hpre
  exact hall.2

/-- A stream that was just started. -/
theorem sane_start {channel_id from_agent_id : Id} {rate : ℚ} {t₀ : Time}
    {channel : Option PaymentChannel} {s : PaymentStream}
    (hs : StreamService.startStream col channel_id from_agent_id rate t₀ channel = .ok s) :
    (⟨s, t₀, 0⟩ : StreamTrace).Sane ∧ (⟨s, t₀, 0⟩ : StreamTrace).Bills := by
  unfold StreamService.startStream at hs
  cases channel with
  | none => cases hs
  | some channel =>
      simp only at hs
      split at hs
      · cases hs
      · split at hs
        · cases hs
        · split at hs
          · cases hs
          · split at hs
            · cases hs
            · next hrate =>
                obtain rfl := Except.ok.inj hs
                refine ⟨⟨not_le.mp hrate, ⟨t₀, le_rfl, rfl⟩, fun hp => by cases hp⟩, fun t ht => ?_⟩
                rw [accrued_active rfl rfl ht]
                simp [activeAt, PaymentStreamRepository.create]

/-- **When a stream bills its active time only.** After any calls at any times that do not decrease,
the service reports at every time the rate for the time the stream was active, iff each resume came
at the moment of its pause and the total of a stop had no more digits than its column. -/
theorem bills_active_time_iff {channel_id from_agent_id : Id} {rate : ℚ} {t₀ : Time}
    {channel : Option PaymentChannel} {s : PaymentStream}
    (hs : StreamService.startStream col channel_id from_agent_id rate t₀ channel = .ok s)
    {l : List (Time × StreamCall)}
    (htimes : AtEach (fun pre x => (after col stream_id s t₀ pre).since ≤ x.1) l) :
    (∀ pre, pre <+: l → ∀ t, (after col stream_id s t₀ pre).since ≤ t →
      calculateAccrued (after col stream_id s t₀ pre).stream t
        = s.rate_per_second * totalSeconds ((after col stream_id s t₀ pre).activeAt t)) ↔
      AtEach (fun pre x => (after col stream_id s t₀ pre).Exact col stream_id x) l := by
  obtain ⟨hsane, hbills⟩ := sane_start hs
  rw [← bills_iff hsane hbills htimes]
  refine forall_congr' fun pre => imp_congr_right fun _ => ?_
  unfold Bills
  rw [rate_after]

section Runs

/-- An open channel from the agent 1 to the agent 2. -/
def openChannel : PaymentChannel :=
  { agent_a_id := 1, agent_b_id := 2, capacity := 100, status := .OPEN, deposit_a := 100
    balance_a := 100 }

/-- A stream of one a second, started at 0. -/
def oneASecond : PaymentStream :=
  { channel_id := 7, from_agent_id := 1, to_agent_id := 2, rate_per_second := 1
    started_at := some 0 }

theorem start_oneASecond :
    StreamService.startStream Columns.exact 7 1 1 0 (some openChannel) = .ok oneASecond := by
  norm_num [StreamService.startStream, openChannel, oneASecond, Columns.exact, minStreamDuration,
    PaymentStreamRepository.create]

/-- A stream that is paused after five seconds. -/
theorem bills_active_time_paused :
    calculateAccrued (after Columns.exact 9 oneASecond 0 [(5000000, .pauseStream 1)]).stream 6000000
      = oneASecond.rate_per_second * totalSeconds
        ((after Columns.exact 9 oneASecond 0 [(5000000, .pauseStream 1)]).activeAt 6000000) := by
  have htimes : AtEach (fun pre x => (after Columns.exact 9 oneASecond 0 pre).since ≤ x.1)
      ([] ++ [(5000000, .pauseStream 1)]) :=
    atEach_concat.mpr ⟨atEach_nil, by decide⟩
  refine (bills_active_time_iff start_oneASecond htimes).mpr ?_ _ List.prefix_rfl 6000000 (by decide)
  refine atEach_concat.mpr ⟨atEach_nil, fun hp => ?_, fun _ hst => ?_⟩
  · cases hp
  · cases hst

/-- The stream is paused after one second and resumed two seconds later: it bills three. -/
theorem pause_is_billed : ¬∀ (s : PaymentStream) (l : List (Time × StreamCall)),
    StreamService.startStream Columns.exact 7 1 1 0 (some openChannel) = .ok s →
    AtEach (fun pre x => (after Columns.exact 9 s 0 pre).since ≤ x.1) l →
    ∀ t, (after Columns.exact 9 s 0 l).since ≤ t →
      calculateAccrued (after Columns.exact 9 s 0 l).stream t
        = s.rate_per_second * totalSeconds ((after Columns.exact 9 s 0 l).activeAt t) := by
  intro h
  have htimes : AtEach (fun pre x => (after Columns.exact 9 oneASecond 0 pre).since ≤ x.1)
      ([] ++ [(1000000, .pauseStream 1)] ++ [(3000000, .resumeStream 1)]) :=
    atEach_concat.mpr ⟨atEach_concat.mpr ⟨atEach_nil, by decide⟩, by decide⟩
  have hbills := h oneASecond _ start_oneASecond htimes 3000000 (by decide)
  norm_num [after, next, activeAt, calculateAccrued, oneASecond, StreamCall.run, StreamCall.body,
    StreamService.pauseStream, StreamService.resumeStream, findStream, verifyStreamParticipant,
    PaymentStreamRepository.pause, PaymentStreamRepository.resume, totalSeconds, bind,
    Except.bind] at hbills
  rw [if_neg (by decide)] at hbills
  norm_num at hbills

end Runs

end StreamTrace

end Sthrip
