import Mathlib.Logic.Function.Basic
import Sthrip.Services.SubscriptionBilling

set_option autoImplicit false

/-! # The XMR/USD rate

`get_xmr_usd_rate` of `sthrip/services/xmr_rate_service.py`. A process keeps one rate in its cache. The
lock is held while the cache is read and while it is written, and not in between, so that calls
interleave around the request to CoinGecko. Its answer is `none` when the request raises, or the
reading of the payload.

The billing run charges at the rate that its call returns. `RateWorld.Runs` is every interleaving of
any number of calls.
-/

namespace Sthrip

/-! ## The cache -/

/-- `_CacheEntry` -/
structure RateEntry where
  rate : ℚ
  fetched_at : Time
  deriving DecidableEq

/-- `RATE_CACHE_TTL`, five minutes -/
def rateCacheTtl : Time := 5 * 60000000

/-- `RATE_STALE_LIMIT` -/
def rateStaleLimit : Time := hours 24

/-- The age of an entry for a call at `now`. -/
def RateEntry.age (e : RateEntry) (now : Time) : Time := now - e.fetched_at

/-- How far a call of `get_xmr_usd_rate` has come. -/
inductive RateCall where
  | called
  /-- It has seen this in the cache, and asks CoinGecko. -/
  | fetching (entry : Option RateEntry)
  /-- It has an answer, which the cache does not have yet. -/
  | fetched (rate : ℚ)
  | returned (rate : ℚ)
  /-- `RateUnavailableError` -/
  | raised
  deriving DecidableEq

inductive RateEvent where
  /-- `XmrRateCache.get` -/
  | look
  /-- `_fetch_rate_from_coingecko` -/
  | answer (rate : Option ℚ)
  /-- `XmrRateCache.set` -/
  | store
  deriving DecidableEq

/-- The cache of a process, and the calls in it. -/
structure RateWorld where
  entry : Option RateEntry := none
  calls : ℕ → RateCall := fun _ => .called

namespace RateWorld

/-- A cached rate is used when it is fresh. -/
def afterLook (now : Time) (entry : Option RateEntry) : RateCall :=
  match entry with
  | some e => if e.age now < rateCacheTtl then .returned e.rate else .fetching entry
  | none => .fetching none

/-- After a failed request it is used unless it is stale. -/
def afterFailure (now : Time) (entry : Option RateEntry) : RateCall :=
  match entry with
  | some e => if e.age now < rateStaleLimit then .returned e.rate else .raised
  | none => .raised

def set (w : RateWorld) (i : ℕ) (c : RateCall) : RateWorld :=
  { w with calls := Function.update w.calls i c }

def store (w : RateWorld) (e : RateEntry) (i : ℕ) : RateWorld :=
  { entry := some e, calls := Function.update w.calls i (.returned e.rate) }

/-- The next event of call `i`; `now i` is the time the call is for. -/
def step (now : ℕ → Time) (w : RateWorld) (i : ℕ) (e : RateEvent) : Option RateWorld :=
  match w.calls i, e with
  | .called, .look => some (w.set i (afterLook (now i) w.entry))
  | .fetching _, .answer (some rate) => some (w.set i (.fetched rate))
  | .fetching entry, .answer none => some (w.set i (afterFailure (now i) entry))
  | .fetched rate, .store => some (store w ⟨rate, now i⟩ i)
  | _, _ => none

/-- The events so far, and where they lead. -/
inductive Runs (now : ℕ → Time) : List (ℕ × RateEvent) → RateWorld → Prop where
  | start : Runs now [] {}
  | step {l : List (ℕ × RateEvent)} {w w' : RateWorld} {i : ℕ} {e : RateEvent} : Runs now l w →
      w.step now i e = some w' → Runs now (l ++ [(i, e)]) w'

/-- The events of a list, one after the other. -/
def replay (now : ℕ → Time) : List (ℕ × RateEvent) → RateWorld → Option RateWorld
  | [], w => some w
  | (i, e) :: l, w => (w.step now i e).bind (replay now l)

/-! ## What a call knows -/

variable {now : ℕ → Time} {l l' : List (ℕ × RateEvent)} {w w' : RateWorld} {i : ℕ} {e : RateEvent}

theorem Runs.replay (h : Runs now l w) (hl : replay now l' w = some w') : Runs now (l ++ l') w' := by
  induction l' generalizing l w with
  | nil =>
      obtain rfl := Option.some.inj hl
      rwa [List.append_nil]
  | cons a l' ih =>
      obtain ⟨w₁, hstep, hl⟩ := Option.bind_eq_some_iff.mp hl
      simpa using ih (h.step hstep) hl

/-- CoinGecko has given this rate to a call of this time. -/
def Quoted (now : ℕ → Time) (l : List (ℕ × RateEvent)) (e : RateEntry) : Prop :=
  ∃ j, (j, .answer (some e.rate)) ∈ l ∧ e.fetched_at = now j

/-- This is what the call found in the cache. -/
def Found (now : ℕ → Time) (l : List (ℕ × RateEvent)) (i : ℕ) (entry : Option RateEntry) : Prop :=
  ∃ pre post w, l = pre ++ (i, .look) :: post ∧ Runs now pre w ∧ w.entry = entry

/-- A rate that a call may return: one of CoinGecko's, not stale, and fresh unless the request of the
call itself has failed. -/
structure Usable (now : ℕ → Time) (l : List (ℕ × RateEvent)) (i : ℕ) (e : RateEntry) : Prop where
  quoted : Quoted now l e
  recent : e.age (now i) < rateStaleLimit
  failed : rateCacheTtl ≤ e.age (now i) → (i, .answer none) ∈ l

/-- How a call has come where it is. -/
def Explained (now : ℕ → Time) (l : List (ℕ × RateEvent)) (i : ℕ) : RateCall → Prop
  | .called => True
  | .fetching entry => Found now l i entry ∧ ∀ e ∈ entry, Quoted now l e
  | .fetched rate => (i, .answer (some rate)) ∈ l
  | .returned rate => ∃ e, e.rate = rate ∧ Usable now l i e
  | .raised => (i, .answer none) ∈ l ∧
      ∃ entry, Found now l i entry ∧ ∀ e ∈ entry, rateStaleLimit ≤ e.age (now i)

theorem Quoted.append {e : RateEntry} (h : Quoted now l e) (l' : List (ℕ × RateEvent)) :
    Quoted now (l ++ l') e := by
  obtain ⟨j, hj, hnow⟩ := h
  exact ⟨j, List.mem_append_left _ hj, hnow⟩

theorem Found.append {entry : Option RateEntry} (h : Found now l i entry)
    (l' : List (ℕ × RateEvent)) : Found now (l ++ l') i entry := by
  obtain ⟨pre, post, w, rfl, hpre, hw⟩ := h
  exact ⟨pre, post ++ l', w, by simp, hpre, hw⟩

theorem Usable.append {e : RateEntry} (h : Usable now l i e) (l' : List (ℕ × RateEvent)) :
    Usable now (l ++ l') i e :=
  ⟨h.quoted.append l', h.recent, fun hold => List.mem_append_left _ (h.failed hold)⟩

/-- What has happened stays true. -/
theorem Explained.append {c : RateCall} (h : Explained now l i c) (l' : List (ℕ × RateEvent)) :
    Explained now (l ++ l') i c := by
  cases c with
  | called => trivial
  | fetching entry => exact ⟨h.1.append l', fun e he => (h.2 e he).append l'⟩
  | fetched rate => exact List.mem_append_left _ h
  | returned rate =>
      obtain ⟨e, he, hu⟩ := h
      exact ⟨e, he, hu.append l'⟩
  | raised =>
      obtain ⟨hfail, entry, hfound, hstale⟩ := h
      exact ⟨List.mem_append_left _ hfail, entry, hfound.append l', hstale⟩

theorem ttl_lt_stale : rateCacheTtl < rateStaleLimit := by decide

/-- The look of a call, in a cache whose entry was quoted. -/
theorem explained_afterLook (hfound : Found now l i w.entry)
    (hentry : ∀ e ∈ w.entry, Quoted now l e) :
    Explained now l i (afterLook (now i) w.entry) := by
  unfold afterLook
  split
  · next e he =>
      split
      · next hfresh =>
          exact ⟨e, rfl, hentry e he, hfresh.trans ttl_lt_stale,
            fun hold => absurd hfresh (not_lt.mpr hold)⟩
      · exact ⟨hfound, hentry⟩
  · next he => exact ⟨he ▸ hfound, by simp⟩

/-- The request of the call has failed. -/
theorem explained_afterFailure {entry : Option RateEntry}
    (h : Explained now l i (.fetching entry)) (hfail : (i, .answer none) ∈ l) :
    Explained now l i (afterFailure (now i) entry) := by
  obtain ⟨hfound, hquoted⟩ := h
  unfold afterFailure
  split
  · next e =>
      split
      · next hrecent => exact ⟨e, rfl, hquoted e rfl, hrecent, fun _ => hfail⟩
      · next hstale =>
          refine ⟨hfail, _, hfound, fun e' he' => ?_⟩
          cases he'
          exact not_lt.mp hstale
  · exact ⟨hfail, _, hfound, by simp⟩

/-- What holds after every event: the cache holds a quote, and every call is where it should be. -/
structure Sound (now : ℕ → Time) (l : List (ℕ × RateEvent)) (w : RateWorld) : Prop where
  entry : ∀ e ∈ w.entry, Quoted now l e
  calls : ∀ i, Explained now l i (w.calls i)

/-- Only call `i` has moved. -/
theorem Sound.move {c : RateCall} {entry : Option RateEntry} (h : Sound now l w)
    (l' : List (ℕ × RateEvent)) (hentry : ∀ e ∈ entry, Quoted now (l ++ l') e)
    (hc : Explained now (l ++ l') i c) :
    Sound now (l ++ l') ⟨entry, Function.update w.calls i c⟩ where
  entry := hentry
  calls j := by
    by_cases hj : j = i
    · subst hj
      simpa using hc
    · simpa [Function.update_of_ne hj] using (h.calls j).append l'

/-- **One event.** -/
theorem Sound.step (h : Sound now l w) (hl : Runs now l w) (hs : w.step now i e = some w') :
    Sound now (l ++ [(i, e)]) w' := by
  have hlast : (i, e) ∈ l ++ [(i, e)] := by simp
  have hcall := (h.calls i).append [(i, e)]
  have hkept : ∀ e' ∈ w.entry, Quoted now (l ++ [(i, e)]) e' :=
    fun e' he' => (h.entry e' he').append _
  unfold RateWorld.step at hs
  split at hs
  · obtain rfl := Option.some.inj hs
    exact h.move _ hkept (explained_afterLook ⟨l, [], w, rfl, hl, rfl⟩ hkept)
  · obtain rfl := Option.some.inj hs
    exact h.move _ hkept hlast
  · next hfetch =>
      obtain rfl := Option.some.inj hs
      rw [hfetch] at hcall
      exact h.move _ hkept (explained_afterFailure hcall hlast)
  · next rate hfetched =>
      obtain rfl := Option.some.inj hs
      rw [hfetched] at hcall
      have hquote : Quoted now (l ++ [(i, .store)]) ⟨rate, now i⟩ := ⟨i, hcall, rfl⟩
      have hage : RateEntry.age ⟨rate, now i⟩ (now i) = 0 := sub_self (now i)
      refine h.move _ (fun e' he' => ?_) ⟨⟨rate, now i⟩, rfl, hquote, ?_, fun hold => ?_⟩
      · cases he'
        exact hquote
      · rw [hage]
        decide
      · rw [hage] at hold
        exact absurd hold (by decide)
  · cases hs

/-- **Every run.** -/
theorem Runs.sound (h : Runs now l w) : Sound now l w := by
  induction h with
  | start => exact ⟨by simp, fun _ => trivial⟩
  | step hl hs ih => exact ih.step hl hs

end RateWorld

/-! ## The rate of a call -/

section

variable {now : ℕ → Time} {l : List (ℕ × RateEvent)} {w : RateWorld}

/-- **The rate of a call.** However the calls interleave, a call returns a rate that CoinGecko gave to
a call less than a day earlier, and one that is five minutes old or more only when its own request has
failed. It raises only when its request has failed and the cache, when it looked, had nothing younger
than a day. -/
theorem rate_fresh (h : RateWorld.Runs now l w) (i : ℕ) :
    (∀ rate, w.calls i = .returned rate → ∃ j, (j, .answer (some rate)) ∈ l ∧
      now i - now j < rateStaleLimit ∧
      (rateCacheTtl ≤ now i - now j → (i, .answer none) ∈ l)) ∧
    (w.calls i = .raised → (i, .answer none) ∈ l ∧
      ∃ pre post seen, l = pre ++ (i, .look) :: post ∧ RateWorld.Runs now pre seen ∧
        ∀ e ∈ seen.entry, rateStaleLimit ≤ e.age (now i)) := by
  have hi := h.sound.calls i
  constructor
  · intro rate hrate
    rw [hrate] at hi
    obtain ⟨e, rfl, ⟨j, hj, hnow⟩, hrecent, hfailed⟩ := hi
    rw [RateEntry.age, hnow] at hrecent hfailed
    exact ⟨j, hj, hrecent, hfailed⟩
  · intro hraised
    rw [hraised] at hi
    obtain ⟨hfail, _, ⟨pre, post, seen, hl, hpre, rfl⟩, hstale⟩ := hi
    exact ⟨hfail, pre, post, seen, hl, hpre, hstale⟩

end

/-- Call 0 fetches a rate, and call 1 looks an hour later, while CoinGecko is down. -/
def fetchThenOutage : List (ℕ × RateEvent) :=
  [(0, .look), (0, .answer (some 150)), (0, .store), (1, .look), (1, .answer none)]

theorem rate_fresh_outage : ∃ j, (j, RateEvent.answer (some 150)) ∈ fetchThenOutage ∧
    hours 1 - hours (j : ℕ) < rateStaleLimit := by
  have hend : (RateWorld.replay (fun i => hours i) fetchThenOutage {}).map (·.calls 1) =
      some (.returned 150) := by decide +kernel
  obtain ⟨w, hw, hreturned⟩ := Option.map_eq_some_iff.mp hend
  obtain ⟨j, hj, hrecent, -⟩ :=
    (rate_fresh (RateWorld.Runs.start.replay hw) 1).1 150 hreturned
  exact ⟨j, hj, hrecent⟩

/-! ## The billing run -/

/-- What the call gives to its billing run; `none` when it has raised. -/
def RateCall.result : RateCall → Option ℚ
  | returned rate => some rate
  | _ => none

/-- Billing runs one after the other, each at the rate of its call, over the agents it lists. -/
def billAll (now : ℕ → Time) (w : RateWorld) (runs : List (ℕ × List Id))
    (s : Id → BillingAccount) : Id → BillingAccount :=
  runs.foldl (fun s r => dailyRun (now r.1) (w.calls r.1).result r.2 s) s

section

variable {P : AgentBillingHistory → Prop} {a b : BillingAccount} {s s' : Id → BillingAccount}

/-- What a loop does to every account. -/
theorem forAgents_keeps {f : BillingAccount → Except Exn BillingAccount} {Q : Id → BillingAccount → Prop}
    (hf : ∀ id a b, Q id a → f a = .ok b → Q id b) {l : List Id} (h : forAgents f l s = .ok s')
    (hs : ∀ id, Q id (s id)) (id : Id) : Q id (s' id) := by
  induction l generalizing s with
  | nil =>
      rw [forAgents, Except.ok.injEq] at h
      exact h ▸ hs id
  | cons a l ih =>
      rw [forAgents] at h
      cases ha : f (s a) with
      | error e =>
          rw [ha] at h
          cases h
      | ok b =>
          rw [ha] at h
          refine ih h fun j => ?_
          by_cases hj : j = a
          · subst hj
            rw [Function.update_self]
            exact hf j _ _ (hs j) ha
          · rw [Function.update_of_ne hj]
            exact hs j

theorem record_rows {row : AgentBillingHistory} (ha : ∀ r ∈ a.history, P r) (hrow : P row) :
    ∀ r ∈ (a.record row).history, P r := by
  intro r hr
  rcases List.mem_append.mp hr with hr | hr
  · exact ha r hr
  · rwa [List.mem_singleton.mp hr]

theorem billAgent_rows {now : Time} {rate : ℚ}
    (hP : ∀ row : AgentBillingHistory, row.rate_applied = rate → row.created_at = now → P row)
    (ha : ∀ r ∈ a.history, P r) (h : billAgent now rate a = .ok b) : ∀ r ∈ b.history, P r := by
  unfold billAgent at h
  split at h
  · exact Except.ok.inj h ▸ ha
  · simp only at h
    split at h
    · exact Except.ok.inj h ▸ ha
    · cases hpico : usdToXmrPiconero a.tier.usdPrice rate with
      | error e =>
          rw [hpico] at h
          cases h
      | ok amount_pico =>
          rw [hpico] at h
          simp only [bind, Except.bind] at h
          split at h
          · obtain rfl := Except.ok.inj h
            exact record_rows ha (hP _ rfl rfl)
          · next paid hdeduct =>
              obtain rfl := Except.ok.inj h
              have hkept : paid.history = a.history := by
                unfold BillingAccount.deduct at hdeduct
                split at hdeduct
                · cases hdeduct
                · rw [← Option.some.inj hdeduct]
              exact record_rows (a := { paid with tier_grace_until := none }) (hkept ▸ ha)
                (hP _ rfl rfl)

/-- Every row that a run writes is of its time: a charge or a grace period at its rate, or a downgrade
without a charge. -/
theorem dailyRun_rows {now : Time} {rate : Option ℚ} {Q : Id → AgentBillingHistory → Prop}
    (hrate : ∀ id (row : AgentBillingHistory), row.rate_applied ∈ rate → row.created_at = now →
      Q id row)
    (hdown : ∀ id (row : AgentBillingHistory), row.status = .monthly_grace_expired_downgrade →
      row.amount_piconero = 0 → Q id row)
    (agents : List Id) (hs : ∀ id, ∀ r ∈ (s id).history, Q id r) (id : Id) :
    ∀ r ∈ (dailyRun now rate agents s id).history, Q id r := by
  unfold dailyRun billProSubscriptions
  cases rate with
  | none => exact hs id
  | some rate =>
      simp only [Except.bind]
      cases hbill : forAgents (billAgent now rate)
          (agents.filter fun j => (s j).is_active ∧ (s j).tier.paid) s with
      | error e => exact hs id
      | ok s₂ =>
          have hbilled : ∀ j, ∀ r ∈ (s₂ j).history, Q j r :=
            forAgents_keeps (Q := fun j a => ∀ r ∈ a.history, Q j r) (fun j a b ha hb =>
              billAgent_rows (fun row hr hn => hrate j row (by rw [hr]; rfl) hn) ha hb) hbill hs
          simp only
          cases hsweep : handleGraceExpiry now agents s₂ with
          | error e => exact hs id
          | ok s₃ =>
              refine forAgents_keeps (Q := fun j a => ∀ r ∈ a.history, Q j r)
                (fun j a b ha hb => ?_) hsweep hbilled id
              rw [← Except.ok.inj hb]
              exact record_rows ha (hdown j _ rfl rfl)

end

/-- A row that a billing run may write: a downgrade that charges nothing, or one at a rate that CoinGecko
gave less than a day before. -/
def AgentBillingHistory.Rated (now : ℕ → Time) (l : List (ℕ × RateEvent)) (row : AgentBillingHistory) :
    Prop :=
  (row.status = .monthly_grace_expired_downgrade ∧ row.amount_piconero = 0) ∨
    ∃ j, (j, .answer (some row.rate_applied)) ∈ l ∧ row.created_at - now j < rateStaleLimit

/-- **Charges at a fresh rate.** Whatever calls interleave in a process and whichever of them the
billing runs make, every row of the billing history was there before, or is a downgrade that charges
nothing, or applies a rate that CoinGecko gave less than a day before the row was written. -/
theorem billed_at_fresh_rate {now : ℕ → Time} {l : List (ℕ × RateEvent)} {w : RateWorld}
    (h : RateWorld.Runs now l w) (runs : List (ℕ × List Id)) (s : Id → BillingAccount) (id : Id) :
    ∀ row ∈ (billAll now w runs s id).history, row ∈ (s id).history ∨ row.Rated now l := by
  suffices hall : ∀ s', (∀ j, ∀ row ∈ (s' j).history, row ∈ (s j).history ∨ row.Rated now l) →
      ∀ j, ∀ row ∈ (billAll now w runs s' j).history, row ∈ (s j).history ∨ row.Rated now l from
    hall s (fun _ _ hrow => .inl hrow) id
  induction runs with
  | nil => exact fun s' hs' => hs'
  | cons r runs ih =>
      refine fun s' hs' => ih _ fun j => dailyRun_rows (fun k row hrate hnow => ?_)
        (fun k row hdown hfree => .inr (.inl ⟨hdown, hfree⟩)) r.2 hs' j
      -- the call of the run has returned this rate
      have hcall := h.sound.calls r.1
      cases hr : w.calls r.1 with
      | returned rate =>
          rw [hr] at hrate hcall
          obtain ⟨e, rfl, ⟨i, hi, he⟩, hrecent, -⟩ := hcall
          have hrow : e.rate = row.rate_applied := Option.some.inj hrate
          rw [RateEntry.age, he, ← hnow] at hrecent
          exact .inr (.inr ⟨i, hrow ▸ hi, hrecent⟩)
      | _ =>
          rw [hr] at hrate
          cases hrate

/-- During the outage an agent is charged at the rate of an hour ago. -/
theorem billed_at_fresh_rate_outage : ∃ row : AgentBillingHistory, row.status = .monthly_charge ∧
    ∃ j, (j, RateEvent.answer (some row.rate_applied)) ∈ fetchThenOutage ∧
      row.created_at - hours (j : ℕ) < rateStaleLimit := by
  have hend : (RateWorld.replay (fun i => hours i) fetchThenOutage {}).map (fun w =>
      ((billAll (fun i => hours i) w [(1, [1])]
        (fun _ => { tier := .VERIFIED, available := 1 }) 1).history.map (·.status))) =
      some [.monthly_charge] := by decide +kernel
  obtain ⟨w, hw, hhistory⟩ := Option.map_eq_some_iff.mp hend
  obtain ⟨row, hrow, hstatus⟩ := List.mem_map.mp (hhistory ▸ List.mem_cons_self)
  refine ⟨row, hstatus, ?_⟩
  obtain hold | ⟨hdown, -⟩ | hrated :=
    billed_at_fresh_rate (RateWorld.Runs.start.replay hw) [(1, [1])] _ 1 row hrow
  · cases hold
  · rw [hstatus] at hdown
    cases hdown
  · exact hrated

end Sthrip
