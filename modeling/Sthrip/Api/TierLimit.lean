import Sthrip.Db.TransactionRepo

set_option autoImplicit false

/-! # The monthly limit of the FREE tier

The middleware of `api/middleware/tier_limit.py` for the hub-routing requests of one agent. It resolves the
agent and reads the counter in sessions of their own; a request that is let through makes its transfer in
a later session, which increments the counter (`recordTransaction`) and commits or is rolled back. Nothing
looks at the counter again, so that several requests may be let through on the same count.
-/

namespace Sthrip.TierLimit

open Txn Prog

/-! ## The middleware -/

/-- `FREE_TIER_MONTHLY_LIMIT` -/
def freeTierMonthlyLimit : ℤ := 100

/-- The columns of an agent that the middleware reads. -/
structure Plan where
  tier : AgentTier
  tier_grace_until : Option Time := none
  deriving DecidableEq

/-- `_effective_tier_is_free` -/
def effectiveTierIsFree (agent : Plan) (now : Time) : Bool :=
  if agent.tier = .FREE then true
  else
    match agent.tier_grace_until with
    | none => false
    | some grace => if grace > now then false else true

/-- How far a request has come. -/
inductive Request
  /-- `_resolve_agent` has read the agent. -/
  | resolved (agent : Plan)
  /-- The agent counts as FREE, and `_current_count` is about to run. -/
  | counting
  /-- The request has been let through. -/
  | admitted
  /-- `record_transaction` has incremented the counter of this month in a session that is still open. -/
  | recorded (month : ℕ)
  deriving DecidableEq

structure World where
  now : Time
  agent : Plan
  /-- The committed counters of the agent, by month. -/
  counts : ℕ → ℤ := fun _ => 0
  requests : List Request := []
  /-- When the agent's commission transfers committed. Nothing reads it. -/
  transfers : List Time := []

/-- The month of the clock. -/
def World.month (w : World) : ℕ := Calendar.month w.now

inductive Step
  /-- Time passes. -/
  | wait (t : Time)
  /-- Another session changes the tier or the grace period. -/
  | plan (agent : Plan)
  /-- A request arrives, and its agent is read. -/
  | arrive
  /-- `enforce_tier_limit` looks at the tier. -/
  | enforce (k : ℕ)
  /-- `_current_count` -/
  | count (k : ℕ)
  /-- The session of the transfer comes to `record_transaction`. -/
  | record (k : ℕ)
  /-- The session of the transfer commits. -/
  | commit (k : ℕ)
  /-- The request ends without a transfer: it fails, it is rolled back, or it is a replay. -/
  | leave (k : ℕ)

namespace World

def enforce (w : World) (k : ℕ) : World :=
  match w.requests[k]? with
  | some (.resolved agent) =>
      let request := if effectiveTierIsFree agent w.now then Request.counting else .admitted
      { w with requests := w.requests.set k request }
  | _ => w

def count (w : World) (k : ℕ) : World :=
  match w.requests[k]? with
  | some .counting =>
      if w.counts w.month ≥ freeTierMonthlyLimit then { w with requests := w.requests.eraseIdx k }
      else { w with requests := w.requests.set k .admitted }
  | _ => w

/-- The row of the counter stays locked until the session ends. -/
def record (w : World) (k : ℕ) : World :=
  match w.requests[k]? with
  | some .admitted =>
      if .recorded w.month ∈ w.requests then w
      else { w with requests := w.requests.set k (.recorded w.month) }
  | _ => w

/-- One more transfer in a month. -/
def bump (counts : ℕ → ℤ) (month : ℕ) : ℕ → ℤ := Function.update counts month (counts month + 1)

def commit (w : World) (k : ℕ) : World :=
  match w.requests[k]? with
  | some (.recorded month) =>
      { w with
        counts := bump w.counts month
        requests := w.requests.eraseIdx k
        transfers := w.now :: w.transfers }
  | _ => w

/-- One step. What is not possible does nothing. -/
def step (w : World) : Step → World
  | .wait t => { w with now := max w.now t }
  | .plan agent => { w with agent }
  | .arrive => { w with requests := w.requests ++ [.resolved w.agent] }
  | .enforce k => w.enforce k
  | .count k => w.count k
  | .record k => w.record k
  | .commit k => w.commit k
  | .leave k => { w with requests := w.requests.eraseIdx k }

def run (w : World) (steps : List Step) : World := steps.foldl step w

/-- Is the agent effectively FREE? -/
def free (w : World) : Bool := effectiveTierIsFree w.agent w.now

/-- The transfers that the agent has committed in a month. -/
def made (w : World) (month : ℕ) : ℤ := w.transfers.countP fun t => Calendar.month t = month

end World

/-! ## The counter of the database -/

/-- `get_current_month_count`, for any month. -/
def countOf (db : DB schema) (agent_id : Id) (month : ℕ) : ℤ :=
  (db.rows (Key.monthlyStats agent_id month)).elim 0 (·.transaction_count)

theorem countOf_put (db : DB schema) (agent_id : Id) (month : ℕ) (row : AgentMonthlyStats) :
    countOf (db.put (Key.monthlyStats agent_id month) row) agent_id =
      Function.update (countOf db agent_id) month row.transaction_count := by
  funext m
  unfold countOf
  by_cases h : m = month
  · rw [h, DB.put_rows_self, Function.update_self]
    rfl
  · rw [DB.put_rows_ne _ _ (by simpa using h), Function.update_of_ne h]

/-- A session that runs `record_transaction` makes one more transfer of the month in which it does. -/
theorem recordTransaction_bump {Ok : StepCond schema} {R : Exn → Solo schema → Prop} {v : Solo schema}
    (agent_id : Id) :
    (recordTransaction agent_id).always Ok (fun _ v' => ∃ now,
      countOf v'.db agent_id = World.bump (countOf v.db agent_id) (Calendar.month now)) R v := by
  refine always_bind (always_now fun now => ?_)
  refine always_bind (always_create (fun _ hnone _ => ?_) fun row hrow => ?_)
  · refine always_onlyIf (fun hne => absurd hne (by decide)) fun _ => ⟨now, ?_⟩
    have hzero : countOf v.db agent_id (Calendar.month now) = 0 := by
      unfold countOf
      rw [hnone]
      rfl
    rw [countOf_put, World.bump, hzero]
    rfl
  · refine always_onlyIf (fun _ => always_update (fun r _ hr _ _ => ⟨now, ?_⟩) fun hmiss => ?_)
      fun hne => ?_
    · have hcount : countOf v.db agent_id (Calendar.month now) = r.transaction_count := by
        unfold countOf
        rw [hr]
        rfl
      rw [countOf_put, World.bump, hcount]
    · cases hmiss row hrow
    · exact absurd rfl hne

/-! ## What is asked of the limit -/

namespace World

variable {w : World}

/-- The counter of the month is the number of the transfers, and at most the limit while the agent is
effectively FREE. -/
structure Enforced (w : World) : Prop where
  counted : w.counts w.month = w.made w.month
  within : w.free = true → w.counts w.month ≤ freeTierMonthlyLimit

/-- The agent becomes effectively FREE only in a month in which it has not made too many transfers yet. -/
def MayBecomeFree (w : World) (agent : Plan) (now : Time) : Prop :=
  w.free = false → effectiveTierIsFree agent now = true →
    w.counts (Calendar.month now) ≤ freeTierMonthlyLimit

/-- A session commits in the month in which it has incremented the counter, and others have not brought the
counter of a FREE agent to the limit meanwhile. -/
def MayCommit (w : World) (k : ℕ) : Prop :=
  ∀ month, w.requests[k]? = some (.recorded month) →
    month = w.month ∧ (w.free = true → w.counts month < freeTierMonthlyLimit)

/-- The condition on a step. -/
def Meets (w : World) : Step → Prop
  | .wait t => w.MayBecomeFree w.agent (max w.now t)
  | .plan agent => w.MayBecomeFree agent w.now
  | .commit k => w.MayCommit k
  | _ => True

/-- What holds while the steps meet the condition. -/
structure Inv (w : World) : Prop where
  counted : ∀ month, w.counts month = w.made month
  past : ∀ t ∈ w.transfers, t ≤ w.now
  within : w.free = true → w.counts w.month ≤ freeTierMonthlyLimit

theorem Inv.enforced (h : Inv w) : Enforced w := ⟨h.counted w.month, h.within⟩

/-- No transfer has been made in a month to come. -/
theorem Inv.later (h : Inv w) {month : ℕ} (hlater : w.month < month) : w.counts month = 0 := by
  rw [h.counted]
  unfold made
  rw [Nat.cast_eq_zero, List.countP_eq_zero]
  intro t ht hmonth
  have hle : Calendar.month t ≤ w.month := Calendar.month_mono (h.past t ht)
  have heq : Calendar.month t = month := of_decide_eq_true hmonth
  omega

/-! ## The steps -/

theorem Inv.of_requests (h : Inv w) (requests : List Request) : Inv { w with requests } :=
  ⟨h.counted, h.past, h.within⟩

theorem enforce_eq (w : World) (k : ℕ) : ∃ requests, w.enforce k = { w with requests } := by
  unfold enforce
  split
  · exact ⟨_, rfl⟩
  · exact ⟨w.requests, rfl⟩

theorem count_eq (w : World) (k : ℕ) : ∃ requests, w.count k = { w with requests } := by
  unfold count
  split
  · split_ifs
    · exact ⟨_, rfl⟩
    · exact ⟨_, rfl⟩
  · exact ⟨w.requests, rfl⟩

theorem record_eq (w : World) (k : ℕ) : ∃ requests, w.record k = { w with requests } := by
  unfold record
  split
  · split_ifs
    · exact ⟨w.requests, rfl⟩
    · exact ⟨_, rfl⟩
  · exact ⟨w.requests, rfl⟩

/-- A commit counts in the month of the record, and is made in the month of the clock. -/
theorem commit_eq {k month : ℕ} (hk : w.requests[k]? = some (.recorded month)) :
    w.commit k =
      { w with
        counts := bump w.counts month
        requests := w.requests.eraseIdx k
        transfers := w.now :: w.transfers } := by
  unfold commit
  rw [hk]

theorem commit_of_not {k : ℕ} (hk : ∀ month, w.requests[k]? ≠ some (.recorded month)) :
    w.commit k = w := by
  unfold commit
  split
  · next month heq => exact absurd heq (hk month)
  · rfl

theorem made_cons (w : World) (requests : List Request) (counts : ℕ → ℤ) (month : ℕ) :
    made { w with counts, requests, transfers := w.now :: w.transfers } month =
      w.made month + if w.month = month then 1 else 0 := by
  unfold made World.month
  rw [List.countP_cons]
  push_cast
  simp only [decide_eq_true_eq]

theorem Inv.wait (h : Inv w) {t : Time} (hmeets : w.MayBecomeFree w.agent (max w.now t)) :
    Inv { w with now := max w.now t } := by
  refine ⟨h.counted, fun t' ht' => (h.past t' ht').trans (le_max_left _ _), fun hfree => ?_⟩
  by_cases hbefore : w.free = true
  · have hle : w.month ≤ Calendar.month (max w.now t) := Calendar.month_mono (le_max_left _ _)
    show w.counts (Calendar.month (max w.now t)) ≤ freeTierMonthlyLimit
    rcases hle.eq_or_lt with heq | hlt
    · rw [← heq]
      exact h.within hbefore
    · -- the counter of a new month starts at zero
      rw [h.later hlt]
      decide
  · exact hmeets (Bool.eq_false_iff.mpr hbefore) hfree

theorem Inv.plan (h : Inv w) {agent : Plan} (hmeets : w.MayBecomeFree agent w.now) :
    Inv { w with agent } := by
  refine ⟨h.counted, h.past, fun hfree => ?_⟩
  by_cases hbefore : w.free = true
  · exact h.within hbefore
  · exact hmeets (Bool.eq_false_iff.mpr hbefore) hfree

theorem Inv.commit (h : Inv w) {k : ℕ} (hmeets : w.MayCommit k) : Inv (w.commit k) := by
  by_cases hk : ∃ month, w.requests[k]? = some (.recorded month)
  · obtain ⟨month, hk⟩ := hk
    obtain ⟨rfl, hroom⟩ := hmeets month hk
    rw [commit_eq hk]
    refine ⟨fun m => ?_, fun t ht => ?_, fun hfree => ?_⟩
    · rw [made_cons]
      show Function.update w.counts w.month (w.counts w.month + 1) m = _
      by_cases hm : w.month = m
      · rw [← hm, Function.update_self, if_pos rfl, h.counted]
      · rw [Function.update_of_ne (Ne.symm hm), if_neg hm, h.counted, add_zero]
    · rcases List.mem_cons.mp ht with rfl | hold
      · exact le_rfl
      · exact h.past t hold
    · have hlt := hroom hfree
      show Function.update w.counts w.month (w.counts w.month + 1) w.month ≤ freeTierMonthlyLimit
      rw [Function.update_self]
      omega
  · rw [commit_of_not (not_exists.mp hk)]
    exact h

theorem Inv.step (h : Inv w) {s : Step} (hmeets : w.Meets s) : Inv (w.step s) := by
  cases s with
  | wait t => exact h.wait hmeets
  | plan agent => exact h.plan hmeets
  | arrive => exact h.of_requests _
  | enforce k =>
      obtain ⟨requests, heq⟩ := w.enforce_eq k
      exact (congrArg Inv heq).mpr (h.of_requests requests)
  | count k =>
      obtain ⟨requests, heq⟩ := w.count_eq k
      exact (congrArg Inv heq).mpr (h.of_requests requests)
  | record k =>
      obtain ⟨requests, heq⟩ := w.record_eq k
      exact (congrArg Inv heq).mpr (h.of_requests requests)
  | commit k => exact h.commit hmeets
  | leave k => exact h.of_requests _

/-- The condition is needed. -/
theorem Inv.meets_commit (h : Inv w) {k : ℕ} (henforced : Enforced (w.commit k)) : w.MayCommit k := by
  intro month hk
  rw [commit_eq hk] at henforced
  have hmade := made_cons w (w.requests.eraseIdx k) (bump w.counts month) w.month
  rw [if_pos rfl, ← h.counted] at hmade
  have hcounted : bump w.counts month w.month = w.counts w.month + 1 := henforced.counted.trans hmade
  have hmonth : month = w.month := by
    by_contra hne
    have hsame : bump w.counts month w.month = w.counts w.month := Function.update_of_ne (Ne.symm hne) ..
    omega
  refine ⟨hmonth, fun hfree => ?_⟩
  have hle : bump w.counts month w.month ≤ freeTierMonthlyLimit := henforced.within hfree
  have hself : bump w.counts month month = w.counts month + 1 := Function.update_self ..
  rw [← hmonth, hself] at hle
  omega

theorem Inv.meets (h : Inv w) {s : Step} (henforced : Enforced (w.step s)) : w.Meets s := by
  cases s with
  | wait t => exact fun _ => henforced.within
  | plan agent => exact fun _ => henforced.within
  | commit k => exact h.meets_commit henforced
  | arrive => trivial
  | enforce k => trivial
  | count k => trivial
  | record k => trivial
  | leave k => trivial

/-! ## Runs -/

/-- An agent that has made no transfer yet. -/
def start (now : Time) (agent : Plan) : World where
  now := now
  agent := agent

theorem inv_start (now : Time) (agent : Plan) : Inv (start now agent) := by
  refine ⟨fun _ => rfl, fun t ht => (List.not_mem_nil ht).elim, fun _ => ?_⟩
  show (0 : ℤ) ≤ freeTierMonthlyLimit
  decide

theorem run_snoc (w : World) (before : List Step) (s : Step) :
    w.run (before ++ [s]) = (w.run before).step s := List.foldl_append ..

theorem Inv.run (h : Inv w) {steps : List Step}
    (hmeets : ∀ before s, before ++ [s] <+: steps → Inv (w.run before) → (w.run before).Meets s) :
    ∀ before, before <+: steps → Inv (w.run before) := by
  intro before
  induction before using List.reverseRecOn with
  | nil => exact fun _ => h
  | append_singleton before s ih =>
      intro hbefore
      have hinv := ih ((List.prefix_append before [s]).trans hbefore)
      rw [run_snoc]
      exact hinv.step (hmeets before s hbefore hinv)

end World

/-- **When the limit is enforced**: in every state of a run, exactly if every session commits in the month
in which it has incremented the counter and before others have brought the counter of a FREE agent to the
limit, and the agent becomes effectively FREE only in a month without too many transfers. -/
theorem limit_enforced_iff (now : Time) (agent : Plan) (steps : List Step) :
    (∀ before, before <+: steps → ((World.start now agent).run before).Enforced) ↔
      ∀ before s, before ++ [s] <+: steps → ((World.start now agent).run before).Meets s := by
  have hstart := World.inv_start now agent
  constructor
  · intro henforced
    have hneeded : ∀ before s, before ++ [s] <+: steps → World.Inv ((World.start now agent).run before) →
        ((World.start now agent).run before).Meets s := by
      intro before s hbefore hinv
      refine hinv.meets ?_
      rw [← World.run_snoc]
      exact henforced _ hbefore
    intro before s hbefore
    have hinv := hstart.run hneeded before ((List.prefix_append before [s]).trans hbefore)
    exact hneeded before s hbefore hinv
  · intro hmeets before hbefore
    exact (hstart.run (fun before s hb _ => hmeets before s hb) before hbefore).enforced

/-! ## Checks that leave room -/

/-- The request has been let through and has not ended. -/
def Request.underWay : Request → Bool
  | .admitted => true
  | .recorded _ => true
  | _ => false

namespace World

variable {w : World}

def underWay (w : World) : ℕ := w.requests.countP Request.underWay

/-- The check leaves room for the requests under way, and the agent stays FREE. -/
def LeavesRoom (w : World) : Step → Prop
  | .plan agent => agent.tier = .FREE
  | .count k => w.requests[k]? = some .counting → w.counts w.month < freeTierMonthlyLimit →
      w.counts w.month + w.underWay < freeTierMonthlyLimit
  | .commit k => ∀ month, w.requests[k]? = some (.recorded month) → month = w.month
  | _ => True

/-- The requests under way fit below the limit. -/
structure Fits (w : World) : Prop where
  inv : Inv w
  tier : w.agent.tier = .FREE
  resolved : ∀ agent, .resolved agent ∈ w.requests → agent.tier = .FREE
  room : w.counts w.month + w.underWay ≤ freeTierMonthlyLimit

theorem free_of_tier {agent : Plan} (h : agent.tier = .FREE) (now : Time) :
    effectiveTierIsFree agent now = true := if_pos h

theorem countP_set_le {l : List Request} {k : ℕ} {r r' : Request} (hk : l[k]? = some r)
    (h : r'.underWay = true → r.underWay = true) :
    (l.set k r').countP Request.underWay ≤ l.countP Request.underWay := by
  obtain ⟨hlt, hget⟩ := List.getElem?_eq_some_iff.mp hk
  have hpos : r.underWay = true → 0 < l.countP Request.underWay := fun hr =>
    List.countP_pos_iff.mpr ⟨r, List.mem_of_getElem? hk, hr⟩
  rw [List.countP_set hlt, hget]
  by_cases hr : r.underWay = true
  · have hone := hpos hr
    rw [if_pos hr]
    split_ifs <;> omega
  · rw [if_neg hr, if_neg fun hr' => hr (h hr')]
    omega

theorem countP_set_le_succ {l : List Request} {k : ℕ} {r : Request} (hk : l[k]? = some r)
    (r' : Request) : (l.set k r').countP Request.underWay ≤ l.countP Request.underWay + 1 := by
  obtain ⟨hlt, -⟩ := List.getElem?_eq_some_iff.mp hk
  rw [List.countP_set hlt]
  split_ifs <;> omega

theorem countP_eraseIdx_lt {l : List Request} {k : ℕ} {r : Request} (hk : l[k]? = some r)
    (hr : r.underWay = true) :
    (l.eraseIdx k).countP Request.underWay + 1 = l.countP Request.underWay := by
  obtain ⟨hlt, rfl⟩ := List.getElem?_eq_some_iff.mp hk
  rw [← (List.getElem_cons_eraseIdx_perm hlt).countP_eq, List.countP_cons, if_pos hr]

/-- Fewer requests under way leave as much room. -/
theorem Fits.of_requests (h : Fits w) {requests : List Request}
    (hresolved : ∀ agent, .resolved agent ∈ requests → agent.tier = .FREE)
    (hle : requests.countP Request.underWay ≤ w.underWay) : Fits { w with requests } := by
  refine ⟨h.inv.of_requests requests, h.tier, hresolved, ?_⟩
  have hroom := h.room
  show w.counts w.month + (requests.countP Request.underWay : ℕ) ≤ freeTierMonthlyLimit
  omega

theorem Fits.erase (h : Fits w) (k : ℕ) : Fits { w with requests := w.requests.eraseIdx k } :=
  h.of_requests (fun agent hmem => h.resolved agent (List.mem_of_mem_eraseIdx hmem))
    (List.eraseIdx_sublist ..).countP_le

theorem resolved_set {l : List Request} {k : ℕ} {r : Request} (hr : ∀ agent, r ≠ .resolved agent)
    (h : ∀ agent, .resolved agent ∈ l → agent.tier = .FREE) :
    ∀ agent, .resolved agent ∈ l.set k r → agent.tier = .FREE := by
  intro agent hmem
  rcases List.mem_or_eq_of_mem_set hmem with hold | heq
  · exact h agent hold
  · exact absurd heq.symm (hr agent)

theorem Fits.enforce (h : Fits w) (k : ℕ) : Fits (w.enforce k) := by
  unfold World.enforce
  split
  · next agent hk =>
      have hfree := free_of_tier (h.resolved agent (List.mem_of_getElem? hk)) w.now
      rw [hfree]
      exact h.of_requests (resolved_set nofun h.resolved) (countP_set_le hk nofun)
  · exact h

theorem Fits.count (h : Fits w) {k : ℕ} (hroom : w.LeavesRoom (.count k)) : Fits (w.count k) := by
  unfold World.count
  split
  · next hk =>
      split_ifs with hfull
      · exact h.erase k
      · have hfits := hroom hk (not_le.mp hfull)
        have hle := countP_set_le_succ hk .admitted
        refine ⟨h.inv.of_requests _, h.tier, resolved_set nofun h.resolved, ?_⟩
        show w.counts w.month + ((w.requests.set k .admitted).countP Request.underWay : ℕ) ≤ _
        unfold underWay at hfits
        omega
  · exact h

theorem Fits.record (h : Fits w) (k : ℕ) : Fits (w.record k) := by
  unfold World.record
  split
  · next hk =>
      split_ifs
      · exact h
      · exact h.of_requests (resolved_set nofun h.resolved) (countP_set_le hk fun _ => rfl)
  · exact h

/-- What fits below the limit commits below it. -/
theorem Fits.mayCommit (h : Fits w) {k : ℕ} (hroom : w.LeavesRoom (.commit k)) : w.MayCommit k := by
  intro month hk
  obtain rfl := hroom month hk
  have hone := countP_eraseIdx_lt hk rfl
  have hle := h.room
  unfold underWay at hle
  exact ⟨rfl, fun _ => by omega⟩

theorem Fits.commit (h : Fits w) {k : ℕ} (hroom : w.LeavesRoom (.commit k)) : Fits (w.commit k) := by
  have hinv := h.inv.commit (h.mayCommit hroom)
  by_cases hk : ∃ month, w.requests[k]? = some (.recorded month)
  · obtain ⟨month, hk⟩ := hk
    obtain rfl := hroom month hk
    rw [commit_eq hk] at hinv ⊢
    refine ⟨hinv, h.tier, fun agent hmem => h.resolved agent (List.mem_of_mem_eraseIdx hmem), ?_⟩
    have hone := countP_eraseIdx_lt hk rfl
    have hle := h.room
    unfold underWay at hle
    show Function.update w.counts w.month (w.counts w.month + 1) w.month +
      ((w.requests.eraseIdx k).countP Request.underWay : ℕ) ≤ freeTierMonthlyLimit
    rw [Function.update_self]
    omega
  · rw [commit_of_not (not_exists.mp hk)]
    exact h

theorem Fits.wait (h : Fits w) (t : Time) : Fits { w with now := max w.now t } := by
  have hfree : w.free = true := free_of_tier h.tier w.now
  have hinv : Inv { w with now := max w.now t } :=
    h.inv.wait fun hnot => absurd hfree (by rw [hnot]; decide)
  refine ⟨hinv, h.tier, h.resolved, ?_⟩
  have hle : w.month ≤ Calendar.month (max w.now t) := Calendar.month_mono (le_max_left _ _)
  have hroom := h.room
  show w.counts (Calendar.month (max w.now t)) + (w.underWay : ℤ) ≤ freeTierMonthlyLimit
  rcases hle.eq_or_lt with heq | hlt
  · rwa [← heq]
  · have hpos : 0 ≤ w.counts w.month := by
      rw [h.inv.counted]
      exact Int.natCast_nonneg _
    rw [h.inv.later hlt]
    omega

theorem Fits.step (h : Fits w) {s : Step} (hroom : w.LeavesRoom s) : Fits (w.step s) := by
  cases s with
  | wait t => exact h.wait t
  | plan agent =>
      have hfree : w.free = true := free_of_tier h.tier w.now
      exact ⟨h.inv.plan fun hnot => absurd hfree (by rw [hnot]; decide), hroom, h.resolved, h.room⟩
  | arrive =>
      refine h.of_requests (fun agent hmem => ?_) ?_
      · rcases List.mem_append.mp hmem with hold | hnew
        · exact h.resolved agent hold
        · cases List.mem_singleton.mp hnew
          exact h.tier
      · rw [List.countP_append]
        exact le_rfl
  | enforce k => exact h.enforce k
  | count k => exact h.count hroom
  | record k => exact h.record k
  | commit k => exact h.commit hroom
  | leave k => exact h.erase k

end World

/-- The limit of a FREE agent is enforced if every check leaves room for the requests under way. -/
theorem enforced_of_leavesRoom (now : Time) {steps : List Step}
    (hroom : ∀ before s, before ++ [s] <+: steps →
      ((World.start now { tier := .FREE }).run before).LeavesRoom s) :
    ∀ before, before <+: steps → ((World.start now { tier := .FREE }).run before).Enforced := by
  have hfits : ∀ before, before <+: steps →
      World.Fits ((World.start now { tier := .FREE }).run before) := by
    intro before
    induction before using List.reverseRecOn with
    | nil =>
        intro _
        refine ⟨World.inv_start now _, rfl, fun agent hmem => (List.not_mem_nil hmem).elim, ?_⟩
        show (0 : ℤ) + (0 : ℕ) ≤ freeTierMonthlyLimit
        decide
    | append_singleton before s ih =>
        intro hbefore
        rw [World.run_snoc]
        exact (ih ((List.prefix_append before [s]).trans hbefore)).step (hroom before s hbefore)
  exact fun before hbefore => (hfits before hbefore).inv.enforced

/-! ### A crowd of requests -/

namespace World

/-- Requests that are let through one after another, before any has made its transfer. -/
def letThrough (n : ℕ) : List Step := (List.range n).flatMap fun k => [.arrive, .enforce k, .count k]

/-- The requests that have been let through make their transfers. -/
def transferAll (n : ℕ) : List Step := (List.replicate n [Step.record 0, .commit 0]).flatten

theorem run_append (w : World) (before after : List Step) :
    w.run (before ++ after) = (w.run before).run after := List.foldl_append ..

theorem run_letThrough (now : Time) (n : ℕ) :
    (start now { tier := .FREE }).run (letThrough n) =
      { start now { tier := .FREE } with requests := List.replicate n .admitted } := by
  induction n with
  | zero => rfl
  | succ n ih =>
      have hsplit : letThrough (n + 1) = letThrough n ++ [.arrive, .enforce n, .count n] := by
        unfold letThrough
        rw [List.range_succ, List.flatMap_append, List.flatMap_singleton]
      have hset : ∀ r r' : Request, (List.replicate n Request.admitted ++ [r]).set n r' =
          List.replicate n Request.admitted ++ [r'] := by
        intro r r'
        rw [List.set_append_right _ _ (by simp)]
        simp
      have hget : ∀ r : Request, (List.replicate n Request.admitted ++ [r])[n]? = some r := by
        intro r
        rw [List.getElem?_append_right (by simp)]
        simp
      have hfree : effectiveTierIsFree { tier := .FREE } now = true := rfl
      have hroom : ¬ (0 : ℤ) ≥ freeTierMonthlyLimit := by decide
      rw [hsplit, run_append, ih]
      simp only [run, List.foldl_cons, List.foldl_nil, step, enforce, count, start, hget, hset, hfree,
        if_true, if_neg hroom]
      rw [List.replicate_succ']

theorem run_transferAll (n : ℕ) (w : World) (h : w.requests = List.replicate n .admitted) :
    ∃ transfers, w.run (transferAll n) =
      { w with
        counts := Function.update w.counts w.month (w.counts w.month + n)
        requests := []
        transfers } := by
  induction n generalizing w with
  | zero =>
      refine ⟨w.transfers, ?_⟩
      have hsame : Function.update w.counts w.month (w.counts w.month + (0 : ℕ)) = w.counts := by
        rw [Nat.cast_zero, add_zero, Function.update_eq_self]
      rw [hsame, ← show w.requests = [] from h]
      rfl
  | succ n ih =>
      have hunlocked : Request.recorded w.month ∉ w.requests := by
        rw [h]
        exact fun hmem => nomatch List.eq_of_mem_replicate hmem
      have hrecord : w.record 0 =
          { w with requests := .recorded w.month :: List.replicate n .admitted } := by
        unfold record
        rw [h, List.replicate_succ] at hunlocked ⊢
        dsimp only [List.getElem?_cons_zero]
        rw [if_neg hunlocked]
        rfl
      have hcommit : (w.record 0).commit 0 =
          { w with
            counts := bump w.counts w.month
            requests := List.replicate n .admitted
            transfers := w.now :: w.transfers } := by
        rw [hrecord]
        rfl
      obtain ⟨transfers, heq⟩ := ih ((w.record 0).commit 0) (by rw [hcommit])
      refine ⟨transfers, ?_⟩
      show ((w.record 0).commit 0).run (transferAll n) = _
      rw [heq, hcommit]
      show ({ w with counts := _, requests := [], transfers } : World) = _
      congr 1
      show Function.update (bump w.counts w.month) w.month (bump w.counts w.month w.month + n) = _
      unfold bump
      rw [Function.update_idem, Function.update_self]
      push_cast
      rw [add_assoc, add_comm (1 : ℤ)]

/-- However many requests arrive at once, they all make their transfers. -/
theorem crowd_counts (n : ℕ) :
    ∃ transfers, (start 0 { tier := .FREE }).run (letThrough n ++ transferAll n) =
      { start 0 { tier := .FREE } with
        counts := Function.update (fun _ => 0) (Calendar.month 0) (n : ℤ)
        transfers } := by
  rw [run_append, run_letThrough]
  obtain ⟨transfers, heq⟩ := run_transferAll n
    { start 0 { tier := .FREE } with requests := List.replicate n .admitted } rfl
  refine ⟨transfers, heq.trans ?_⟩
  show ({ start 0 { tier := .FREE } with
    counts := Function.update (fun _ => 0) (Calendar.month 0) (0 + (n : ℤ)), transfers } : World) = _
  rw [zero_add]

theorem le_of_crowd_enforced {n : ℕ}
    (h : Enforced ((start 0 { tier := .FREE }).run (letThrough n ++ transferAll n))) :
    (n : ℤ) ≤ freeTierMonthlyLimit := by
  obtain ⟨transfers, heq⟩ := crowd_counts n
  rw [heq] at h
  have hle : Function.update (fun _ => (0 : ℤ)) (Calendar.month 0) (n : ℤ) (Calendar.month 0) ≤
      freeTierMonthlyLimit := h.within rfl
  rwa [Function.update_self] at hle

end World

/-- One request more than the limit. -/
def crowd : List Step := World.letThrough 101 ++ World.transferAll 101

/-- All of them are let through on the same count. -/
theorem crowd_not_enforced : ¬ ((World.start 0 { tier := .FREE }).run crowd).Enforced := fun h =>
  absurd (World.le_of_crowd_enforced h) (by unfold freeTierMonthlyLimit; norm_num)

end Sthrip.TierLimit
