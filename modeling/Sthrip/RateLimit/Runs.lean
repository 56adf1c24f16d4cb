import Mathlib.Data.List.Pairwise
import Sthrip.RateLimit.Backends

set_option autoImplicit false

/-! # Runs of the two backends

The answers to requests that come one after another, by Redis and by the map of one process. They are
the same, and what a key was charged since its window began is within the limit of each request that
was let through.
-/

namespace Sthrip

open Redis

namespace RateLimiter

/-- What a request costs that is let through. -/
def Request.charges (default_tier : RateLimitTier) (running : String → Option Window) :
    Request → List Charge
  | .agent agent_id tier endpoint cost =>
      let key := getKey agent_id endpoint
      [⟨key, cost, getLimit default_tier tier, (running key).isNone⟩]
  | .ip ip_address action per_ip_limit global_limit _ check_only =>
      if check_only then []
      else
        [⟨ipKey action ip_address, 1, per_ip_limit, (running (ipKey action ip_address)).isNone⟩,
          ⟨globalKey action, 1, global_limit, (running (globalKey action)).isNone⟩]

/-- Whether each request is let through, and what it is charged for. -/
abbrev Answers := List (Bool × List Charge)

def redisRun (default_tier : RateLimitTier) : RedisDb → List (ℚ × Request) → Answers
  | _, [] => []
  | db, (now, r) :: rest =>
      let answer := r.answerRedis default_tier now db
      let charges := if answer.1.isAllowed then r.charges default_tier (db.window now) else []
      (answer.1.isAllowed, charges) :: redisRun default_tier answer.2 rest

def localRun (default_tier : RateLimitTier) : LocalState → List (ℚ × Request) → Answers
  | _, [] => []
  | st, (now, r) :: rest =>
      let answer := r.answerLocal default_tier now st
      let charges :=
        if answer.1.isAllowed then
          r.charges default_tier fun key => Window.running now (st.cache key)
        else []
      (answer.1.isAllowed, charges) :: localRun default_tier answer.2 rest

/-! ## Totals -/

/-- What the key was charged in its window, after one charge more. -/
def total (key : String) (n : ℤ) (c : Charge) : ℤ :=
  if c.key = key then if c.opens then c.cost else n + c.cost else n

/-- What the key was charged since its last window began. -/
def spent (key : String) (charges : List Charge) : ℤ := charges.foldl (total key) 0

/-- With no charge a key went over the limit of this charge. -/
def Within (charges : List Charge) : Prop :=
  ∀ before c after, charges = before ++ c :: after → spent c.key (before ++ [c]) ≤ c.limit

theorem spent_concat (key : String) (charges : List Charge) (c : Charge) :
    spent key (charges ++ [c]) = total key (spent key charges) c := by
  rw [spent, List.foldl_append, List.foldl_cons, List.foldl_nil, spent]

theorem Within.nil : Within [] := by
  intro before c after h
  simp at h

theorem Within.concat {charges : List Charge} {c : Charge} (h : Within charges)
    (hc : spent c.key (charges ++ [c]) ≤ c.limit) : Within (charges ++ [c]) := by
  intro before c' after heq
  rcases after.eq_nil_or_concat with rfl | ⟨after, last, rfl⟩
  · obtain ⟨rfl, hlast⟩ := List.append_inj' heq rfl
    obtain rfl := List.singleton_inj.mp hlast
    exact hc
  · have heq' : charges ++ [c] = (before ++ c' :: after) ++ [last] := by
      rw [heq, List.concat_eq_append, List.append_assoc, List.cons_append]
    exact h before c' after (List.append_inj' heq' rfl).1

/-- The windows that run count what was charged to them. -/
def Tallied (cache : String → Option Window) (now : ℚ) (charges : List Charge) : Prop :=
  ∀ key w, Window.running now (cache key) = some w → w.count = spent key charges

variable {cache cache' : String → Option Window} {now t : ℚ} {charges : List Charge}

theorem Tallied.later (h : Tallied cache now charges) (ht : now ≤ t) : Tallied cache t charges := by
  intro key w hw
  obtain ⟨hc, hend⟩ := running_eq_some.mp hw
  exact h key w (running_eq_some.mpr ⟨hc, ht.trans hend⟩)

theorem Tallied.congr (h : Tallied cache now charges)
    (hsame : ∀ key, Window.running now (cache' key) = Window.running now (cache key)) :
    Tallied cache' now charges := by
  intro key w hw
  exact h key w ((hsame key).symm.trans hw)

section Charging

variable {key : String} {limit window cost : ℤ} {w' : Window}

theorem Tallied.spent_charge (h : Tallied cache now charges)
    (hc : Window.charge limit window cost now (Window.running now (cache key)) = some w') :
    spent key (charges ++ [⟨key, cost, limit, (Window.running now (cache key)).isNone⟩]) =
      w'.count := by
  rw [spent_concat]
  cases hw : Window.running now (cache key) with
  | none =>
      rw [hw] at hc
      obtain rfl := Option.some.inj hc
      simp [total]
  | some w =>
      rw [hw, Window.charge] at hc
      split at hc
      · cases hc
      · obtain rfl := Option.some.inj hc
        simp [total, h key w hw]

theorem Tallied.charge (h : Tallied cache now charges)
    (hc : Window.charge limit window cost now (Window.running now (cache key)) = some w') :
    Tallied (Function.update cache key (some w')) now
      (charges ++ [⟨key, cost, limit, (Window.running now (cache key)).isNone⟩]) := by
  intro k w hw
  by_cases hk : k = key
  · subst hk
    rw [Function.update_self] at hw
    obtain rfl := Option.some.inj (running_eq_some.mp hw).1
    exact (h.spent_charge hc).symm
  · rw [Function.update_of_ne hk] at hw
    rw [spent_concat, h k w hw]
    simp [total, Ne.symm hk]

/-- A charge of at most the limit leaves at most the limit. -/
theorem charge_le_limit {o : Option Window} (hcost : cost ≤ limit)
    (hc : Window.charge limit window cost now o = some w') : w'.count ≤ limit := by
  cases o with
  | none =>
      obtain rfl := Option.some.inj hc
      exact hcost
  | some w =>
      rw [Window.charge] at hc
      split at hc
      · cases hc
      · next hroom =>
          obtain rfl := Option.some.inj hc
          exact not_lt.mp hroom

end Charging

theorem Charged.tallied {more : List Charge} (hcharged : Charged now cache more cache')
    (h : Tallied cache now charges) (hwithin : Within charges) :
    Tallied cache' now (charges ++ more) ∧ Within (charges ++ more) := by
  induction hcharged generalizing charges with
  | nil cache =>
      rw [List.append_nil]
      exact ⟨h, hwithin⟩
  | cons charge within rest ih =>
      rw [List.append_cons]
      refine ih (h.charge charge) (hwithin.concat ?_)
      rw [h.spent_charge charge]
      exact charge_le_limit within charge

/-! ## Requests -/

/-- The cost of a request is between one and its limits. -/
def Request.Sane (default_tier : RateLimitTier) : Request → Prop
  | .agent _ tier _ cost => 1 ≤ cost ∧ cost ≤ getLimit default_tier tier
  | .ip _ _ per_ip_limit global_limit _ _ => 1 ≤ per_ip_limit ∧ 1 ≤ global_limit

theorem ipKey_ne_globalKey (action ip_address : String) :
    ipKey action ip_address ≠ globalKey action := by
  intro h
  have hlists : ∀ p q c d e a : String, p ++ c ++ d ++ e = q ++ a →
      p.toList ++ c.toList ++ d.toList ++ e.toList = q.toList ++ a.toList := by
    intro p q c d e a heq
    have hlist := congrArg String.toList heq
    rwa [String.toList_append, String.toList_append, String.toList_append, String.toList_append] at hlist
  have hlist := hlists "ratelimit:ip:" "ratelimit:global:" _ _ _ _ h
  have hip : "ratelimit:ip:".toList = "ratelimit:".toList ++ 'i' :: "p:".toList := by decide
  have hglobal : "ratelimit:global:".toList = "ratelimit:".toList ++ 'g' :: "lobal:".toList := by
    decide
  rw [hip, hglobal, List.append_assoc, List.append_assoc, List.append_assoc, List.append_assoc] at hlist
  have hletter : 'i' = 'g' := (List.cons.inj (List.append_cancel_left hlist)).1
  exact absurd hletter (by decide)

theorem answer_agrees {default_tier : RateLimitTier} {db : RedisDb} {st : LocalState} {r : Request}
    (h : Agrees db now st.cache) (hr : r.Sane default_tier) :
    Same now st.cache (r.charges default_tier fun key => Window.running now (st.cache key))
      (r.answerRedis default_tier now db) (r.answerLocal default_tier now st) := by
  cases r with
  | agent agent_id tier endpoint cost => exact check_agrees h hr.1 hr.2
  | ip ip_address action per_ip_limit global_limit window_seconds check_only =>
      cases check_only with
      | false => exact checkIp_agrees h (ipKey_ne_globalKey action ip_address) hr.1 hr.2
      | true => exact peekIp_agrees h hr.2

theorem charges_congr {running running' : String → Option Window}
    (h : ∀ key, (running key).isNone = (running' key).isNone) (default_tier : RateLimitTier)
    (r : Request) : r.charges default_tier running = r.charges default_tier running' := by
  cases r with
  | agent agent_id tier endpoint cost => simp only [Request.charges, h]
  | ip ip_address action per_ip_limit global_limit window_seconds check_only =>
      simp only [Request.charges, h]

/-- One request keeps the two backends together, and what was charged within the limits. -/
theorem Same.charged {more : List Charge} {redis : Verdict × RedisDb} {map : Verdict × LocalState}
    (hstep : Same now cache more redis map) (h : Tallied cache now charges)
    (hwithin : Within charges) :
    redis.1.isAllowed = map.1.isAllowed ∧ Agrees redis.2 now map.2.cache ∧
      Tallied map.2.cache now (charges ++ if map.1.isAllowed then more else []) ∧
      Within (charges ++ if map.1.isAllowed then more else []) := by
  cases hstep with
  | allow hredis hmap hsame hcharged hagrees =>
      rw [hredis, hmap, if_pos rfl]
      exact ⟨rfl, hagrees, hcharged.tallied (h.congr hsame) hwithin⟩
  | refuse hredis hmap hsame hagrees =>
      rw [hredis, hmap, if_neg Bool.false_ne_true, List.append_nil]
      exact ⟨rfl, hagrees, h.congr hsame, hwithin⟩

/-- What was charged in a run. -/
def trail (answers : Answers) : List Charge := answers.flatMap Prod.snd

theorem run_agrees (default_tier : RateLimitTier) (requests : List (ℚ × Request)) :
    ∀ {db : RedisDb} {st : LocalState} {now : ℚ} {charges : List Charge},
      Agrees db now st.cache → Tallied st.cache now charges → Within charges →
      requests.Pairwise (fun x y => x.1 ≤ y.1) → (∀ x ∈ requests, now ≤ x.1) →
      (∀ x ∈ requests, x.2.Sane default_tier) →
      redisRun default_tier db requests = localRun default_tier st requests ∧
        Within (charges ++ trail (localRun default_tier st requests)) := by
  induction requests with
  | nil =>
      intro db st now charges _ _ hwithin _ _ _
      exact ⟨rfl, by simpa [localRun, trail] using hwithin⟩
  | cons x rest ih =>
      intro db st now charges hagrees htallied hwithin hsorted hnow hsane
      obtain ⟨t, r⟩ := x
      have ht : now ≤ t := hnow (t, r) List.mem_cons_self
      have hr : r.Sane default_tier := hsane (t, r) List.mem_cons_self
      obtain ⟨hfirst, hrest⟩ := List.pairwise_cons.mp hsorted
      have hagrees' := hagrees.later ht
      obtain ⟨hsame, hnext, htallied', hwithin'⟩ :=
        (answer_agrees hagrees' hr).charged (htallied.later ht) hwithin
      have hrun := ih hnext htallied' hwithin' hrest hfirst
        fun y hy => hsane y (List.mem_cons_of_mem _ hy)
      have hcharges : r.charges default_tier (db.window t) =
          r.charges default_tier fun key => Window.running t (st.cache key) :=
        charges_congr (fun key => by rw [hagrees'.window_eq]) default_tier r
      rw [redisRun, localRun, hsame, hcharges, hrun.1]
      refine ⟨rfl, ?_⟩
      rw [trail, List.flatMap_cons, ← List.append_assoc]
      exact hrun.2

/-- The two backends give the same answers, and neither lets a key go over a limit. -/
theorem backends_agree (default_tier : RateLimitTier) (requests : List (ℚ × Request))
    (hsorted : requests.Pairwise fun x y => x.1 ≤ y.1)
    (hsane : ∀ x ∈ requests, x.2.Sane default_tier) :
    redisRun default_tier Keyspace.empty requests = localRun default_tier {} requests ∧
      Within (trail (redisRun default_tier Keyspace.empty requests)) ∧
      Within (trail (localRun default_tier {} requests)) := by
  obtain ⟨now, hnow⟩ := exists_le_times Prod.fst requests
  have htallied : Tallied (LocalState.cache {}) now [] := by
    intro key w hw
    cases hw
  obtain ⟨hsame, hwithin⟩ :=
    run_agrees default_tier requests Agrees.start htallied Within.nil hsorted hnow hsane
  rw [List.nil_append] at hwithin
  exact ⟨hsame, hsame ▸ hwithin, hwithin⟩

/-- Two windows of an agent and a global limit that is reached. -/
theorem backends_agree_edge :
    let requests : List (ℚ × Request) :=
      [(0, .agent "a" "low" none 10), (60, .agent "a" "low" none 1), (61, .agent "a" "low" none 1),
        (61, .ip "1.2.3.4" "login" 5 1 60 false), (62, .ip "5.6.7.8" "login" 5 1 60 false)]
    redisRun .STANDARD Keyspace.empty requests = localRun .STANDARD {} requests ∧
      Within (trail (redisRun .STANDARD Keyspace.empty requests)) ∧
      Within (trail (localRun .STANDARD {} requests)) := by
  have hsane : ∀ x ∈ ([(0, .agent "a" "low" none 10), (60, .agent "a" "low" none 1),
      (61, .agent "a" "low" none 1), (61, .ip "1.2.3.4" "login" 5 1 60 false),
      (62, .ip "5.6.7.8" "login" 5 1 60 false)] : List (ℚ × Request)), x.2.Sane .STANDARD := by
    have hlimit : getLimit .STANDARD "low" = 10 := by decide +kernel
    simp [Request.Sane, hlimit]
  exact backends_agree .STANDARD _ (by decide) hsane

end RateLimiter

end Sthrip
