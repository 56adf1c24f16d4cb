import Sthrip.Redis.Keyspace

set_option autoImplicit false

/-! # The lease of a background loop

`services/distributed_lease.py`: a key of Redis that the holder has written with a token of its own. A
process goes through `with_redis_lease` in steps, at whatever times; its calls may raise, before or after
the server has executed them, and the key is gone at whatever moment it expires.
-/

namespace Sthrip.DistributedLease

open Redis

/-- How a process calls `with_redis_lease`: whether it has a client, and `fail_open`. -/
structure Replica where
  redis_client : Bool
  fail_open : Bool

variable {T Token : Type}

/-- Where a process is in `with_redis_lease`. -/
inductive Phase (T Token : Type)
  | outside
  /-- `SET` is sent. -/
  | acquiring (token : Token)
  /-- `SET` is executed; with the moment until which the key lives, if it was written. -/
  | acquired (token : Token) (expires : Option T)
  /-- In the body, with what is yielded: the lease, or `False`. -/
  | body (lease : Option (Token × T))
  /-- In the body without Redis, with what is yielded. -/
  | unleased (granted : Bool)
  /-- The script of `release` is sent. -/
  | releasing (token : Token) (expires : T)
deriving DecidableEq

structure World (T Token : Type) where
  now : T
  db : Keyspace String T Token
  /-- How many tokens have been drawn. -/
  drawn : ℕ
  phase : ℕ → Phase T Token

inductive Event (T : Type)
  | tick (t : T)
  | start (p : ℕ)
  /-- The server executes what the process has sent; a key that is written lives until `expires`. -/
  | serve (p : ℕ) (expires : T)
  | answer (p : ℕ)
  /-- The call of the process raises. -/
  | fail (p : ℕ)
  /-- The process leaves the body. -/
  | leave (p : ℕ)

/-- `RedisLease._key` -/
def leaseKey (name : String) : String := "lease:" ++ name

namespace World

/-- The process goes on. -/
def goto (w : World T Token) (p : ℕ) (next : Phase T Token) : World T Token :=
  { w with phase := Function.update w.phase p next }

variable [LinearOrder T] [DecidableEq Token] (replicas : ℕ → Replica) (uuid4 : ℕ → Token) (name : String)

/-- One step. What is not possible in a phase does nothing. -/
def step (w : World T Token) : Event T → World T Token
  | .tick t => { w with now := max w.now t }
  | .start p =>
      match w.phase p with
      | .outside =>
          if (replicas p).redis_client then
            { w with drawn := w.drawn + 1 }.goto p (.acquiring (uuid4 w.drawn))
          else w.goto p (.unleased (replicas p).fail_open)
      | _ => w
  | .serve p expires =>
      match w.phase p with
      | .acquiring token =>
          { w with db := w.db.setNx w.now (leaseKey name) token expires }.goto p
            (.acquired token (if w.db.get w.now (leaseKey name) = none then some expires else none))
      | .releasing token _ => { w with db := w.db.delEq w.now (leaseKey name) token }.goto p .outside
      | _ => w
  | .answer p =>
      match w.phase p with
      | .acquired token expires => w.goto p (.body (expires.map fun t => (token, t)))
      | _ => w
  | .fail p =>
      match w.phase p with
      | .acquiring _ | .acquired _ _ | .releasing _ _ => w.goto p .outside
      | _ => w
  | .leave p =>
      match w.phase p with
      | .body (some (token, expires)) => w.goto p (.releasing token expires)
      | .body none | .unleased _ => w.goto p .outside
      | _ => w

def run (w : World T Token) (events : List (Event T)) : World T Token :=
  events.foldl (step replicas uuid4 name) w

/-- Nobody has taken the lease yet. -/
def start (now : T) : World T Token := ⟨now, Keyspace.empty, 0, fun _ => .outside⟩

end World

end Sthrip.DistributedLease

/-! # One holder at a time

Among the processes that take the lease from Redis, at most one has a lease that has not expired, and the
release of an expired one leaves the key alone. Tokens are drawn once; the lease of a process is what Redis
has, or it has expired.
-/

namespace Sthrip.DistributedLease

open Redis

variable {T Token : Type}

/-! ## What a process has -/

/-- The token that the process has drawn. -/
def Phase.token : Phase T Token → Option Token
  | .acquiring token | .acquired token _ | .releasing token _ => some token
  | .body lease => lease.map Prod.fst
  | _ => none

/-- The lease that the process has taken, with the moment of its expiry. -/
def Phase.lease : Phase T Token → Option (Token × T)
  | .acquired token expires => expires.map fun t => (token, t)
  | .body lease => lease
  | .releasing token expires => some (token, expires)
  | _ => none

/-- The process has a lease that has not expired; one that was granted without Redis does not expire. -/
def Phase.Holds [LE T] (now : T) (phase : Phase T Token) : Prop :=
  (∃ token expires, phase.lease = some (token, expires) ∧ now ≤ expires) ∨ phase = .unleased true

theorem Phase.token_of_lease {phase : Phase T Token} {token : Token} {expires : T}
    (h : phase.lease = some (token, expires)) : phase.token = some token := by
  cases phase with
  | acquired token' expires' =>
      obtain ⟨t, -, ht⟩ := Option.map_eq_some_iff.mp h
      exact congrArg some (Prod.mk.inj ht).1
  | body lease =>
      have hlease : lease = some (token, expires) := h
      rw [hlease]
      rfl
  | releasing token' expires' => exact congrArg some (Prod.mk.inj (Option.some.inj h)).1
  | _ => cases h

theorem goto_phase (w : World T Token) (p : ℕ) (next : Phase T Token) (q : ℕ) :
    (q = p ∧ (w.goto p next).phase q = next) ∨ (q ≠ p ∧ (w.goto p next).phase q = w.phase q) := by
  by_cases h : q = p
  · subst h
    exact Or.inl ⟨rfl, Function.update_self ..⟩
  · exact Or.inr ⟨h, Function.update_of_ne h ..⟩

/-! ## The invariant -/

variable [LinearOrder T]

/-- The invariant: what Redis has under the key, and what the processes have. -/
structure Inv (uuid4 : ℕ → Token) (key : String) (w : World T Token) : Prop where
  drawn : ∀ p token, (w.phase p).token = some token → ∃ n < w.drawn, token = uuid4 n
  distinct : ∀ p q token, (w.phase p).token = some token → (w.phase q).token = some token → p = q
  kept : ∀ p token expires, (w.phase p).lease = some (token, expires) → w.now ≤ expires →
    w.db key = some ⟨token, some expires⟩
  same : ∀ p token expires, (w.phase p).lease = some (token, expires) →
    ∀ s, w.db key = some s → s.value = token → s.expires = some expires

variable {uuid4 : ℕ → Token} {key : String} {w : World T Token} {p : ℕ} {next : Phase T Token}

/-- A process that goes on with what it has, or without it. -/
theorem Inv.goto (h : Inv uuid4 key w) (htoken : ∀ token, next.token = some token →
      (w.phase p).token = some token)
    (hlease : ∀ lease, next.lease = some lease → (w.phase p).lease = some lease) :
    Inv uuid4 key (w.goto p next) := by
  have htokens : ∀ q token, ((w.goto p next).phase q).token = some token →
      (w.phase q).token = some token := by
    intro q token hq
    rcases goto_phase w p next q with ⟨rfl, heq⟩ | ⟨-, heq⟩
    · exact htoken token (heq ▸ hq)
    · exact heq ▸ hq
  have hleases : ∀ q lease, ((w.goto p next).phase q).lease = some lease →
      (w.phase q).lease = some lease := by
    intro q lease hq
    rcases goto_phase w p next q with ⟨rfl, heq⟩ | ⟨-, heq⟩
    · exact hlease lease (heq ▸ hq)
    · exact heq ▸ hq
  constructor
  · exact fun q token hq => h.drawn q token (htokens q token hq)
  · exact fun q q' token hq hq' => h.distinct q q' token (htokens q token hq) (htokens q' token hq')
  · exact fun q token expires hq => h.kept q token expires (hleases q _ hq)
  · exact fun q token expires hq => h.same q token expires (hleases q _ hq)

/-- Time passes. -/
theorem Inv.tick (h : Inv uuid4 key w) (t : T) : Inv uuid4 key { w with now := max w.now t } := by
  refine ⟨h.drawn, h.distinct, fun q token expires hq hle => ?_, h.same⟩
  exact h.kept q token expires hq (le_trans (le_max_left _ _) hle)

/-- A token is drawn. -/
theorem Inv.draw (huuid : Function.Injective uuid4) (h : Inv uuid4 key w) :
    Inv uuid4 key ({ w with drawn := w.drawn + 1 }.goto p (.acquiring (uuid4 w.drawn))) := by
  have hphase := goto_phase { w with drawn := w.drawn + 1 } p (.acquiring (uuid4 w.drawn))
  have hfresh : ∀ q token, (w.phase q).token = some token → token ≠ uuid4 w.drawn := by
    intro q token hq heq
    obtain ⟨n, hn, rfl⟩ := h.drawn q token hq
    exact absurd (huuid heq) (Nat.ne_of_lt hn)
  have hlease : ∀ q lease, (({ w with drawn := w.drawn + 1 }.goto p
      (.acquiring (uuid4 w.drawn))).phase q).lease = some lease → (w.phase q).lease = some lease := by
    intro q lease hq
    rcases hphase q with ⟨-, heq⟩ | ⟨-, heq⟩
    · rw [heq] at hq
      cases hq
    · exact heq ▸ hq
  constructor
  · intro q token hq
    rcases hphase q with ⟨-, heq⟩ | ⟨-, heq⟩
    · rw [heq] at hq
      exact ⟨w.drawn, Nat.lt_succ_self _, (Option.some.inj hq).symm⟩
    · rw [heq] at hq
      obtain ⟨n, hn, htoken⟩ := h.drawn q token hq
      exact ⟨n, Nat.lt_succ_of_lt hn, htoken⟩
  · intro q q' token hq hq'
    rcases hphase q with ⟨hqp, heq⟩ | ⟨-, heq⟩ <;> rcases hphase q' with ⟨hqp', heq'⟩ | ⟨-, heq'⟩ <;>
      rw [heq] at hq <;> rw [heq'] at hq'
    · rw [hqp, hqp']
    · exact absurd (Option.some.inj hq).symm (hfresh q' token hq')
    · exact absurd (Option.some.inj hq').symm (hfresh q token hq)
    · exact h.distinct q q' token hq hq'
  · exact fun q token expires hq => h.kept q token expires (hlease q _ hq)
  · exact fun q token expires hq => h.same q token expires (hlease q _ hq)

/-- The key is written, when it is not there. -/
theorem Inv.set (h : Inv uuid4 key w) {token : Token} (hp : w.phase p = .acquiring token)
    (hnone : w.db.get w.now key = none) (expires : T) :
    Inv uuid4 key ({ w with db := w.db.setNx w.now key token expires }.goto p
      (.acquired token (some expires))) := by
  have hphase := goto_phase { w with db := w.db.setNx w.now key token expires } p
    (.acquired token (some expires))
  have hset : w.db.setNx w.now key token expires key = some ⟨token, some expires⟩ :=
    Keyspace.setNx_self hnone
  have htokens : ∀ q token', (({ w with db := w.db.setNx w.now key token expires }.goto p
      (.acquired token (some expires))).phase q).token = some token' →
      (w.phase q).token = some token' := by
    intro q token' hq
    rcases hphase q with ⟨rfl, heq⟩ | ⟨-, heq⟩
    · rw [heq] at hq
      rw [hp]
      exact hq
    · exact heq ▸ hq
  constructor
  · exact fun q token' hq => h.drawn q token' (htokens q token' hq)
  · exact fun q q' token' hq hq' => h.distinct q q' token' (htokens q token' hq) (htokens q' token' hq')
  · intro q token' expires' hq hle
    rcases hphase q with ⟨-, heq⟩ | ⟨-, heq⟩
    · rw [heq] at hq
      obtain ⟨rfl, rfl⟩ := Prod.mk.inj (Option.some.inj hq)
      exact hset
    · -- another lease that has not expired would be under the key
      rw [heq] at hq
      have halive : Stored.alive (Stored.mk token' (some expires')) w.now = true := decide_eq_true hle
      rw [Keyspace.get_of_alive (h.kept q token' expires' hq hle) halive] at hnone
      cases hnone
  · intro q token' expires' hq s hs hvalue
    obtain rfl := Option.some.inj (hset.symm.trans hs)
    rcases hphase q with ⟨-, heq⟩ | ⟨hne, heq⟩
    · rw [heq] at hq
      obtain ⟨rfl, rfl⟩ := Prod.mk.inj (Option.some.inj hq)
      rfl
    · rw [heq] at hq
      have htoken : (w.phase q).token = some token := by
        rw [Phase.token_of_lease hq]
        exact congrArg some hvalue.symm
      exact absurd (h.distinct q p token htoken (by rw [hp]; rfl)) hne

variable [DecidableEq Token]

/-- The key is deleted, if it has the token of the process. -/
theorem Inv.release (h : Inv uuid4 key w) {token : Token} {expires : T}
    (hp : w.phase p = .releasing token expires) :
    Inv uuid4 key ({ w with db := w.db.delEq w.now key token }.goto p .outside) := by
  have htokens : ∀ q token', (({ w with db := w.db.delEq w.now key token }.goto p .outside).phase q).token =
      some token' → (w.phase q).token = some token' := by
    intro q token' hq
    rcases goto_phase { w with db := w.db.delEq w.now key token } p .outside q with ⟨-, heq⟩ | ⟨-, heq⟩
    · rw [heq] at hq
      cases hq
    · exact heq ▸ hq
  have hleases : ∀ q lease, (({ w with db := w.db.delEq w.now key token }.goto p .outside).phase q).lease =
      some lease → q ≠ p ∧ (w.phase q).lease = some lease := by
    intro q lease hq
    rcases goto_phase { w with db := w.db.delEq w.now key token } p .outside q with ⟨-, heq⟩ | ⟨hne, heq⟩
    · rw [heq] at hq
      cases hq
    · exact ⟨hne, heq ▸ hq⟩
  constructor
  · exact fun q token' hq => h.drawn q token' (htokens q token' hq)
  · exact fun q q' token' hq hq' => h.distinct q q' token' (htokens q token' hq) (htokens q' token' hq')
  · intro q token' expires' hq (hle : w.now ≤ expires')
    obtain ⟨hne, hlease⟩ := hleases q _ hq
    have hkept := h.kept q token' expires' hlease hle
    -- the lease of another process has another token
    have hother : w.db.get w.now key ≠ some token := by
      rw [Keyspace.get_of_alive hkept (decide_eq_true hle)]
      intro heq
      have htoken : (w.phase q).token = some token := (Phase.token_of_lease hlease).trans heq
      exact hne (h.distinct q p token htoken (by rw [hp]; rfl))
    show w.db.delEq w.now key token key = _
    rw [Keyspace.delEq_of_ne hother, hkept]
  · intro q token' expires' hq s hs
    exact h.same q token' expires' (hleases q _ hq).2 s (Keyspace.delEq_self hs)

/-- One step. -/
theorem Inv.step (replicas : ℕ → Replica) (huuid : Function.Injective uuid4) {name : String}
    (h : Inv uuid4 (leaseKey name) w) (event : Event T) :
    Inv uuid4 (leaseKey name) (w.step replicas uuid4 name event) := by
  cases event with
  | tick t => exact h.tick t
  | start p =>
      simp only [World.step]
      split
      · split
        · exact h.draw huuid
        · exact h.goto (fun _ ht => by cases ht) fun _ hl => by cases hl
      · exact h
  | serve p expires =>
      simp only [World.step]
      split
      · next token hp =>
          by_cases hnone : w.db.get w.now (leaseKey name) = none
          · rw [if_pos hnone]
            exact h.set hp hnone expires
          · rw [if_neg hnone]
            have hsame : w.db.setNx w.now (leaseKey name) token expires = w.db := if_neg hnone
            rw [hsame]
            exact h.goto (fun _ ht => by rw [hp]; exact ht) fun _ hl => by cases hl
      · next hp => exact h.release hp
      · exact h
  | answer p =>
      simp only [World.step]
      split
      · next token expires hp =>
          refine h.goto (fun token' ht => ?_) fun lease hl => by rw [hp]; exact hl
          rw [hp]
          obtain ⟨⟨token'', t⟩, hlease, rfl⟩ := Option.map_eq_some_iff.mp ht
          obtain ⟨t', -, ht'⟩ := Option.map_eq_some_iff.mp hlease
          exact congrArg some (Prod.mk.inj ht').1
      · exact h
  | fail p =>
      simp only [World.step]
      split
      · exact h.goto (fun _ ht => by cases ht) fun _ hl => by cases hl
      · exact h.goto (fun _ ht => by cases ht) fun _ hl => by cases hl
      · exact h.goto (fun _ ht => by cases ht) fun _ hl => by cases hl
      · exact h
  | leave p =>
      simp only [World.step]
      split
      · next token expires hp =>
          refine h.goto (fun _ ht => ?_) fun _ hl => ?_
          · rw [hp]
            exact ht
          · rw [hp]
            exact hl
      · exact h.goto (fun _ ht => by cases ht) fun _ hl => by cases hl
      · exact h.goto (fun _ ht => by cases ht) fun _ hl => by cases hl
      · exact h

omit [DecidableEq Token] in
theorem inv_start (now : T) : Inv uuid4 key (World.start now : World T Token) := by
  constructor
  · exact fun _ _ h => by cases h
  · exact fun _ _ _ h => by cases h
  · exact fun _ _ _ h => by cases h
  · exact fun _ _ _ h => by cases h

theorem inv_run (replicas : ℕ → Replica) (huuid : Function.Injective uuid4) (name : String) (now : T)
    (events : List (Event T)) :
    Inv uuid4 (leaseKey name) ((World.start now).run replicas uuid4 name events) :=
  List.foldlRecOn events _ (inv_start now) fun _ h event _ => h.step replicas huuid event

/-! ## Processes without Redis -/

omit [LinearOrder T] [DecidableEq Token] in
theorem goto_unleased {q : ℕ} {granted : Bool} (hnext : ∀ granted, next ≠ .unleased granted)
    (h : (w.goto p next).phase q = .unleased granted) : w.phase q = .unleased granted := by
  rcases goto_phase w p next q with ⟨-, heq⟩ | ⟨-, heq⟩
  · exact absurd (heq.symm.trans h) (hnext granted)
  · exact heq ▸ h

/-- A process that goes on without Redis has no client, and is let through when it fails open. -/
theorem step_unleased (replicas : ℕ → Replica) (name : String) (event : Event T) {q : ℕ} {granted : Bool}
    (h : (w.step replicas uuid4 name event).phase q = .unleased granted) :
    w.phase q = .unleased granted ∨
      ((replicas q).redis_client = false ∧ (replicas q).fail_open = granted) := by
  cases event with
  | tick t => exact Or.inl h
  | start p =>
      simp only [World.step] at h
      split at h
      · split at h
        · exact Or.inl (goto_unleased (fun _ hn => by cases hn) h)
        · next hclient =>
            rcases goto_phase w p (.unleased (replicas p).fail_open) q with ⟨rfl, heq⟩ | ⟨-, heq⟩
            · exact Or.inr ⟨Bool.eq_false_iff.mpr hclient, Phase.unleased.inj (heq.symm.trans h)⟩
            · exact Or.inl (heq ▸ h)
      · exact Or.inl h
  | serve p expires =>
      simp only [World.step] at h
      split at h
      · exact Or.inl (goto_unleased (fun _ hn => by cases hn) h)
      · exact Or.inl (goto_unleased (fun _ hn => by cases hn) h)
      · exact Or.inl h
  | answer p | fail p | leave p =>
      simp only [World.step] at h
      split at h
      all_goals first
        | exact Or.inl (goto_unleased (fun _ hn => by cases hn) h)
        | exact Or.inl h

theorem run_unleased (replicas : ℕ → Replica) (name : String) (now : T) (events : List (Event T)) :
    ∀ q granted, ((World.start now).run replicas uuid4 name events).phase q = .unleased granted →
      (replicas q).redis_client = false ∧ (replicas q).fail_open = granted := by
  refine List.foldlRecOn (motive := fun w : World T Token => ∀ q granted, w.phase q = .unleased granted →
    (replicas q).redis_client = false ∧ (replicas q).fail_open = granted) events _ ?_ ?_
  · exact fun _ _ h => by cases h
  · intro w ih event _ q granted h
    rcases step_unleased replicas name event h with hold | hnew
    · exact ih q granted hold
    · exact hnew

/-! ## The lease -/

/-- At most one of the processes has a lease that has not expired, and what a process sends to release one
that has expired leaves the key as it is. -/
def Exclusive (uuid4 : ℕ → Token) (replicas : ℕ → Replica) (name : String) (among : ℕ → Prop)
    (w : World T Token) : Prop :=
  (∀ p q, among p → among q → (w.phase p).Holds w.now → (w.phase q).Holds w.now → p = q) ∧
    ∀ p token expires, w.phase p = .releasing token expires → expires < w.now →
      ∀ t, (w.step replicas uuid4 name (.serve p t)).db = w.db

/-- **One holder at a time**, among the processes that have a client or do not fail open: whatever the
others do, and whenever keys expire and calls fail. -/
theorem lease_exclusive (uuid4 : ℕ → Token) (huuid : Function.Injective uuid4) (replicas : ℕ → Replica)
    (name : String) (now : T) (events : List (Event T)) :
    Exclusive uuid4 replicas name
      (fun p => (replicas p).redis_client = true ∨ (replicas p).fail_open = false)
      ((World.start now).run replicas uuid4 name events) := by
  have hinv := inv_run replicas huuid name now events
  have hleased : ∀ p, (replicas p).redis_client = true ∨ (replicas p).fail_open = false →
      (((World.start now).run replicas uuid4 name events).phase p).Holds
        ((World.start now).run replicas uuid4 name events).now →
      ∃ token expires, (((World.start now).run replicas uuid4 name events).phase p).lease =
        some (token, expires) ∧ ((World.start now).run replicas uuid4 name events).now ≤ expires := by
    rintro p hp (hlease | hunleased)
    · exact hlease
    · obtain ⟨hclient, hopen⟩ := run_unleased replicas name now events p true hunleased
      rw [hclient, hopen] at hp
      rcases hp with hp | hp <;> cases hp
  constructor
  · intro p q hp hq hholds hholds'
    obtain ⟨token, expires, hlease, hle⟩ := hleased p hp hholds
    obtain ⟨token', expires', hlease', hle'⟩ := hleased q hq hholds'
    -- both are what Redis has under the key
    have hstored := (hinv.kept p token expires hlease hle).symm.trans
      (hinv.kept q token' expires' hlease' hle')
    obtain ⟨rfl, -⟩ := Stored.mk.inj (Option.some.inj hstored)
    exact hinv.distinct p q token (Phase.token_of_lease hlease) (Phase.token_of_lease hlease')
  · intro p token expires hp hlt t
    simp only [World.step, hp]
    refine Keyspace.delEq_of_ne fun hget => ?_
    obtain ⟨s, hs, halive, hvalue⟩ := Keyspace.stored_of_get hget
    have hexpires := hinv.same p token expires (by rw [hp]; rfl) s hs hvalue
    rw [Stored.alive, hexpires] at halive
    exact absurd (of_decide_eq_true halive) (not_le.mpr hlt)

def withClient (_ : ℕ) : Replica := ⟨true, false⟩

/-- The first process is slow: its lease expires while it works, and the second takes the key. -/
def slowHolder : List (Event ℕ) :=
  [.start 0, .serve 0 10, .answer 0, .tick 11, .start 1, .serve 1 20, .answer 1, .leave 0]

theorem lease_exclusive_slowHolder :
    Exclusive id withClient "escrow_resolution_loop"
      (fun p => (withClient p).redis_client = true ∨ (withClient p).fail_open = false)
      ((World.start 0).run withClient id "escrow_resolution_loop" slowHolder) :=
  lease_exclusive id Function.injective_id withClient "escrow_resolution_loop" 0 slowHolder

def failingOpen (_ : ℕ) : Replica := ⟨false, true⟩

/-- Two processes without Redis that fail open are both let through. -/
theorem unleased_both : ¬∀ (uuid4 : ℕ → ℕ), Function.Injective uuid4 → ∀ (replicas : ℕ → Replica)
    (name : String) (now : ℕ) (events : List (Event ℕ)),
    Exclusive uuid4 replicas name (fun _ => True) ((World.start now).run replicas uuid4 name events) := by
  intro h
  have hboth := (h id Function.injective_id failingOpen "escrow_resolution_loop" 0
    [.start 0, .start 1]).1 0 1 trivial trivial (Or.inr (by decide)) (Or.inr (by decide))
  exact absurd hboth (by decide)

end Sthrip.DistributedLease
