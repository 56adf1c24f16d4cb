import Sthrip.Services.MatchmakingService
import Mathlib.Tactic.NormNum

set_option autoImplicit false

/-! # One deal for a request

`accept_match` does not look at the state of the request, and an error of the creation is only logged.
So a request that is accepted twice has two contracts, and one whose creation fails is assigned without
one. `Proper` is the condition that neither happens: a call that writes finds the request not assigned
yet, and what it creates can be created.
-/

namespace Sthrip

open Txn MatchmakingService

namespace MatchTables

/-- The contracts that were made for a request. -/
def contractsOf (t : MatchTables) (R : Id) : List Id :=
  t.journal.filterMap fun
    | .contract request_id contract_id => if request_id = R then some contract_id else none
    | _ => none

def escrowsOf (t : MatchTables) (R : Id) : List Id :=
  t.journal.filterMap fun
    | .escrow request_id deal_id => if request_id = R then some deal_id else none
    | _ => none

def debitsOf (t : MatchTables) (R : Id) : List (Id × ℚ) :=
  t.journal.filterMap fun
    | .debited request_id agent_id amount => if request_id = R then some (agent_id, amount) else none
    | _ => none

/-- A request leads to one deal at most, and is assigned iff the contract is there. -/
structure OneDeal (t : MatchTables) (R : Id) : Prop where
  contracts : (t.contractsOf R).length ≤ 1
  escrows : (t.escrowsOf R).length ≤ 1
  debits : (t.debitsOf R).length ≤ 1
  assigned : ∀ req, t.requests R = some req → (req.state = .ASSIGNED ↔ t.contractsOf R ≠ [])
  linked : ∀ req, t.requests R = some req → ∀ c ∈ t.contractsOf R,
    req.sla_contract_id = some c ∧ (t.contracts c).isSome = true

/-- Nothing was done for a request. -/
def Untouched (t : MatchTables) (R : Id) : Prop :=
  t.contractsOf R = [] ∧ t.escrowsOf R = [] ∧ t.debitsOf R = []

/-- All was done for a request, once. -/
def Engaged (t : MatchTables) (R : Id) (req : MatchRequest) : Prop :=
  ∃ c d x, t.contractsOf R = [c] ∧ t.escrowsOf R = [d] ∧ t.debitsOf R = [x] ∧
    req.sla_contract_id = some c ∧ (t.contracts c).isSome = true

/-- The invariant. -/
def Settled (t : MatchTables) (R : Id) : Prop :=
  match t.requests R with
  | none => t.Untouched R
  | some req => if req.state = .ASSIGNED then t.Engaged R req else t.Untouched R

theorem Settled.oneDeal {t : MatchTables} {R : Id} (h : t.Settled R) : t.OneDeal R := by
  unfold Settled at h
  have huntouched (h : t.Untouched R) (hstate : ∀ req, t.requests R = some req →
      req.state ≠ .ASSIGNED) : t.OneDeal R := by
    obtain ⟨hc, he, hd⟩ := h
    refine ⟨by simp [hc], by simp [he], by simp [hd], fun req hreq => ?_, fun req hreq c hmem => ?_⟩
    · simp [hc, hstate req hreq]
    · rw [hc] at hmem
      cases hmem
  split at h
  · next hnone =>
      refine huntouched h fun req hreq => ?_
      rw [hnone] at hreq
      cases hreq
  · next req hreq =>
      have hunique {req'} (hreq' : t.requests R = some req') : req' = req :=
        Option.some.inj (hreq'.symm.trans hreq)
      split at h
      · next hstate =>
          obtain ⟨c, d, x, hc, he, hd, hlink, hrow⟩ := h
          refine ⟨by simp [hc], by simp [he], by simp [hd], fun req' hreq' => ?_,
            fun req' hreq' c' hmem => ?_⟩
          · simp [hc, hunique hreq', hstate]
          · rw [hc, List.mem_singleton] at hmem
            rw [hmem, hunique hreq']
            exact ⟨hlink, hrow⟩
      · next hstate => exact huntouched h fun req' hreq' => hunique hreq' ▸ hstate

end MatchTables

/-! ## The creation of a contract -/

/-- What the tables must have for a contract of a request with an agent to be created. -/
structure Creatable (t : MatchTables) (env : MatchEnv) (req : MatchRequest) (agent_id : Id) : Prop where
  distinct : req.requester_id ≠ agent_id
  /-- A template that the requester can pay for. The escrow is in XMR, whatever the currency is. -/
  template : ∃ template, bestTemplate t agent_id req.budget = some template ∧
    0 < template.base_price ∧ template.base_price ≤ t.available req.requester_id req.currency ∧
      template.base_price ≤ t.available req.requester_id .XMR
  seller : ∃ seller, t.agents agent_id = some seller ∧ seller.is_active = true
  works : env.fails = none

variable {col : Columns} {t : MatchTables} {env : MatchEnv} {R : Id} {req : MatchRequest}
  {agent_id : Id}

/-- What a contract needs does not depend on the requests. -/
theorem Creatable.congr {requests : Id → Option MatchRequest} (h : Creatable t env req agent_id) :
    Creatable { t with requests } env req agent_id := ⟨h.distinct, h.template, h.seller, h.works⟩

/-- What a creation that works does. -/
structure Creates (t : MatchTables) (env : MatchEnv) (R : Id) (t' : MatchTables) : Prop where
  requests : t'.requests = t.requests
  journal : ∃ payer amount, t'.journal
    = t.journal ++ [.debited R payer amount, .escrow R env.deal_id, .contract R env.contract_id]
  contract : (t'.contracts env.contract_id).isSome = true
  contracts : ∀ c, (t.contracts c).isSome = true → (t'.contracts c).isSome = true

theorem createSlaForMatch_creates (col : Columns) (R : Id) (h : Creatable t env req agent_id) :
    (createSlaForMatch col env R req agent_id t).1 = some env.contract_id ∧
      Creates t env R (createSlaForMatch col env R req agent_id t).2 := by
  obtain ⟨template, hbest, hprice, hcurrency, hxmr⟩ := h.template
  obtain ⟨seller, hseller, hactive⟩ := h.seller
  have hpos : ¬template.base_price ≤ 0 := not_le.mpr hprice
  simp only [createSlaForMatch, hbest, createContract, h.distinct, not_lt.mpr hcurrency, createEscrow,
    hpos, hseller, hactive, not_lt.mpr hxmr, h.works, if_false, reduceCtorEq, true_and]
  constructor
  · rfl
  · refine ⟨req.requester_id, template.base_price, ?_⟩
    simp only [List.append_assoc, List.cons_append, List.nil_append]
  · simp only [Function.update_self, Option.isSome_some]
  · intro c hc
    by_cases hne : c = env.contract_id
    · simp only [hne, Function.update_self, Option.isSome_some]
    · simp only [Function.update_of_ne hne, hc]

/-! ## Steps -/

namespace MatchTables

variable {t' : MatchTables} {R' : Id}

theorem contractsOf_append {l : List MatchEvent} (h : t'.journal = t.journal ++ l) (R : Id) :
    t'.contractsOf R = t.contractsOf R ++ MatchTables.contractsOf { journal := l } R := by
  simp only [contractsOf, h, List.filterMap_append]

theorem escrowsOf_append {l : List MatchEvent} (h : t'.journal = t.journal ++ l) (R : Id) :
    t'.escrowsOf R = t.escrowsOf R ++ MatchTables.escrowsOf { journal := l } R := by
  simp only [escrowsOf, h, List.filterMap_append]

theorem debitsOf_append {l : List MatchEvent} (h : t'.journal = t.journal ++ l) (R : Id) :
    t'.debitsOf R = t.debitsOf R ++ MatchTables.debitsOf { journal := l } R := by
  simp only [debitsOf, h, List.filterMap_append]

theorem Settled.untouched {row : MatchRequest} (h : t.Settled R) (hrow : t.requests R = some row)
    (hstate : row.state ≠ .ASSIGNED) : t.Untouched R := by
  unfold Settled at h
  simpa only [hrow, hstate, if_false] using h

theorem Untouched.settled {row : MatchRequest} (h : t.Untouched R) (hrow : t.requests R = some row)
    (hstate : row.state ≠ .ASSIGNED) : t.Settled R := by
  unfold Settled
  simpa only [hrow, hstate, if_false] using h

/-- A request that nothing was done for is assigned. -/
theorem Settled.assign (h : t.Untouched R) (hcreates : Creates t env R t')
    (hreq : (t.requests R).isSome = true) (agent_id : Id) :
    (MatchmakingRepository.updateMatch R (some agent_id) (some env.contract_id) .ASSIGNED t').Settled
      R := by
  obtain ⟨hc, he, hd⟩ := h
  obtain ⟨payer, amount, hjournal⟩ := hcreates.journal
  obtain ⟨req, hreq⟩ := Option.isSome_iff_exists.mp hreq
  have hrow : t'.requests R = some req := hcreates.requests ▸ hreq
  unfold Settled
  simp only [MatchmakingRepository.updateMatch, Function.update_self, hrow, Option.map_some, if_true]
  refine ⟨env.contract_id, env.deal_id, (payer, amount), ?_, ?_, ?_, rfl, hcreates.contract⟩
  · show t'.contractsOf R = _
    rw [contractsOf_append hjournal, hc]
    simp [contractsOf]
  · show t'.escrowsOf R = _
    rw [escrowsOf_append hjournal, he]
    simp [escrowsOf]
  · show t'.debitsOf R = _
    rw [debitsOf_append hjournal, hd]
    simp [debitsOf]

/-- What is the same for a request in two states. -/
structure SameFor (R : Id) (t t' : MatchTables) : Prop where
  contractsOf : t'.contractsOf R = t.contractsOf R
  escrowsOf : t'.escrowsOf R = t.escrowsOf R
  debitsOf : t'.debitsOf R = t.debitsOf R
  contracts : ∀ c, (t.contracts c).isSome = true → (t'.contracts c).isSome = true

theorem SameFor.untouched (hsame : SameFor R t t') (h : t.Untouched R) : t'.Untouched R :=
  ⟨hsame.contractsOf.trans h.1, hsame.escrowsOf.trans h.2.1, hsame.debitsOf.trans h.2.2⟩

theorem Settled.congr (h : t.Settled R) (hsame : SameFor R t t') (hreq : t'.requests R = t.requests R) :
    t'.Settled R := by
  unfold Settled at h ⊢
  rw [hreq]
  split at h
  · exact hsame.untouched h
  · split at h
    · next hstate =>
        obtain ⟨c, d, x, hc, he, hd, hlink, hrow⟩ := h
        rw [if_pos hstate]
        exact ⟨c, d, x, hsame.contractsOf.trans hc, hsame.escrowsOf.trans he, hsame.debitsOf.trans hd,
          hlink, hsame.contracts c hrow⟩
    · next hstate =>
        rw [if_neg hstate]
        exact hsame.untouched h

/-- A creation for one request is nothing to another. -/
theorem SameFor.of_creates (h : Creates t env R t') (hne : R' ≠ R) : SameFor R' t t' := by
  obtain ⟨payer, amount, hjournal⟩ := h.journal
  refine ⟨?_, ?_, ?_, h.contracts⟩
  · rw [contractsOf_append hjournal]
    simp [MatchTables.contractsOf, hne.symm]
  · rw [escrowsOf_append hjournal]
    simp [MatchTables.escrowsOf, hne.symm]
  · rw [debitsOf_append hjournal]
    simp [MatchTables.debitsOf, hne.symm]

/-- A change of the requests alone. -/
theorem SameFor.of_requests (R : Id) (t : MatchTables) (requests : Id → Option MatchRequest) :
    SameFor R t { t with requests } := ⟨rfl, rfl, rfl, fun _ h => h⟩

/-- The row of another request stays. -/
theorem updateMatch_requests_ne (hne : R' ≠ R) (matched sla : Option Id) (state : MatchRequestStatus)
    (t : MatchTables) :
    (MatchmakingRepository.updateMatch R matched sla state t).requests R' = t.requests R' :=
  Function.update_of_ne hne ..

end MatchTables

open MatchTables

namespace MatchSystem

/-- A call that writes finds its request not assigned yet, and can create what it has to. -/
def Proper (col : Columns) (s : MatchSystem) : MatchStep → Prop
  | .create env _ requester_id task_description required_capabilities budget currency deadline_secs
      min_rating auto_assign best =>
      auto_assign = true → ∀ agent_id, best = some agent_id →
        Creatable s.tables env (MatchmakingRepository.create col requester_id task_description
          required_capabilities budget currency deadline_secs min_rating auto_assign
          (env.now + 300000000)) agent_id
  | .finish call env =>
      ∀ R req agent_id, s.reading call = some (R, req, agent_id) →
        (∀ row, s.tables.requests R = some row → row.state ≠ .ASSIGNED) ∧
          Creatable s.tables env req agent_id
  | _ => True

/-- The invariant of the system: the calls under way are for requests that exist. -/
structure Valid (s : MatchSystem) : Prop where
  settled : ∀ R, s.tables.Settled R
  reading : ∀ call R req agent_id, s.reading call = some (R, req, agent_id) →
    (s.tables.requests R).isSome = true

variable {s : MatchSystem} {R' : Id}

/-- The creation of the contract and the update of the request, as both methods do them. -/
theorem assign_settled (h : ∀ R, t.Settled R) {row : MatchRequest} (hrow : t.requests R = some row)
    (hstate : row.state ≠ .ASSIGNED) (hcreatable : Creatable t env req agent_id) :
    let made := createSlaForMatch col env R req agent_id t
    ∀ R', (MatchmakingRepository.updateMatch R (some agent_id) made.1 .ASSIGNED made.2).Settled R' := by
  intro made R'
  obtain ⟨hid, hcreates⟩ := createSlaForMatch_creates col R hcreatable
  have huntouched := (h R).untouched hrow hstate
  by_cases hR : R' = R
  · subst hR
    show (MatchmakingRepository.updateMatch _ _
      (createSlaForMatch col env _ req agent_id t).1 _ _).Settled _
    rw [hid]
    exact Settled.assign huntouched hcreates (by rw [hrow]; rfl) agent_id
  · have hsame : SameFor R' t made.2 := SameFor.of_creates hcreates hR
    refine ((h R').congr hsame (congrFun hcreates.requests R')).congr (.of_requests R' _ _) ?_
    exact updateMatch_requests_ne hR ..

/-- The update of a request that is not assigned by it. -/
theorem match_settled (h : ∀ R, t.Settled R) {row : MatchRequest} (hrow : t.requests R = some row)
    (hstate : row.state ≠ .ASSIGNED) (agent_id : Id) (R' : Id) :
    (MatchmakingRepository.updateMatch R (some agent_id) none .MATCHED t).Settled R' := by
  by_cases hR : R' = R
  · subst hR
    have huntouched := (h R').untouched hrow hstate
    have hupdated : (MatchmakingRepository.updateMatch R' (some agent_id) none .MATCHED t).requests R'
        = some { row with state := .MATCHED, matched_agent_id := some agent_id } := by
      simp [MatchmakingRepository.updateMatch, hrow]
    exact Untouched.settled huntouched hupdated (by simp)
  · exact (h R').congr (.of_requests R' _ _) (updateMatch_requests_ne hR ..)

/-- A row is not deleted by an update. -/
theorem isSome_updateMatch {matched sla : Option Id} {state : MatchRequestStatus}
    (h : (t.requests R').isSome = true) :
    ((MatchmakingRepository.updateMatch R matched sla state t).requests R').isSome = true := by
  by_cases hR : R' = R
  · subst hR
    simpa [MatchmakingRepository.updateMatch] using h
  · rw [updateMatch_requests_ne hR]
    exact h

/-- A row is not deleted. -/
theorem isSome_assignBest {auto_assign : Bool} {best : Option Id}
    (hcreatable : auto_assign = true → ∀ agent_id, best = some agent_id → Creatable t env req agent_id)
    (h : (t.requests R').isSome = true) :
    ((assignBest col env R req auto_assign best t).requests R').isSome = true := by
  unfold assignBest
  cases best with
  | none => exact h
  | some agent_id =>
      cases auto_assign with
      | false => exact isSome_updateMatch h
      | true =>
          obtain ⟨-, hcreates⟩ := createSlaForMatch_creates col R (hcreatable rfl agent_id rfl)
          have hrow : ((createSlaForMatch col env R req agent_id t).2.requests R').isSome = true := by
            rw [hcreates.requests]
            exact h
          exact isSome_updateMatch hrow

/-- A request that is new, and its match. -/
theorem assignBest_settled {auto_assign : Bool} {best : Option Id} (h : ∀ R, t.Settled R)
    {row : MatchRequest} (hrow : t.requests R = some row) (hstate : row.state ≠ .ASSIGNED)
    (hcreatable : auto_assign = true → ∀ agent_id, best = some agent_id → Creatable t env req agent_id) :
    ∀ R', (assignBest col env R req auto_assign best t).Settled R' := by
  unfold assignBest
  cases best with
  | none => exact h
  | some agent_id =>
      cases auto_assign with
      | false => exact match_settled h hrow hstate agent_id
      | true => exact assign_settled h hrow hstate (hcreatable rfl agent_id rfl)

/-- The insertion of a request. -/
theorem insert_settled (h : ∀ R, t.Settled R) (hnew : t.requests R = none)
    (hstate : req.state ≠ .ASSIGNED) (R' : Id) :
    MatchTables.Settled { t with requests := Function.update t.requests R (some req) } R' := by
  have hsame := SameFor.of_requests R' t (Function.update t.requests R (some req))
  by_cases hR : R' = R
  · subst hR
    have huntouched : t.Untouched R' := by
      have hR := h R'
      unfold Settled at hR
      rwa [hnew] at hR
    exact Untouched.settled (hsame.untouched huntouched) (Function.update_self ..) hstate
  · exact (h R').congr hsame (Function.update_of_ne hR ..)

theorem isSome_insert (h : (t.requests R').isSome = true) :
    (Function.update t.requests R (some req) R').isSome = true := by
  by_cases hR : R' = R
  · rw [hR, Function.update_self]
    rfl
  · rwa [Function.update_of_ne hR]

/-- Requests that expire were not assigned. -/
theorem expireStale_settled (h : ∀ R, t.Settled R) (now : Time) (R : Id) :
    (expireStale now t).Settled R := by
  have hR := h R
  unfold Settled at hR ⊢
  cases hrow : t.requests R with
  | none =>
      rw [hrow] at hR
      simp only [expireStale, hrow, Option.map_none]
      exact hR
  | some row =>
      rw [hrow] at hR
      simp only [expireStale, hrow, Option.map_some]
      by_cases hstale : row.state = .SEARCHING ∧ row.expires_at < now
      · simp only [hstale.1, reduceCtorEq, if_false] at hR
        simp only [if_pos hstale, reduceCtorEq, if_false]
        exact hR
      · rw [if_neg hstale]
        exact hR

/-- **One step.** -/
theorem step_valid (h : s.Valid) {a : MatchStep} (ha : s.Proper col a) : (s.step col a).Valid := by
  cases a with
  | create env R requester_id task_description required_capabilities budget currency deadline_secs
      min_rating auto_assign best =>
      simp only [step]
      split
      · exact h
      · next hnew =>
          have hnone : s.tables.requests R = none := by simpa using hnew
          have hstate : (MatchmakingRepository.create col requester_id task_description
              required_capabilities budget currency deadline_secs min_rating auto_assign
              (env.now + 300000000)).state ≠ .ASSIGNED := by simp [MatchmakingRepository.create]
          constructor
          · exact assignBest_settled (insert_settled h.settled hnone hstate) (Function.update_self ..)
              hstate fun hauto agent_id hbest => (ha hauto agent_id hbest).congr
          · intro call R' req agent_id hcall
            exact isSome_assignBest (fun hauto agent_id hbest => (ha hauto agent_id hbest).congr)
              (isSome_insert (h.reading call R' req agent_id hcall))
  | read call R requester_id =>
      simp only [step]
      split
      · exact h
      · next req agent_id hread =>
          refine ⟨h.settled, fun call' R' req' agent_id' hcall => ?_⟩
          by_cases hne : call' = call
          · simp only [hne, Function.update_self, Option.some.injEq, Prod.mk.injEq] at hcall
            obtain ⟨rfl, -, -⟩ := hcall
            unfold readMatch at hread
            cases hrow : s.tables.requests R with
            | none => simp [hrow] at hread
            | some row => rfl
          · simp only [Function.update_of_ne hne] at hcall
            exact h.reading call' R' req' agent_id' hcall
  | finish call env =>
      simp only [step]
      split
      · exact h
      · next R req agent_id hcall =>
          obtain ⟨hstate, hcreatable⟩ := ha R req agent_id hcall
          obtain ⟨row, hrow⟩ := Option.isSome_iff_exists.mp (h.reading call R req agent_id hcall)
          refine ⟨assign_settled h.settled hrow (hstate row hrow) hcreatable,
            fun call' R' req' agent_id' hcall' => ?_⟩
          by_cases hne : call' = call
          · simp [hne] at hcall'
          · simp only [Function.update_of_ne hne] at hcall'
            have hrequests := (createSlaForMatch_creates col R hcreatable).2.requests
            have hkeep : ((createSlaForMatch col env R req agent_id s.tables).2.requests R').isSome
                = true := by
              rw [hrequests]
              exact h.reading call' R' req' agent_id' hcall'
            exact isSome_updateMatch hkeep
  | abort call =>
      refine ⟨h.settled, fun call' R' req' agent_id' hcall => ?_⟩
      by_cases hne : call' = call
      · simp [step, hne] at hcall
      · simp only [step, Function.update_of_ne hne] at hcall
        exact h.reading call' R' req' agent_id' hcall
  | expire now =>
      refine ⟨expireStale_settled h.settled now, fun call R req agent_id hcall => ?_⟩
      have hsome := h.reading call R req agent_id hcall
      simpa [step, expireStale] using hsome
  | others agents templates available =>
      refine ⟨fun R => (h.settled R).congr ⟨rfl, rfl, rfl, fun _ h => h⟩ rfl, h.reading⟩

/-! ## Runs -/

/-- Every step of a run is proper when it happens. -/
def AllProper (col : Columns) : MatchSystem → List MatchStep → Prop
  | _, [] => True
  | s, a :: l => s.Proper col a ∧ AllProper col (s.step col a) l

theorem run_valid (h : s.Valid) {l : List MatchStep} (hl : AllProper col s l) : (s.run col l).Valid := by
  induction l generalizing s with
  | nil => exact h
  | cons a l ih => exact ih (step_valid h hl.1) hl.2

theorem start_valid : ({} : MatchSystem).Valid :=
  ⟨fun _ => ⟨rfl, rfl, rfl⟩, fun _ _ _ _ h => by cases h⟩

/-- **A request leads to one deal at most**, and is assigned iff its contract is there, in every run
whose steps are proper. -/
theorem one_deal (col : Columns) (l : List MatchStep) (hl : AllProper col {} l) (R : Id) :
    (MatchSystem.run col {} l).tables.OneDeal R :=
  ((run_valid start_valid hl).settled R).oneDeal

/-! ### A request of agent 1 -/

/-- Agent 1 has ten XMR, and agent 2 offers its work for one. -/
def market : MatchStep :=
  .others (fun id => if id = 1 ∨ id = 2 then some {} else none)
    [{ id := 7, provider_id := 2, service_description := "", response_time_secs := 60
       delivery_time_secs := 3600, base_price := 1 }]
    fun id _ => if id = 1 then 10 else 0

/-- A request that is matched with agent 2. -/
def matchedRequest : MatchStep :=
  .create ⟨0, 0, 0, none⟩ 5 1 "" [] 2 .XMR 3600 0 false (some 2)

def acceptedOnce : List MatchStep :=
  [market, matchedRequest, .read 0 5 1, .finish 0 ⟨0, 11, 21, none⟩]

/-- Agent 1 accepts again. -/
def acceptedTwice : List MatchStep := acceptedOnce ++ [.read 1 5 1, .finish 1 ⟨0, 12, 22, none⟩]

/-- The request as the call reads it. -/
def matchedRow : MatchRequest where
  requester_id := 1
  task_description := ""
  budget := 2
  deadline_secs := 3600
  matched_agent_id := some 2
  state := .MATCHED
  expires_at := 300000000

theorem acceptedOnce_proper : AllProper Columns.rounding {} acceptedOnce := by
  refine ⟨trivial, ⟨fun hauto => absurd hauto (by decide), ⟨trivial, ⟨?_, trivial⟩⟩⟩⟩
  intro R req agent_id hcall
  have hread : (MatchSystem.run Columns.rounding {} [market, matchedRequest, .read 0 5 1]).reading 0
      = some (5, matchedRow, 2) := by decide +kernel
  have heq := hread.symm.trans hcall
  simp only [Option.some.injEq, Prod.mk.injEq] at heq
  obtain ⟨rfl, rfl, rfl⟩ := heq
  constructor
  · intro row hrow
    have hmatched :
        (MatchSystem.run Columns.rounding {} [market, matchedRequest, .read 0 5 1]).tables.requests 5
          = some matchedRow := by decide +kernel
    rw [← Option.some.inj (hmatched.symm.trans hrow)]
    decide
  · refine ⟨by decide, ⟨_, (by decide +kernel : _ = some (SLATemplate.mk 7 2 "" [] 60 3600 1 10 true)),
      ?_, ?_, ?_⟩, ⟨{}, rfl, rfl⟩, rfl⟩
    · exact one_pos
    · show (1 : ℚ) ≤ 10
      norm_num
    · show (1 : ℚ) ≤ 10
      norm_num

theorem one_deal_acceptedOnce : (MatchSystem.run Columns.rounding {} acceptedOnce).tables.OneDeal 5 :=
  one_deal Columns.rounding acceptedOnce acceptedOnce_proper 5

theorem accepted_twice : ¬(MatchSystem.run Columns.rounding {} acceptedTwice).tables.OneDeal 5 := by
  intro h
  have hcontracts :
      (MatchSystem.run Columns.rounding {} acceptedTwice).tables.contractsOf 5 = [11, 12] := by
    decide +kernel
  have hle := h.contracts
  rw [hcontracts] at hle
  exact absurd hle (by decide)

end MatchSystem

end Sthrip
