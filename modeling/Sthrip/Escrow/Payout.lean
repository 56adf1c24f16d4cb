import Sthrip.Escrow.Footprint
import Sthrip.Txn.Keeps
import Sthrip.Txn.Present

set_option autoImplicit false

/-! # A deal is paid out once

The sessions of `accept_escrow`, `deliver_escrow`, `release_escrow`, `cancel_escrow` and of the
sweep, interleaved in any way. The invariant relates the row of one deal without milestones to the
credits and fees recorded for it: there are none while the deal is open, and those of one payout
when it has ended.

A sweep may hold an object of the deal that is older than the row it locks. The guard of its update
then decides, and what it pays out depends only on the terms of the deal, which no session changes.
An exception inside a sweep is caught and the rest of the sweep committed; the payout after the
update of the deal cannot raise, because no row ever disappears (`Calm`).

A fee is recorded in its column, and the seller gets what is left of the exact fee: the parts add
up when the column keeps the fee.
-/

namespace Sthrip

open Txn Prog

/-! ## Payouts -/

/-- What an entry pays out for a deal: a credit, or a fee. -/
def Entry.payoutOf (deal_id : Id) : Entry → Option Entry
  | .posting p => if p.ref = .escrow deal_id ∧ 0 < p.amount then some (.posting p) else none
  | .fee f => if f.source_type = "escrow" ∧ f.source_id = some deal_id then some (.fee f) else none
  | _ => none

/-- The credits and fees of a deal. -/
def payouts (db : DB schema) (deal_id : Id) : List Entry :=
  db.log.filterMap (Entry.payoutOf deal_id)

def Entry.value : Entry → ℚ
  | .posting p => p.amount
  | .fee f => f.amount
  | _ => 0

def totalPaid (es : List Entry) : ℚ := (es.map Entry.value).sum

namespace EscrowDeal

/-- What no transition changes. -/
def terms (deal : EscrowDeal) : Id × Id × ℚ × Token × ℚ × Bool :=
  (deal.buyer_id, deal.seller_id, deal.amount, deal.token, deal.fee_percent, deal.is_multi_milestone)

/-- The credit of an amount, if it is positive. -/
def credited (deal_id agent_id : Id) (token : Token) (amount : ℚ) : List Entry :=
  if 0 < amount then [.posting ⟨agent_id, token, amount, .escrow deal_id⟩] else []

/-- The record of a fee, if it is positive. -/
def charged (col : Columns) (deal_id : Id) (token : Token) (fee_amount : ℚ) : List Entry :=
  if 0 < fee_amount then
    [.fee { source_type := "escrow", source_id := some deal_id, amount := col 12 fee_amount, token
            status := .PENDING }]
  else []

/-- The payout of a deal that is cancelled or expires. -/
def refund (deal_id : Id) (deal : EscrowDeal) : List Entry :=
  credited deal_id deal.buyer_id deal.token deal.amount

/-- The payout of a deal of which `x` is released. -/
def split (col : Columns) (deal_id : Id) (deal : EscrowDeal) (x : ℚ) : List Entry :=
  credited deal_id deal.seller_id deal.token (x - x * deal.feeRate) ++
    credited deal_id deal.buyer_id deal.token (deal.amount - x) ++
    charged col deal_id deal.token (x * deal.feeRate)

/-- The deal has not ended. -/
def Open (deal : EscrowDeal) : Prop := deal.status ∈ [.CREATED, .ACCEPTED, .DELIVERED]

/-- The status of the deal fits what has been paid out; `Released x` says that `x` may be
released. -/
def PaidOut (col : Columns) (deal_id : Id) (Released : ℚ → Prop) (deal : EscrowDeal)
    (es : List Entry) : Prop :=
  match deal.status with
  | .CREATED => es = []
  | .ACCEPTED => es = []
  | .DELIVERED => es = []
  | .CANCELLED => es = deal.refund deal_id
  | .EXPIRED => es = deal.refund deal_id
  | .COMPLETED => ∃ x, Released x ∧ 0 ≤ x ∧ x ≤ deal.amount ∧ es = deal.split col deal_id x
  | .PARTIALLY_COMPLETED => False

variable {col : Columns} {deal_id : Id} {Released : ℚ → Prop} {deal deal' : EscrowDeal}
  {es : List Entry} {x : ℚ}

theorem PaidOut.of_open (h : deal.PaidOut col deal_id Released es) (hopen : deal.Open) :
    es = [] := by
  have hcases : deal.status = .CREATED ∨ deal.status = .ACCEPTED ∨ deal.status = .DELIVERED := by
    simpa [Open] using hopen
  unfold PaidOut at h
  rcases hcases with hs | hs | hs
  · rwa [hs] at h
  · rwa [hs] at h
  · rwa [hs] at h

theorem refund_of_terms (h : deal.terms = deal'.terms) :
    deal.refund deal_id = deal'.refund deal_id := by
  simp only [terms, Prod.mk.injEq] at h
  simp only [refund, h]

theorem split_of_terms (h : deal.terms = deal'.terms) :
    deal.split col deal_id x = deal'.split col deal_id x := by
  simp only [terms, Prod.mk.injEq] at h
  simp only [split, feeRate, h]

theorem totalPaid_credited {agent_id : Id} {token : Token} {amount : ℚ} (h : 0 ≤ amount) :
    totalPaid (credited deal_id agent_id token amount) = amount := by
  unfold credited
  split
  · simp [totalPaid, Entry.value]
  · next hpos => simp [totalPaid, le_antisymm (not_lt.mp hpos) h]

theorem totalPaid_refund (h : 0 ≤ deal.amount) : totalPaid (deal.refund deal_id) = deal.amount :=
  totalPaid_credited h

/-- A release adds up iff the column keeps its fee. -/
theorem totalPaid_split (h₀ : 0 ≤ deal.fee_percent) (h₁ : deal.fee_percent ≤ 1) (hx : 0 ≤ x)
    (hxa : x ≤ deal.amount) : totalPaid (deal.split col deal_id x) = deal.amount ↔
      (0 < x * deal.feeRate → col 12 (x * deal.feeRate) = x * deal.feeRate) := by
  obtain ⟨hr₀, hr₁⟩ := feeRate_bounds h₀ h₁
  have hfee : 0 ≤ x * deal.feeRate := mul_nonneg hx hr₀
  have hseller : 0 ≤ x - x * deal.feeRate := by
    have := mul_le_mul_of_nonneg_left hr₁ hx
    linarith
  have happend : ∀ l l' : List Entry, totalPaid (l ++ l') = totalPaid l + totalPaid l' := by
    intro l l'
    simp [totalPaid]
  rw [split, happend, happend, totalPaid_credited hseller, totalPaid_credited (sub_nonneg.mpr hxa)]
  unfold charged
  split
  · next hpos =>
      simp only [totalPaid, Entry.value, List.map_cons, List.map_nil, List.sum_cons, List.sum_nil,
        add_zero]
      constructor
      · intro h _
        linarith
      · intro h
        rw [h hpos]
        ring
  · next hpos =>
      have hzero : x * deal.feeRate = 0 := le_antisymm (not_lt.mp hpos) hfee
      simp [totalPaid, hzero]

end EscrowDeal

/-! ## The invariant -/

section Sessions

variable {d : Id} {col : Columns} {Released : ℚ → Prop} {deal₀ r : EscrowDeal} {i : ℕ}
  {σ : Session schema}

abbrev PayoutRecord (d : Id) := Record schema (Key.deal d) Entry
abbrev PayoutDraft (d : Id) := Draft schema (Key.deal d) Entry

/-- The deal is there on its terms, and its status fits its payouts. -/
def PaysOnce (col : Columns) (Released : ℚ → Prop) (deal₀ : EscrowDeal) (E : PayoutRecord d) :
    Prop :=
  ∃ r, E.row = some r ∧ r.terms = deal₀.terms ∧ r.PaidOut col d Released E.entries

/-- The deal has no milestones. -/
def NoMilestones (d : Id) : (k : Key) → Row k → Prop
  | .milestone e _, _ => e ≠ d
  | _, _ => True

abbrev payoutProtocol (d : Id) (col : Columns) (Released : ℚ → Prop) (deal₀ : EscrowDeal) :
    Protocol schema Unit :=
  .ofRecord (Key.deal d) (Entry.payoutOf d) (PaysOnce col Released deal₀)
    fun st σ _ _ => True ∧ st.db.Kept (NoMilestones d) ∧ σ.Kept (NoMilestones d)

abbrev payoutDraft (d : Id) (σ : Session schema) : PayoutDraft d :=
  σ.draft (Key.deal d) (Entry.payoutOf d)

abbrev OnDealTerms (deal₀ r : EscrowDeal) : Prop := r.terms = deal₀.terms

theorem PaysOnce.onTerms {E : PayoutRecord d} (h : PaysOnce col Released deal₀ E) (r : EscrowDeal)
    (hr : E.row = some r) : OnDealTerms deal₀ r := by
  obtain ⟨r', hr', hterms, -⟩ := h
  obtain rfl := Option.some.inj (hr.symm.trans hr')
  exact hterms

/-- The session has moved the open deal, and has paid out what fits its new status. -/
def DealMoved (col : Columns) (Released : ℚ → Prop) (deal₀ : EscrowDeal) (D : PayoutDraft d) :
    Prop :=
  ∃ r r', D.held = some ⟨some r, some r'⟩ ∧ r.Open ∧ r'.terms = deal₀.terms ∧
    r'.PaidOut col d Released D.entries

/-- What a session does to the deal in the end. -/
structure DealDone (col : Columns) (Released : ℚ → Prop) (deal₀ : EscrowDeal) (D : PayoutDraft d) :
    Prop where
  good : D.Good (OnDealTerms deal₀)
  outcome : D.Fresh ∨ DealMoved col Released deal₀ D

theorem DealMoved.ready {D : PayoutDraft d} (h : DealMoved col Released deal₀ D) :
    D.Ready (PaysOnce col Released deal₀) := by
  intro E hs
  obtain ⟨r, r', hheld, hopen, hterms, hpaid⟩ := h
  obtain ⟨r₁, hrow, -, hpaid₁⟩ := hs.fits
  obtain rfl : r₁ = r := Option.some.inj (hrow.symm.trans (hs.agrees _ hheld))
  have hview : D.view E = some r' := by rw [Draft.view, hheld]
  refine ⟨r', hview, hterms, ?_⟩
  show r'.PaidOut col d Released (E.entries ++ D.entries)
  rw [hpaid₁.of_open hopen, List.nil_append]
  exact hpaid

theorem DealDone.ready {D : PayoutDraft d} (h : DealDone col Released deal₀ D) :
    D.Ready (PaysOnce col Released deal₀) :=
  h.outcome.elim (fun hf => hf.ready) fun hm => hm.ready

theorem DealDone.later {D D' : PayoutDraft d} (h : DealDone col Released deal₀ D)
    (hl : D.Later (PaysOnce col Released deal₀) D') : DealDone col Released deal₀ D' := by
  refine ⟨h.good.later (fun _ => PaysOnce.onTerms) hl, h.outcome.imp (fun hf => hl.fresh hf) ?_⟩
  rintro ⟨r, r', hheld, hrest⟩
  exact ⟨r, r', hl.held.trans hheld, by rwa [hl.entries]⟩

/-- Locking the deal once more changes nothing. -/
theorem DealDone.lock {D : PayoutDraft d} (h : DealDone col Released deal₀ D) {E : PayoutRecord d}
    (hs : D.Sees (PaysOnce col Released deal₀) E) : DealDone col Released deal₀ (D.lock E) := by
  refine ⟨h.good.lock (fun _ => PaysOnce.onTerms) hs, h.outcome.imp (fun hf => hf.lock hs) ?_⟩
  rintro ⟨r, r', hheld, hrest⟩
  have hlocked : (D.lock E).held = some ⟨some r, some r'⟩ ∧ (D.lock E).entries = D.entries := by
    simp only [Draft.lock, Draft.view, Draft.base, hheld, and_self]
  exact ⟨r, r', hlocked.1, by rwa [hlocked.2]⟩

theorem dealDone_blank : DealDone col Released deal₀ (.blank : PayoutDraft d) :=
  ⟨Draft.good_blank, .inl Draft.fresh_blank⟩

/-! ## Other deals -/

/-- The statement is not about the deal. -/
abbrev OffDeal (d : Id) : Stmt schema → Prop := Stmt.off (· = Key.deal d) (Entry.payoutOf d)

theorem allows_offDeal {e : Id} (he : e ≠ d) : EscrowService.Allows (OffDeal d) e where
  now := trivial
  select _ := trivial
  scan _ := trivial
  lock := fun h => he (Key.deal.inj h)
  update _ _ _ := fun h => he (Key.deal.inj h)
  lockMilestone _ _ := by simp [Stmt.off]
  updateMilestone _ _ _ _ _ := by simp [Stmt.off]
  balance _ _ := ⟨by simp [Stmt.off], by simp [Stmt.off], fun _ => by simp [Stmt.off]⟩
  posting p hp := by simp [Stmt.off, Entry.payoutOf, hp, he]
  fee f hf := by simp [Stmt.off, Entry.payoutOf, hf, he]
  reputation _ _ _ := by simp [Stmt.off]

theorem expire_offDeal {e : Id} (he : e ≠ d) (now : Time) : OffDeal d (expireUpdate e now) :=
  fun h => he (Key.deal.inj h)

/-! ## The methods -/

/-- The end of a method's session. -/
abbrev DealEnds (d : Id) (col : Columns) (Released : ℚ → Prop) (deal₀ : EscrowDeal) {α : Type} :
    α → Session schema → Unit → Prop :=
  fun _ σ _ => DealDone col Released deal₀ (payoutDraft d σ)

/-- The rest of a method, which has nothing to do with the deal. -/
theorem finishDeal_safe {α : Type} {p : Program α} (hp : p.only (OffDeal d))
    (hdone : DealDone col Released deal₀ (payoutDraft d σ)) :
    p.safe (payoutProtocol d col Released deal₀) i (DealEnds d col Released deal₀) Raised σ () :=
  safe_apart hp rfl (fun _ _ hl => hdone.later hl) fun _ _ => trivial

theorem payoutDraft_of_frame {σ' : Session schema} {l : List Entry}
    (fr : BalanceRepository.Frame σ σ' l) :
    payoutDraft d σ' = (payoutDraft d σ).post (l.filterMap (Entry.payoutOf d)) :=
  draft_append (fr.held _ (by simp)) (fr.loaded _ (by simp)) fr.inserted

theorem post_nil {D : PayoutDraft d} : D.post [] = D := by
  rw [Draft.post, List.append_nil]

theorem creditDeal_safe {agent_id : Id} {amount : ℚ} {token : Token}
    {Q : AgentBalance → Session schema → Unit → Prop}
    (h : ∀ b σ', payoutDraft d σ' =
        (payoutDraft d σ).post (EscrowDeal.credited d agent_id token amount) → Q b σ' ()) :
    (BalanceRepository.credit col agent_id amount token (.escrow d)).safe
      (payoutProtocol d col Released deal₀) i Q Raised σ () := by
  refine BalanceRepository.credit_frame (fun b σ' fr => h b σ' ?_) fun _ _ => trivial
  rw [payoutDraft_of_frame fr]
  congr 1
  by_cases hpos : 0 < amount
  · simp [Entry.payoutOf, EscrowDeal.credited, hpos]
  · simp [Entry.payoutOf, EscrowDeal.credited, hpos]

theorem creditDealPositive_safe {agent_id : Id} {amount : ℚ} {token : Token}
    {Q : Unit → Session schema → Unit → Prop}
    (h : ∀ σ', payoutDraft d σ' =
        (payoutDraft d σ).post (EscrowDeal.credited d agent_id token amount) → Q () σ' ()) :
    (onlyIf (0 < amount) (BalanceRepository.credit col agent_id amount token (.escrow d))).safe
      (payoutProtocol d col Released deal₀) i Q Raised σ () := by
  refine safe_onlyIf (fun _ => creditDeal_safe fun _ σ' h' => h σ' h') fun hpos => h σ ?_
  rw [EscrowDeal.credited, if_neg hpos, post_nil]

theorem recordFeeDeal_safe {token : Token} {fee_amount : ℚ}
    {Q : Unit → Session schema → Unit → Prop}
    (h : ∀ σ', payoutDraft d σ' =
        (payoutDraft d σ).post (EscrowDeal.charged col d token fee_amount) → Q () σ' ()) :
    (recordFee col d token fee_amount).safe (payoutProtocol d col Released deal₀) i Q Raised σ
      () := by
  refine safe_onlyIf (fun hpos => safe_insert (h _ ?_)) fun hpos => h σ ?_
  · refine Eq.trans (draft_append (σ := σ) rfl rfl rfl) ?_
    simp [Entry.payoutOf, EscrowDeal.charged, hpos]
  · rw [EscrowDeal.charged, if_neg hpos, post_nil]

/-- An update of the deal the session has locked. -/
theorem updateDeal_safe {guard : EscrowDeal → Bool} {set : EscrowDeal → EscrowDeal}
    {Q : Bool → Session schema → Unit → Prop} (hset : ∀ r, (set r).terms = r.terms)
    (hgood : (payoutDraft d σ).Good (OnDealTerms deal₀))
    (hheld : (payoutDraft d σ).held = some ⟨some r, some r⟩)
    (hit : guard r = true → ∀ σ', (payoutDraft d σ').Good (OnDealTerms deal₀) →
      (payoutDraft d σ').held = some ⟨some r, some (set r)⟩ →
      (payoutDraft d σ').entries = (payoutDraft d σ).entries → Q true σ' ())
    (miss : guard r = false → ∀ σ', (payoutDraft d σ').Good (OnDealTerms deal₀) →
      (payoutDraft d σ').held = (payoutDraft d σ).held →
      (payoutDraft d σ').entries = (payoutDraft d σ).entries → Q false σ' ()) :
    (update (S := schema) (Key.deal d) guard set).safe (payoutProtocol d col Released deal₀) i Q
      Raised σ () := by
  have hown : ∀ {E : PayoutRecord d}, (payoutDraft d σ).view E = some r := by
    intro E
    rw [Draft.view, hheld]
  refine safe_recordTransition (fun _ => PaysOnce.onTerms) (fun r' hr' => (hset r').trans hr') rfl
    hgood (fun E r' σ' hs hv hg hgood' hheld' hentries' => ?_)
    fun st E x σ' _ hs _ hmiss hgood' hheld' hentries' => ?_
  · obtain rfl : r = r' := Option.some.inj (hown.symm.trans hv)
    rw [hs.agrees _ hheld] at hheld'
    exact hit hg σ' hgood' hheld' hentries'
  · exact miss (hmiss r hown) σ' hgood' hheld' hentries'

theorem acceptDeal_safe (hsingle : deal₀.is_multi_milestone = false) (seller_id : Id) :
    (EscrowService.acceptEscrow d seller_id).safe (payoutProtocol d col Released deal₀) i
      (DealEnds d col Released deal₀) Raised Session.start () := by
  refine safe_bind (safe_recordLockFirst (fun _ => PaysOnce.onTerms) rfl
    (fun _ _ _ _ _ => trivial) fun r σ₁ hterms hgood₁ hheld₁ hentries₁ => ?_)
  refine safe_bind (safe_bind (safe_raiseIf (fun _ => trivial) fun _ => ?_))
  refine safe_bind (safe_raiseIf (fun _ => trivial) fun hs => safe_bind (safe_now fun t => ?_))
  refine safe_bind (safe_raiseIf (fun _ => trivial) fun _ => ?_)
  have hagent : (AgentRepository.getById seller_id).only (OffDeal d) := only_stmt trivial
  refine safe_bind (safe_apart hagent rfl (fun _ σ₂ hl => ?_) fun _ _ => trivial)
  have hgood₂ := hgood₁.later (fun _ => PaysOnce.onTerms) hl
  have hheld₂ := hl.held.trans hheld₁
  refine safe_bind (safe_raiseIf (fun _ => trivial) fun _ => ?_)
  have hmulti : r.is_multi_milestone = false := by
    simp only [OnDealTerms, EscrowDeal.terms, Prod.mk.injEq] at hterms
    exact hterms.2.2.2.2.2.trans hsingle
  refine safe_bind (safe_bind (safe_now fun t' => updateDeal_safe (fun _ => rfl) hgood₂ hheld₂
    (fun _ σ₃ hgood₃ hheld₃ hentries₃ => ?_) fun hg => absurd hg (by simp [not_not.mp hs])))
  refine safe_bind (safe_onlyIf (fun h => absurd h (by simp [hmulti])) fun _ => ?_)
  refine finishDeal_safe (only_bind (only_stmt trivial) fun _ => only_orRaise)
    ⟨hgood₃, .inr ⟨r, _, hheld₃, ?_, hterms, ?_⟩⟩
  · simp [EscrowDeal.Open, not_not.mp hs]
  · exact (hentries₃.trans hl.entries).trans hentries₁

theorem deliverDeal_safe (seller_id : Id) :
    (EscrowService.deliverEscrow d seller_id).safe (payoutProtocol d col Released deal₀) i
      (DealEnds d col Released deal₀) Raised Session.start () := by
  refine safe_bind (safe_recordLockFirst (fun _ => PaysOnce.onTerms) rfl
    (fun _ _ _ _ _ => trivial) fun r σ₁ hterms hgood₁ hheld₁ hentries₁ => ?_)
  refine safe_bind (safe_bind (safe_raiseIf (fun _ => trivial) fun _ => ?_))
  refine safe_bind (safe_raiseIf (fun _ => trivial) fun _ => ?_)
  refine safe_bind (safe_raiseIf (fun _ => trivial) fun hs => ?_)
  refine safe_bind (safe_bind (safe_now fun t => updateDeal_safe (fun _ => rfl) hgood₁ hheld₁
    (fun _ σ₂ hgood₂ hheld₂ hentries₂ => ?_) fun hg => absurd hg (by simp [not_not.mp hs])))
  refine finishDeal_safe (only_bind (only_stmt trivial) fun _ => only_orRaise)
    ⟨hgood₂, .inr ⟨r, _, hheld₂, ?_, hterms, ?_⟩⟩
  · simp [EscrowDeal.Open, not_not.mp hs]
  · exact hentries₂.trans hentries₁

theorem applyCompletionTrust_offDeal (buyer_id seller_id : Id) (x y : ℚ) :
    (applyCompletionTrust buyer_id seller_id x y).only (OffDeal d) :=
  EscrowService.applyCompletionTrust_only
    (allows_offDeal (e := d + 1) (Nat.succ_ne_self d)).quiet buyer_id seller_id x y

theorem releaseDeal_safe (buyer_id : Id) {x : ℚ} (hx : Released x) :
    (EscrowService.releaseEscrow col d buyer_id x).safe (payoutProtocol d col Released deal₀) i
      (DealEnds d col Released deal₀) Raised Session.start () := by
  refine safe_bind (safe_recordLockFirst (fun _ => PaysOnce.onTerms) rfl
    (fun _ _ _ _ _ => trivial) fun r σ₁ hterms hgood₁ hheld₁ hentries₁ => ?_)
  refine safe_bind (safe_bind (safe_raiseIf (fun _ => trivial) fun _ => ?_))
  refine safe_bind (safe_raiseIf (fun _ => trivial) fun _ => ?_)
  refine safe_bind (safe_raiseIf (fun _ => trivial) fun hs => ?_)
  refine safe_bind (safe_raiseIf (fun _ => trivial) fun hbounds => ?_)
  obtain ⟨hx₀, hxa⟩ : 0 ≤ x ∧ x ≤ r.amount := by
    rw [not_or, not_lt, not_lt] at hbounds
    exact hbounds
  refine safe_bind (creditDealPositive_safe fun σ₂ h₂ => ?_)
  refine safe_bind (creditDealPositive_safe fun σ₃ h₃ => ?_)
  refine safe_bind (recordFeeDeal_safe fun σ₄ h₄ => ?_)
  rw [h₃, h₂] at h₄
  have hgood₄ : (payoutDraft d σ₄).Good (OnDealTerms deal₀) :=
    h₄ ▸ ((hgood₁.post _).post _).post _
  have hheld₄ : (payoutDraft d σ₄).held = some ⟨some r, some r⟩ := by rw [h₄]; exact hheld₁
  have hentries₄ : (payoutDraft d σ₄).entries = r.split col d x := by
    rw [h₄]
    show ((payoutDraft d σ₁).entries ++ _ ++ _) ++ _ = _
    rw [hentries₁, List.nil_append]
    rfl
  -- the row is delivered, and held: the update finds it so
  refine safe_bind (safe_bind (safe_now fun t => updateDeal_safe (fun _ => rfl) hgood₄ hheld₄
    (fun _ σ₅ hgood₅ hheld₅ hentries₅ => ?_) fun hg => absurd hg (by simp [not_not.mp hs])))
  refine finishDeal_safe (only_bind (applyCompletionTrust_offDeal ..) fun _ =>
    only_bind (only_stmt trivial) fun _ => only_orRaise) ⟨hgood₅, .inr ⟨r, _, hheld₅, ?_, hterms, ?_⟩⟩
  · simp [EscrowDeal.Open, not_not.mp hs]
  · exact ⟨x, hx, hx₀, hxa, hentries₅.trans hentries₄⟩

theorem cancelDeal_safe (buyer_id : Id) :
    (EscrowService.cancelEscrow col d buyer_id).safe (payoutProtocol d col Released deal₀) i
      (DealEnds d col Released deal₀) Raised Session.start () := by
  refine safe_bind (safe_recordLockFirst (fun _ => PaysOnce.onTerms) rfl
    (fun _ _ _ _ _ => trivial) fun r σ₁ hterms hgood₁ hheld₁ hentries₁ => ?_)
  refine safe_bind (safe_bind (safe_raiseIf (fun _ => trivial) fun _ => ?_))
  refine safe_bind (safe_raiseIf (fun _ => trivial) fun hs => ?_)
  refine safe_bind (creditDeal_safe fun _ σ₂ h₂ => ?_)
  have hgood₂ : (payoutDraft d σ₂).Good (OnDealTerms deal₀) := h₂ ▸ hgood₁.post _
  have hheld₂ : (payoutDraft d σ₂).held = some ⟨some r, some r⟩ := by rw [h₂]; exact hheld₁
  have hentries₂ : (payoutDraft d σ₂).entries = r.refund d := by
    rw [h₂]
    show (payoutDraft d σ₁).entries ++ _ = _
    rw [hentries₁, List.nil_append]
    rfl
  refine safe_bind (safe_bind (safe_now fun t => updateDeal_safe (fun _ => rfl) hgood₂ hheld₂
    (fun _ σ₃ hgood₃ hheld₃ hentries₃ => ?_) fun hg => absurd hg (by simp [not_not.mp hs])))
  refine finishDeal_safe (only_bind (only_stmt trivial) fun _ => only_orRaise)
    ⟨hgood₃, .inr ⟨r, _, hheld₃, ?_, hterms, ?_⟩⟩
  · simp [EscrowDeal.Open, not_not.mp hs]
  · exact hentries₃.trans hentries₂

/-! ## The sweep -/

/-- What a sweep does with a deal it has locked. -/
abbrev LockedDeal (d : Id) (deal₀ r : EscrowDeal) (σ : Session schema) : Prop :=
  (payoutDraft d σ).Good (OnDealTerms deal₀) ∧
    (payoutDraft d σ).held = some ⟨some r, some r⟩ ∧ (payoutDraft d σ).entries = []

/-- A deal the session has only locked. -/
theorem LockedDeal.done (h : LockedDeal d deal₀ r σ) :
    DealDone col Released deal₀ (payoutDraft d σ) := by
  refine ⟨h.1, .inl ⟨h.2.2, fun hd hh => ?_⟩⟩
  rw [h.2.1, Option.some.injEq] at hh
  subst hh
  rfl

theorem adjustTrust_offDeal (agent_id : Id) (delta : ℤ) :
    (adjustTrust agent_id delta).only (OffDeal d) :=
  EscrowService.adjustTrust_only (allows_offDeal (e := d + 1) (Nat.succ_ne_self d)).quiet agent_id
    delta

theorem refetch_offDeal : (refetchAsDict d).only (OffDeal d) :=
  only_bind (only_stmt trivial) fun _ => only_orRaise

/-- The refund of an expiry, from an object that may be old. -/
theorem expireThen_safe {o : EscrowDeal} (ho : OnDealTerms deal₀ o) (h : LockedDeal d deal₀ r σ)
    {tail : Program Bool} (htail : tail.only (OffDeal d)) :
    ((EscrowRepository.expire d).bind fun rows => if rows = false then ret false
      else (BalanceRepository.credit col o.buyer_id o.amount o.token (.escrow d)).bind
        fun _ => tail).safe (payoutProtocol d col Released deal₀) i
      (DealEnds d col Released deal₀) Raised σ () := by
  have hterms : OnDealTerms deal₀ r := h.1.own _ r h.2.1 rfl
  refine safe_bind (safe_bind (safe_now fun t => updateDeal_safe (fun _ => rfl) h.1 h.2.1
    (fun hg σ₁ hgood₁ hheld₁ hentries₁ => ?_) fun _ σ₁ hgood₁ hheld₁ hentries₁ => ?_))
  · rw [if_neg (by simp)]
    refine safe_bind (creditDeal_safe fun _ σ₂ h₂ => finishDeal_safe htail ?_)
    rw [h₂]
    refine ⟨hgood₁.post _, .inr ⟨r, _, hheld₁, ?_, hterms, ?_⟩⟩
    · have hs : r.status = .CREATED ∨ r.status = .ACCEPTED := by simpa using hg
      rcases hs with hs | hs
      · simp [EscrowDeal.Open, hs]
      · simp [EscrowDeal.Open, hs]
    · show (payoutDraft d σ₁).entries ++ _ = EscrowDeal.refund d _
      rw [hentries₁, h.2.2, List.nil_append]
      exact EscrowDeal.refund_of_terms (ho.trans hterms.symm)
  · rw [if_pos rfl]
    exact LockedDeal.done ⟨hgood₁, hheld₁.trans h.2.1, hentries₁.trans h.2.2⟩

/-- The automatic release, from an object that may be old. -/
theorem autoReleaseDeal_safe (hpos : 0 ≤ deal₀.amount) (hfull : Released deal₀.amount)
    {o : EscrowDeal} (ho : OnDealTerms deal₀ o) (h : LockedDeal d deal₀ r σ) :
    (EscrowService.autoReleaseFull col d o).safe (payoutProtocol d col Released deal₀) i
      (DealEnds d col Released deal₀) Raised σ () := by
  have hterms : OnDealTerms deal₀ r := h.1.own _ r h.2.1 rfl
  refine safe_bind (safe_bind (safe_now fun t => updateDeal_safe (fun _ => rfl) h.1 h.2.1
    (fun hg σ₁ hgood₁ hheld₁ hentries₁ => ?_) fun _ σ₁ hgood₁ hheld₁ hentries₁ => ?_))
  · rw [if_neg (by simp)]
    refine safe_bind (creditDealPositive_safe fun σ₂ h₂ => ?_)
    refine safe_bind (recordFeeDeal_safe fun σ₃ h₃ => ?_)
    refine finishDeal_safe (only_bind (applyCompletionTrust_offDeal ..) fun _ =>
      only_bind refetch_offDeal fun _ => trivial) ?_
    rw [h₃, h₂]
    refine ⟨(hgood₁.post _).post _, .inr ⟨r, _, hheld₁, ?_, hterms, ?_⟩⟩
    · have hs : r.status = .DELIVERED := by simpa using hg
      simp [EscrowDeal.Open, hs]
    · have hamount : o.amount = deal₀.amount := by
        simp only [OnDealTerms, EscrowDeal.terms, Prod.mk.injEq] at ho
        exact ho.2.2.1
      have hamount' : r.amount = deal₀.amount := by
        simp only [OnDealTerms, EscrowDeal.terms, Prod.mk.injEq] at hterms
        exact hterms.2.2.1
      refine ⟨o.amount, hamount ▸ hfull, hamount ▸ hpos, (hamount.trans hamount'.symm).le, ?_⟩
      show (payoutDraft d σ₁).entries ++ _ ++ _ = EscrowDeal.split col d _ o.amount
      rw [hentries₁, h.2.2, List.nil_append]
      refine Eq.trans ?_ (EscrowDeal.split_of_terms (ho.trans hterms.symm))
      rw [EscrowDeal.split, sub_self, EscrowDeal.credited, EscrowDeal.credited, if_neg (lt_irrefl _),
        List.append_nil]
  · rw [if_pos rfl]
    exact LockedDeal.done ⟨hgood₁, hheld₁.trans h.2.1, hentries₁.trans h.2.2⟩

/-- The sweep of the deal, by a session that has done nothing about it. -/
theorem resolveDeal_safe (hpos : 0 ≤ deal₀.amount) (hfull : Released deal₀.amount)
    (hgood : (payoutDraft d σ).Good (OnDealTerms deal₀)) (hfresh : (payoutDraft d σ).Fresh) :
    (EscrowService.resolveSingle col d).safe (payoutProtocol d col Released deal₀) i
      (DealEnds d col Released deal₀) Raised σ () := by
  refine safe_bind (safe_recordLock rfl fun st E x σ₁ _ hs _ hdraft => ?_)
  have hgood₁ := hgood.lock (fun _ => PaysOnce.onTerms) hs
  have hfresh₁ := hfresh.lock hs
  rw [← hdraft] at hgood₁ hfresh₁
  cases hob : (payoutDraft d σ).object E with
  | none => exact ⟨hgood₁, .inl hfresh₁⟩
  | some o =>
      have ho : OnDealTerms deal₀ o := hgood.object (fun _ => PaysOnce.onTerms) hs hob
      obtain ⟨r, hv, -⟩ := Option.map_eq_some_iff.mp hob
      have hrow : E.row = some r := (hfresh.view hs).symm.trans hv
      have hlocked : LockedDeal d deal₀ r σ₁ := by
        refine ⟨hgood₁, ?_, hfresh₁.entries⟩
        refine (congrArg Draft.held hdraft).trans ?_
        rw [Draft.lock, hv, hs.base, hrow]
      dsimp only
      split
      · exact expireThen_safe ho hlocked (only_bind refetch_offDeal fun _ => trivial)
      · exact expireThen_safe ho hlocked (only_bind (adjustTrust_offDeal ..) fun _ =>
          only_bind refetch_offDeal fun _ => trivial)
      · exact autoReleaseDeal_safe hpos hfull ho hlocked
      · exact hlocked.done

/-- The deal has no milestone that could expire. -/
theorem resolveMilestone_safe (sequence : ℕ)
    (hdone : DealDone col Released deal₀ (payoutDraft d σ)) :
    (EscrowService.resolveMilestoneExpiry col d sequence).safe (payoutProtocol d col Released deal₀)
      i (DealEnds d col Released deal₀) (fun _ _ _ => False) σ () := by
  refine safe_bind (safe_recordLock rfl fun st E x σ₁ _ hs _ hdraft => ?_)
  have hdone₁ : DealDone col Released deal₀ (payoutDraft d σ₁) := by
    show DealDone col Released deal₀ (σ₁.draft _ _)
    rw [hdraft]
    exact hdone.lock hs
  split
  · exact hdone₁
  · next deal _ =>
      split
      · exact hdone₁
      · refine safe_bind (safe_selectForUpdate fun st₁ γ₁ x₁ hs₁ hok => ?_)
        have hview : σ₁.view st₁.db (Key.milestone d sequence) = none := by
          rw [Option.eq_none_iff_forall_ne_some]
          exact fun ms hms => absurd rfl (hok.2.2.view hok.2.1 hms)
        have hobject : σ₁.object st₁.db (Key.milestone d sequence) = none := by
          rw [Session.object, hview]
          rfl
        have hsame : (σ₁.lock st₁.db (Key.milestone d sequence)).load st₁.db
            (Key.milestone d sequence) = σ₁ := by
          rw [Session.lock_of_no_view hview, Session.load, hobject]
        rw [hobject, hsame]
        exact hdone₁

/-! ### No payout raises -/

section Calm

variable {P : Protocol schema Unit} {K : Found schema}

theorem calm_credit (agent_id : Id) (amount : ℚ) (token : Token) (ref : Ref) :
    Calm P i K (BalanceRepository.credit col agent_id amount token ref) := by
  refine calm_bind (calm_getOrCreate (fun r => calm_ret r) rfl) fun balance => ?_
  refine calm_bind (calm_bind (calm_stmt ?_) fun _ => calm_stmt rfl) fun _ => calm_ret _
  simp [Stmt.off]

theorem calm_refetch (hd : K (Key.deal d)) : Calm P i K (refetchAsDict d) :=
  calm_select hd fun r => calm_ret r

theorem calm_adjustTrust (agent_id : Id) (delta : ℤ) : Calm P i K (adjustTrust agent_id delta) := by
  refine calm_onlyIf (calm_bind (calm_stmt trivial) fun now => ?_)
  exact calm_bind (calm_stmt (by simp [Stmt.off])) fun _ => calm_ret _

theorem calm_applyCompletionTrust (buyer_id seller_id : Id) (x y : ℚ) :
    Calm P i K (applyCompletionTrust buyer_id seller_id x y) := by
  unfold applyCompletionTrust
  split
  · exact calm_ret _
  · split
    · exact calm_bind (calm_adjustTrust ..) fun _ => calm_adjustTrust ..
    · split
      · exact calm_adjustTrust ..
      · split
        · exact calm_adjustTrust ..
        · exact calm_adjustTrust ..

theorem calm_updateDeal (guard : EscrowDeal → Bool) (set : EscrowDeal → EscrowDeal) :
    Calm P i K (update (S := schema) (Key.deal d) guard set) := calm_stmt (by simp [Stmt.off])

/-- The deal is there, and so its sweep does not raise. -/
theorem calm_resolveSingle (hd : K (Key.deal d)) :
    Calm P i K (EscrowService.resolveSingle col d) := by
  have hexpire : Calm P i K (EscrowRepository.expire d) :=
    calm_bind (calm_stmt trivial) fun now => calm_updateDeal _ _
  refine calm_selectForUpdate hd fun deal => ?_
  dsimp only
  split
  · refine calm_bind hexpire fun rows => ?_
    split
    · exact calm_ret _
    · refine calm_bind (calm_credit ..) fun _ => ?_
      exact calm_bind (calm_refetch hd) fun _ => calm_ret _
  · refine calm_bind hexpire fun rows => ?_
    split
    · exact calm_ret _
    · refine calm_bind (calm_credit ..) fun _ => calm_bind (calm_adjustTrust ..) fun _ => ?_
      exact calm_bind (calm_refetch hd) fun _ => calm_ret _
  · refine calm_bind (calm_bind (calm_stmt trivial) fun now => calm_updateDeal _ _) fun rows => ?_
    split
    · exact calm_ret _
    · refine calm_bind (calm_onlyIf (calm_credit ..)) fun _ => ?_
      refine calm_bind (calm_onlyIf (calm_stmt rfl)) fun _ => ?_
      refine calm_bind (calm_applyCompletionTrust ..) fun _ => ?_
      exact calm_bind (calm_refetch hd) fun _ => calm_ret _
  · exact calm_ret _

end Calm

/-! ### The sweep as a whole -/

theorem getPendingExpiry_safe :
    EscrowRepository.getPendingExpiry.safe (payoutProtocol d col Released deal₀) i
      (fun deals σ' _ => deals.Nodup ∧
        (payoutDraft d Session.start).Later (PaysOnce col Released deal₀) (payoutDraft d σ'))
      Raised Session.start () := by
  refine safe_bind (safe_now fun t => safe_bind (safe_recordQuery rfl
    fun rows σ₁ h₁ hnodup _ => ⟨?_, h₁⟩))
  refine nodup_filterMap_keys (S := schema) Key.deal ?_ hnodup
  rintro ⟨k, row⟩ id hid
  cases k with
  | deal id' =>
      obtain rfl := Option.some.inj hid
      rfl
  | _ => cases hid

/-- A sweep in a session of its own. -/
theorem sweep_safe (hpos : 0 ≤ deal₀.amount) (hfull : Released deal₀.amount) {g : Found schema}
    (hg : g (Key.deal d)) :
    (EscrowService.resolveExpired col).safe (payoutProtocol d col Released deal₀).remembering i
      (fun _ σ' _ => DealDone col Released deal₀ (payoutDraft d σ')) Raised Session.start g := by
  let Untouched : Session schema → Found schema → Prop := fun σ g =>
    g (Key.deal d) ∧ (payoutDraft d σ).Good (OnDealTerms deal₀) ∧ (payoutDraft d σ).Fresh
  let Handled : Session schema → Found schema → Prop := fun σ g =>
    g (Key.deal d) ∧ DealDone col Released deal₀ (payoutDraft d σ)
  -- what has nothing to do with the deal keeps both
  have hapart : ∀ {α : Type} {p : Program α}, p.only (OffDeal d) → ∀ σ g,
      (Untouched σ g → p.safe (payoutProtocol d col Released deal₀).remembering i
        (fun _ => Untouched) Raised σ g) ∧
      (Handled σ g → p.safe (payoutProtocol d col Released deal₀).remembering i
        (fun _ => Handled) Raised σ g) := by
    intro α p hp σ g
    have hlater : p.safe (payoutProtocol d col Released deal₀) i
        (fun _ σ' _ => (payoutDraft d σ).Later (PaysOnce col Released deal₀) (payoutDraft d σ'))
        Raised σ () := safe_apart hp rfl (fun _ _ h => h) fun _ _ => trivial
    have hremember := safe_remembering (g := g) hlater
    refine ⟨fun h => safe_mono hremember (fun _ σ' g' h' => ?_) fun _ _ _ _ => trivial,
      fun h => safe_mono hremember (fun _ σ' g' h' => ?_) fun _ _ _ _ => trivial⟩
    · exact ⟨h'.2.symm ▸ h.1, h.2.1.later (fun _ => PaysOnce.onTerms) h'.1, h'.1.fresh h.2.2⟩
    · exact ⟨h'.2.symm ▸ h.1, h.2.later h'.1⟩
  have hskip : ∀ {e : Id}, e ≠ d →
      (tryCatch (EscrowService.resolveSingle col e) fun _ => (pure false : Program Bool)).only
        (OffDeal d) := fun he => only_tryCatch
    (EscrowService.resolveSingle_only (allows_offDeal he) (expire_offDeal he)) fun _ => trivial
  have hskipMilestone : ∀ {e : Id} (sequence : ℕ), e ≠ d →
      (tryCatch (EscrowService.resolveMilestoneExpiry col e sequence)
        fun _ => (pure false : Program Bool)).only (OffDeal d) := fun sequence he => only_tryCatch
    (EscrowService.resolveMilestoneExpiry_only (allows_offDeal he) sequence) fun _ => trivial
  refine safe_bind (safe_mono (safe_remembering getPendingExpiry_safe) (fun deals σ₁ g₁ h₁ => ?_)
    fun _ _ _ _ => trivial)
  obtain ⟨⟨hnodup, hl⟩, rfl⟩ := h₁
  have huntouched : Untouched σ₁ g₁ :=
    ⟨hg, Draft.good_blank.later (fun _ => PaysOnce.onTerms) hl, hl.fresh Draft.fresh_blank⟩
  refine safe_bind (safe_mono (safe_tally_once (I := Untouched) (J := Handled) (R := Raised) id d
    (fun σ g h => ⟨h.1, h.2.1, .inl h.2.2⟩) (by simpa using hnodup) (fun e he => ?_)
    (fun e _ he σ g h => ?_) huntouched) (fun _ σ₂ g₂ h₂ => ?_) fun _ _ _ h => h)
  · exact hapart (hskip he)
  · obtain rfl : e = d := he
    refine safe_tryCatch (safe_mono (safe_and (resolveDeal_safe hpos hfull h.2.1 h.2.2)
      ((calm_resolveSingle (K := (· = Key.deal e)) rfl).safe σ g fun k hk => hk ▸ h.1))
      (fun _ σ' g' h' => ⟨h'.2 _ rfl, h'.1⟩) fun _ _ _ h' => h'.2.elim)
  · have hmilestones : MilestoneRepository.getPendingMilestoneExpiry.only (OffDeal d) :=
      only_bind (only_stmt trivial) fun t =>
        only_bind (only_query trivial fun _ => trivial) fun _ => trivial
    refine safe_bind (safe_mono ((hapart hmilestones σ₂ g₂).2 h₂) (fun ms σ₃ g₃ h₃ => ?_)
      fun _ _ _ h => h)
    refine safe_bind (safe_mono (safe_tally Handled ms (fun a σ g h => ?_) h₃)
      (fun _ _ _ h => h.2) fun _ _ _ h => h)
    obtain ⟨e, sequence⟩ := a
    by_cases he : e = d
    · subst he
      refine safe_tryCatch (safe_mono (safe_remembering (resolveMilestone_safe sequence h.2))
        (fun _ σ' g' h' => ⟨h'.2.symm ▸ h.1, h'.1⟩) fun _ _ _ h' => h'.1.elim)
    · exact (hapart (hskipMilestone sequence he) σ g).2 h

end Sessions

/-! ## All interleavings -/

/-- A session about deals. -/
inductive DealCall where
  | acceptEscrow (escrow_id seller_id : Id)
  | deliverEscrow (escrow_id seller_id : Id)
  | releaseEscrow (escrow_id buyer_id : Id) (release_amount : ℚ)
  | cancelEscrow (escrow_id buyer_id : Id)
  | resolveExpired

namespace DealCall

def body (col : Columns) : DealCall → Program Unit
  | acceptEscrow e a => do let _ ← EscrowService.acceptEscrow e a
  | deliverEscrow e a => do let _ ← EscrowService.deliverEscrow e a
  | releaseEscrow e a x => do let _ ← EscrowService.releaseEscrow col e a x
  | cancelEscrow e a => do let _ ← EscrowService.cancelEscrow col e a
  | resolveExpired => do let _ ← EscrowService.resolveExpired col

def run (col : Columns) (call : DealCall) : Program Unit := withSession (call.body col)

end DealCall

/-- The amounts that may be released of the deal `d`: all of it, and what a buyer asks for. -/
def Releases (calls : ℕ → DealCall) (d : Id) (amount x : ℚ) : Prop :=
  x = amount ∨ ∃ i buyer_id, calls i = .releaseEscrow d buyer_id x

section Sessions

variable {d : Id} {col : Columns} {deal₀ : EscrowDeal}

/-- A session of the deal itself. -/
theorem DealCall.run_of_body {Released : ℚ → Prop} {i : ℕ} {α : Type} {p : Program α}
    (h : p.safe (payoutProtocol d col Released deal₀) i (DealEnds d col Released deal₀) Raised
      Session.start ()) {g : Found schema} :
    (withSession (do let _ ← p : Program Unit)).safe (payoutProtocol d col Released deal₀).remembering
      i (fun _ _ _ => True) (fun _ _ _ => True) Session.start g := by
  refine safe_withSession (safe_bind (safe_mono (safe_remembering h) (fun _ σ g' h' => ?_)
    fun _ _ _ _ => trivial))
  exact ⟨commits_remembering (record_commits h'.1.ready), trivial⟩

theorem DealCall.run_safe (hsingle : deal₀.is_multi_milestone = false) (hpos : 0 ≤ deal₀.amount)
    (calls : ℕ → DealCall) (i : ℕ) {g : Found schema} (hg : g (Key.deal d)) :
    ((calls i).run col).safe
      (payoutProtocol d col (Releases calls d deal₀.amount) deal₀).remembering i
      (fun _ _ _ => True) (fun _ _ _ => True) Session.start g := by
  have hother : ∀ {α : Type} {p : Program α}, p.only (OffDeal d) →
      p.safe (payoutProtocol d col (Releases calls d deal₀.amount) deal₀) i
        (DealEnds d col (Releases calls d deal₀.amount) deal₀) Raised Session.start () :=
    fun hp => finishDeal_safe hp dealDone_blank
  cases hcall : calls i with
  | acceptEscrow e a =>
      by_cases he : e = d
      · subst he
        exact run_of_body (acceptDeal_safe hsingle a)
      · exact run_of_body (hother (EscrowService.acceptEscrow_only (allows_offDeal he) a))
  | deliverEscrow e a =>
      by_cases he : e = d
      · subst he
        exact run_of_body (deliverDeal_safe a)
      · exact run_of_body (hother (EscrowService.deliverEscrow_only (allows_offDeal he) a))
  | releaseEscrow e a x =>
      by_cases he : e = d
      · subst he
        exact run_of_body (releaseDeal_safe a (.inr ⟨i, a, hcall⟩))
      · exact run_of_body (hother (EscrowService.releaseEscrow_only (allows_offDeal he) a x))
  | cancelEscrow e a =>
      by_cases he : e = d
      · subst he
        exact run_of_body (cancelDeal_safe a)
      · exact run_of_body (hother (EscrowService.cancelEscrow_only (allows_offDeal he) a))
  | resolveExpired =>
      refine safe_withSession (safe_bind (safe_mono (sweep_safe hpos (.inl rfl) hg)
        (fun _ σ g' h' => ?_) fun _ _ _ _ => trivial))
      exact ⟨commits_remembering (record_commits h'.ready), trivial⟩

/-- No session makes a milestone. -/
theorem allows_noMilestones (e : Id) : EscrowService.Allows (Stmt.keeps (NoMilestones d)) e where
  now := trivial
  select _ := trivial
  scan _ := trivial
  lock := trivial
  update _ _ _ := fun _ _ _ => trivial
  lockMilestone _ _ := trivial
  updateMilestone _ _ _ _ _ := fun _ h _ => h
  balance _ _ := ⟨trivial, trivial, fun _ _ _ => trivial⟩
  posting _ _ := trivial
  fee _ _ := trivial
  reputation _ _ _ := fun _ _ _ => trivial

/-- The statements of the sessions. -/
theorem DealCall.body_only {ok : Stmt schema → Prop} (h : ∀ e, EscrowService.Allows ok e)
    (hexpire : ∀ e now, ok (expireUpdate e now)) (call : DealCall) : (call.body col).only ok := by
  cases call with
  | acceptEscrow e a => exact only_bind (EscrowService.acceptEscrow_only (h e) a) fun _ => trivial
  | deliverEscrow e a => exact only_bind (EscrowService.deliverEscrow_only (h e) a) fun _ => trivial
  | releaseEscrow e a x =>
      exact only_bind (EscrowService.releaseEscrow_only (h e) a x) fun _ => trivial
  | cancelEscrow e a => exact only_bind (EscrowService.cancelEscrow_only (h e) a) fun _ => trivial
  | resolveExpired =>
      exact only_bind (EscrowService.resolveExpired_only h hexpire 0) fun _ => trivial

theorem DealCall.run_keeps (call : DealCall) :
    (call.run col).only (Stmt.keeps (NoMilestones d)) :=
  only_withSession trivial trivial
    (call.body_only allows_noMilestones fun _ _ _ _ _ => trivial)

end Sessions

/-- Agent 1 has paid for a deal with agent 2; `create_escrow` has just committed. -/
def newDeal (amount : ℚ) : Store schema where
  db :=
    { rows := fun
        | .agent id => if id = 1 ∨ id = 2 then some {} else none
        | .balance id token => if id = 1 ∧ token = .XMR then some { available := 10 } else none
        | .deal id =>
            if id = 1 then some
              { buyer_id := 1, seller_id := 2, amount, description := "", fee_percent := 1 / 100
                accept_timeout_hours := 24, delivery_timeout_hours := 48, review_timeout_hours := 24
                accept_deadline := some (hours 24), expires_at := some (hours 24) }
            else none
        | _ => none
      keys := [.agent 1, .agent 2, .balance 1 .XMR, .deal 1]
      log := [.posting ⟨1, .XMR, -amount, .escrow 1⟩] }
  ext := default

theorem newDeal_wf (amount : ℚ) : (newDeal amount).db.WF := by
  refine ⟨?_, fun k => ?_⟩
  · show List.Nodup [Key.agent 1, Key.agent 2, Key.balance 1 .XMR, Key.deal 1]
    decide
  · cases k with
    | agent id => by_cases h : id = 1 ∨ id = 2 <;> simp_all [newDeal]
    | balance id token => by_cases h : id = 1 ∧ token = .XMR <;> simp [newDeal, h]
    | deal id => by_cases h : id = 1 <;> simp [newDeal, h]
    | _ => simp [newDeal]

theorem payouts_newDeal {amount : ℚ} (h : 0 ≤ amount) : payouts (newDeal amount).db 1 = [] := by
  have hneg : ¬0 < -amount := not_lt.mpr (neg_nonpos.mpr h)
  show List.filterMap _ [Entry.posting ⟨1, .XMR, -amount, .escrow 1⟩] = []
  simp only [Entry.payoutOf, hneg, and_false, if_false, List.filterMap_cons, List.filterMap_nil]

/-- The seller accepts and delivers, and the buyer releases everything. -/
def releaseAll (amount : ℚ) : ℕ → DealCall
  | 0 => .acceptEscrow 1 2
  | 1 => .deliverEscrow 1 2
  | 2 => .releaseEscrow 1 1 amount
  | _ => .resolveExpired

/-- The three sessions one after another. -/
def releasedInOrder : List (ℕ × Input schema) := turn 0 7 0 ++ turn 1 5 0 ++ turn 2 14 0

/-- The test that the schedule ends with a completed deal and this total. -/
def releasesWith (amount total : ℚ) : Bool :=
  (Config.trace releasedInOrder (.start (newDeal amount) fun i =>
    (releaseAll amount i).run .rounding)).any fun c =>
      ((c.store.db.rows (Key.deal 1)).any fun deal => deal.status = .COMPLETED ∧
        deal.amount = amount) ∧ totalPaid (payouts c.store.db 1) = total

theorem exists_of_releasesWith {amount total : ℚ} (h : releasesWith amount total = true) :
    ∃ (c : Config schema Unit) (deal : EscrowDeal),
      Config.trace releasedInOrder (.start (newDeal amount) fun i =>
        (releaseAll amount i).run .rounding) = some c ∧
      c.store.db.rows (Key.deal 1) = some deal ∧ deal.status = .COMPLETED ∧ deal.amount = amount ∧
      totalPaid (payouts c.store.db 1) = total := by
  simp only [releasesWith, Option.any_eq_true, decide_eq_true_eq] at h
  obtain ⟨c, hc, ⟨deal, hr, hs, ha⟩, htotal⟩ := h
  exact ⟨c, deal, hc, hr, hs, ha, htotal⟩

end Sthrip
