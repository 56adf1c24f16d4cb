import Sthrip.Db.Models
import Sthrip.Services.ReviewService

set_option autoImplicit false

/-! # Submitting reviews

`ReviewService.create_review` of `sthrip/services/review_service.py`, with the writes of
`sthrip/db/review_repo.py`. The row that the summary is set to is `ReviewRepository.updateRatingSummary`.

A review is identified by its reviewer and its transaction, which the unique constraint
`uq_review_per_transaction` is about. The reviewed transactions are hub routes, escrow deals and SLA
contracts; of a hub route only its two agents are kept.
-/

namespace Sthrip

open Txn Prog

/-! ## The tables -/

structure HubRoute where
  from_agent_id : Id
  to_agent_id : Id
  deriving DecidableEq

structure StoredReview extends AgentReview where
  reviewer_id : Id
  reviewed_id : Id
  transaction_id : Id
  transaction_type : String
  comment_encrypted : Option String := none
  is_verified : Bool := true

inductive ReviewKey where
  | hubRoute (id : Id)
  | deal (id : Id)
  | slaContract (id : Id)
  | review (reviewer_id transaction_id : Id)
  | ratingSummary (agent_id : Id)
  deriving DecidableEq

@[reducible] def ReviewRow : ReviewKey → Type
  | .hubRoute _ => HubRoute
  | .deal _ => EscrowDeal
  | .slaContract _ => SLAContract
  | .review _ _ => StoredReview
  | .ratingSummary _ => AgentRatingSummary

abbrev reviewSchema : Schema where
  Key := ReviewKey
  Row := ReviewRow
  Entry := Entry
  Ext := Ext
  Op := ExtOp
  Res := fun op => nomatch op
  perform := fun op => nomatch op
  Err := Exn
  commitErr := .OperationalError

abbrev ReviewProgram (α : Type) := Prog reviewSchema α

/-- The body of the request, with the two agents. -/
structure ReviewCreateRequest where
  reviewer_id : Id
  reviewed_id : Id
  transaction_id : Id
  transaction_type : String
  overall_rating : ℤ
  speed_rating : Option ℤ := none
  quality_rating : Option ℤ := none
  reliability_rating : Option ℤ := none
  comment : Option String := none

namespace ReviewRepository

/-- The row of a review that is submitted at the time. -/
def newReview (req : ReviewCreateRequest) (now : Time) : StoredReview where
  reviewer_id := req.reviewer_id
  reviewed_id := req.reviewed_id
  transaction_id := req.transaction_id
  transaction_type := req.transaction_type
  overall_rating := req.overall_rating
  speed_rating := req.speed_rating
  quality_rating := req.quality_rating
  reliability_rating := req.reliability_rating
  comment_encrypted := req.comment
  created_at := now.toNat

/-- A second review of the reviewer for the transaction is refused, and so is a rating outside of
`ck_overall_rating_range`. -/
def create (req : ReviewCreateRequest) : ReviewProgram StoredReview := do
  let now ← now
  let review := newReview req now
  raiseIf (¬(1 ≤ req.overall_rating ∧ req.overall_rating ≤ 5)) .IntegrityError
  let inserted ← Prog.create (ReviewKey.review req.reviewer_id req.transaction_id) review
  raiseIf (inserted = false) .IntegrityError
  return review

/-- The reviews of an agent. -/
def isAbout (reviewed_id : Id) : (k : ReviewKey) → ReviewRow k → Bool
  | .review _ _, r => r.reviewed_id = reviewed_id
  | _, _ => false

def asReview : (Σ k : ReviewKey, ReviewRow k) → Option StoredReview
  | ⟨.review _ _, r⟩ => some r
  | _ => none

/-- Recompute the summary, and write it. -/
def upsertRatingSummary (F : Doubles) (reviewed_id : Id) : ReviewProgram Unit := do
  let rows ← query (isAbout reviewed_id)
  let reviews := rows.filterMap asReview
  let computed := updateRatingSummary F (reviews.map StoredReview.toAgentReview)
  let summary ← select (S := reviewSchema) (ReviewKey.ratingSummary reviewed_id)
  match summary with
  | none => do
      let inserted ← Prog.create (S := reviewSchema) (ReviewKey.ratingSummary reviewed_id) computed
      raiseIf (inserted = false) .IntegrityError
  | some _ => assign (ReviewKey.ratingSummary reviewed_id) fun _ => computed

end ReviewRepository

namespace ReviewService

/-- `_verify_transaction`: the type is known, and there is such a transaction. -/
def verifyTransaction (transaction_id : Id) (transaction_type : String) : ReviewProgram Unit :=
  if transaction_type = "payment" then do
    let row ← select (S := reviewSchema) (ReviewKey.hubRoute transaction_id)
    let _ ← orRaise (.ValueError "Payment transaction %s not found" [.int transaction_id]) row
  else if transaction_type = "escrow" then do
    let row ← select (S := reviewSchema) (ReviewKey.deal transaction_id)
    let _ ← orRaise (.ValueError "Escrow deal %s not found" [.int transaction_id]) row
  else if transaction_type = "sla" then do
    let row ← select (S := reviewSchema) (ReviewKey.slaContract transaction_id)
    let _ ← orRaise (.ValueError "SLA contract %s not found" [.int transaction_id]) row
  else
    raise (.ValueError "Invalid transaction_type %r. Must be one of: escrow, payment, sla"
      [.str transaction_type])

def createReview (F : Doubles) (req : ReviewCreateRequest) : ReviewProgram StoredReview := do
  raiseIf (req.reviewer_id = req.reviewed_id) (.ValueError "An agent cannot review itself")
  verifyTransaction req.transaction_id req.transaction_type
  let review ← ReviewRepository.create req
  ReviewRepository.upsertRatingSummary F req.reviewed_id
  return review

end ReviewService

/-! ## Requests -/

/-- A review is submitted, or a transaction is recorded. -/
inductive ReviewCall where
  | createReview (req : ReviewCreateRequest)
  | payment (id : Id) (row : HubRoute)
  | escrow (id : Id) (row : EscrowDeal)
  | sla (id : Id) (row : SLAContract)

namespace ReviewCall

/-- A new transaction, with a fresh identifier. -/
def record (k : ReviewKey) (row : ReviewRow k) : ReviewProgram Unit := do
  let inserted ← Prog.create (S := reviewSchema) k row
  raiseIf (inserted = false) .IntegrityError

def body (F : Doubles) : ReviewCall → ReviewProgram Unit
  | createReview req => do let _ ← ReviewService.createReview F req
  | payment id row => record (.hubRoute id) row
  | escrow id row => record (.deal id) row
  | sla id row => record (.slaContract id) row

def run (F : Doubles) (call : ReviewCall) : ReviewProgram Unit := withSession (call.body F)

end ReviewCall

end Sthrip
