import Sthrip.Escrow.Deadline
import Sthrip.Services.PaymentEnvelope

set_option autoImplicit false

/-! # Reading envelopes instead of columns

A row that was written with its envelope *agrees* with it (`Agrees`) when its amount has at most twelve
digits after the point: the envelope keeps all digits, the column twelve of them. No method writes the
columns that are in the envelope after the row was made (`Operation`), so in runs that only write such
amounts all rows agree, and reading the envelopes changes nothing (`dualRead_harmless`).
-/

namespace Sthrip

open Txn Prog

variable {E : EnvelopeCrypto} {col : Columns} {k : Key}

/-! ## Rows and their envelopes -/

def enteredAmount (k : Key) (row : Row k) : Option ℚ := (rowFallback .flag_off k row).amount

/-- The envelope of the row was made with its own columns. -/
def Written (E : EnvelopeCrypto) : (k : Key) → Sealed E (Row k) → Prop
  | .deal _, r => ∃ drawn, r.participant_envelope = some (buildEnvelope E drawn (some r.row.buyer_id)
      (some r.row.seller_id) (some r.row.amount) (some r.row.description))
  | .milestone _ _, r => ∃ drawn buyer_id seller_id, r.participant_envelope =
      some (buildEnvelope E drawn buyer_id seller_id (some r.row.amount) (some r.row.description))
  | .transaction _, r => ∃ drawn, r.participant_envelope = some (buildEnvelope E drawn
      r.row.from_agent_id r.row.to_agent_id (some r.row.amount) r.row.memo)
  | _, r => r.participant_envelope = none

/-- The column of the amount keeps all that is in the envelope. -/
structure Agrees (E : EnvelopeCrypto) (k : Key) (r : Sealed E (Row k)) : Prop where
  written : Written E k r
  fits : ∀ a, enteredAmount k r.row = some a → a ∈ decimals 12

/-- The columns that are in the envelope are the same, and the envelope. -/
structure SameFields (k : Key) (r r' : Sealed E (Row k)) : Prop where
  fields : rowFallback .flag_off k r.row = rowFallback .flag_off k r'.row
  envelope : r.participant_envelope = r'.participant_envelope

theorem Written.of_same {r r' : Sealed E (Row k)} (h : SameFields k r r') (hr' : Written E k r') :
    Written E k r := by
  obtain ⟨hfields, henvelope⟩ := h
  cases k with
  | deal id =>
      simp only [rowFallback, ReadResult.mk.injEq, Option.some.injEq] at hfields
      obtain ⟨hbuyer, hseller, hamount, hdescription, -⟩ := hfields
      obtain ⟨drawn, hbuilt⟩ := hr'
      refine ⟨drawn, ?_⟩
      rw [henvelope, hbuilt, hbuyer, hseller, hamount, hdescription]
  | milestone id sequence =>
      simp only [rowFallback, ReadResult.mk.injEq, Option.some.injEq] at hfields
      obtain ⟨-, -, hamount, hdescription, -⟩ := hfields
      obtain ⟨drawn, buyer_id, seller_id, hbuilt⟩ := hr'
      refine ⟨drawn, buyer_id, seller_id, ?_⟩
      rw [henvelope, hbuilt, hamount, hdescription]
  | transaction tx_hash =>
      simp only [rowFallback, ReadResult.mk.injEq, Option.some.injEq] at hfields
      obtain ⟨hfrom, hto, hamount, hmemo, -⟩ := hfields
      obtain ⟨drawn, hbuilt⟩ := hr'
      refine ⟨drawn, ?_⟩
      rw [henvelope, hbuilt, hfrom, hto, hamount, hmemo]
  | _ => exact henvelope.trans hr'

theorem Agrees.of_same {r r' : Sealed E (Row k)} (h : SameFields k r r') (hr' : Agrees E k r') :
    Agrees E k r where
  written := hr'.written.of_same h
  fits a ha := by
    rw [enteredAmount, h.fields] at ha
    exact hr'.fits a ha

/-! ## Reading back -/

/-- **Round trip**: an envelope is read as it was built. -/
theorem readWithFallback_built (r : Sealed E (Row k)) {drawn : ℕ} {from_agent_id to_agent_id : Option Id}
    {amount : Option ℚ} {description : Option String} (hamount : ∀ a, amount = some a → a ∈ decimals 12)
    (h : r.participant_envelope
      = some (buildEnvelope E drawn from_agent_id to_agent_id amount description)) :
    readWithFallback E true k r = ⟨from_agent_id, to_agent_id, amount, description, .envelope⟩ := by
  have huuid : ∀ id : Option Id, (id.map Python.strUuid).bind Python.uuid = id := by
    intro id
    cases id with
    | none => rfl
    | some id =>
        rw [Option.map_some, Option.bind_some]
        exact Python.uuid_str id
  have hdecimal : (amount.map Python.strDecimal).bind Python.decimal = amount := by
    cases amount with
    | none => rfl
    | some a =>
        rw [Option.map_some, Option.bind_some]
        exact Python.decimal_str (hamount a rfl)
  rw [readWithFallback, h]
  simp only [Bool.true_eq_false, if_false, buildEnvelope, E.decrypt_encrypt, normalizePayload, huuid,
    hdecimal]

theorem fallbackOrNoData_source {result : ReadResult} (h : result.source ≠ .envelope) :
    (fallbackOrNoData result).source ≠ .envelope := by
  unfold fallbackOrNoData
  split
  · exact fun h' => by cases h'
  · exact h

theorem rowFallback_source (source : ReadSource) (k : Key) (row : Row k) :
    (rowFallback source k row).source = source := by
  cases k <;> rfl

/-- Without the flag, and without an envelope, nothing is swapped. -/
theorem applyEnvelopeToRow_off {flag : Bool} (r : Sealed E (Row k))
    (h : flag = false ∨ r.participant_envelope = none) : applyEnvelopeToRow E flag k r = r := by
  have hsource : (readWithFallback E flag k r).source ≠ .envelope := by
    unfold readWithFallback
    split
    · refine fallbackOrNoData_source ?_
      rw [rowFallback_source]
      exact fun h => by cases h
    · next hflag =>
        rw [h.resolve_left hflag]
        refine fallbackOrNoData_source ?_
        rw [rowFallback_source]
        exact fun h => by cases h
  rw [applyEnvelopeToRow, if_pos hsource]

/-- Rows that agree with their envelope are not changed by it. -/
theorem Agrees.applyEnvelopeToRow {r : Sealed E (Row k)} (h : Agrees E k r) :
    applyEnvelopeToRow E true k r = r := by
  obtain ⟨hwritten, hfits⟩ := h
  cases k with
  | deal id =>
      obtain ⟨drawn, hbuilt⟩ := hwritten
      have hread := readWithFallback_built (k := .deal id) r hfits hbuilt
      rw [Sthrip.applyEnvelopeToRow, hread, if_neg (fun h => h rfl)]
      rfl
  | milestone id sequence =>
      obtain ⟨drawn, buyer_id, seller_id, hbuilt⟩ := hwritten
      have hread := readWithFallback_built (k := .milestone id sequence) r hfits hbuilt
      rw [Sthrip.applyEnvelopeToRow, hread, if_neg (fun h => h rfl)]
      rfl
  | transaction tx_hash =>
      obtain ⟨drawn, hbuilt⟩ := hwritten
      have hread := readWithFallback_built (k := .transaction tx_hash) r hfits hbuilt
      rw [Sthrip.applyEnvelopeToRow, hread, if_neg (fun h => h rfl)]
      rfl
  | _ => exact applyEnvelopeToRow_off r (.inr hwritten)

theorem Agrees.storeAmount (hcol : col.Keeps 12 (decimals 12)) {r : Sealed E (Row k)}
    (h : Agrees E k r) : storeAmount col k r.row = r.row := by
  cases k with
  | deal id =>
      have hkeep : col 12 r.row.amount = r.row.amount := hcol _ (h.fits _ rfl)
      rw [Sthrip.storeAmount, hkeep]
  | milestone id sequence =>
      have hkeep : col 12 r.row.amount = r.row.amount := hcol _ (h.fits _ rfl)
      rw [Sthrip.storeAmount, hkeep]
  | transaction tx_hash =>
      have hkeep : col 12 r.row.amount = r.row.amount := hcol _ (h.fits _ rfl)
      rw [Sthrip.storeAmount, hkeep]
  | _ => rfl

theorem setFields_own (source : ReadSource) (k : Key) (row : Row k) :
    setFields (rowFallback source k row) k row = row := by
  cases k <;> rfl

/-- **Rows that agree are settled**, with the flag and without it. -/
theorem Agrees.settled (hcol : col.Keeps 12 (decimals 12)) (flag : Bool) {r : Sealed E (Row k)}
    (h : Agrees E k r) : (dualReads E col flag).Settled k r where
  insert := by
    show ({ r with row := Sthrip.storeAmount col k r.row } : Sealed E (Row k)) = r
    rw [h.storeAmount hcol]
  flush := by
    show ({ r with row := setFields (rowFallback .flag_off k (Sthrip.storeAmount col k r.row)) k r.row } :
      Sealed E (Row k)) = r
    rw [h.storeAmount hcol, setFields_own]
  read := by
    cases flag with
    | false => exact applyEnvelopeToRow_off r (.inl rfl)
    | true => exact h.applyEnvelopeToRow

/-! ## Operations -/

/-- What the statements of the program do to rows with envelopes: they are made with their envelope, for
an amount in `A`, and what is in the envelope is never written again. -/
def PaymentStmt (E : EnvelopeCrypto) (A : ℚ → Prop) : Stmt (sealedSchema E) → Prop
  | .update k _ set => ∀ r, SameFields k (set r) r
  | .assign k set => ∀ r, SameFields k (set r) r
  | .create k r => Written E k r ∧ ∀ a, enteredAmount k r.row = some a → A a
  | _ => True

/-- An operation of the repositories and services. -/
def Operation (q : Request (sealedSchema E)) : Prop := q.only (PaymentStmt E fun _ => True)

/-- The amounts of the rows that are made have at most twelve digits after the point. -/
def TwelveDigits : Stmt (sealedSchema E) → Prop
  | .create k r => ∀ a, enteredAmount k r.row = some a → a ∈ decimals 12
  | _ => True

/-- The tables with envelopes. -/
def hasEnvelope : Key → Bool
  | .deal _ => true
  | .milestone _ _ => true
  | .transaction _ => true
  | _ => false

/-- A statement over the plain tables that does not write what is in an envelope. -/
def PlainStmt : Stmt schema → Prop
  | .update k _ set => ∀ row, rowFallback .flag_off k (set row) = rowFallback .flag_off k row
  | .assign k set => ∀ row, rowFallback .flag_off k (set row) = rowFallback .flag_off k row
  | .create k _ => hasEnvelope k = false
  | _ => True

section Operations

variable {A : ℚ → Prop} {α : Type}

theorem liftStmt_payment {s : Stmt schema} (h : PlainStmt s) : PaymentStmt E A (liftStmt E s) := by
  cases s with
  | update k guard set => exact fun r => ⟨h r.row, rfl⟩
  | assign k set => exact fun r => ⟨h r.row, rfl⟩
  | create k row =>
      have hk : hasEnvelope k = false := h
      cases k with
      | deal id => cases hk
      | milestone id sequence => cases hk
      | transaction tx_hash => cases hk
      | _ => exact ⟨rfl, fun a ha => by cases ha⟩
  | _ => trivial

/-- A program over the plain tables. -/
theorem lift_only {p : Program α} (h : p.only PlainStmt) : (lift E p).only (PaymentStmt E A) := by
  induction p with
  | ret a => trivial
  | raise e => trivial
  | step s next ih => exact ⟨liftStmt_payment h.1, fun r => ih _ (h.2 _)⟩

theorem balance_plain (agent_id : Id) (token : Token) :
    BalanceRepository.Allows PlainStmt agent_id token where
  lock := trivial
  create := rfl
  assign _ := fun _ => rfl

/-- No update of a deal or of a milestone writes what is in its envelope. -/
theorem escrow_plain (e : Id) : EscrowService.Allows PlainStmt e where
  now := trivial
  select _ := trivial
  scan _ := trivial
  lock := trivial
  update guard set h := by
    cases h with
    | _ => exact fun _ => rfl
  lockMilestone _ _ := trivial
  updateMilestone e' j guard set h := by
    cases h with
    | _ => exact fun _ => rfl
  balance := balance_plain
  posting _ _ := trivial
  fee _ _ := trivial
  reputation _ _ _ := fun _ => rfl

/-- The methods of the escrow service, other than the creation of a deal. -/
theorem escrowMethod_only (call : StageCall) : (lift E (call.run col)).only (PaymentStmt E A) :=
  lift_only (only_withSession trivial trivial
    (call.body_only escrow_plain fun _ _ => fun _ => rfl))

theorem createDeal_only {deal_id buyer_id seller_id : Id} {amount : ℚ} (hA : A amount)
    (description : String) (accept delivery review : ℤ) (fee_percent : ℚ) :
    (Sealed.createDeal E col deal_id buyer_id seller_id amount description accept delivery review
      fee_percent).only (PaymentStmt E A) := by
  refine only_bind (only_stmt trivial) fun now => only_bind (only_stmt trivial) fun drawn => ?_
  refine only_bind (only_stmt ⟨⟨drawn, rfl⟩, fun a ha => ?_⟩) fun inserted => ?_
  · obtain rfl := Option.some.inj ha
    exact hA
  · exact only_bind only_raiseIf fun _ => trivial

theorem createMilestones_only {escrow_id : Id} {milestones_data : List MilestoneData}
    (hA : ∀ m ∈ milestones_data, A m.amount) :
    (Sealed.createMilestones E col escrow_id milestones_data).only (PaymentStmt E A) := by
  refine only_bind (only_stmt trivial) fun parent_deal => ?_
  have hloop : ∀ l : List (MilestoneData × ℕ), (∀ e ∈ l, A e.1.amount) →
      ∀ buyer_id seller_id : Option Id, (forEach l fun e =>
        Sealed.createMilestone E col escrow_id buyer_id seller_id e.1 e.2).only (PaymentStmt E A) := by
    intro l hl buyer_id seller_id
    induction l with
    | nil => trivial
    | cons e l ih =>
        refine only_bind ?_ fun _ => ih fun e' he' => hl e' (List.mem_cons_of_mem e he')
        refine only_bind only_raiseIf fun _ => only_bind only_raiseIf fun _ => ?_
        refine only_bind (only_stmt trivial) fun drawn => ?_
        refine only_bind (only_stmt ⟨⟨drawn, buyer_id, seller_id, rfl⟩, fun a ha => ?_⟩) fun inserted =>
          only_raiseIf
        obtain rfl := Option.some.inj ha
        exact hl e (List.mem_cons_self ..)
  refine hloop _ (fun e he => ?_) _ _
  exact hA e.1 (List.fst_mem_of_mem_zipIdx he)

/-- A new deal and its milestones. -/
theorem createEscrow_only {deal_id buyer_id seller_id : Id} {amount : ℚ} (hA : A amount)
    (description : String) (accept delivery review : ℤ) {milestones : Option (List MilestoneData)}
    (hmilestones : ∀ l ∈ milestones, ∀ m ∈ l, A m.amount) :
    (Sealed.createEscrow E col deal_id buyer_id seller_id amount description accept delivery review
      milestones).only (PaymentStmt E A) := by
  refine only_bind only_raiseIf fun _ => only_bind only_raiseIf fun _ => only_bind only_raiseIf fun _ => ?_
  refine only_bind (lift_only (only_stmt trivial)) fun seller => only_bind only_orRaise fun seller => ?_
  refine only_bind only_raiseIf fun _ => ?_
  refine only_bind (lift_only (BalanceRepository.deduct_only (balance_plain ..) trivial)) fun _ => ?_
  refine only_bind (createDeal_only hA ..) fun deal => ?_
  cases milestones with
  | none => trivial
  | some milestones =>
      refine only_bind (only_stmt fun r => ⟨rfl, rfl⟩) fun _ => ?_
      exact only_bind (createMilestones_only (hmilestones milestones rfl)) fun _ => trivial

theorem createTransaction_only {amount : ℚ} (hA : A amount) (tx_hash network : String)
    (from_agent_id to_agent_id : Option Id) (token : Token) (payment_type : PaymentType)
    (status : TransactionStatus) (fee fee_collected : ℚ) (memo : Option String) :
    (Sealed.createTransaction E col tx_hash network from_agent_id to_agent_id amount token payment_type
      status fee fee_collected memo).only (PaymentStmt E A) := by
  refine only_bind (only_stmt trivial) fun drawn => ?_
  refine only_bind (only_stmt ⟨⟨drawn, rfl⟩, fun a ha => ?_⟩) fun inserted => only_raiseIf
  obtain rfl := Option.some.inj ha
  exact hA

/-- A hub payment; its amount is a number of piconero. -/
theorem transferWithCommission_only (tx_hash network : String) (from_agent_id to_agent_id : Id)
    {amount_piconero : ℤ} (hA : A (toXmr amount_piconero)) (token : Token) (payment_type : PaymentType)
    (status : TransactionStatus) (memo : Option String) (tier : AgentTier) :
    (Sealed.transferWithCommission E col tx_hash network from_agent_id to_agent_id amount_piconero token
      payment_type status memo tier).only (PaymentStmt E A) := by
  unfold Sealed.transferWithCommission
  split
  · trivial
  · refine only_bind (lift_only ?_) fun _ => ?_
    · refine only_bind (BalanceRepository.getForUpdate_only (balance_plain ..)) fun balance => ?_
      refine only_bind only_raiseIf fun _ => only_bind (only_stmt fun _ => rfl) fun _ => ?_
      exact only_stmt trivial
    refine only_bind (lift_only (BalanceRepository.credit_only (balance_plain ..) trivial)) fun _ => ?_
    refine only_bind (createTransaction_only hA ..) fun _ => only_bind (only_stmt trivial) fun now => ?_
    refine only_bind (only_stmt trivial) fun _ => lift_only ?_
    refine only_bind (only_stmt trivial) fun now => only_bind (only_stmt rfl) fun inserted => ?_
    exact only_onlyIf (only_stmt fun _ => rfl)

end Operations

/-- The calls that write tables with envelopes. -/
inductive PaymentCall where
  | createEscrow (deal_id buyer_id seller_id : Id) (amount : ℚ) (description : String)
      (accept_timeout_hours delivery_timeout_hours review_timeout_hours : ℤ)
      (milestones : Option (List MilestoneData))
  | escrow (call : StageCall)
  | createTransaction (tx_hash network : String) (from_agent_id to_agent_id : Option Id) (amount : ℚ)
      (token : Token) (payment_type : PaymentType) (status : TransactionStatus) (fee fee_collected : ℚ)
      (memo : Option String)
  | transferWithCommission (tx_hash network : String) (from_agent_id to_agent_id : Id)
      (amount_piconero : ℤ) (token : Token) (payment_type : PaymentType) (status : TransactionStatus)
      (memo : Option String) (tier : AgentTier)

namespace PaymentCall

def run (E : EnvelopeCrypto) (col : Columns) : PaymentCall → SealedProgram E Unit
  | createEscrow d b s amount description accept delivery review milestones => withSession do
      let _ ← Sealed.createEscrow E col d b s amount description accept delivery review milestones
  | escrow call => lift E (call.run col)
  | createTransaction tx_hash network b s amount token payment_type status fee fee_collected memo =>
      withSession (Sealed.createTransaction E col tx_hash network b s amount token payment_type status fee
        fee_collected memo)
  | transferWithCommission tx_hash network b s amount_piconero token payment_type status memo tier =>
      withSession (Sealed.transferWithCommission E col tx_hash network b s amount_piconero token
        payment_type status memo tier)

/-- The amounts that the call writes with an envelope. -/
def amounts : PaymentCall → List ℚ
  | createEscrow _ _ _ amount _ _ _ _ milestones => amount :: (milestones.getD []).map (·.amount)
  | escrow _ => []
  | createTransaction _ _ _ _ amount .. => [amount]
  | transferWithCommission _ _ _ _ amount_piconero .. => [toXmr amount_piconero]

theorem run_only {A : ℚ → Prop} {call : PaymentCall} (hA : ∀ a ∈ call.amounts, A a) :
    (call.run E col).only (PaymentStmt E A) := by
  cases call with
  | createEscrow d b s amount description accept delivery review milestones =>
      have hmilestones : ∀ l ∈ milestones, ∀ m ∈ l, A m.amount := by
        rintro l rfl m hm
        exact hA _ (List.mem_cons_of_mem _ (List.mem_map.mpr ⟨m, hm, rfl⟩))
      refine only_withSession trivial trivial ?_
      exact only_bind (createEscrow_only (hA _ (List.mem_cons_self ..)) _ _ _ _ hmilestones)
        fun _ => trivial
  | escrow call => exact escrowMethod_only call
  | createTransaction tx_hash network b s amount token payment_type status fee fee_collected memo =>
      exact only_withSession trivial trivial (createTransaction_only (hA _ (List.mem_cons_self ..)) ..)
  | transferWithCommission tx_hash network b s amount_piconero token payment_type status memo tier =>
      exact only_withSession trivial trivial
        (transferWithCommission_only tx_hash network b s (hA _ (List.mem_cons_self ..)) ..)

/-- Every call is an operation, whatever it writes. -/
theorem operation (call : PaymentCall) (input : ℕ → Input (sealedSchema E)) (dual : ℕ → Bool) :
    Operation (.run (call.run E col) input dual) :=
  run_only fun _ _ => trivial

end PaymentCall

/-! ## Runs -/

/-- Statements that write rows which agree. -/
theorem PaymentStmt.keeps {s : Stmt (sealedSchema E)} {A : ℚ → Prop} (h : PaymentStmt E A s)
    (hfits : TwelveDigits s) : s.Keeps (Agrees E) := by
  cases s with
  | update k guard set => exact fun r hr => hr.of_same (h r)
  | assign k set => exact fun r hr => hr.of_same (h r)
  | create k r => exact ⟨h.1, hfits⟩
  | _ => trivial

/-- **Dual reads change nothing**, whichever reads are dual, when all amounts that are written have at
most twelve digits after the point. -/
theorem dualRead_harmless (E : EnvelopeCrypto) {col : Columns} (hcol : col.Keeps 12 (decimals 12))
    {st : Store (sealedSchema E)} (hst : ∀ k r, st.db.rows k = some r → Agrees E k r)
    {requests : List (Request (sealedSchema E))} (hoperations : ∀ q ∈ requests, Operation q)
    (hdigits : meetsLiveAll (dualReads E col false) TwelveDigits requests st) :
    serveLive (dualReads E col true) requests st = serveLive (dualReads E col false) requests st := by
  refine serveLive_eq (I := Agrees E) (fun k r h => h.settled hcol false)
    (fun k r h => h.settled hcol true) hst ?_
  refine meetsLiveAll_mono ?_ (meetsLiveAll_and (meetsLiveAll_of_only hoperations) hdigits)
  exact fun s h => h.1.keeps h.2

/-! ### A deal that is released by the sweep -/

/-- An ideal encryption. -/
def pairing : EnvelopeCrypto where
  Envelope := ℕ × Payload
  encryptEnvelope drawn payload := (drawn, payload)
  decryptEnvelope envelope := some envelope.2
  decrypt_encrypt _ _ := rfl

/-- Agent 1 has ten units, and agent 2 is active. -/
def buyerAndSeller : Store (sealedSchema pairing) where
  db :=
    { rows := fun
        | .agent id => if id = 2 then some { row := {} } else none
        | .balance id token => if id = 1 ∧ token = .XMR then some { row := { available := 10 } } else none
        | _ => none
      keys := [.agent 2, .balance 1 .XMR]
      log := [] }
  ext := default

/-- Agent 1 pays agent 2, who accepts and delivers, and the sweep comes after the review deadline. -/
def releasedDeal (amount : ℚ) : List (Request (sealedSchema pairing)) :=
  let request (t : ℤ) (prog : SealedProgram pairing Unit) : Request (sealedSchema pairing) :=
    .run prog (fun _ => { time := hours t }) fun _ => true
  [request 0 (withSession do
      let _ ← Sealed.createEscrow pairing .rounding 1 1 2 amount "" 24 48 24 none),
    request 1 (lift pairing ((StageCall.deal (.acceptEscrow 1 2)).run .rounding)),
    request 2 (lift pairing ((StageCall.deal (.deliverEscrow 1 2)).run .rounding)),
    request 100 (lift pairing ((StageCall.deal .resolveExpired).run .rounding))]

theorem releasedDeal_only {A : ℚ → Prop} {amount : ℚ} (hA : A amount) :
    ∀ q ∈ releasedDeal amount, q.only (PaymentStmt pairing A) := by
  intro q hq
  simp only [releasedDeal, List.mem_cons, List.not_mem_nil, or_false] at hq
  rcases hq with rfl | rfl | rfl | rfl
  · have hamounts : ∀ a ∈ (PaymentCall.createEscrow 1 1 2 amount "" 24 48 24 none).amounts, A a := by
      rintro a (_ | ⟨_, h⟩)
      · exact hA
      · cases h
    exact PaymentCall.run_only hamounts
  · exact escrowMethod_only _
  · exact escrowMethod_only _
  · exact escrowMethod_only _

theorem buyerAndSeller_agrees : ∀ k r, buyerAndSeller.db.rows k = some r → Agrees pairing k r := by
  intro k r hr
  cases k with
  | agent id =>
      refine ⟨?_, fun a ha => by cases ha⟩
      simp only [buyerAndSeller] at hr
      split at hr
      · cases hr
        rfl
      · cases hr
  | balance id token =>
      refine ⟨?_, fun a ha => by cases ha⟩
      simp only [buyerAndSeller] at hr
      split at hr
      · cases hr
        rfl
      · cases hr
  | _ => cases hr

theorem dualRead_harmless_one :
    serveLive (dualReads pairing .rounding true) (releasedDeal 1) buyerAndSeller
      = serveLive (dualReads pairing .rounding false) (releasedDeal 1) buyerAndSeller := by
  have hone : (1 : ℚ) ∈ decimals 12 := mem_decimals.mpr ⟨10 ^ 12, by norm_num⟩
  refine dualRead_harmless pairing (Columns.rounding_keeps 12) buyerAndSeller_agrees
    (releasedDeal_only trivial) (meetsLiveAll_of_only fun q hq => ?_)
  refine Request.only_mono (releasedDeal_only hone q hq) fun s hs => ?_
  cases s with
  | create k r => exact hs.2
  | _ => trivial

/-- What the seller has in the end. -/
def sellerHas (flag : Bool) (amount : ℚ) : Option ℚ :=
  ((serveLive (dualReads pairing .rounding flag) (releasedDeal amount) buyerAndSeller).db.rows
    (Key.balance 2 .XMR)).map fun r => r.row.available

/-- With fifteen digits after the point the seller gets less when envelopes are read. -/
theorem dualRead_differs :
    (∀ q ∈ releasedDeal (1000000000000503 / 10 ^ 15), Operation q) ∧
      (∀ k r, buyerAndSeller.db.rows k = some r → Written pairing k r) ∧
      sellerHas false (1000000000000503 / 10 ^ 15) = some (990000000001 / 10 ^ 12) ∧
      sellerHas true (1000000000000503 / 10 ^ 15) = some (99 / 100) := by
  refine ⟨releasedDeal_only trivial, fun k r hr => (buyerAndSeller_agrees k r hr).written, ?_, ?_⟩
  · decide +kernel
  · decide +kernel

end Sthrip
