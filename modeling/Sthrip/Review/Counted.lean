import Sthrip.Review.Complete
import Sthrip.Services.Reviews
import Sthrip.Txn.Solo

set_option autoImplicit false

/-! # The reviews that count

A review enters the rating of the agent it is about when it is submitted, and the rating is recomputed
from all of them. Each reviewer has one review for a transaction. The service asks whether there is such
a transaction, but not whose it is: the reviews are those of counterparties in the runs in which every
review that is submitted names a transaction between its two agents.
-/

namespace Sthrip

open Txn Prog ReviewRepository ReviewService

variable {F : Doubles} {db db' : DB reviewSchema} {agent a t : Id}

/-! ## What should hold -/

/-- The two agents of a transaction. -/
def participants (db : DB reviewSchema) (transaction_type : String) (transaction_id : Id) :
    Option (Id × Id) :=
  if transaction_type = "payment" then
    (db.rows (.hubRoute transaction_id)).map fun row => (row.from_agent_id, row.to_agent_id)
  else if transaction_type = "escrow" then
    (db.rows (.deal transaction_id)).map fun row => (row.buyer_id, row.seller_id)
  else if transaction_type = "sla" then
    (db.rows (.slaContract transaction_id)).map fun row => (row.consumer_id, row.provider_id)
  else none

/-- The transaction is one between the two agents. -/
def Between (db : DB reviewSchema) (transaction_type : String) (transaction_id x y : Id) : Prop :=
  participants db transaction_type transaction_id = some (x, y) ∨
    participants db transaction_type transaction_id = some (y, x)

/-- The reviews in the rating of an agent. -/
def reviewsOf (db : DB reviewSchema) (agent : Id) : List StoredReview :=
  (db.found (isAbout agent)).filterMap asReview

/-- The summary of an agent, recomputed from the reviews that count. -/
def recomputed (F : Doubles) (db : DB reviewSchema) (agent : Id) : AgentRatingSummary :=
  updateRatingSummary F ((reviewsOf db agent).map StoredReview.toAgentReview)

/-- Reviews count for real counterparties only, once each, and the summaries say what they come to. -/
structure Counted (F : Doubles) (db : DB reviewSchema) : Prop where
  counterparties : ∀ agent, ∀ r ∈ reviewsOf db agent,
    Between db r.transaction_type r.transaction_id r.reviewer_id agent
  once : ∀ agent, ((reviewsOf db agent).map fun r => (r.reviewer_id, r.transaction_id)).Nodup
  summary : ∀ agent, db.rows (.ratingSummary agent) =
    if reviewsOf db agent = [] then none else some (recomputed F db agent)

/-- The review that is submitted names a transaction between its agents. -/
def ReviewCall.NamesOwn (db : DB reviewSchema) : ReviewCall → Prop
  | .createReview req =>
      Between db req.transaction_type req.transaction_id req.reviewer_id req.reviewed_id
  | _ => True

/-! ## The order of the reviews -/

theorem max?_perm {l l' : List ℕ} (h : l.Perm l') : l.max? = l'.max? := by
  cases hl : l.max? with
  | none =>
      obtain rfl := List.max?_eq_none_iff.mp hl
      rw [List.nil_perm.mp h]
      rfl
  | some m =>
      rw [List.max?_eq_some_iff] at hl
      refine (List.max?_eq_some_iff.mpr ⟨h.mem_iff.mp hl.1, fun b hb => ?_⟩).symm
      exact hl.2 b (h.mem_iff.mpr hb)

theorem storedAverage_perm {l l' : List ℤ} (h : l.Perm l') : storedAverage F l = storedAverage F l' := by
  have hnil : l = [] ↔ l' = [] := by
    rw [← List.length_eq_zero_iff, h.length_eq, List.length_eq_zero_iff]
  unfold storedAverage
  rw [h.sum_eq, h.length_eq]
  simp only [hnil]

/-- The summary does not depend on the order of the reviews. -/
theorem updateRatingSummary_perm {l l' : List AgentReview} (h : l.Perm l') :
    updateRatingSummary F l = updateRatingSummary F l' := by
  unfold updateRatingSummary
  rw [h.length_eq, storedAverage_perm (h.map _), storedAverage_perm (h.filterMap _),
    storedAverage_perm (h.filterMap _), storedAverage_perm (h.filterMap _), (h.filter _).length_eq,
    (h.filter _).length_eq, max?_perm (h.map _)]

/-! ## The tables -/

theorem mem_reviewsOf (hwf : db.WF) {r : StoredReview} :
    r ∈ reviewsOf db agent ↔ r.reviewed_id = agent ∧ ∃ a t, db.rows (.review a t) = some r := by
  rw [reviewsOf, List.mem_filterMap]
  constructor
  · rintro ⟨⟨k, r'⟩, hmem, heq⟩
    cases k with
    | review a t =>
        obtain rfl := Option.some.inj heq
        obtain ⟨hrow, habout⟩ := hwf.mem_found.mp hmem
        exact ⟨of_decide_eq_true habout, a, t, hrow⟩
    | _ => cases heq
  · rintro ⟨habout, a, t, hrow⟩
    exact ⟨⟨.review a t, r⟩, hwf.mem_found.mpr ⟨hrow, decide_eq_true habout⟩, rfl⟩

/-- A row that is no review of the agent. -/
theorem reviewsOf_put {k : ReviewKey} {row : ReviewRow k} (hrow : isAbout agent k row = false)
    (hold : ∀ r, db.rows k = some r → isAbout agent k r = false) :
    reviewsOf (db.put k row) agent = reviewsOf db agent := by
  rw [reviewsOf, DB.found_put_of_false (S := reviewSchema) hrow hold, reviewsOf]

theorem participants_put {k : ReviewKey} {row : ReviewRow k} (hnew : db.rows k = none)
    {transaction_type : String} {transaction_id : Id} {x : Id × Id}
    (h : participants db transaction_type transaction_id = some x) :
    participants (db.put k row) transaction_type transaction_id = some x := by
  have hrows : ∀ k', (db.rows k').isSome = true → (db.put k row).rows k' = db.rows k' := by
    intro k' hk'
    refine DB.put_rows_ne db row ?_
    rintro rfl
    rw [hnew] at hk'
    cases hk'
  unfold participants at h ⊢
  split at h
  · next hpay =>
      rw [if_pos hpay, hrows _ (by rw [← Option.isSome_map, h]; rfl)]
      exact h
  · next hpay =>
      rw [if_neg hpay]
      split at h
      · next hescrow =>
          rw [if_pos hescrow, hrows _ (by rw [← Option.isSome_map, h]; rfl)]
          exact h
      · next hescrow =>
          rw [if_neg hescrow]
          split at h
          · next hsla =>
              rw [if_pos hsla, hrows _ (by rw [← Option.isSome_map, h]; rfl)]
              exact h
          · cases h

theorem Between.put {k : ReviewKey} {row : ReviewRow k} (hnew : db.rows k = none)
    {transaction_type : String} {transaction_id x y : Id}
    (h : Between db transaction_type transaction_id x y) :
    Between (db.put k row) transaction_type transaction_id x y :=
  Or.imp (participants_put hnew) (participants_put hnew) h

/-- Only the tables of transactions matter. -/
theorem participants_congr (h : ∀ k, (∀ a, k ≠ .ratingSummary a) → db'.rows k = db.rows k)
    (transaction_type : String) (transaction_id : Id) :
    participants db' transaction_type transaction_id = participants db transaction_type transaction_id := by
  unfold participants
  rw [h _ (by simp), h _ (by simp), h _ (by simp)]

/-! ## The invariant -/

/-- The invariant: each review is stored under its reviewer and its transaction. -/
structure ReviewsInOrder (F : Doubles) (db : DB reviewSchema) : Prop where
  keys : ∀ a t r, db.rows (.review a t) = some r → r.reviewer_id = a ∧ r.transaction_id = t
  counterparties : ∀ a t r, db.rows (.review a t) = some r →
    Between db r.transaction_type r.transaction_id r.reviewer_id r.reviewed_id
  summary : ∀ agent, db.rows (.ratingSummary agent) =
    if reviewsOf db agent = [] then none else some (recomputed F db agent)

theorem ReviewsInOrder.once (h : ReviewsInOrder F db) (hwf : db.WF) (agent : Id) :
    ((reviewsOf db agent).map fun r => (r.reviewer_id, r.transaction_id)).Nodup := by
  have hkeys : (db.found (isAbout agent)).Pairwise fun x y => x.1 ≠ y.1 :=
    List.pairwise_map.mp (hwf.nodup_found _)
  rw [reviewsOf, List.Nodup, List.pairwise_map, List.pairwise_filterMap]
  refine hkeys.imp_of_mem fun {x y} hx hy hne r hr r' hr' hsame => ?_
  obtain ⟨k, row⟩ := x
  obtain ⟨k', row'⟩ := y
  cases k with
  | review a t =>
      cases k' with
      | review a' t' =>
          obtain rfl := Option.some.inj hr
          obtain rfl := Option.some.inj hr'
          obtain ⟨hreviewer, htransaction⟩ := h.keys a t _ (hwf.mem_found.mp hx).1
          obtain ⟨hreviewer', htransaction'⟩ := h.keys a' t' _ (hwf.mem_found.mp hy).1
          obtain ⟨hfst, hsnd⟩ := Prod.mk.inj hsame
          rw [hreviewer, hreviewer'] at hfst
          rw [htransaction, htransaction'] at hsnd
          exact hne (by rw [hfst, hsnd])
      | _ => cases hr'
  | _ => cases hr

theorem ReviewsInOrder.counted (h : ReviewsInOrder F db) (hwf : db.WF) : Counted F db := by
  refine ⟨fun agent r hr => ?_, h.once hwf, h.summary⟩
  obtain ⟨rfl, a, t, hrow⟩ := (mem_reviewsOf hwf).mp hr
  exact h.counterparties a t r hrow

/-- A transaction is recorded. -/
theorem ReviewsInOrder.record (h : ReviewsInOrder F db) {k : ReviewKey} {row : ReviewRow k}
    (hnew : db.rows k = none) (hreview : ∀ a t, k ≠ .review a t) (hsummary : ∀ a, k ≠ .ratingSummary a) :
    ReviewsInOrder F (db.put k row) := by
  have hsame : ∀ agent, reviewsOf (db.put k row) agent = reviewsOf db agent := by
    intro agent
    refine reviewsOf_put ?_ fun r hr => ?_
    · cases k with
      | review a t => exact absurd rfl (hreview a t)
      | _ => rfl
    · rw [hnew] at hr
      cases hr
  refine ⟨fun a t r hr => ?_, fun a t r hr => ?_, fun agent => ?_⟩
  · rw [DB.put_rows_ne db row (Ne.symm (hreview a t))] at hr
    exact h.keys a t r hr
  · rw [DB.put_rows_ne db row (Ne.symm (hreview a t))] at hr
    exact (h.counterparties a t r hr).put hnew
  · rw [DB.put_rows_ne db row (Ne.symm (hsummary agent)), recomputed, hsame]
    exact h.summary agent

/-- A review is stored, and the summary of its agent is recomputed. -/
theorem ReviewsInOrder.submit (h : ReviewsInOrder F db) {r : StoredReview}
    (hwf : (db.put (.review r.reviewer_id r.transaction_id) r).WF)
    (hnew : db.rows (.review r.reviewer_id r.transaction_id) = none)
    (hown : Between db r.transaction_type r.transaction_id r.reviewer_id r.reviewed_id)
    {l : List (Σ k : ReviewKey, ReviewRow k)}
    (hl : l.Perm ((db.put (.review r.reviewer_id r.transaction_id) r).found (isAbout r.reviewed_id))) :
    ReviewsInOrder F ((db.put (.review r.reviewer_id r.transaction_id) r).put
      (.ratingSummary r.reviewed_id)
      (updateRatingSummary F ((l.filterMap asReview).map StoredReview.toAgentReview))) := by
  -- the summary is no review
  have hsame : ∀ agent, reviewsOf ((db.put (.review r.reviewer_id r.transaction_id) r).put
      (.ratingSummary r.reviewed_id)
        (updateRatingSummary F ((l.filterMap asReview).map StoredReview.toAgentReview))) agent =
      reviewsOf (db.put (.review r.reviewer_id r.transaction_id) r) agent :=
    fun agent => reviewsOf_put rfl fun _ _ => rfl
  have hbetween : ∀ {type x y z}, Between db type x y z →
      Between ((db.put (.review r.reviewer_id r.transaction_id) r).put (.ratingSummary r.reviewed_id)
        (updateRatingSummary F ((l.filterMap asReview).map StoredReview.toAgentReview))) type x y z := by
    intro type x y z hb
    have hput : Between (db.put (.review r.reviewer_id r.transaction_id) r) type x y z := hb.put hnew
    unfold Between at hput ⊢
    rwa [participants_congr fun k hk => DB.put_rows_ne _ _ (hk r.reviewed_id)]
  have hrow : ∀ a t r', ((db.put (.review r.reviewer_id r.transaction_id) r).put
      (.ratingSummary r.reviewed_id) (updateRatingSummary F ((l.filterMap asReview).map
        StoredReview.toAgentReview))).rows (.review a t) = some r' →
      (a = r.reviewer_id ∧ t = r.transaction_id ∧ r' = r) ∨ db.rows (.review a t) = some r' := by
    intro a t r' hr'
    rw [DB.put_rows_ne _ _ (by simp)] at hr'
    by_cases hk : ReviewKey.review a t = .review r.reviewer_id r.transaction_id
    · obtain ⟨rfl, rfl⟩ := ReviewKey.review.inj hk
      rw [DB.put_rows_self] at hr'
      exact Or.inl ⟨rfl, rfl, (Option.some.inj hr').symm⟩
    · rw [DB.put_rows_ne _ _ hk] at hr'
      exact Or.inr hr'
  refine ⟨fun a t r' hr' => ?_, fun a t r' hr' => ?_, fun agent => ?_⟩
  · rcases hrow a t r' hr' with ⟨ha, ht, he⟩ | hr'
    · rw [he, ha, ht]
      exact ⟨rfl, rfl⟩
    · exact h.keys a t r' hr'
  · rcases hrow a t r' hr' with ⟨-, -, he⟩ | hr'
    · rw [he]
      exact hbetween hown
    · exact hbetween (h.counterparties a t r' hr')
  · rw [recomputed, hsame]
    by_cases hagent : agent = r.reviewed_id
    · subst hagent
      have hmem : r ∈ reviewsOf (db.put (.review r.reviewer_id r.transaction_id) r) r.reviewed_id :=
        (mem_reviewsOf hwf).mpr ⟨rfl, _, _, DB.put_rows_self ..⟩
      rw [if_neg (List.ne_nil_of_mem hmem), DB.put_rows_self]
      exact congrArg some (updateRatingSummary_perm ((hl.filterMap asReview).map _))
    · have hother : reviewsOf (db.put (.review r.reviewer_id r.transaction_id) r) agent =
          reviewsOf db agent := by
        refine reviewsOf_put (decide_eq_false (Ne.symm hagent)) fun r' hr' => ?_
        rw [hnew] at hr'
        cases hr'
      rw [hother, DB.put_rows_ne _ _ (by simpa using hagent), DB.put_rows_ne _ _ (by simp)]
      exact h.summary agent

/-! ## The requests -/

section Requests

variable {Ok : StepCond reviewSchema} {v : Solo reviewSchema}

theorem verifyTransaction_always {transaction_id : Id} {transaction_type : String}
    {Q : Solo reviewSchema → Prop} (h : Q v) :
    (ReviewService.verifyTransaction transaction_id transaction_type).always Ok (fun _ v => Q v)
      (Unsaved v) v := by
  unfold ReviewService.verifyTransaction
  split
  · exact always_bind (always_select (always_bind (always_orRaise (fun _ => rfl) fun _ _ => h)))
  · split
    · exact always_bind (always_select (always_bind (always_orRaise (fun _ => rfl) fun _ _ => h)))
    · split
      · exact always_bind (always_select (always_bind (always_orRaise (fun _ => rfl) fun _ _ => h)))
      · exact rfl

/-- The reviews and summaries after a request to submit a review. -/
theorem createReview_always {req : ReviewCreateRequest} (h : ReviewsInOrder F v.db)
    (hown : (ReviewCall.createReview req).NamesOwn v.db) :
    (ReviewService.createReview F req).always Ok
      (fun _ v' => ReviewsInOrder F v'.db ∧ v'.saved = v.saved) (Unsaved v) v := by
  refine always_bind (always_raiseIf (fun _ => rfl) fun _ => ?_)
  refine always_bind (verifyTransaction_always (Q := fun v' => Prog.always Ok _ _ (Unsaved v) v') ?_)
  refine always_bind (always_bind (always_now fun now => ?_))
  refine always_bind (always_raiseIf (fun _ => rfl) fun _ => ?_)
  refine always_bind (always_create (fun x hnew _ => ?_) fun _ _ => ?_)
  · refine always_bind (always_raiseIf (fun hfalse => absurd hfalse (by decide)) fun _ => ?_)
    refine always_bind (always_bind (always_query_perm fun l hl hwf => always_bind (always_select ?_)))
    have hafter := h.submit (r := newReview req now) hwf hnew hown hl
    split
    · refine always_bind (always_create (fun _ _ _ => ?_) fun _ _ => ?_)
      · exact always_raiseIf (fun hfalse => absurd hfalse (by decide)) fun _ => ⟨hafter, rfl⟩
      · exact always_raiseIf (fun _ => rfl) fun htrue => absurd rfl htrue
    · next s hs => exact always_assign hs ⟨hafter, rfl⟩
  · exact always_bind (always_raiseIf (fun _ => rfl) fun htrue => absurd rfl htrue)

theorem record_always (k : ReviewKey) (row : ReviewRow k) (h : ReviewsInOrder F v.db)
    (hreview : ∀ a t, k ≠ .review a t) (hsummary : ∀ a, k ≠ .ratingSummary a) :
    (ReviewCall.record k row).always Ok
      (fun _ v' => ReviewsInOrder F v'.db ∧ v'.saved = v.saved) (Unsaved v) v := by
  refine always_bind (always_create (fun _ hnew _ => ?_) fun _ _ => ?_)
  · exact always_raiseIf (fun hfalse => absurd hfalse (by decide)) fun _ =>
      ⟨h.record hnew hreview hsummary, rfl⟩
  · exact always_raiseIf (fun _ => rfl) fun htrue => absurd rfl htrue

/-- One request. -/
theorem serve_reviewsInOrder {st : Store reviewSchema} (hst : st.db.WF) (h : ReviewsInOrder F st.db)
    (call : ReviewCall) (hown : call.NamesOwn st.db) (x : ℕ → Input reviewSchema) :
    ReviewsInOrder F ((call.run F).serve x st).2.db := by
  have hbody : (call.body F).always (fun _ _ _ => True)
      (fun _ v' => ReviewsInOrder F v'.db ∧ v'.saved = st.db) (Unsaved (Solo.ofStore st))
      (Solo.ofStore st) := by
    cases call with
    | createReview req =>
        exact always_bind (always_mono (createReview_always h hown) (fun _ _ h' => h') fun _ _ h' => h')
    | payment id row =>
        exact record_always (v := .ofStore st) (.hubRoute id) row h (fun _ _ => by simp) (by simp)
    | escrow id row =>
        exact record_always (v := .ofStore st) (.deal id) row h (fun _ _ => by simp) (by simp)
    | sla id row =>
        exact record_always (v := .ofStore st) (.slaContract id) row h (fun _ _ => by simp) (by simp)
  obtain ⟨v, hv, -, hends⟩ := always_serve (always_session (ReviewsInOrder F) h hbody) hst
    (meets_true _ x _)
  change ReviewsInOrder F (((call.body F).withSession).serve x st).2.db
  rw [hv]
  revert hends
  cases ((call.body F).withSession.serve x st).1 with
  | ok a => exact id
  | error e => exact id

end Requests

/-! ## Runs -/

/-- Nobody has been reviewed yet. -/
structure NoReviews (db : DB reviewSchema) : Prop where
  review : ∀ a t, db.rows (.review a t) = none
  summary : ∀ agent, db.rows (.ratingSummary agent) = none

theorem NoReviews.inOrder (h : NoReviews db) (hwf : db.WF) : ReviewsInOrder F db := by
  refine ⟨fun a t r hr => ?_, fun a t r hr => ?_, fun agent => ?_⟩
  · rw [h.review] at hr
    cases hr
  · rw [h.review] at hr
    cases hr
  · have hnil : reviewsOf db agent = [] := by
      refine List.eq_nil_iff_forall_not_mem.mpr fun r hr => ?_
      obtain ⟨-, a, t, hrow⟩ := (mem_reviewsOf hwf).mp hr
      rw [h.review] at hrow
      cases hrow
    rw [if_pos hnil, h.summary]

theorem serveAll_reviewsInOrder (calls : List (ReviewCall × (ℕ → Input reviewSchema)))
    {st : Store reviewSchema} (hst : st.db.WF) (h : ReviewsInOrder F st.db)
    (hown : Each (ReviewCall.run F) (fun call _ st _ => call.NamesOwn st.db) calls st) :
    ReviewsInOrder F (serveAll (ReviewCall.run F) calls st).db ∧
      (serveAll (ReviewCall.run F) calls st).db.WF := by
  induction calls generalizing st with
  | nil => exact ⟨h, hst⟩
  | cons c calls ih =>
      obtain ⟨call, x⟩ := c
      exact ih (serve_wf (call.run F) x hst) (serve_reviewsInOrder hst h call hown.1 x) hown.2

/-- **Reviews count for real counterparties**, once each, and the summaries are what they come to, in
every run in which each review that is submitted names a transaction between its two agents. -/
theorem reviews_counted (F : Doubles) (calls : List (ReviewCall × (ℕ → Input reviewSchema)))
    (st : Store reviewSchema) (hst : st.db.WF) (hnone : NoReviews st.db)
    (hown : Each (ReviewCall.run F) (fun call _ st _ => call.NamesOwn st.db) calls st) :
    Counted F (serveAll (ReviewCall.run F) calls st).db := by
  obtain ⟨h, hwf⟩ := serveAll_reviewsInOrder calls hst (hnone.inOrder hst) hown
  exact h.counted hwf

/-- Nothing has happened yet. -/
def noRows : Store reviewSchema where
  db := { rows := fun _ => none, keys := [], log := [] }
  ext := default

theorem noRows_wf : noRows.db.WF := ⟨List.nodup_nil, fun _ => by simp [noRows]⟩

theorem noRows_noReviews : NoReviews noRows.db := ⟨fun _ _ => rfl, fun _ => rfl⟩

/-- Agent 1 pays agent 2, and then an agent reviews another one for it. -/
def payAndReview (reviewer_id reviewed_id : Id) : List (ReviewCall × (ℕ → Input reviewSchema)) :=
  [(.payment 7 ⟨1, 2⟩, fun _ => {}),
    (.createReview { reviewer_id, reviewed_id, transaction_id := 7, transaction_type := "payment"
                     overall_rating := 5 }, fun _ => {})]

theorem reviews_counted_payment :
    Counted exactDoubles (serveAll (ReviewCall.run exactDoubles) (payAndReview 1 2) noRows).db :=
  reviews_counted exactDoubles (payAndReview 1 2) noRows noRows_wf noRows_noReviews
    ⟨trivial, Or.inl (by decide +kernel), trivial⟩

/-- Agent 3, who has nothing to do with the payment, gives agent 1 five stars for it. -/
theorem review_of_stranger : ¬∀ (F : Doubles) (calls : List (ReviewCall × (ℕ → Input reviewSchema)))
    (st : Store reviewSchema), st.db.WF → NoReviews st.db →
    Counted F (serveAll (ReviewCall.run F) calls st).db := by
  intro h
  have hcounted := h exactDoubles (payAndReview 3 1) noRows noRows_wf noRows_noReviews
  have hreviews : (reviewsOf (serveAll (ReviewCall.run exactDoubles) (payAndReview 3 1) noRows).db
      1).map (fun r => (r.transaction_type, r.transaction_id, r.reviewer_id)) = [("payment", 7, 3)] := by
    decide +kernel
  obtain ⟨r, hr, heq⟩ := List.mem_map.mp
    (hreviews ▸ List.mem_singleton_self (("payment", 7, 3) : String × Id × Id))
  obtain ⟨htype, hrest⟩ := Prod.mk.inj heq
  obtain ⟨htransaction, hreviewer⟩ := Prod.mk.inj hrest
  have hbetween := hcounted.counterparties 1 r hr
  rw [htype, htransaction, hreviewer] at hbetween
  have hparties : participants (serveAll (ReviewCall.run exactDoubles) (payAndReview 3 1) noRows).db
      "payment" 7 = some (1, 2) := by decide +kernel
  unfold Between at hbetween
  rw [hparties] at hbetween
  exact absurd hbetween (by decide)

end Sthrip
