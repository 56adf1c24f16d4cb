import Sthrip.MultiParty.View
import Mathlib.Algebra.BigOperators.Group.List.Basic
import Mathlib.Data.List.Count

set_option autoImplicit false

/-! # The books of a multi-party payment

Every share of a payment has one outcome: its recipient is credited if it has accepted, and the
sender otherwise. A payment is settled when the credits made for it are the outcomes of its
shares, or the refund of all of it. Before that, a payment that waits for all its recipients has
made no credit, and one that does not has made those of the recipients that have answered.

`Payment.Books` says this of a payment, its row and a list of its recipients. The lemmas say
that an answer and a settlement keep the books, and what the books of a settled payment are worth
(`Books.conserved`).
-/

namespace Sthrip

/-! ## Outcomes -/

namespace MultiPartyPayment

/-- Who gets the share of a recipient. -/
def outcome (r : MultiPartyPayment) (a : Id × MultiPartyRecipient) : Credit :=
  ⟨if a.2.accepted = some true then a.1 else r.sender_id, a.2.amount, r.currency, some a.1⟩

/-- The sender gets everything back. -/
def refund (r : MultiPartyPayment) : Credit := ⟨r.sender_id, r.total_amount, r.currency, none⟩

/-- The credits made while the payment is pending. -/
def settledShares (r : MultiPartyPayment) (l : List (Id × MultiPartyRecipient)) : List Credit :=
  if r.require_all_accept then [] else (l.filter fun a => a.2.accepted ≠ none).map r.outcome

end MultiPartyPayment

/-- Does the credit pay the share of recipient `j`? -/
def Credit.covers (j : Id) (c : Credit) : Bool := c.share = none ∨ c.share = some j

namespace Payment

variable {E : Payment} {r : MultiPartyPayment} {j : Id} {row row' : MultiPartyRecipient}
  {l m : List (Id × MultiPartyRecipient)} {cs : List Credit}

/-- The books of a payment with the row `r` and the recipients `l`. -/
structure Books (E : Payment) (r : MultiPartyPayment) (l : List (Id × MultiPartyRecipient)) :
    Prop where
  total : (l.map fun a => a.2.amount).sum = r.total_amount
  stranger : ∀ a ∈ l, a.1 ≠ r.sender_id
  pending : r.state = .PENDING → E.credits.Perm (r.settledShares l)
  settled : r.state ≠ .PENDING → E.credits.Perm (l.map r.outcome) ∨ E.credits = [r.refund]

/-- A payment that is not there has no recipients and no credits; one that is there has its books
in order. -/
def Accounted (E : Payment) : Prop :=
  match E.row with
  | none => E = {}
  | some r => ∃ l, E.Lists l ∧ E.Books r l

theorem accounted_of_some (h : E.row = some r) : E.Accounted ↔ ∃ l, E.Lists l ∧ E.Books r l := by
  unfold Accounted
  rw [h]

theorem accounted_of_none (h : E.row = none) : E.Accounted ↔ E = {} := by
  unfold Accounted
  rw [h]

theorem Books.of_perm (h : E.Books r l) (hp : l.Perm m) : E.Books r m where
  total := by
    rw [← h.total]
    exact (hp.map _).sum_eq.symm
  stranger a ha := h.stranger a (hp.mem_iff.mpr ha)
  pending hs := by
    refine (h.pending hs).trans ?_
    unfold MultiPartyPayment.settledShares
    split
    · exact .refl []
    · exact (hp.filter _).map _
  settled hs := (h.settled hs).imp (fun hc => hc.trans (hp.map _)) id

/-- The books can be kept over any list of the recipients. -/
theorem Accounted.books (h : E.Accounted) (hr : E.row = some r) (hl : E.Lists l) :
    E.Books r l := by
  obtain ⟨m, hm, hb⟩ := (accounted_of_some hr).mp h
  exact hb.of_perm (hm.perm hl)

/-! ## What the books are worth -/

/-- **What the books are for.** Once a payment is settled, the credits add up to its total; each of
them goes to the sender or is the share of a recipient that has accepted; and no share is paid
twice. -/
theorem Books.conserved (h : E.Books r l) (hl : E.Lists l) (hs : r.state ≠ .PENDING) :
    (E.credits.map (·.amount)).sum = r.total_amount ∧
      (∀ c ∈ E.credits, c.token = r.currency ∧ (c.agent_id = r.sender_id ∨
        ∃ row, E.recipients c.agent_id = some row ∧ row.accepted = some true ∧
          c.amount = row.amount ∧ c.share = some c.agent_id)) ∧
      ∀ j, E.credits.countP (Credit.covers j) ≤ 1 := by
  rcases h.settled hs with hc | hc
  · refine ⟨?_, fun c hmem => ?_, fun j => ?_⟩
    · calc (E.credits.map (·.amount)).sum
          = ((l.map r.outcome).map (·.amount)).sum := (hc.map _).sum_eq
        _ = (l.map fun a => a.2.amount).sum := by rw [List.map_map]; rfl
        _ = r.total_amount := h.total
    · obtain ⟨a, ha, rfl⟩ := List.mem_map.mp (hc.mem_iff.mp hmem)
      refine ⟨rfl, ?_⟩
      by_cases hacc : a.2.accepted = some true
      · have hid : (r.outcome a).agent_id = a.1 := if_pos hacc
        refine Or.inr ⟨a.2, ?_, hacc, rfl, ?_⟩
        · rw [hid]
          exact (hl.mem a).mp ha
        · rw [hid]
          rfl
      · exact Or.inl (if_neg hacc)
  -- one recipient has one row, so that one outcome covers its share
    · have hcovers : Credit.covers j ∘ r.outcome = (fun i => i == j) ∘ Prod.fst := by
        funext a
        simp [Credit.covers, MultiPartyPayment.outcome, Bool.beq_eq_decide_eq]
      rw [hc.countP_eq, List.countP_map, hcovers, ← List.countP_map]
      exact List.nodup_iff_count_le_one.mp hl.nodup j
  · rw [hc]
    refine ⟨by simp [MultiPartyPayment.refund], fun c hmem => ?_, fun j => ?_⟩
    · obtain rfl := List.mem_singleton.mp hmem
      exact ⟨rfl, Or.inl rfl⟩
    · exact List.countP_le_length.trans (by simp)

/-! ## Steps -/

/-- The credit made when a recipient answers. -/
def answered (r : MultiPartyPayment) (a : Id × MultiPartyRecipient) : List Credit :=
  if r.require_all_accept then [] else [r.outcome a]

/-- A recipient answers. -/
theorem Accounted.answer (h : E.Accounted) (hr : E.row = some r) (hs : r.state = .PENDING)
    (hj : E.recipients j = some row) (hnone : row.accepted = none) (row' : MultiPartyRecipient)
    (hans : row'.accepted ≠ none) (hamount : row'.amount = row.amount) :
    ((E.setRecipient j row').credit (answered r (j, row'))).Accounted := by
  obtain ⟨l, hl, -⟩ := (accounted_of_some hr).mp h
  obtain ⟨m, hm⟩ := hl.cons_of_mem hj
  have hb := h.books hr hm
  have hset : (E.setRecipient j row').Lists ((j, row') :: m) := hm.set
  have hr' : ((E.setRecipient j row').credit (answered r (j, row'))).row = some r := hr
  refine (accounted_of_some hr').mpr ⟨(j, row') :: m, hset.of_recipients rfl, ?_, ?_, ?_, ?_⟩
  · rw [← hb.total]
    simp only [List.map_cons, hamount]
  · exact fun a ha => (List.mem_cons.mp ha).elim (fun e => e ▸ hb.stranger (j, row) (by simp))
      fun ha' => hb.stranger a (List.mem_cons_of_mem _ ha')
  · intro _
    have hp := hb.pending hs
    unfold MultiPartyPayment.settledShares at hp ⊢
    show (E.credits ++ answered r (j, row')).Perm _
    unfold answered
    split at hp
    · next hall =>
        rw [if_pos hall, if_pos hall, List.append_nil]
        exact hp
    · next hall =>
        rw [if_neg hall, if_neg hall]
        rw [List.filter_cons_of_neg (by simp [hnone])] at hp
        rw [List.filter_cons_of_pos (by simpa using hans), List.map_cons]
        exact (List.perm_append_singleton _ _).trans (hp.cons _)
  · exact fun hne => absurd hs hne

/-- The payment leaves `PENDING` with the last credits. -/
theorem Books.settle (h : E.Books r l) {state : MultiPartyPaymentState} {t : Option Time}
    (hs : state ≠ .PENDING)
    (hc : (E.credits ++ cs).Perm (l.map r.outcome) ∨ E.credits ++ cs = [r.refund]) :
    ((E.credit cs).setRow { r with state, completed_at := t }).Books
      { r with state, completed_at := t } l where
  total := h.total
  stranger := h.stranger
  pending he := absurd he hs
  settled _ := hc

/-- Everybody has accepted, and everybody is credited. -/
theorem Books.completed (h : E.Books r l) (hs : r.state = .PENDING)
    (hall : r.require_all_accept = true) : (E.credits ++ l.map r.outcome).Perm (l.map r.outcome) := by
  have hp := h.pending hs
  rw [MultiPartyPayment.settledShares, if_pos hall, List.perm_nil] at hp
  rw [hp, List.nil_append]

/-- Nobody has been credited, and the sender is refunded. -/
theorem Accounted.refunded (h : E.Accounted) (hr : E.row = some r) (hs : r.state = .PENDING)
    (hall : r.require_all_accept = true) : ∃ l, E.Lists l ∧
      ((E.credits ++ [r.refund]).Perm (l.map r.outcome) ∨ E.credits ++ [r.refund] = [r.refund]) := by
  obtain ⟨l, hl, hb⟩ := (accounted_of_some hr).mp h
  have hp := hb.pending hs
  rw [MultiPartyPayment.settledShares, if_pos hall, List.perm_nil] at hp
  refine ⟨l, hl, Or.inr ?_⟩
  rw [hp, List.nil_append]

/-- Everybody has answered. -/
theorem Books.responded (h : E.Books r l) (hs : r.state = .PENDING)
    (hall : r.require_all_accept = false) (hans : ∀ a ∈ l, a.2.accepted ≠ none) :
    (E.credits ++ []).Perm (l.map r.outcome) := by
  have hp := h.pending hs
  rw [MultiPartyPayment.settledShares, if_neg (by simp [hall])] at hp
  rw [List.append_nil]
  rwa [List.filter_eq_self.mpr fun a ha => by simpa using hans a ha] at hp

/-- Nobody has rejected, and the shares that have not been accepted go back to the sender. -/
theorem Books.swept (h : E.Books r l) (hs : r.state = .PENDING)
    (hall : r.require_all_accept = false) (hrej : ∀ a ∈ l, a.2.accepted ≠ some false) :
    (E.credits ++ (l.filter fun a => a.2.accepted ≠ some true).map r.outcome).Perm
      (l.map r.outcome) := by
  have hp := h.pending hs
  rw [MultiPartyPayment.settledShares, if_neg (by simp [hall])] at hp
  have hfilter : (l.filter fun a => decide (a.2.accepted ≠ some true))
      = l.filter fun a => !decide (a.2.accepted ≠ none) := by
    refine List.filter_congr fun a ha => ?_
    have := hrej a ha
    cases hacc : a.2.accepted with
    | none => rfl
    | some b =>
        cases b with
        | true => rfl
        | false => exact absurd hacc this
  rw [hfilter]
  calc (E.credits ++ (l.filter fun a => !decide (a.2.accepted ≠ none)).map r.outcome).Perm
        ((l.filter fun a => decide (a.2.accepted ≠ none)).map r.outcome
          ++ (l.filter fun a => !decide (a.2.accepted ≠ none)).map r.outcome) :=
        hp.append_right _
    _ = ((l.filter fun a => decide (a.2.accepted ≠ none))
          ++ l.filter fun a => !decide (a.2.accepted ≠ none)).map r.outcome := List.map_append.symm
    List.Perm _ (l.map r.outcome) := (List.filter_append_perm _ l).map _

end Payment

end Sthrip
