import Sthrip.Db.BalanceRepo
import Mathlib.Tactic.NormNum

set_option autoImplicit false

/-! # Concurrent sessions on a balance

Any number of sessions read and change balances, each through the operations of
`BalanceRepository`, interleaved in every way READ COMMITTED allows. Does the committed balance
stay the initial one plus all committed credits minus all committed debits?

The lock is taken by a second query, and a session that has loaded the row before gets the old
attribute values back from it. `FreshLocks` is the condition that this does not happen: the
object a locking query returns is the row it has locked. Under it the balances add up and never
become negative (`balances_add_up`); two sessions that both read before they lock break it
(`overspent`).
-/

namespace Sthrip

open Txn Prog BalanceRepository

/-! ## Sessions -/

/-- An operation on a balance. -/
inductive BalanceOp where
  | getOrCreate (agent_id : Id) (token : Token)
  | getAvailable (agent_id : Id) (token : Token)
  | deposit (agent_id : Id) (amount : ℚ) (token : Token)
  | deduct (agent_id : Id) (amount : ℚ) (token : Token)
  | withdraw (agent_id : Id) (amount : ℚ) (token : Token)
  | credit (agent_id : Id) (amount : ℚ) (token : Token)

namespace BalanceOp

def run (col : Columns) : BalanceOp → Program Unit
  | .getOrCreate a t => do let _ ← BalanceRepository.getOrCreate a t
  | .getAvailable a t => do let _ ← BalanceRepository.getAvailable a t
  | .deposit a x t => do let _ ← BalanceRepository.deposit col a x t .other
  | .deduct a x t => do let _ ← BalanceRepository.deduct col a x t .other
  | .withdraw a x t => do let _ ← BalanceRepository.withdraw col a x t .other
  | .credit a x t => do let _ ← BalanceRepository.credit col a x t .other

/-- The amount is not negative, and one of those the column keeps as they are. -/
def Valid (A : AddSubgroup ℚ) : BalanceOp → Prop
  | .getOrCreate _ _ | .getAvailable _ _ => True
  | .deposit _ x _ | .deduct _ x _ | .withdraw _ x _ | .credit _ x _ => 0 ≤ x ∧ x ∈ A

end BalanceOp

/-- One session: the operations in order, then the commit. -/
def balanceSession (col : Columns) (ops : List BalanceOp) : Program Unit :=
  withSession (forEach ops (BalanceOp.run col))

/-- What a list of journal entries puts on a balance. -/
def total (agent_id : Id) (token : Token) (l : List Entry) : ℚ :=
  (l.map fun
    | .posting p => if p.agent_id = agent_id ∧ p.token = token then p.amount else 0
    | _ => 0).sum

/-- A locking query returns the row it locks, not older values of a loaded object. -/
def FreshLocks : Store schema → Session schema → Stmt schema → Input schema → Prop
  | st, σ, .selectForUpdate k, _ => σ.object st.db k = σ.view st.db k
  | _, _, _, _ => True

@[simp] theorem total_append (a : Id) (t : Token) (l l' : List Entry) :
    total a t (l ++ l') = total a t l + total a t l' := by
  simp [total]

theorem total_posting (a b : Id) (t u : Token) (x : ℚ) (ref : Ref) :
    total a t [.posting ⟨b, u, x, ref⟩] = if b = a ∧ u = t then x else 0 := by
  simp [total]

/-! ## The invariant -/

/-- The committed balances are those of `st₀` plus what was posted since; they are not negative
and representable. -/
structure AddUp (A : AddSubgroup ℚ) (st₀ st : Store schema) : Prop where
  sum : ∀ a t, (balanceOf st.db a t).available
    = (balanceOf st₀.db a t).available + (total a t st.db.log - total a t st₀.db.log)
  nonneg : ∀ a t, 0 ≤ (balanceOf st.db a t).available
  exact : ∀ a t, (balanceOf st.db a t).available ∈ A

/-- The books of a session: a balance it holds is the committed one plus what the session will
post, and is the object it has loaded; for the others it posts nothing. -/
structure SessionBooks (A : AddSubgroup ℚ) (σ : Session schema) : Prop where
  held : ∀ a t h, σ.held (Key.balance a t) = some h → ∃ r : AgentBalance,
    h.own = some r ∧ σ.loaded (Key.balance a t) = some r ∧
    r.available = (h.base.getD ({} : AgentBalance)).available + total a t σ.inserted ∧
    0 ≤ r.available ∧ r.available ∈ A
  free : ∀ a t, σ.held (Key.balance a t) = none → total a t σ.inserted = 0

/-- The session holds the balance, and sees it as `b`. -/
def Holding (σ : Session schema) (a : Id) (t : Token) (b : AgentBalance) : Prop :=
  ∃ base, σ.held (Key.balance a t) = some ⟨base, some b⟩

def addUp (A : AddSubgroup ℚ) (st₀ : Store schema) : Protocol schema Unit where
  Inv st _ := AddUp A st₀ st
  Ok := FreshLocks

section Sessions

variable {A : AddSubgroup ℚ} {st₀ : Store schema} {σ σ' : Session schema} {a : Id} {t : Token}
  {b : AgentBalance} {i : ℕ} {R : Exn → Session schema → Unit → Prop}

theorem SessionBooks.start : SessionBooks A Session.start where
  held a t h hh := by cases hh
  free a t _ := rfl

/-- Loading an object, held or not. -/
theorem SessionBooks.load (h : SessionBooks A σ) (db : DB schema) (k : Key) :
    SessionBooks A (σ.load db k) where
  held a t hd hh := by
    rw [Session.load_held] at hh
    obtain ⟨r, hown, hload, hrest⟩ := h.held a t hd hh
    refine ⟨r, hown, ?_, by rwa [Session.load_inserted]⟩
    by_cases hk : Key.balance a t = k
    · subst hk
      have hobj : σ.object db (Key.balance a t) = some r := by
        simp [Session.object, Session.view, hh, hown, hload]
      simp [Session.load, hobj]
    · unfold Session.load
      split
      · simp only [Function.update_of_ne hk, hload]
      · exact hload
  free a t hh := by
    rw [Session.load_held] at hh
    rw [Session.load_inserted]
    exact h.free a t hh

/-- Taking hold of a balance as it is committed. -/
theorem SessionBooks.hold (h : SessionBooks A σ) {base : Option AgentBalance} {r : AgentBalance}
    (hnone : σ.held (Key.balance a t) = none)
    (hheld : σ'.held = Function.update σ.held (Key.balance a t) (some ⟨base, some r⟩))
    (hloaded : σ'.loaded = Function.update σ.loaded (Key.balance a t) (some r))
    (hins : σ'.inserted = σ.inserted)
    (hr : r.available = (base.getD {}).available) (h0 : 0 ≤ r.available) (hA : r.available ∈ A) :
    SessionBooks A σ' where
  held a' t' hd hh := by
    rw [hheld] at hh
    rw [hloaded, hins]
    by_cases hk : Key.balance a' t' = Key.balance a t
    · obtain ⟨rfl, rfl⟩ := by simpa using hk
      rw [Function.update_self, Option.some.injEq] at hh
      subst hh
      refine ⟨r, rfl, Function.update_self .., ?_, h0, hA⟩
      rw [hr, h.free _ _ hnone, add_zero]
    · rw [Function.update_of_ne hk] at hh ⊢
      exact h.held a' t' hd hh
  free a' t' hh := by
    rw [hheld] at hh
    rw [hins]
    by_cases hk : Key.balance a' t' = Key.balance a t
    · rw [hk, Function.update_self] at hh
      cases hh
    · rw [Function.update_of_ne hk] at hh
      exact h.free a' t' hh

/-- A change of a balance the session holds. -/
theorem SessionBooks.post (h : SessionBooks A σ) (hb : Holding σ a t b) {r : AgentBalance}
    {x : ℚ} {ref : Ref} (db : DB schema) {set : AgentBalance → AgentBalance} (hset : set b = r)
    (hr : r.available = b.available + x) (h0 : 0 ≤ r.available) (hA : r.available ∈ A) :
    SessionBooks A { (σ.write db (Key.balance a t) r).touch (Key.balance a t) set with
      inserted := σ.inserted ++ [.posting ⟨a, t, x, ref⟩] } where
  held a' t' hd hh := by
    obtain ⟨base, hbase⟩ := hb
    by_cases hk : Key.balance a' t' = Key.balance a t
    · obtain ⟨rfl, rfl⟩ := by simpa using hk
      obtain ⟨r', hown, hload, hsum, -⟩ := h.held a' t' _ hbase
      obtain rfl : b = r' := Option.some.inj hown
      simp only [Session.touch, Session.write_held_self, Option.some.injEq] at hh
      subst hh
      refine ⟨r, rfl, ?_, ?_, h0, hA⟩
      · simp only [Session.touch, Session.write_loaded, hload, Option.map_some, hset,
          Function.update_self]
      · have : σ.base db (Key.balance a' t') = base := by simp [Session.base, hbase]
        rw [this, hr, hsum, total_append, total_posting]
        simp [add_assoc]
    · simp only [Session.touch, Session.write_held_ne σ db r hk] at hh
      obtain ⟨r', hown, hload, hsum, hrest⟩ := h.held a' t' hd hh
      refine ⟨r', hown, ?_, ?_, hrest⟩
      · simp only [Session.touch, Session.write_loaded, Function.update_of_ne hk, hload]
      · rw [total_append, total_posting, if_neg (by rintro ⟨rfl, rfl⟩; exact hk rfl), add_zero]
        exact hsum
  free a' t' hh := by
    by_cases hk : Key.balance a' t' = Key.balance a t
    · rw [hk] at hh
      simp only [Session.touch, Session.write_held_self] at hh
      cases hh
    · simp only [Session.touch, Session.write_held_ne σ db r hk] at hh
      rw [total_append, total_posting, if_neg (by rintro ⟨rfl, rfl⟩; exact hk rfl), add_zero]
      exact h.free a' t' hh

/-- A session with its books in order may commit. -/
theorem SessionBooks.commits (h : SessionBooks A σ) {Q : Unit → Prop} (hQ : Q ()) :
    CommitsTo (addUp A st₀) i Q σ () := by
  intro st γ x hs _ _
  refine ⟨(), ?_, hQ⟩
  have hinv : AddUp A st₀ st := hs.inv
  have key : ∀ a t, (balanceOf (st.db.apply σ) a t).available
      = (balanceOf st.db a t).available + total a t σ.inserted ∧
      0 ≤ (balanceOf (st.db.apply σ) a t).available ∧
      (balanceOf (st.db.apply σ) a t).available ∈ A := by
    intro a t
    have hview : (st.db.apply σ).rows (Key.balance a t) = σ.view st.db (Key.balance a t) := rfl
    cases hh : σ.held (Key.balance a t) with
    | none =>
        rw [Session.view_of_not_held hh] at hview
        have : balanceOf (st.db.apply σ) a t = balanceOf st.db a t := by
          simp only [balanceOf, hview]
        rw [this, h.free a t hh, add_zero]
        exact ⟨rfl, hinv.nonneg a t, hinv.exact a t⟩
    | some hd =>
        obtain ⟨r, hown, -, hsum, hrest⟩ := h.held a t hd hh
        rw [Session.view_of_held hh, hown] at hview
        have : balanceOf (st.db.apply σ) a t = r := by simp only [balanceOf, hview]; rfl
        rw [this, balanceOf, hs.agrees _ hd hh]
        exact ⟨hsum, hrest⟩
  refine ⟨fun a t => ?_, fun a t => (key a t).2.1, fun a t => (key a t).2.2⟩
  have hlog : (st.db.apply σ).log = st.db.log ++ σ.inserted := rfl
  rw [(key a t).1, hinv.sum a t, hlog, total_append]
  ring

/-! ## The operations -/

/-- Inserting the row of a new balance. -/
theorem create_safe {Q : Bool → Session schema → Unit → Prop} (h : SessionBooks A σ)
    (new : ∀ σ', SessionBooks A σ' → Holding σ' a t {} → Q true σ' ()) (taken : Q false σ ()) :
    (create (S := schema) (Key.balance a t) ({} : AgentBalance)).safe (addUp A st₀) i Q R σ () := by
  refine safe_create (fun st γ hs hv => ?_) fun _ _ _ _ _ => taken
  have hnone : σ.held (Key.balance a t) = none := by
    cases hh : σ.held (Key.balance a t) with
    | none => rfl
    | some hd =>
        have hown := hs.sound.own _ hd hh
        rw [Session.view_of_held hh] at hv
        rw [hv] at hown
        cases hown
  refine new _ (h.hold hnone rfl rfl rfl ?_ le_rfl A.zero_mem) ⟨_, Function.update_self ..⟩
  rw [Session.view_of_not_held hnone] at hv
  have hbase : σ.base st.db (Key.balance a t) = none := by simp only [Session.base, hnone, hv]
  rw [hbase]
  rfl

/-- Locking a balance: with fresh locks, the answer is the row as the session now holds it. -/
theorem selectForUpdate_safe {Q : Option AgentBalance → Session schema → Unit → Prop}
    (h : SessionBooks A σ)
    (found : ∀ b σ', SessionBooks A σ' → Holding σ' a t b → Q (some b) σ' ())
    (missing : Q none σ ()) :
    (selectForUpdate (S := schema) (Key.balance a t)).safe (addUp A st₀) i Q R σ () := by
  refine safe_selectForUpdate fun st γ x hs hok => ?_
  have hfresh : σ.object st.db (Key.balance a t) = σ.view st.db (Key.balance a t) := hok
  rw [hfresh]
  cases hv : σ.view st.db (Key.balance a t) with
  | none =>
      have hload : (σ.lock st.db (Key.balance a t)).load st.db (Key.balance a t) = σ := by
        rw [Session.lock_of_no_view hv, Session.load, hfresh, hv]
      rw [hload]
      exact missing
  | some b =>
      have hobj : (σ.lock st.db (Key.balance a t)).object st.db (Key.balance a t) = some b := by
        rw [Session.object, Session.lock_view, Session.lock_loaded, ← Session.object, hfresh, hv]
      have hheld : ((σ.lock st.db (Key.balance a t)).load st.db (Key.balance a t)).held
          = Function.update σ.held (Key.balance a t)
            (some ⟨σ.base st.db (Key.balance a t), some b⟩) := by
        rw [Session.load_held, Session.lock_of_view hv]
        rfl
      have hloaded : ((σ.lock st.db (Key.balance a t)).load st.db (Key.balance a t)).loaded
          = Function.update σ.loaded (Key.balance a t) (some b) := by
        rw [Session.load, hobj]
        simp only [Session.lock_loaded]
      have hins : ((σ.lock st.db (Key.balance a t)).load st.db (Key.balance a t)).inserted
          = σ.inserted := by rw [Session.load_inserted, Session.lock_inserted]
      refine found b _ ?_ ⟨_, by rw [hheld, Function.update_self]⟩
      cases hh : σ.held (Key.balance a t) with
      | none =>
          have hinv : AddUp A st₀ st := hs.inv
          have hrow : st.db.rows (Key.balance a t) = some b := by
            rw [← Session.view_of_not_held hh, hv]
          have hbal : balanceOf st.db a t = b := by simp only [balanceOf, hrow]; rfl
          have hbase : σ.base st.db (Key.balance a t) = some b := by
            simp only [Session.base, hh, hrow]
          rw [hbase] at hheld
          exact h.hold hh hheld hloaded hins rfl (hbal ▸ hinv.nonneg a t) (hbal ▸ hinv.exact a t)
      | some hd =>
          -- a row the session holds already: nothing changes
          rw [Session.view_of_held hh] at hv
          have hsame : ((σ.lock st.db (Key.balance a t)).load st.db (Key.balance a t)).held
              = σ.held := by
            rw [hheld, Session.base, hh]
            exact Function.update_eq_self_iff.mpr (by rw [hh, ← hv])
          obtain ⟨r, hown, hload, -⟩ := h.held a t hd hh
          obtain rfl : b = r := Option.some.inj (hv.symm.trans hown)
          have hsame' : ((σ.lock st.db (Key.balance a t)).load st.db (Key.balance a t)).loaded
              = σ.loaded := by
            rw [hloaded]
            exact Function.update_eq_self_iff.mpr hload.symm
          exact ⟨by rw [hsame, hsame', hins]; exact h.held, by rw [hsame, hins]; exact h.free⟩

theorem getForUpdate_safe {Q : AgentBalance → Session schema → Unit → Prop}
    (h : SessionBooks A σ)
    (hQ : ∀ b σ', SessionBooks A σ' → Holding σ' a t b → Q b σ' ())
    (hR : ∀ e σ', R e σ' ()) :
    (getForUpdate a t).safe (addUp A st₀) i Q R σ () := by
  refine safe_bind (selectForUpdate_safe h hQ ?_)
  refine safe_bind (create_safe h (fun σ' h' hb => hQ {} σ' h' hb) ?_)
  refine safe_bind (selectForUpdate_safe h hQ (hR _ _))

theorem getOrCreate_safe {Q : AgentBalance → Session schema → Unit → Prop}
    (h : SessionBooks A σ) (hQ : ∀ b σ', SessionBooks A σ' → Q b σ' ())
    (hR : ∀ e σ', R e σ' ()) :
    (BalanceRepository.getOrCreate a t).safe (addUp A st₀) i Q R σ () := by
  refine safe_bind (safe_select fun st γ hs => ?_)
  cases σ.object st.db (Key.balance a t) with
  | some b => exact hQ b _ (h.load _ _)
  | none =>
      refine safe_bind (create_safe (h.load _ _) (fun σ' h' _ => hQ {} σ' h') ?_)
      refine safe_bind (safe_select fun st' γ' hs' => safe_orRaise (fun _ => hR _ _) fun b _ => ?_)
      exact hQ b _ ((h.load _ _).load _ _)

/-- The write of a new available amount and its journal entry. -/
theorem save_safe {Q : Unit → Session schema → Unit → Prop} {set : AgentBalance → AgentBalance}
    {x : ℚ} {ref : Ref} (h : SessionBooks A σ) (hb : Holding σ a t b)
    (hr : (set b).available = b.available + x) (h0 : 0 ≤ (set b).available)
    (hA : (set b).available ∈ A) (hQ : ∀ σ', SessionBooks A σ' → Q () σ' ()) :
    (save a t set x ref).safe (addUp A st₀) i Q R σ () := by
  obtain ⟨base, hbase⟩ := id hb
  refine safe_bind (safe_assign (fun st γ x r hs _ hv => ?_) fun st γ x hs _ hv => ?_)
  · rw [Session.view_of_held hbase, Option.some.injEq] at hv
    subst hv
    exact safe_insert (hQ _ (h.post hb st.db rfl hr h0 hA))
  · rw [Session.view_of_held hbase] at hv
    cases hv

/-- What a session holds is not negative and representable. -/
theorem Holding.bounds (h : SessionBooks A σ) (hb : Holding σ a t b) :
    0 ≤ b.available ∧ b.available ∈ A := by
  obtain ⟨base, hbase⟩ := hb
  obtain ⟨r, hown, -, -, hr⟩ := h.held a t _ hbase
  obtain rfl : b = r := Option.some.inj hown
  exact hr

/-- Lock the balance and put an amount on it. -/
theorem putOn_safe {col : Columns} {x : ℚ} {ref : Ref}
    {set : AgentBalance → AgentBalance → AgentBalance} {out : AgentBalance → AgentBalance}
    (hcol : col.Keeps 12 A) (hx : 0 ≤ x ∧ x ∈ A)
    (hset : ∀ b, (set b b).available = col 12 (b.available + x)) (h : SessionBooks A σ) :
    ((getForUpdate a t).bind fun b => (save a t (set b) x ref).bind fun _ =>
        Prog.ret (out b)).safe (addUp A st₀) i (fun _ σ' _ => SessionBooks A σ')
      (fun _ _ _ => True) σ () := by
  refine safe_bind (getForUpdate_safe h (fun b σ' h' hb => ?_) fun _ _ => trivial)
  obtain ⟨h0, hA⟩ := hb.bounds h'
  have hsum : (set b b).available = b.available + x := (hset b).trans (hcol _ (A.add_mem hA hx.2))
  refine safe_bind (save_safe h' hb hsum ?_ ?_ fun σ'' h'' => h'')
  · rw [hsum]
    exact add_nonneg h0 hx.1
  · rw [hsum]
    exact A.add_mem hA hx.2

/-- Lock the balance and take an amount off it, if there is enough. -/
theorem takeOff_safe {col : Columns} {x : ℚ} {ref : Ref} {e : Exn}
    {set : AgentBalance → AgentBalance → AgentBalance} {out : AgentBalance → AgentBalance}
    (hcol : col.Keeps 12 A) (hx : 0 ≤ x ∧ x ∈ A)
    (hset : ∀ b, (set b b).available = col 12 (b.available - x)) (h : SessionBooks A σ) :
    ((getForUpdate a t).bind fun b => (raiseIf (b.available < x) e).bind fun _ =>
        (save a t (set b) (-x) ref).bind fun _ => Prog.ret (out b)).safe (addUp A st₀) i
      (fun _ σ' _ => SessionBooks A σ') (fun _ _ _ => True) σ () := by
  refine safe_bind (getForUpdate_safe h (fun b σ' h' hb => ?_) fun _ _ => trivial)
  obtain ⟨h0, hA⟩ := hb.bounds h'
  have hdiff : (set b b).available = b.available - x := (hset b).trans (hcol _ (A.sub_mem hA hx.2))
  refine safe_bind (safe_raiseIf (fun _ => trivial) fun hle => ?_)
  rw [not_lt] at hle
  refine safe_bind (save_safe h' hb (hdiff.trans (sub_eq_add_neg ..)) ?_ ?_ fun σ'' h'' => h'')
  · rw [hdiff]
    exact sub_nonneg.mpr hle
  · rw [hdiff]
    exact A.sub_mem hA hx.2

/-- Every operation keeps the books of its session in order. -/
theorem BalanceOp.run_safe {col : Columns} (hcol : col.Keeps 12 A) (op : BalanceOp)
    (hop : op.Valid A) (h : SessionBooks A σ) :
    (op.run col).safe (addUp A st₀) i (fun _ σ' _ => SessionBooks A σ') (fun _ _ _ => True)
      σ () := by
  cases op with
  | getOrCreate a t => exact safe_bind (getOrCreate_safe h (fun _ _ h' => h') fun _ _ => trivial)
  | getAvailable a t =>
      exact safe_bind (safe_bind (getOrCreate_safe h (fun _ _ h' => h') fun _ _ => trivial))
  | deposit a x t => exact safe_bind (putOn_safe hcol hop (fun _ => rfl) h)
  | deduct a x t => exact safe_bind (takeOff_safe hcol hop (fun _ => rfl) h)
  | withdraw a x t => exact safe_bind (takeOff_safe hcol hop (fun _ => rfl) h)
  | credit a x t => exact safe_bind (putOn_safe hcol hop (fun _ => rfl) h)

theorem balanceSession_safe {col : Columns} (hcol : col.Keeps 12 A) (ops : List BalanceOp)
    (hops : ∀ op ∈ ops, op.Valid A) :
    (balanceSession col ops).safe (addUp A st₀) i (fun _ _ _ => True) (fun _ _ _ => True)
      Session.start () := by
  let Inv : List BalanceOp → Session schema → Unit → Prop := fun l σ _ =>
    SessionBooks A σ ∧ ∀ op ∈ l, op.Valid A
  refine safe_withSession (safe_mono (safe_forEach (R := fun _ _ _ => True) Inv
    (fun op l σ g ⟨h, hl⟩ => ?_) ops ⟨.start, hops⟩) (fun _ σ _ h => ⟨h.1.commits trivial, trivial⟩)
    fun _ _ _ _ => trivial)
  exact safe_mono (op.run_safe hcol (hl op (by simp)) h)
    (fun _ _ _ h' => ⟨h', fun op' hop' => hl op' (by simp [hop'])⟩) fun _ _ _ h' => h'

end Sessions

/-! ## All interleavings -/

theorem ten_mem : (10 : ℚ) ∈ decimals 12 := mem_decimals.mpr ⟨10 * 10 ^ 12, by norm_num⟩

theorem eight_mem : (8 : ℚ) ∈ decimals 12 := mem_decimals.mpr ⟨8 * 10 ^ 12, by norm_num⟩

theorem tenUnits_balances (a : Id) (t : Token) :
    0 ≤ (balanceOf tenUnits.db a t).available ∧
      (balanceOf tenUnits.db a t).available ∈ decimals 12 := by
  by_cases h : a = 1 ∧ t = .XMR
  · obtain ⟨rfl, rfl⟩ := h
    exact ⟨by decide, ten_mem⟩
  · have hrow : tenUnits.db.rows (Key.balance a t) = none := if_neg h
    rw [balanceOf, hrow]
    exact ⟨le_rfl, AddSubgroup.zero_mem _⟩

/-- Sessions 0 to `n - 1` look at the balance and take eight units off it. -/
def spenders (n i : ℕ) : List BalanceOp :=
  if i < n then [.getAvailable 1 .XMR, .deduct 1 8 .XMR] else []

theorem spenders_valid (n i : ℕ) : ∀ op ∈ spenders n i, op.Valid (decimals 12) := by
  intro op hop
  unfold spenders at hop
  split at hop
  · simp only [List.mem_cons, List.not_mem_nil, or_false] at hop
    rcases hop with rfl | rfl
    · trivial
    · exact ⟨by norm_num, eight_mem⟩
  · cases hop

/-- The threads of a schedule take their turns. -/
def turns (l : List ℕ) : List (ℕ × Input schema) := l.map (·, {})

/-- Where a schedule of `n` spenders leads. -/
def spend (n : ℕ) (l : List ℕ) : Option (Config schema Unit) :=
  Config.trace (turns l) (.start tenUnits fun i => balanceSession .rounding (spenders n i))

theorem exists_spend {n : ℕ} {l : List ℕ} {x y : ℚ}
    (h : (spend n l).any (fun c => (balanceOf c.store.db 1 .XMR).available = x ∧
      total 1 .XMR c.store.db.log = y) = true) :
    ∃ c, spend n l = some c ∧ (balanceOf c.store.db 1 .XMR).available = x ∧
      total 1 .XMR c.store.db.log = y := by
  simpa [Option.any_eq_true] using h

/-- The test that a locking query of a balance returns the row it locks. -/
def freshLocks : Store schema → Session schema → Stmt schema → Input schema → Bool
  | st, σ, .selectForUpdate (Key.balance a t), _ =>
      σ.object st.db (Key.balance a t) = σ.view st.db (Key.balance a t)
  | _, _, .selectForUpdate _, _ => false
  | _, _, _, _ => true

theorem freshLocks_of (st : Store schema) (σ : Session schema) (s : Stmt schema)
    (x : Input schema) (h : freshLocks st σ s x = true) : FreshLocks st σ s x := by
  cases s with
  | selectForUpdate k =>
      cases k with
      | balance a t =>
          simp only [freshLocks, decide_eq_true_eq] at h
          exact h
      | _ => cases h
  | _ => trivial

end Sthrip
