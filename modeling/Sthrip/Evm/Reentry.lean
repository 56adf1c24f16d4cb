import Mathlib.Logic.Function.Basic

set_option autoImplicit false

/-! # Contracts that call out

A transaction runs an entry point of a contract. The entry point may pass control to code outside
the contract, once, and go on when that code returns. What the outside code does is to call the
contract again, any number of times, before it accepts or fails. `Tx` is such a run: a tree of
messages. A call that fails leaves no trace (`Tx.exec`).

`Contract.Keeps` is what the entry points have to keep, each on its own, for an invariant to hold in
every state that outside code can see (`Tx.seen`), at any depth.
-/

namespace Evm

/-- Where an entry point stops for the first time: at its end, or at a call to the outside. -/
inductive Next (S : Type) where
  | stop (s : S)
  /-- `s` is the state before the call, `sent` the state that the callee sees. There is none when the
  call fails at once. The entry point goes on with `resume`. -/
  | call (s : S) (sent : Option S) (resume : Bool → S → Except String S)

/-- An invariant holds where an entry point stops. If it holds again when the entry point goes on, then
it holds at the end. -/
def Next.Keeps {S : Type} (I : S → Prop) : Next S → Prop
  | .stop s => I s
  | .call s sent resume =>
      I s ∧ (∀ s₂, sent = some s₂ → I s₂) ∧ ∀ b t t', I t → resume b t = .ok t' → I t'

/-- The same without the state before the call: when the call fails, only the end counts. -/
def Next.Upholds {S : Type} (I : S → Prop) : Next S → Prop
  | .stop s => I s
  | .call s sent resume =>
      (∀ t', resume false s = .ok t' → I t') ∧ (∀ s₂, sent = some s₂ → I s₂)
        ∧ ∀ t t', I t → resume true t = .ok t' → I t'

theorem Next.Keeps.upholds {S : Type} {I : S → Prop} {n : Next S} (h : n.Keeps I) : n.Upholds I := by
  cases n with
  | stop s => exact h
  | call s sent resume =>
      obtain ⟨hbefore, hsent, hresume⟩ := h
      exact ⟨fun t' => hresume false s t' hbefore, hsent, hresume true⟩

/-- How the end of an entry point is related to its begin, when the states of the callee are. -/
def Next.Leaves {S : Type} (R : S → S → Prop) (s : S) : Next S → Prop
  | .stop s' => R s s'
  | .call s₁ sent resume =>
      (∀ t', resume false s₁ = .ok t' → R s t')
        ∧ ∀ s₂ t t', sent = some s₂ → R s₂ t → resume true t = .ok t' → R s t'

structure Contract where
  /-- What is the same for all calls in a transaction. -/
  Env : Type
  Msg : Type
  State : Type
  enter : Env → Msg → State → Except String (Next State)

/-- A message, the messages that the callee sends while it has control, and whether it accepts. -/
inductive Tx (Msg : Type) where
  | mk (msg : Msg) (inner : List (Tx Msg)) (accepts : Bool)

namespace Contract

variable (c : Contract)

mutual

/-- Run a message. When it fails the state is as before. -/
def exec (env : c.Env) : Tx c.Msg → c.State → Except String Unit × c.State
  | .mk msg inner accepts, s =>
      match c.enter env msg s with
      | .error reason => (.error reason, s)
      | .ok (.stop s') => (.ok (), s')
      | .ok (.call s₁ sent resume) =>
          match sent, accepts with
          | some s₂, true =>
              match resume true (execAll env inner s₂) with
              | .error reason => (.error reason, s)
              | .ok s' => (.ok (), s')
          | _, _ =>
              match resume false s₁ with
              | .error reason => (.error reason, s)
              | .ok s' => (.ok (), s')

def execAll (env : c.Env) : List (Tx c.Msg) → c.State → c.State
  | [], s => s
  | t :: ts, s => execAll env ts (exec env t s).2

end

mutual

/-- The states that code outside the contract sees while a message runs. -/
def seen (env : c.Env) : Tx c.Msg → c.State → List c.State
  | .mk msg inner _, s =>
      match c.enter env msg s with
      | .ok (.call _ (some s₂) _) => s₂ :: seenAll env inner s₂
      | _ => []

def seenAll (env : c.Env) : List (Tx c.Msg) → c.State → List c.State
  | [], _ => []
  | t :: ts, s => seen env t s ++ (exec c env t s).2 :: seenAll env ts (exec c env t s).2

end

/-- The entry points keep an invariant. -/
def Keeps (env : c.Env) (I : c.State → Prop) : Prop :=
  ∀ msg s n, I s → c.enter env msg s = .ok n → n.Keeps I

/-- The entry points keep an invariant that need not hold before a call that fails. -/
def Upholds (env : c.Env) (I : c.State → Prop) : Prop :=
  ∀ msg s n, I s → c.enter env msg s = .ok n → n.Upholds I

variable {c} {env : c.Env} {I : c.State → Prop}

theorem Keeps.upholds (h : c.Keeps env I) : c.Upholds env I :=
  fun msg s n hs henter => (h msg s n hs henter).upholds

/-- An entry point that does not call out. -/
theorem exec_stop {msg : c.Msg} {inner : List (Tx c.Msg)} {accepts : Bool} {s s' : c.State}
    (h : c.enter env msg s = .ok (.stop s')) : c.exec env (.mk msg inner accepts) s = (.ok (), s') := by
  rw [exec, h]

/-- An entry point that calls out to code that accepts. -/
theorem exec_call {msg : c.Msg} {inner : List (Tx c.Msg)} {s s₁ s₂ s' : c.State}
    {resume : Bool → c.State → Except String c.State}
    (h : c.enter env msg s = .ok (.call s₁ (some s₂) resume))
    (hresume : resume true (c.execAll env inner s₂) = .ok s') :
    c.exec env (.mk msg inner true) s = (.ok (), s') := by
  rw [exec, h]
  dsimp only
  rw [hresume]

theorem exec_error {msg : c.Msg} {inner : List (Tx c.Msg)} {accepts : Bool} {s : c.State}
    {reason : String} (h : c.enter env msg s = .error reason) :
    c.exec env (.mk msg inner accepts) s = (.error reason, s) := by
  rw [exec, h]

mutual

theorem Upholds.exec (h : c.Upholds env I) {s : c.State} (hs : I s) :
    ∀ t : Tx c.Msg, I (c.exec env t s).2
  | .mk msg inner accepts => by
      rw [Contract.exec]
      split
      · exact hs
      · next s' henter => exact h msg s _ hs henter
      · next s₁ sent resume henter =>
          obtain ⟨hfails, hsent, hresume⟩ := h msg s _ hs henter
          split
          · next s₂ =>
              have hinner := Upholds.execAll h (hsent s₂ rfl) inner
              split
              · exact hs
              · next s' heq => exact hresume _ _ hinner heq
          · split
            · exact hs
            · next s' heq => exact hfails _ heq

theorem Upholds.execAll (h : c.Upholds env I) {s : c.State} (hs : I s) :
    ∀ ts : List (Tx c.Msg), I (c.execAll env ts s)
  | [] => hs
  | t :: ts => Upholds.execAll h (Upholds.exec h hs t) ts

end

mutual

/-- The invariant holds whenever code outside the contract has control. -/
theorem Upholds.seen (h : c.Upholds env I) {s : c.State} (hs : I s) :
    ∀ t : Tx c.Msg, ∀ s' ∈ c.seen env t s, I s'
  | .mk msg inner _ => by
      rw [Contract.seen]
      split
      · next s₁ s₂ resume henter =>
          have hsent := (h msg s _ hs henter).2.1 s₂ rfl
          intro s' hmem
          rcases List.mem_cons.mp hmem with rfl | hmem
          · exact hsent
          · exact Upholds.seenAll h hsent inner s' hmem
      · intro s' hmem
        cases hmem

theorem Upholds.seenAll (h : c.Upholds env I) {s : c.State} (hs : I s) :
    ∀ ts : List (Tx c.Msg), ∀ s' ∈ c.seenAll env ts s, I s'
  | [] => fun s' hmem => by cases hmem
  | t :: ts => by
      intro s' hmem
      rw [Contract.seenAll] at hmem
      rcases List.mem_append.mp hmem with hmem | hmem
      · exact Upholds.seen h hs t s' hmem
      · have hexec := Upholds.exec h hs t
        rcases List.mem_cons.mp hmem with rfl | hmem
        · exact hexec
        · exact Upholds.seenAll h hexec ts s' hmem

end

theorem Keeps.exec (h : c.Keeps env I) {s : c.State} (hs : I s) (t : Tx c.Msg) :
    I (c.exec env t s).2 := h.upholds.exec hs t

theorem Keeps.seen (h : c.Keeps env I) {s : c.State} (hs : I s) (t : Tx c.Msg) :
    ∀ s' ∈ c.seen env t s, I s' := h.upholds.seen hs t

/-! ## What a message leaves -/

/-- The entry points leave a relation between begin and end. -/
def Leaves (c : Contract) (env : c.Env) (R : c.State → c.State → Prop) : Prop :=
  ∀ msg s n, c.enter env msg s = .ok n → n.Leaves R s

section Leaves

variable {R : c.State → c.State → Prop}

mutual

theorem Leaves.exec (h : c.Leaves env R) (hrefl : ∀ s, R s s) (htrans : ∀ s t u, R s t → R t u → R s u)
    (s : c.State) : ∀ t : Tx c.Msg, R s (c.exec env t s).2
  | .mk msg inner accepts => by
      rw [Contract.exec]
      split
      · exact hrefl s
      · next s' henter => exact h msg s _ henter
      · next s₁ sent resume henter =>
          obtain ⟨hfails, hresume⟩ := h msg s _ henter
          split
          · next s₂ =>
              have hinner := Leaves.execAll h hrefl htrans s₂ inner
              split
              · exact hrefl s
              · next s' heq => exact hresume s₂ _ _ rfl hinner heq
          · split
            · exact hrefl s
            · next s' heq => exact hfails _ heq

theorem Leaves.execAll (h : c.Leaves env R) (hrefl : ∀ s, R s s)
    (htrans : ∀ s t u, R s t → R t u → R s u) (s : c.State) :
    ∀ ts : List (Tx c.Msg), R s (c.execAll env ts s)
  | [] => hrefl s
  | t :: ts =>
      htrans _ _ _ (Leaves.exec h hrefl htrans s t) (Leaves.execAll h hrefl htrans _ ts)

end

end Leaves

/-! ## One transaction after another -/

/-- The state after all transactions. -/
def after (c : Contract) : List (c.Env × Tx c.Msg) → c.State → c.State
  | [], s => s
  | (env, t) :: ts, s => after c ts (c.exec env t s).2

/-- The state after each transaction, each in its environment, and those that outside code sees during
one. -/
def seenByAll (c : Contract) : List (c.Env × Tx c.Msg) → c.State → List c.State
  | [], s => [s]
  | (env, t) :: ts, s => s :: c.seen env t s ++ seenByAll c ts (c.exec env t s).2

theorem after_mem_seenByAll (c : Contract) (ts : List (c.Env × Tx c.Msg)) (s : c.State) :
    c.after ts s ∈ c.seenByAll ts s := by
  induction ts generalizing s with
  | nil => exact List.mem_singleton_self s
  | cons t ts ih => exact List.mem_append_right _ (ih _)

theorem Leaves.after {c : Contract} {R : c.State → c.State → Prop} (h : ∀ env, c.Leaves env R)
    (hrefl : ∀ s, R s s) (htrans : ∀ s t u, R s t → R t u → R s u) (ts : List (c.Env × Tx c.Msg))
    (s : c.State) : R s (c.after ts s) := by
  induction ts generalizing s with
  | nil => exact hrefl s
  | cons t ts ih => exact htrans _ _ _ ((h t.1).exec hrefl htrans s t.2) (ih _)

theorem seenByAll_ne_nil (c : Contract) (ts : List (c.Env × Tx c.Msg)) (s : c.State) :
    c.seenByAll ts s ≠ [] := by
  cases ts with
  | nil => exact List.cons_ne_nil s []
  | cons t ts => simp [seenByAll]

theorem Keeps.seenByAll {c : Contract} {I : c.State → Prop} (h : ∀ env, c.Keeps env I)
    {s : c.State} (hs : I s) (ts : List (c.Env × Tx c.Msg)) : ∀ s' ∈ c.seenByAll ts s, I s' := by
  induction ts generalizing s with
  | nil =>
      intro s' hmem
      exact List.mem_singleton.mp hmem ▸ hs
  | cons t ts ih =>
      obtain ⟨env, t⟩ := t
      intro s' hmem
      rcases List.mem_append.mp hmem with hmem | hmem
      · rcases List.mem_cons.mp hmem with rfl | hmem
        · exact hs
        · exact Keeps.seen (h env) hs t s' hmem
      · exact ih (Keeps.exec (h env) hs t) s' hmem

/-- An invariant that reads the environment, for environments in an order along which it stays true:
the time of the blocks. `Q` is what it says of the state alone. -/
theorem Upholds.seenByAll {c : Contract} {I : c.Env → c.State → Prop} {r : c.Env → c.Env → Prop}
    {Q : c.State → Prop} (h : ∀ env, c.Upholds env (I env))
    (hr : ∀ env env' s, r env env' → I env s → I env' s) (hQ : ∀ env s, I env s → Q s)
    {s : c.State} (hs : Q s) (ts : List (c.Env × Tx c.Msg)) (hfirst : ∀ t ∈ ts, I t.1 s)
    (hsorted : ts.Pairwise fun t t' => r t.1 t'.1) : ∀ s' ∈ c.seenByAll ts s, Q s' := by
  induction ts generalizing s with
  | nil =>
      intro s' hmem
      exact List.mem_singleton.mp hmem ▸ hs
  | cons t ts ih =>
      obtain ⟨env, t⟩ := t
      have hstart : I env s := hfirst _ List.mem_cons_self
      have hexec : I env (c.exec env t s).2 := (h env).exec hstart t
      obtain ⟨hhead, htail⟩ := List.pairwise_cons.mp hsorted
      intro s' hmem
      rcases List.mem_append.mp hmem with hmem | hmem
      · rcases List.mem_cons.mp hmem with rfl | hmem
        · exact hs
        · exact hQ env s' ((h env).seen hstart t s' hmem)
      · exact ih (hQ env _ hexec) (fun t' ht' => hr env t'.1 _ (hhead t' ht') hexec) htail s' hmem

end Contract

end Evm
