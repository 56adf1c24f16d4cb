import Mathlib.Data.List.Basic
import Mathlib.Data.List.Induction
import Mathlib.Data.Rat.Floor

set_option autoImplicit false

/-! # Values of a dynamic language

What a program does with a value that `json.loads` has made: it looks up a key, iterates, compares
with a number, or turns a text into a number. Each of these may raise, and no type was checked before.
-/

namespace Python

inductive Exn
  | KeyError
  | ValueError (message : String)
  | TypeError
  | OverflowError
  | AttributeError
  deriving DecidableEq

/-- The result of a call, or what it raises. -/
abbrev Py := Except Exn

@[simp] theorem bind_eq_ok {ε α β : Type} {x : Except ε α} {f : α → Except ε β} {b : β} :
    x >>= f = .ok b ↔ ∃ a, x = .ok a ∧ f a = .ok b := by
  cases x with
  | error e =>
      constructor
      · intro h
        cases h
      · rintro ⟨a, ha, -⟩
        cases ha
  | ok a =>
      constructor
      · exact fun h => ⟨a, rfl, h⟩
      · rintro ⟨a', ha, h⟩
        cases ha
        exact h

theorem mapM_eq_ok {α β γ : Type} {f : α → Py β} {k : γ → β} {l : List α} {l' : List γ}
    (h : List.Forall₂ (fun a c => f a = .ok (k c)) l l') : l.mapM f = .ok (l'.map k) := by
  induction h with
  | nil => rfl
  | cons ha _ ih =>
      rw [List.mapM_cons, ha, ih]
      rfl

theorem mem_of_mapM {α β : Type} {f : α → Py β} {l : List α} {l' : List β} (h : l.mapM f = .ok l')
    {a : α} (ha : a ∈ l) : ∃ b, f a = .ok b := by
  induction l generalizing l' with
  | nil => exact absurd ha List.not_mem_nil
  | cons x l ih =>
      rw [List.mapM_cons] at h
      obtain ⟨b, hb, hrest⟩ := bind_eq_ok.mp h
      obtain ⟨bs, hbs, -⟩ := bind_eq_ok.mp hrest
      rcases List.mem_cons.mp ha with rfl | hmem
      · exact ⟨b, hb⟩
      · exact ih hbs hmem

/-- A value that is read from JSON. -/
inductive Value
  | none
  | bool (b : Bool)
  | int (n : ℤ)
  | float (text : String) (x : ℚ)
  | nan
  | infinity (negative : Bool)
  | str (s : String)
  | list (l : List Value)
  | dict (d : List (String × Value))

namespace Value

/-- `v[k]` with a text as the key. -/
def getItem (k : String) : Value → Py Value
  | .dict d => match d.lookup k with
    | some v => .ok v
    | .none => .error .KeyError
  | _ => .error .TypeError

/-- `v.get(k, default)`. -/
def get (v : Value) (k : String) (default : Value) : Py Value :=
  match v with
  | .dict d => .ok ((d.lookup k).getD default)
  | _ => .error .AttributeError

/-- What a loop over the value goes through, `len` of them. -/
def items : Value → Py (List Value)
  | .list l => .ok l
  | .dict d => .ok (d.map fun e => .str e.1)
  | .str s => .ok (s.toList.map fun c => .str (String.singleton c))
  | _ => .error .TypeError

/-- `v == n`. -/
def eqInt (n : ℤ) : Value → Bool
  | .bool b => (b.toNat : ℤ) == n
  | .int m => m == n
  | .float _ x => x == n
  | _ => false

/-- `v == s`. -/
def eqStr (s : String) : Value → Bool
  | .str t => t == s
  | _ => false

/-- An exponent of `pow`. -/
def index : Value → Py ℤ
  | .bool b => .ok b.toNat
  | .int n => .ok n
  | _ => .error .TypeError

theorem eqStr_iff {s : String} {v : Value} : v.eqStr s = true ↔ v = .str s := by
  cases v <;> simp [eqStr]

/-- What `get` finds besides its default. -/
theorem getItem_of_get {k s : String} {v : Value} (h : v.get k .none = .ok (.str s)) :
    v.getItem k = .ok (.str s) := by
  cases v with
  | dict d =>
      simp only [get, Except.ok.injEq] at h
      cases hk : d.lookup k with
      | none =>
          rw [hk] at h
          cases h
      | some v =>
          rw [hk] at h
          simp only [getItem, hk]
          exact congrArg Except.ok h
  | _ => cases h

end Value

/-- The number without what follows the point. -/
def truncate (x : ℚ) : ℤ := if 0 ≤ x then ⌊x⌋ else ⌈x⌉

/-- `format(n, "x")`. -/
def hex (n : ℕ) : String := String.ofList (Nat.toDigits 16 n)

/-- How numbers are read. Which characters are digits or blanks is not fixed here (it depends on the
version of Unicode), only that what is written is read back. -/
structure Reader where
  /-- `int(s, base)`. -/
  int : ℕ → String → Option ℤ
  int_str : ∀ n : ℤ, int 10 (toString n) = some n
  int_hex : ∀ n : ℕ, int 16 (hex n) = some (n : ℤ)

/-- `int(v)`. -/
def Reader.toInt (py : Reader) : Value → Py ℤ
  | .bool b => .ok b.toNat
  | .int n => .ok n
  | .float _ x => .ok (truncate x)
  | .infinity _ => .error .OverflowError
  | .str s => match py.int 10 s with
    | some n => .ok n
    | none => .error (.ValueError "invalid literal for int()")
  | .nan => .error (.ValueError "cannot convert float NaN to integer")
  | _ => .error .TypeError

/-- `int(v, 16)`. -/
def Reader.toIntHex (py : Reader) : Value → Py ℤ
  | .str s => match py.int 16 s with
    | some n => .ok n
    | none => .error (.ValueError "invalid literal for int()")
  | _ => .error .TypeError

theorem Reader.toInt_str (py : Reader) (n : ℤ) : py.toInt (.str (toString n)) = .ok n := by
  rw [Reader.toInt, py.int_str]

theorem Reader.toIntHex_hex (py : Reader) (n : ℕ) : py.toIntHex (.str (hex n)) = .ok (n : ℤ) := by
  rw [Reader.toIntHex, py.int_hex]

/-! ## Plain digits -/

/-- The value of a digit in bases up to 16. -/
def digitValue (c : Char) : Option ℕ :=
  if '0' ≤ c ∧ c ≤ '9' then some (c.toNat - 48)
  else if 'a' ≤ c ∧ c ≤ 'f' then some (c.toNat - 87)
  else none

/-- Digits after those of `n`. -/
def readFrom (base : ℕ) : ℕ → List Char → Option ℕ
  | n, [] => some n
  | n, c :: l => match digitValue c with
    | some d => if d < base then readFrom base (base * n + d) l else none
    | none => none

theorem readFrom_append (base n : ℕ) (l l' : List Char) :
    readFrom base n (l ++ l') = (readFrom base n l).bind fun m => readFrom base m l' := by
  induction l generalizing n with
  | nil => rfl
  | cons c l ih =>
      rw [List.cons_append, readFrom, readFrom]
      split
      · split
        · exact ih _
        · rfl
      · rfl

theorem readFrom_digitChar {base d : ℕ} (hbase : base ≤ 16) (hd : d < base) (n : ℕ) :
    readFrom base n [Nat.digitChar d] = some (base * n + d) := by
  have hvalue : ∀ d < 16, digitValue (Nat.digitChar d) = some d := by decide
  rw [readFrom, hvalue d (by omega)]
  exact if_pos hd

theorem readFrom_toDigits {base : ℕ} (hbase : 1 < base ∧ base ≤ 16) (n : ℕ) :
    readFrom base 0 (Nat.toDigits base n) = some n := by
  induction n using Nat.strong_induction_on with
  | _ n ih =>
      by_cases h : n < base
      · rw [Nat.toDigits_of_lt_base h, readFrom_digitChar hbase.2 h, Nat.mul_zero, Nat.zero_add]
      · have hlt : n / base < n := Nat.div_lt_self (by omega) hbase.1
        have hmod : n % base < base := Nat.mod_lt n (by omega)
        rw [Nat.toDigits_of_base_le hbase.1 (by omega), readFrom_append, ih _ hlt]
        show readFrom base (n / base) _ = _
        rw [readFrom_digitChar hbase.2 hmod, Nat.div_add_mod]

/-- A sign and plain digits. -/
def readInt (base : ℕ) (s : String) : Option ℤ :=
  match s.toList with
  | '-' :: l => (readFrom base 0 l).map fun n : ℕ => -(n : ℤ)
  | l => (readFrom base 0 l).map fun n : ℕ => (n : ℤ)

theorem readInt_toDigits {base : ℕ} (hbase : 1 < base ∧ base ≤ 16) (n : ℕ) :
    readInt base (String.ofList (Nat.toDigits base n)) = some (n : ℤ) := by
  have hread := readFrom_toDigits hbase n
  rw [readInt, String.toList_ofList]
  split
  · next l heq =>
      -- no digit is a sign
      rw [heq] at hread
      cases hread
  · rw [hread]
    rfl

theorem readInt_toString (n : ℤ) : readInt 10 (toString n) = some n := by
  cases n with
  | ofNat m => exact readInt_toDigits (by omega) m
  | negSucc m =>
      have htext : (toString (Int.negSucc m)).toList = '-' :: Nat.toDigits 10 (m + 1) := by
        show ("-" ++ (m + 1).repr).toList = _
        rw [String.toList_append, Nat.toList_repr]
        rfl
      rw [readInt, htext]
      show (readFrom 10 0 (Nat.toDigits 10 (m + 1))).map _ = _
      rw [readFrom_toDigits (by omega)]
      rfl

/-- The reader of plain digits. -/
def Reader.plain : Reader where
  int := readInt
  int_str := readInt_toString
  int_hex := readInt_toDigits (by omega)

end Python

/-! ## Dicts

A dict is the list of its items in the order in which the keys were first set.
-/

namespace Python

variable {K V : Type} [DecidableEq K]

/-- `d[k] = v`; a key that is present keeps its place. -/
def setItem (k : K) (v : V) : List (K × V) → List (K × V)
  | [] => [(k, v)]
  | e :: d => if e.1 = k then (k, v) :: d else e :: setItem k v d

theorem setItem_of_notMem {k : K} {v : V} {d : List (K × V)} (h : ∀ e ∈ d, e.1 ≠ k) :
    setItem k v d = d ++ [(k, v)] := by
  induction d with
  | nil => rfl
  | cons e d ih =>
      have hrest := ih fun e' he' => h e' (List.mem_cons_of_mem e he')
      rw [setItem, if_neg (h e List.mem_cons_self), hrest, List.cons_append]

theorem mem_setItem {k : K} {v : V} {d : List (K × V)} {e : K × V} (h : e ∈ setItem k v d) :
    e = (k, v) ∨ e ∈ d := by
  induction d with
  | nil => exact .inl (List.mem_singleton.mp h)
  | cons e' d ih =>
      unfold setItem at h
      split at h
      · rcases List.mem_cons.mp h with rfl | hrest
        · exact .inl rfl
        · exact .inr (List.mem_cons_of_mem _ hrest)
      · rcases List.mem_cons.mp h with rfl | hrest
        · exact .inr List.mem_cons_self
        · rcases ih hrest with rfl | hold
          · exact .inl rfl
          · exact .inr (List.mem_cons_of_mem _ hold)

theorem setItem_ne_nil (k : K) (v : V) (d : List (K × V)) : setItem k v d ≠ [] := by
  cases d with
  | nil => exact List.cons_ne_nil _ _
  | cons e d =>
      unfold setItem
      split
      · exact List.cons_ne_nil _ _
      · exact List.cons_ne_nil _ _

/-- A dict of values that are computed from those of another. -/
theorem map_setItem {W : Type} (f : V → W) (k : K) (v : V) (d : List (K × V)) :
    (setItem k v d).map (fun e => (e.1, f e.2)) = setItem k (f v) (d.map fun e => (e.1, f e.2)) := by
  induction d with
  | nil => rfl
  | cons e d ih =>
      rw [setItem, List.map_cons, setItem]
      by_cases hk : e.1 = k
      · rw [if_pos hk, if_pos hk, List.map_cons]
      · rw [if_neg hk, if_neg hk, List.map_cons, ih]

/-- Items with different keys, set one after the other. -/
theorem foldl_setItem {l : List (K × V)} (hnodup : (l.map Prod.fst).Nodup) :
    l.foldl (fun d e => setItem e.1 e.2 d) [] = l := by
  induction l using List.reverseRecOn with
  | nil => rfl
  | append_singleton l e ih =>
      rw [List.map_append, List.nodup_append] at hnodup
      obtain ⟨hinit, -, hdisj⟩ := hnodup
      have hfresh : ∀ e' ∈ l, e'.1 ≠ e.1 := fun e' he' =>
        hdisj _ (List.mem_map_of_mem he') _ (List.mem_map_of_mem List.mem_cons_self)
      rw [List.foldl_append, ih hinit, List.foldl_cons, List.foldl_nil, setItem_of_notMem hfresh]

end Python
