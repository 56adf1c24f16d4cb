import Sthrip.Audit.Chain

set_option autoImplicit false

/-! # The signed message is unambiguous

`_hash_chain_link` signs six strings with a NUL between each two of them. None of the strings has a
NUL inside, so the message determines them. The digits of a digest determine the digest.
-/

namespace Sthrip.Audit

/-- The string has no NUL. -/
def NoNul (s : String) : Prop := '\x00' ∉ s.toList

/-! ## Digits -/

theorem digitChar_ne_nul {n : ℕ} (h : n < 16) : Nat.digitChar n ≠ '\x00' := by
  have hall : ∀ m : Fin 16, Nat.digitChar m ≠ '\x00' := by decide
  exact hall ⟨n, h⟩

theorem digitChar_inj {m n : ℕ} (hm : m < 16) (hn : n < 16) (h : Nat.digitChar m = Nat.digitChar n) :
    m = n := by
  have hall : ∀ a b : Fin 16, Nat.digitChar a = Nat.digitChar b → a = b := by decide
  exact congrArg Fin.val (hall ⟨m, hm⟩ ⟨n, hn⟩ h)

theorem hexDigits_ne_nul (len n : ℕ) : '\x00' ∉ hexDigits len n := by
  induction len generalizing n with
  | zero => exact List.not_mem_nil
  | succ len ih =>
      rw [hexDigits, List.mem_append, not_or, List.mem_singleton]
      exact ⟨ih _, fun h => digitChar_ne_nul (Nat.mod_lt n (by decide)) h.symm⟩

theorem hexDigits_inj {len m n : ℕ} (hm : m < 16 ^ len) (hn : n < 16 ^ len)
    (h : hexDigits len m = hexDigits len n) : m = n := by
  induction len generalizing m n with
  | zero => omega
  | succ len ih =>
      rw [hexDigits, hexDigits] at h
      obtain ⟨hinit, hlast⟩ := List.append_inj' h rfl
      have hmod : m % 16 = n % 16 := by
        refine digitChar_inj (Nat.mod_lt m (by decide)) (Nat.mod_lt n (by decide)) ?_
        exact List.singleton_inj.mp hlast
      have hdiv : m / 16 = n / 16 := by
        refine ih ?_ ?_ hinit
        · rw [pow_succ] at hm
          omega
        · rw [pow_succ] at hn
          omega
      omega

theorem Digest.hex_noNul (d : Digest) : NoNul d.hex := by
  rw [NoNul, Digest.hex, String.toList_ofList]
  exact hexDigits_ne_nul _ _

theorem Digest.hex_inj {d d' : Digest} (h : d.hex = d'.hex) : d = d' := by
  have hdigits : hexDigits 64 d.toNat = hexDigits 64 d'.toNat := by
    have := congrArg String.toList h
    rwa [Digest.hex, Digest.hex, String.toList_ofList, String.toList_ofList] at this
  have hbound : ∀ e : Digest, e.toNat < 16 ^ 64 := by
    intro e
    have := e.isLt
    norm_num at this ⊢
    exact this
  exact BitVec.eq_of_toNat_eq (hexDigits_inj (hbound d) (hbound d') hdigits)

theorem uuidStr_noNul (u : UUID) : NoNul (uuidStr u) := by
  have hdigits := hexDigits_ne_nul 32 u
  rw [NoNul, uuidStr, String.toList_ofList]
  intro h
  simp only [List.mem_append, List.mem_cons] at h
  have hdash : '\x00' ≠ '-' := by decide
  have htake : ∀ n, '\x00' ∉ (hexDigits 32 u).take n := fun n hn => hdigits (List.mem_of_mem_take hn)
  have hdrop : ∀ n, '\x00' ∉ (hexDigits 32 u).drop n := fun n hn => hdigits (List.mem_of_mem_drop hn)
  have hboth : ∀ m n, '\x00' ∉ ((hexDigits 32 u).drop m).take n :=
    fun m n hn => hdrop m (List.mem_of_mem_take hn)
  simp [hdash, htake, hdrop, hboth] at h

theorem NoNul.append {s s' : String} (h : NoNul s) (h' : NoNul s') : NoNul (s ++ s') := by
  rw [NoNul, String.toList_append, List.mem_append, not_or]
  exact ⟨h, h'⟩

theorem padded_noNul (len n : ℕ) : NoNul (padded len n) := by
  rw [NoNul, padded, String.toList_ofList, List.mem_append, not_or]
  refine ⟨fun h => ?_, fun h => ?_⟩
  · exact absurd (List.eq_of_mem_replicate h) (by decide)
  · exact absurd (Nat.isDigit_of_mem_toDigits (by decide) (by decide) h) (by decide)

theorem tsIso_noNul (t : DateTime) : NoNul (tsIso t) := by
  have hempty : NoNul "" := by simp [NoNul]
  have hdash : NoNul "-" := by simp [NoNul]
  have hT : NoNul "T" := by simp [NoNul]
  have hcolon : NoNul ":" := by simp [NoNul]
  have hdot : NoNul "." := by simp [NoNul]
  have hif : NoNul (if t % 1000000 = 0 then "" else "." ++ padded 6 (t % 1000000)) := by
    split
    · exact hempty
    · exact hdot.append (padded_noNul _ _)
  unfold tsIso
  refine NoNul.append ?_ hif
  exact ((((((((((padded_noNul _ _).append hdash).append (padded_noNul _ _)).append hdash).append
    (padded_noNul _ _)).append hT).append (padded_noNul _ _)).append hcolon).append
    (padded_noNul _ _)).append hcolon).append (padded_noNul _ _)

/-! ## Messages -/

/-- What is signed of a row, besides the HMAC before it. -/
def AuditLog.fields (r : AuditLog) : List String :=
  [r.action, (r.agent_id.map uuidStr).getD "", (r.ip_hmac.map Digest.hex).getD "", tsIso r.created_at,
    canonicalJson r.request_body]

/-- The message that is signed for a row. -/
def AuditLog.message (prev_hmac : String) (r : AuditLog) : ByteArray :=
  ("\x00".intercalate (prev_hmac :: r.fields)).toUTF8

theorem recomputed_eq (hmac : ByteArray → ByteArray → Digest) (key prev_hmac : String)
    (r : AuditLog) :
    r.recomputed hmac key prev_hmac = (hmac key.toUTF8 (r.message prev_hmac)).hex := rfl

/-- Strings without a NUL are determined by the string in which a NUL separates them. -/
theorem intercalate_inj {l l' : List String} (hl : ∀ s ∈ l, NoNul s) (hl' : ∀ s ∈ l', NoNul s)
    (hne : l ≠ []) (hne' : l' ≠ []) (h : "\x00".intercalate l = "\x00".intercalate l') : l = l' := by
  have hchars := congrArg String.toList h
  rw [String.toList_intercalate, String.toList_intercalate] at hchars
  have hsep : "\x00".toList = ['\x00'] := by decide
  have hsplit := congrArg (List.splitOn '\x00') hchars
  rw [hsep, List.splitOn_intercalate, List.splitOn_intercalate] at hsplit
  · exact List.map_injective_iff.mpr (fun a b hab => String.toList_injective hab) hsplit
  · intro s hs
    obtain ⟨t, ht, rfl⟩ := List.mem_map.mp hs
    exact hl' t ht
  · simpa using hne'
  · intro s hs
    obtain ⟨t, ht, rfl⟩ := List.mem_map.mp hs
    exact hl t ht
  · simpa using hne

/-- The action and the details of the row have no NUL. -/
def AuditLog.Clean (r : AuditLog) : Prop := NoNul r.action ∧ NoNul (canonicalJson r.request_body)

theorem AuditLog.Clean.fields {r : AuditLog} (h : r.Clean) : ∀ s ∈ r.fields, NoNul s := by
  have hempty : NoNul "" := by simp [NoNul]
  intro s hs
  simp only [AuditLog.fields, List.mem_cons, List.not_mem_nil, or_false] at hs
  rcases hs with rfl | rfl | rfl | rfl | rfl
  · exact h.1
  · cases r.agent_id with
    | none => exact hempty
    | some u => exact uuidStr_noNul u
  · cases r.ip_hmac with
    | none => exact hempty
    | some d => exact d.hex_noNul
  · exact tsIso_noNul _
  · exact h.2

/-- The message determines the fields. -/
theorem message_inj {p p' : String} {r r' : AuditLog} (hp : NoNul p) (hp' : NoNul p') (hr : r.Clean)
    (hr' : r'.Clean) (h : r.message p = r'.message p') : r.fields = r'.fields := by
  have hstr : "\x00".intercalate (p :: r.fields) = "\x00".intercalate (p' :: r'.fields) :=
    String.toByteArray_inj.mp h
  have hlist := intercalate_inj (List.forall_mem_cons.mpr ⟨hp, hr.fields⟩)
    (List.forall_mem_cons.mpr ⟨hp', hr'.fields⟩) (List.cons_ne_nil _ _) (List.cons_ne_nil _ _) hstr
  exact (List.cons.inj hlist).2

end Sthrip.Audit
