/-
What the steps of an instruction can fail with. Account checks, account
creation and calls into other programs have errors of their own; the errors
of this program, and overflow, come only from its handlers.
-/
import Passdari.Machine

namespace Passdari

open Wire Token2022

/-- The program's own refusals, and overflow: what no account check and no other program fails with. -/
def Failure.isOwn : Failure → Bool
  | .code _ | .overflow => true
  | .anchor _ | .token _ | .system _ => false

section

variable {α : Type} {P : Platform} {tx : Tx} {T : AccountType α} {s : State} {a payer : Address} {e : Failure}
  {n : Nat} {kind : MoveKind} {p : Prop} [Decidable p] {signers : List Address}

theorem Failure.ne_anchor {x : AnchorError} (h : e.isOwn = true) : Failure.anchor x ≠ e := by
  intro he
  subst he
  cases h

theorem Failure.ne_token {x : Token2022.Error} (h : e.isOwn = true) : Failure.token x ≠ e := by
  intro he
  subst he
  cases h

theorem Failure.ne_system {x : SystemError} (h : e.isOwn = true) : Failure.system x ≠ e := by
  intro he
  subst he
  cases h

theorem require_avoids {c : ErrorCode} (h : Failure.code c = e → p) : (require p c).Avoids e := fun hc =>
  (check_eq_error.mp hc).1 (h (check_eq_error.mp hc).2)

theorem signer_avoids (h : e.isOwn = true) : (signer tx a).Avoids e := check_avoids (Failure.ne_anchor h)

theorem seedsConstraint_avoids {seeds : UInt8 → Address} (h : e.isOwn = true) :
    (seedsConstraint P seeds a).Avoids e :=
  (demand_avoids (Failure.ne_system h)).bind fun _ _ =>
    (check_avoids (Failure.ne_anchor h)).bind fun _ _ => Except.avoids_pure _

theorem seedsConstraintWith_avoids {seeds : UInt8 → Address} {bump : UInt8} (h : e.isOwn = true) :
    (seedsConstraintWith P seeds bump a).Avoids e := check_avoids (Failure.ne_anchor h)

theorem withSigner_avoids {seeds : UInt8 → Address} {bump : UInt8} (h : e.isOwn = true) :
    (withSigner P tx seeds bump).Avoids e :=
  (demand_avoids (Failure.ne_system h)).bind fun _ _ => Except.avoids_pure _

theorem load_avoids (h : e.isOwn = true) : (load T s a).Avoids e := by
  refine Except.Avoids.bind ?_ fun data _ => ?_
  · split
    · exact demand_avoids (Failure.ne_anchor h)
    · exact demand_avoids (Failure.ne_anchor h)
  · exact (check_avoids (Failure.ne_anchor h)).bind fun _ _ =>
      (demand_avoids (Failure.ne_anchor h)).bind fun _ _ => Except.avoids_pure _

theorem store_avoids {x : α} (h : e.isOwn = true) : (store T s a x).Avoids e :=
  (demand_avoids (Failure.ne_anchor h)).bind fun _ _ =>
    (check_avoids (Failure.ne_anchor h)).bind fun _ _ => Except.avoids_pure _

theorem loadMint_avoids (h : e.isOwn = true) : (loadMint s a).Avoids e := demand_avoids (Failure.ne_anchor h)

theorem loadToken_avoids (h : e.isOwn = true) : (loadToken s a).Avoids e :=
    demand_avoids (Failure.ne_anchor h)

theorem transferLamports_avoids (h : e.isOwn = true) : (transferLamports tx s kind payer a n).Avoids e := by
  unfold transferLamports
  split
  · exact Except.avoids_pure _
  · exact (check_avoids (Failure.ne_system h)).bind fun _ _ =>
      (check_avoids (Failure.ne_system h)).bind fun _ _ =>
      (check_avoids (Failure.ne_system h)).bind fun _ _ => Except.avoids_pure _

theorem createAddress_avoids (h : e.isOwn = true) : (createAddress tx s kind payer a n).Avoids e :=
  (check_avoids (Failure.ne_system h)).bind fun _ _ => transferLamports_avoids h

theorem create_avoids (h : e.isOwn = true) : (create P tx T s payer a).Avoids e :=
  (createAddress_avoids h).bind fun _ _ => Except.avoids_pure _

theorem liftToken_avoids {r : Except Token2022.Error (Tokens Address)} (h : e.isOwn = true) :
    (liftToken r).Avoids e := by
  cases r with
  | ok t => exact Except.avoids_ok t
  | error x => exact Except.avoids_error (Failure.ne_token h)

theorem invoke_avoids {op : Op Address} (h : e.isOwn = true) : (invoke signers s op).Avoids e :=
  (liftToken_avoids h).bind fun _ _ => Except.avoids_pure _

theorem invokeClose_avoids {dest authority : Address} (h : e.isOwn = true) :
    (invokeClose signers s a dest authority).Avoids e :=
  (liftToken_avoids h).bind fun _ _ => Except.avoids_pure _

theorem createAssociatedToken_avoids {owner mint : Address} (h : e.isOwn = true) :
    (createAssociatedToken P tx s payer a owner mint).Avoids e :=
  (check_avoids (Failure.ne_system h)).bind fun _ _ => (loadMint_avoids h).bind fun _ _ =>
    (createAddress_avoids h).bind fun _ _ => invoke_avoids h

end

/-! ## Arithmetic and the token side of cashing in -/

section

variable {P : Platform} {tx : Tx} {s : State} {e : Failure} {signers : List Address}

theorem overflow_avoids {p : Prop} [Decidable p] (h : .overflow = e → p) :
    (check p Failure.overflow).Avoids e := fun hc =>
  (check_eq_error.mp hc).1 (h (check_eq_error.mp hc).2)

theorem addU8_avoids {a b : UInt8} (h : .overflow = e → a.toNat + b.toNat < 2 ^ 8) : (addU8 a b).Avoids e :=
  (overflow_avoids h).bind fun _ _ => Except.avoids_pure _

theorem addU32_avoids {a b : UInt32} (h : .overflow = e → a.toNat + b.toNat < 2 ^ 32) :
    (addU32 a b).Avoids e :=
  (overflow_avoids h).bind fun _ _ => Except.avoids_pure _

theorem addU64_avoids {a b : UInt64} (h : .overflow = e → a.toNat + b.toNat < 2 ^ 64) :
    (addU64 a b).Avoids e :=
  (overflow_avoids h).bind fun _ _ => Except.avoids_pure _

theorem addI64_avoids {a b : Int64}
    (h : .overflow = e → -2 ^ 63 ≤ a.toInt + b.toInt ∧ a.toInt + b.toInt < 2 ^ 63) :
    (addI64 a b).Avoids e :=
  (overflow_avoids h).bind fun _ _ => Except.avoids_pure _

theorem subI64_avoids {a b : Int64}
    (h : .overflow = e → -2 ^ 63 ≤ a.toInt - b.toInt ∧ a.toInt - b.toInt < 2 ^ 63) :
    (subI64 a b).Avoids e :=
  (overflow_avoids h).bind fun _ _ => Except.avoids_pure _

theorem subU8_avoids {a b : UInt8} (h : .overflow = e → b.toNat ≤ a.toNat) : (subU8 a b).Avoids e :=
  (overflow_avoids h).bind fun _ _ => Except.avoids_pure _

theorem mintVoucherTokens_avoids {accs : MintVoucher} {uri : Text} {b : Business} (h : e.isOwn = true) :
    (mintVoucherTokens P tx accs uri b signers s).Avoids e :=
  (transferLamports_avoids h).bind fun _ _ => (invoke_avoids h).bind fun _ _ =>
    (invoke_avoids h).bind fun _ _ =>
    (invoke_avoids h).bind fun _ _ => invoke_avoids h

theorem burnAndCloseCardNft_avoids {card mint token destination : Address} {customer : Option Address}
    (h : e.isOwn = true) : (burnAndCloseCardNft tx signers card mint token customer destination s).Avoids
    e := by
  have hmint : ∀ s, (invokeClose signers s mint destination card).Avoids e := fun _ => invokeClose_avoids h
  unfold burnAndCloseCardNft
  refine .ite ((loadToken_avoids h).bind fun x _ => ?_) (hmint s)
  refine .ite ((invoke_avoids h).bind fun s _ => ?_) ?_
  all_goals
    refine .ite ((invokeClose_avoids h).bind fun s _ => hmint s) ?_
    split
    · exact (invokeClose_avoids h).bind fun s _ => hmint s
    · exact hmint _

end

end Passdari
