/-
One voucher, one token. The mint of a voucher and the voucher come and go
together, one token of it is about at most, and none outlasts the voucher,
however often its address is used again.
-/
import Passdari.Books.CleanUp

namespace Passdari

open Wire Token2022

variable {P : Platform} {s s' start : State} {hist : History} {c : Call} {cs : List Change}
  {calls : List TokenCall} {ps : List Payment} {V M X : Address} {v : Voucher} {m : Mint Address}
  {b : Address} {n : UInt64} {bump bump' : UInt8} {tx : Tx} {accs : MintVoucher} {voucherId : UInt64}
  {uri : Text}

theorem State.VoucherTokens.at_seeds (ht : s.VoucherTokens P) (hw : s.WellPlaced)
    (hM : findProgramAddress P (.voucherMint b n) = some (M, bump))
    (hV : findProgramAddress P (.voucher b n) = some (V, bump')) (hv : s.voucher? V = some v) :
    v.business = b ∧ v.voucherId = n ∧ v.mint = M := by
  have hat := (hw.voucher (State.voucher?_eq_some.mp hv)).symm.trans (findProgramAddress_eq hV)
  simp only [Address.voucher.injEq] at hat
  obtain ⟨rfl, rfl, -⟩ := hat
  obtain ⟨_, hf⟩ := ht.address V v hv
  rw [hM, Option.some.injEq] at hf
  exact ⟨rfl, rfl, (congrArg Prod.fst hf).symm⟩

theorem State.VoucherTokens.mint_live_iff (ht : s.VoucherTokens P) (hw : s.WellPlaced) (hn : s.Numbered P)
    (hM : findProgramAddress P (.voucherMint b n) = some (M, bump))
    (hV : findProgramAddress P (.voucher b n) = some (V, bump')) :
    (∃ m, s.tokens.mints.lookup M = some m) ↔ ∃ v, s.voucher? V = some v := by
  constructor
  · intro hex
    obtain ⟨m, hm⟩ := hex
    obtain ⟨V', v, hv, hmint⟩ := ht.live M m (by rw [findProgramAddress_eq hM]; rfl) hm
    obtain ⟨_, hf⟩ := ht.address V' v hv
    have hat := (findProgramAddress_eq hf).symm.trans (hmint.trans (findProgramAddress_eq hM))
    simp only [Address.voucherMint.injEq] at hat
    obtain ⟨⟨_, hf'⟩, -⟩ := hn V' v hv
    rw [hat.1, hat.2.1, hV, Option.some.injEq] at hf'
    obtain rfl : V = V' := congrArg Prod.fst hf'
    exact ⟨v, hv⟩
  · intro hex
    obtain ⟨v, hv⟩ := hex
    obtain ⟨-, -, rfl⟩ := ht.at_seeds hw hM hV hv
    obtain ⟨m, hm, -⟩ := ht.minted V v hv
    exact ⟨m, hm⟩

/-- Nothing is left of a voucher that is gone, and a live one is whole in one account. -/
theorem State.VoucherTokens.held_le (ht : s.VoucherTokens P) (hc : s.tokens.Conserved M)
    (hM : M.isVoucherMint = true) :
    s.tokens.held M ≤ 1 ∧ (s.tokens.mints.lookup M = none → s.tokens.held M = 0) := by
  rw [hc, Tokens.supply]
  cases hm : s.tokens.mints.lookup M with
  | none => exact ⟨Nat.zero_le 1, fun _ => rfl⟩
  | some m =>
    obtain ⟨V, v, hv, rfl⟩ := ht.live M m hM hm
    obtain ⟨m', hm', hvm⟩ := ht.minted V v hv
    rw [hm, Option.some.injEq] at hm'
    subst hm'
    exact ⟨hvm.supply, fun h => absurd h (by simp)⟩

/-- The mint of the voucher of shop `b` with number `n`, at `M`, while the voucher is at `V`. -/
structure OneToken (s : State) (M V : Address) : Prop where
  live_iff : (∃ m, s.tokens.mints.lookup M = some m) ↔ ∃ v, s.voucher? V = some v
  authorities : ∀ m, s.tokens.mints.lookup M = some m → m.mintAuthority = none ∧ m.freezeAuthority = some V ∧
    m.permanentDelegate = some V ∧ m.closeAuthority = some V
  supply : ∀ m, s.tokens.mints.lookup M = some m → m.supply ≤ 1 ∧ m.supply = s.tokens.held M
  unique : ∀ X Y, s.tokens.Carries M X → s.tokens.Carries M Y → X = Y
  gone : s.voucher? V = none → ∀ X, ¬s.tokens.Carries M X

theorem Run.oneToken (h : Run P start hist s) (hs : start.Empty)
    (hM : findProgramAddress P (.voucherMint b n) = some (M, bump))
    (hV : findProgramAddress P (.voucher b n) = some (V, bump')) : OneToken s M V := by
  have ht := h.voucherTokens hs
  have hw := h.wellPlaced hs.wellPlaced
  have hvm : M.isVoucherMint = true := by rw [findProgramAddress_eq hM]; rfl
  have hcons := h.conserved hs hvm
  obtain ⟨hle, hzero⟩ := ht.held_le hcons hvm
  have hlive := ht.mint_live_iff hw (h.numbered hs) hM hV
  have hobeys : ∀ m, s.tokens.mints.lookup M = some m → IsVoucherMint V m := by
    intro m hm
    obtain ⟨v, hv⟩ := hlive.mp ⟨m, hm⟩
    obtain ⟨-, -, hmint⟩ := ht.at_seeds hw hM hV hv
    obtain ⟨m', hm', hobeys⟩ := ht.minted V v hv
    rw [hmint, hm, Option.some.injEq] at hm'
    exact hm' ▸ hobeys
  refine ⟨hlive, fun m hm => ?_, fun m hm => ?_, fun X Y hX hY => hX.unique hY hle, fun hgone => ?_⟩
  · have ho := hobeys m hm
    exact ⟨ho.mintAuthority, ho.freezeAuthority, ho.permanentDelegate, ho.closeAuthority⟩
  · refine ⟨(hobeys m hm).supply, ?_⟩
    rw [hcons, Tokens.supply, hm]
    rfl
  · refine Tokens.held_eq_zero_iff.mp (hzero ?_)
    cases hm : s.tokens.mints.lookup M with
    | none => rfl
    | some m =>
      obtain ⟨v, hv⟩ := hlive.mp ⟨m, hm⟩
      rw [hgone] at hv
      cases hv

/-- A voucher is minted where nothing is left of an earlier one, into an account that is new. -/
theorem Step.minted_alone (ht : s.VoucherTokens P) (hc : s.tokens.Conserved accs.mint)
    (ht' : s'.VoucherTokens P)
    (hc' : s'.tokens.Conserved accs.mint)
    (h : Step P s ⟨tx, .program (.mintVoucher accs voucherId uri)⟩ s' cs calls ps) :
    (∀ X, ¬s.tokens.Carries accs.mint X) ∧ s.tokens.accounts.lookup accs.customerToken = none ∧
      ∀ X, s'.tokens.Carries accs.mint X ↔ X = accs.customerToken := by
  obtain ⟨hfree, hfree', _, hf⟩ := h.mintVoucher_free
  have hvm : accs.mint.isVoucherMint = true := by rw [findProgramAddress_eq hf]; rfl
  obtain ⟨-, hzero⟩ := ht.held_le hc hvm
  obtain ⟨hle, -⟩ := ht'.held_le hc' hvm
  obtain ⟨_, -, -, hx⟩ := h.minted
  have hmine : s'.tokens.Carries accs.mint accs.customerToken := ⟨_, hx, rfl, Nat.one_pos⟩
  refine ⟨Tokens.held_eq_zero_iff.mp (hzero (State.tokens_of_not_inUse hfree).1),
    (State.tokens_of_not_inUse hfree').2, fun X => ⟨fun hX => hX.unique hmine hle, ?_⟩⟩
  intro heq
  subst heq
  exact hmine

/-- **One voucher, one token.** The mint of a voucher is there while the voucher is, obeys it alone, and all
of its supply, a single token at most, is in one account. When the voucher ends nothing is left of it, and
what is minted at its address later is minted where nothing is left, into a new account. -/
theorem one_voucher_one_token (h : Run P start hist s) (hs : start.Empty)
    (hM : findProgramAddress P (.voucherMint b n) = some (M, bump))
    (hV : findProgramAddress P (.voucher b n) = some (V, bump')) :
    OneToken s M V ∧
    (∀ st ∈ hist, st.label.action.ends V → st.post.voucher? V = none ∧ ∀ X, ¬st.post.tokens.Carries M X) ∧
    ∀ st ∈ hist, ∀ accs voucherId uri, st.label.action = .program (.mintVoucher accs voucherId uri) →
    accs.mint = M →
      (∀ X, ¬st.pre.tokens.Carries M X) ∧ st.pre.tokens.accounts.lookup accs.customerToken = none ∧
        ∀ X, st.post.tokens.Carries M X ↔ X = accs.customerToken := by
  have hvm : M.isVoucherMint = true := by rw [findProgramAddress_eq hM]; rfl
  refine ⟨h.oneToken hs hM hV, ?_, ?_⟩
  · refine h.forall_steps fun {earlier st} hr hn hend => ?_
    obtain ⟨_, _, _, hst⟩ := hn.step (Run.wellPlaced hr hs.wellPlaced)
    have hgone := (hst.ended hend).2
    exact ⟨hgone, (Run.oneToken (hr.step hn) hs hM hV).gone hgone⟩
  · refine h.forall_steps fun {earlier st} hr hn accs voucherId uri hact hmint => ?_
    obtain ⟨_, _, _, hst⟩ := hn.step (Run.wellPlaced hr hs.wellPlaced)
    obtain ⟨pre, ⟨tx, action⟩, post⟩ := st
    subst hact hmint
    have hr' := hr.step hn
    exact hst.minted_alone (Run.voucherTokens hr hs) (Run.conserved hr hs hvm) (Run.voucherTokens hr' hs)
      (Run.conserved hr' hs hvm)

/-- The voucher of a customer who has just cashed in. -/
theorem one_voucher_one_token_cashed_in : ∃ hist s, Run Sample.platform Sample.start hist s ∧
    (s.voucher? (Sample.voucher 0)).isSome = true ∧ OneToken s (Sample.voucherMint 0) (Sample.voucher 0) := by
  obtain ⟨hist, s, hrun, -, hp⟩ := Leads.run (P := Sample.platform) (s := Sample.start)
    (l := [Sample.register 1000 1 0, Sample.issue 1010 7, Sample.claim 1020 9 7, Sample.cashIn 1030 9 0])
    (p := fun s => (s.voucher? (Sample.voucher 0)).isSome) (by decide +kernel)
  exact ⟨hist, s, hrun, hp,
    (one_voucher_one_token (b := Sample.shop) (n := 0) hrun Sample.start_empty rfl rfl).1⟩

end Passdari
