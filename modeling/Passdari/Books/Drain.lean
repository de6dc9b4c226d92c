/-
Bringing a shop's vouchers to an end. Each that has expired can be cleaned
up, one after the other and by anybody, exactly when the account with its
token is not blocked; no clean-up changes whether another is.
-/
import Passdari.Books.CleanUp

namespace Passdari

open Wire Token2022

variable {P : Platform} {tx : Tx} {s s' start : State} {hist later : History} {c : Call} {cs : List Change}
  {calls : List TokenCall} {ps : List Payment} {accs : CloseExpiredVoucher} {V V' X a : Address}
  {v v' : Voucher} {b : Business} {x : Account Address} {now : Int64}

/-! ## One clean-up -/

theorem cleanUp_not_inUse (hw : s.WellPlaced) (hok : closeExpiredVoucher P tx accs s = .ok s')
    (ha : ¬s.InUse a) : ¬s'.InUse a := by
  obtain ⟨cs, calls, ps, he, hch, hr, -, hforeign, -⟩ := closeExpiredVoucher_refined hw hok
  have hopen : ∀ k ∈ calls, (∀ m, k.op ≠ .initializeMint a m) ∧ ∀ mint owner io,
    k.op ≠ .initializeAccount a mint owner io := by
    cases he with
    | closeExpiredVoucher =>
      rw [List.forall_mem_append]
      exact ⟨forall_burnExpiredCalls (by simp) (by simp) (by simp), forall_closeMintCalls (by simp)⟩
  have hwritten : ∀ y ∈ cs, ∀ r, y.after = some r → ∃ q, y.before = some q := by
    cases he with
    | closeExpiredVoucher => simp
  obtain ⟨hmint, haccount⟩ := State.tokens_of_not_inUse ha
  rw [State.inUse_iff] at ha ⊢
  rw [hforeign]
  intro hor
  rcases hor with hp | ht | hrest
  · rcases hch.lookup a with ⟨-, hsame⟩ | ⟨y, hy, rfl, ⟨-, hgone⟩ | ⟨r, rest, hr, -, -⟩⟩
    · exact ha (.inl (hsame ▸ hp))
    · rw [hgone] at hp
      cases hp
    · obtain ⟨q, hq⟩ := hwritten y hy r hr
      obtain ⟨data, hd, -⟩ := Option.bind_eq_some_iff.mp ((hch.before y hy).trans hq)
      exact ha (.inl (by rw [hd]; rfl))
  · rcases ht with hm | hx
    · obtain ⟨m, hm⟩ := Option.isSome_iff_exists.mp (AList.lookup_isSome.mpr hm)
      obtain ⟨k, hk, m₀, hop⟩ := run_opens_mint hr hmint hm
      exact (hopen k hk).1 m₀ hop
    · obtain ⟨x, hx⟩ := Option.isSome_iff_exists.mp (AList.lookup_isSome.mpr hx)
      obtain ⟨y, hy, -⟩ := run_account_before hr hx fun k hk => (hopen k hk).2
      rw [haccount] at hy
      cases hy
  · exact ha (.inr (.inr hrest))

/-- The other vouchers stay as they are. -/
theorem Step.other_vouchers (h : Step P s ⟨tx, .program (.closeExpiredVoucher accs)⟩ s' cs calls ps)
    (hne : V ≠ accs.voucher) : s'.voucher? V = s.voucher? V := by
  rcases h.voucher V with hsame | hch
  · exact hsame
  generalize s.voucher? V = before, s'.voucher? V = after at hch
  cases hch with
  | expired hadr => exact absurd hadr.symm hne

theorem Step.other_accounts (ht : s.VoucherTokens P) (hn : s.Numbered P)
    (h : Step P s ⟨tx, .program (.closeExpiredVoucher accs)⟩ s' cs calls ps) (hne : V ≠ accs.voucher)
    (hv : s.voucher? V = some v) (hmint : x.mint = v.mint) :
    s'.tokens.accounts.lookup X = some x ↔ s.tokens.accounts.lookup X = some x := by
  have hplaced := h.placed_accounts ht.accounts
  obtain ⟨he, -, hr, -⟩ := h
  cases he with
  | @closeExpiredVoucher _ _ v₁ m _ _ holder hv₁ _ _ _ hvm _ _ _ _ hy hymint =>
    have hother : v.mint ≠ accs.mint := fun hm =>
      hne (ht.mint_inj hn (State.voucher?_eq_some.mpr hv₁) hv (hm.trans hvm.symm))
    have hM : accs.mint.isVoucherMint = true := hvm ▸ ht.isVoucherMint (State.voucher?_eq_some.mpr hv₁)
    -- no account touched is one of this mint, before or after
    by_cases hX : X = accs.mint ∨ X = accs.holderToken ∧ holder ≠ none
    · constructor <;> intro hx
      · rcases hX with rfl | ⟨rfl, hsome⟩
        · rw [hplaced.not_mint hM] at hx
          cases hx
        · obtain ⟨y, hy', hym⟩ := run_account_before hr hx (by
            rw [List.forall_mem_append]
            exact ⟨forall_burnExpiredCalls (by simp) (by simp) (by simp), forall_closeMintCalls (by simp)⟩)
          rw [hy] at hy'
          exact absurd (hmint.symm.trans (hym.symm.trans (hymint y hy'))) hother
      · rcases hX with rfl | ⟨rfl, hsome⟩
        · rw [ht.accounts.not_mint hM] at hx
          cases hx
        · rw [hy] at hx
          exact absurd (hmint.symm.trans (hymint x hx)) hother
    · rw [not_or, not_and, not_not] at hX
      obtain ⟨hXM, hXH⟩ := hX
      rw [(run_frame (a := X) hr ?_).2]
      rw [List.forall_mem_append]
      refine ⟨?_, forall_closeMintCalls (by simpa [Op.touched] using hXM)⟩
      cases holder with
      | none => simp [burnExpiredCalls]
      | some y =>
        have hXne : X ≠ accs.holderToken := fun he => by cases hXH he
        exact forall_burnExpiredCalls (by simpa [Op.touched] using hXne) (by simp [Op.touched, hXne, hXM])
          (by simpa [Op.touched] using hXne)

theorem Step.other_blocked (ht : s.VoucherTokens P) (hn : s.Numbered P)
    (h : Step P s ⟨tx, .program (.closeExpiredVoucher accs)⟩ s' cs calls ps) (hne : V ≠ accs.voucher)
    (hv : s.voucher? V = some v) : Blocked s' V v ↔ Blocked s V v := by
  constructor
  · intro hex
    obtain ⟨X, x, hx, hmint, hrest⟩ := hex
    exact ⟨X, x, (h.other_accounts ht hn hne hv hmint).mp hx, hmint, hrest⟩
  · intro hex
    obtain ⟨X, x, hx, hmint, hrest⟩ := hex
    exact ⟨X, x, (h.other_accounts ht hn hne hv hmint).mpr hx, hmint, hrest⟩

/-- What a clean-up of the voucher at `V` leaves: no voucher, no mint, and one less in the shop's count. -/
structure CleanedUp (s s' : State) (V : Address) (v : Voucher) : Prop where
  voucher : s'.voucher? V = none
  mint : s'.tokens.mints.lookup v.mint = none
  counted : ∃ b b', s.business? v.business = some b ∧ s'.business? v.business = some b' ∧
    b'.openVouchers.toNat + 1 = b.openVouchers.toNat

theorem Step.cleanedUp (hrun : Run P start hist s) (hs : start.Empty)
    (h : Step P s ⟨tx, .program (.closeExpiredVoucher accs)⟩ s' cs calls ps)
    (hv : s.voucher? accs.voucher = some v) :
    CleanedUp s s' accs.voucher v := by
  obtain ⟨b, v₁, hb, hv₁, hbus, -, hgone, hb'⟩ := h.closeExpiredVoucher
  rw [hv, Option.some.injEq] at hv₁
  subst hv₁
  refine ⟨hgone, h.mint_closed (hrun.voucherTokens hs) hv (.inr ⟨accs, rfl, rfl⟩), b, _, hbus ▸ hb,
    hbus ▸ hb', ?_⟩
  obtain ⟨x, hx, hpos⟩ := hrun.business_of_voucher hs hv
  rw [hbus, hb, Option.some.injEq] at hx
  subst hx
  exact toNat_satSub_one hpos

/-! ## One after the other -/

/-- Every step cleans up a voucher at the time `now`, and nobody signs it. -/
def CleanUps (now : Int64) (hist : History) : Prop :=
  ∀ st ∈ hist, ∃ accs, st.label = ⟨⟨now, []⟩, .program (.closeExpiredVoucher accs)⟩

/-- Every voucher of the shop has expired, and the wallet that paid for it can be paid back. -/
def Due (now : Int64) (s : State) (a : Address) : Prop :=
  ∀ V v, s.voucher? V = some v → v.business = a → v.expiresAt < now ∧ ¬s.InUse v.rentPayer

def Free (s : State) (a : Address) : Prop := ∀ V v, s.voucher? V = some v → v.business = a → ¬Blocked s V v

theorem State.exists_voucher (h : 0 < s.liveVouchers a) : ∃ V v, s.voucher? V = some v ∧ v.business = a := by
  obtain ⟨V, r, hr, hw⟩ := State.exists_of_total_pos h
  cases r with
  | voucher v =>
    simp only [voucherOf] at hw
    split at hw
    · next hbus => exact ⟨V, v, State.voucher?_eq_some.mpr hr, hbus⟩
    · exact absurd hw (Nat.lt_irrefl 0)
  | _ => exact absurd hw (Nat.lt_irrefl 0)

theorem Run.drained (hs : start.Empty) {n : Nat} (hrun : Run P start hist s) (hb : s.business? a = some b)
    (hn : b.openVouchers.toNat = n) (hdue : Due now s a) (hfree : Free s a) :
    ∃ later s' b', Run P s later s' ∧ CleanUps now later ∧ s'.business? a = some b' ∧
      b'.openVouchers = 0 := by
  induction n generalizing hist s b with
  | zero => exact ⟨[], s, b, .nil, (fun _ h => by cases h), hb, UInt32.toNat_inj.mp hn⟩
  | succ n ih =>
    have hlive : 0 < s.liveVouchers a := by
      rw [hrun.openVouchers hs, State.figure_of_some hb, hn]
      exact Nat.succ_pos n
    obtain ⟨V, v, hv, rfl⟩ := State.exists_voucher hlive
    obtain ⟨hexp, hpayer⟩ := hdue V v hv rfl
    obtain ⟨m, hl⟩ := hrun.live hs hv hb
    obtain ⟨holderToken, s₁, hok⟩ := hl.closeExpired_ok ⟨now, []⟩ hpayer hexp (hfree V v hv rfl)
    have hnext : Next P s ⟨⟨now, []⟩, .program (.closeExpiredVoucher (v.cleanUp V holderToken))⟩ s₁ :=
      ⟨(by simp), hok⟩
    obtain ⟨cs, calls, ps, hst⟩ := hnext.step hl.placed
    obtain ⟨hgone, -, b₀, b₁, hb₀, hb₁, hcount⟩ := hst.cleanedUp hrun hs hv
    rw [hb, Option.some.injEq] at hb₀
    subst hb₀
    have hbefore : ∀ {W w}, s₁.voucher? W = some w → W ≠ V ∧ s.voucher? W = some w := by
      intro W w hw'
      have hne : W ≠ V := by
        intro heq
        subst heq
        rw [hgone] at hw'
        cases hw'
      exact ⟨hne, (hst.other_vouchers hne).symm.trans hw'⟩
    obtain ⟨later, s', b', hlater, hall, hb', h0⟩ := ih (hrun.step hnext) hb₁ (by omega)
      (fun W w hw' hbus => by
        obtain ⟨hexp, hpayer⟩ := hdue W w (hbefore hw').2 hbus
        exact ⟨hexp, cleanUp_not_inUse hl.placed hok hpayer⟩)
      (fun W w hw' hbus hblock => by
        obtain ⟨hne, hw⟩ := hbefore hw'
        exact hfree W w hw hbus ((hst.other_blocked hl.tokens (hrun.numbered hs) hne hw).mp hblock))
    refine ⟨later ++ [⟨s, _, s₁⟩], s', b', (Runs.Run.nil.step hnext).append hlater, ?_, hb', h0⟩
    intro st hmem
    rcases List.mem_append.mp hmem with hmem | hmem
    · exact hall st hmem
    · rw [List.mem_singleton.mp hmem]
      exact ⟨_, rfl⟩

/-- A blocked voucher outlasts every clean-up. -/
theorem Run.blocked_stays (hrun : Run P start hist s) (hs : start.Empty) (hlater : Run P s later s')
    (hall : CleanUps now later) (hv : s.voucher? V = some v) (hblock : Blocked s V v) :
    s'.voucher? V = some v ∧ Blocked s' V v := by
  have hw := hrun.wellPlaced hs.wellPlaced
  refine (hlater.induct (I := fun later s' => CleanUps now later → s'.voucher? V = some v ∧ Blocked s' V v) hw
    (fun _ => ⟨hv, hblock⟩) ?_).2 hall
  intro mid s₁ c s₂ cs calls ps hmid hw₁ hi hst hall
  obtain ⟨hv₁, hblock₁⟩ := hi fun st hmem => hall st (List.mem_cons_of_mem _ hmem)
  obtain ⟨accs, hlabel⟩ := hall _ List.mem_cons_self
  have hlabel : c = _ := hlabel
  subst hlabel
  have hrun₁ := Runs.Run.append hrun hmid
  have hne : V ≠ accs.voucher := by
    intro heq
    subst heq
    obtain ⟨b, hb, -⟩ := Run.business_of_voucher hrun₁ hs hv₁
    obtain ⟨m, hl⟩ := Run.live hrun₁ hs hv₁ hb
    exact hl.free_of_expired hst.effect hblock₁
  exact ⟨(hst.other_vouchers hne).trans hv₁,
    (hst.other_blocked (Run.voucherTokens hrun₁ hs) (Run.numbered hrun₁ hs) hne hv₁).mpr hblock₁⟩

theorem Run.drains_iff (hrun : Run P start hist s) (hs : start.Empty) (hb : s.business? a = some b)
    (hdue : Due now s a) :
    (∃ later s' b', Run P s later s' ∧ CleanUps now later ∧ s'.business? a = some b' ∧
      b'.openVouchers = 0) ↔ Free s a := by
  constructor
  · intro hex
    obtain ⟨later, s', b', hlater, hall, hb', h0⟩ := hex
    intro V v hv heq
    subst heq
    intro hblock
    obtain ⟨hv', -⟩ := hrun.blocked_stays hs hlater hall hv hblock
    obtain ⟨x, hx, hpos⟩ := Run.business_of_voucher (Runs.Run.append hrun hlater) hs hv'
    rw [hb', Option.some.injEq] at hx
    subst hx
    rw [h0] at hpos
    exact absurd hpos (Nat.lt_irrefl 0)
  · exact Run.drained hs hrun hb rfl hdue

/-! ## The whole -/

theorem Run.business_seeds (hrun : Run P start hist s) (hs : start.Empty) (hb : s.business? a = some b) :
    createProgramAddress P (.business b.authority) b.bump = some a := by
  have hb := State.business?_eq_some.mp hb
  exact createProgramAddress_eq_some.mpr
    ⟨hrun.offCurve hs _ _ hb, (hrun.wellPlaced hs.wellPlaced).business hb⟩

/-- **When a voucher can be brought to an end.** -/
theorem voucher_ends_iff (hrun : Run P start hist s) (hs : start.Empty) :
    (∀ V v, s.voucher? V = some v → ¬s.InUse v.rentPayer →
      (∀ tx : Tx, (∀ a ∈ tx.signers, a.canSign = true) → v.expiresAt < tx.now →
        ((∃ holderToken s', closeExpiredVoucher P tx (v.cleanUp V holderToken) s = .ok s' ∧
          CleanedUp s s' V v) ↔ ¬Blocked s V v)) ∧
      ∀ (tx : Tx) b relayer X x, (∀ a ∈ tx.signers, a.canSign = true) → tx.now ≤ v.expiresAt →
        s.business? v.business = some b → b.authority ∈ tx.signers → relayer ∈ tx.signers →
        s.tokens.accounts.lookup X = some x → x.mint = v.mint → 0 < x.amount → x.frozen = true →
        ((∃ s', redeemVoucher P tx (v.redemption V X b.authority relayer) s = .ok s') ↔
          ¬Blocked s V v ∧ b.totalRedemptions.toNat + 1 < 2 ^ 32)) ∧
    ∀ a b now, s.business? a = some b → Due now s a →
      ((∃ later s' b', Run P s later s' ∧ CleanUps now later ∧ s'.business? a = some b' ∧
        b'.openVouchers = 0) ↔ Free s a) := by
  refine ⟨fun V v hv hpayer => ?_, fun a b now hb hdue => hrun.drains_iff hs hb hdue⟩
  obtain ⟨b, hb, -⟩ := hrun.business_of_voucher hs hv
  obtain ⟨m, hl⟩ := hrun.live hs hv hb
  refine ⟨fun tx hsig hexp => ⟨?_, fun hfree => ?_⟩,
    fun tx b' relayer X x hsig hexp hb' hauth hrel hx hmint hpos hf => ?_⟩
  · intro hex
    obtain ⟨holderToken, s', hok, -⟩ := hex
    obtain ⟨_, _, _, he, -⟩ := closeExpiredVoucher_refined hl.placed hok
    exact hl.free_of_expired he
  · obtain ⟨holderToken, s', hok⟩ := hl.closeExpired_ok tx hpayer hexp hfree
    have hnext : Next P s ⟨tx, .program (.closeExpiredVoucher (v.cleanUp V holderToken))⟩ s' := ⟨hsig, hok⟩
    obtain ⟨_, _, _, hst⟩ := hnext.step hl.placed
    exact ⟨holderToken, s', hok, hst.cleanedUp hrun hs hv⟩
  · rw [hb, Option.some.injEq] at hb'
    subst hb'
    constructor
    · intro hex
      obtain ⟨s', hok⟩ := hex
      obtain ⟨_, _, _, he, -⟩ := redeemVoucher_refined hl.placed hok
      refine ⟨hl.free_of_redeemed he, ?_⟩
      cases he with
      | redeemVoucher hb₁ _ _ _ _ _ _ _ _ _ _ _ _ _ _ _ _ _ _ htotal =>
        have hb₁ := State.business?_eq_some.mpr hb₁
        rw [hb, Option.some.injEq] at hb₁
        subst hb₁
        have := addU32_eq_ok.mp htotal
        exact this ▸ UInt32.toNat_lt _
    · intro hex
      obtain ⟨hfree, hcount⟩ := hex
      exact hl.redeem_ok hpayer (hrun.business_seeds hs hb) hauth hrel hexp hx hmint hpos hf hfree hcount

/-- A customer turns on the guard of the account the voucher came in; while it is on, nobody can clean the
voucher up. -/
theorem voucher_blocked : ∃ hist s v, Run Sample.platform Sample.start hist s ∧
    s.voucher? (Sample.voucher 0) = some v ∧ ¬s.InUse v.rentPayer ∧
    ∀ tx : Tx, v.expiresAt < tx.now → ∀ holderToken s',
      closeExpiredVoucher Sample.platform tx (v.cleanUp (Sample.voucher 0) holderToken) s ≠ .ok s' := by
  obtain ⟨hist, s, hrun, -, hp⟩ := Leads.run (P := Sample.platform) (s := Sample.start)
    (l := [Sample.register 1000 1 0, Sample.issue 1010 7, Sample.claim 1020 9 7, Sample.cashIn 1030 9 0,
      ⟨⟨1040, [Sample.key 9]⟩,
        .wallet (.token (.cpiGuard (Sample.voucherToken 9 0) (Sample.key 9) true) false)⟩])
    (p := fun s => (s.voucher? (Sample.voucher 0)).any fun v : Voucher => decide (¬s.InUse v.rentPayer) &&
      (s.tokens.accounts.lookup (Sample.voucherToken 9 0)).any fun x : Account Address =>
        x.mint = v.mint ∧ 0 < x.amount ∧ x.closeAuthority = some (Sample.voucher 0) ∧ x.cpiGuard = true ∧
          x.owner ≠ v.rentPayer) (by decide +kernel)
  simp only [Option.any_eq_true, Bool.and_eq_true, decide_eq_true_eq] at hp
  obtain ⟨v, hv, hpayer, x, hx, hblock⟩ := hp
  refine ⟨hist, s, v, hrun, hv, hpayer, fun tx _ holderToken s' hok => ?_⟩
  obtain ⟨b, hb, -⟩ := Run.business_of_voucher hrun Sample.start_empty hv
  obtain ⟨m, hl⟩ := Run.live hrun Sample.start_empty hv hb
  obtain ⟨_, _, _, he, -⟩ := closeExpiredVoucher_refined hl.placed hok
  exact hl.free_of_expired he ⟨_, x, hx, hblock⟩

/-- A voucher in an account nobody guarded is cleaned up when it has expired. -/
theorem voucher_ends_iff_unguarded : ∃ hist s v, Run Sample.platform Sample.start hist s ∧
    s.voucher? (Sample.voucher 0) = some v ∧ ∃ holderToken s',
      closeExpiredVoucher Sample.platform ⟨9000000, []⟩ (v.cleanUp (Sample.voucher 0) holderToken) s =
        .ok s' ∧ CleanedUp s s' (Sample.voucher 0) v := by
  obtain ⟨hist, s, hrun, -, hp⟩ := Leads.run (P := Sample.platform) (s := Sample.start)
    (l := [Sample.register 1000 1 0, Sample.issue 1010 7, Sample.claim 1020 9 7, Sample.cashIn 1030 9 0])
    (p := fun s => (s.voucher? (Sample.voucher 0)).any (fun v : Voucher => decide (¬s.InUse v.rentPayer) &&
      decide (v.expiresAt < 9000000)) && s.tokens.accounts.entries.all fun e => !e.2.cpiGuard)
      (by decide +kernel)
  simp only [Bool.and_eq_true, Option.any_eq_true, decide_eq_true_eq, List.all_eq_true, Bool.not_eq_true']
    at hp
  obtain ⟨⟨v, hv, hpayer, hexp⟩, hoff⟩ := hp
  refine ⟨hist, s, v, hrun, hv, ?_⟩
  refine ((voucher_ends_iff hrun Sample.start_empty).1 _ v hv hpayer).1 ⟨9000000, []⟩ (by simp) hexp |>.mpr ?_
  intro hex
  obtain ⟨X, x, hx, -, -, -, hg, -⟩ := hex
  have hguard := hoff _ (Store.mem_entries_of_lookup hx)
  cases hguard.symm.trans hg

end Passdari
