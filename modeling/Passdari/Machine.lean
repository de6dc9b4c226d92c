/-
The program at work: its instructions, what a wallet can do next to them,
and runs of both in any order, by anybody.

A wallet moves lamports, opens mints and token accounts, uses everything the
token program offers, directly or through another program, and may hand an
address it holds over to another program. What it cannot do is sign for a
derived address.
-/
import Passdari.Instructions.Migrations
import Passdari.Instructions.Vouchers
import Passdari.Lib.Runs

namespace Passdari

open Wire Token2022

inductive Instruction
  | initializeCounter (accs : Initialize)
  | registerBusiness (accs : RegisterBusiness) (args : RegisterBusinessArgs)
  | updateBusinessConfig (accs : UpdateBusinessConfig) (args : UpdateBusinessConfigArgs)
  | issueReceipt (accs : IssueReceipt) (secretHash : Bytes32) (amountBand : UInt8)
  | claimReceipt (accs : ClaimReceipt) (secret : Bytes32)
  | mintCardNft (accs : MintCardNft) (uri : Text)
  | mintVoucher (accs : MintVoucher) (voucherId : UInt64) (uri : Text)
  | transferStamps (accs : TransferStamps) (amount : UInt8)
  | transferVoucher (accs : TransferVoucher)
  | presentVoucher (accs : PresentVoucher)
  | cancelPresentation (accs : CancelPresentation)
  | redeemVoucher (accs : RedeemVoucher)
  | reclaimExpiredReceipt (accs : ReclaimExpiredReceipt)
  | closeExpiredVoucher (accs : CloseExpiredVoucher)
  | closeDeadCard (accs : CloseDeadCard)
  | closeBusiness (accs : CloseBusiness)
  | migrateCard (accs : MigrateCard)
  | migrateBusiness (accs : MigrateBusiness)
  | retireIdleCardNft (accs : RetireIdleCardNft)

inductive WalletAction
  | pay (source dest : Address) (amount : Nat)
  /-- The address is assigned to another program. -/
  | handOver (a : Address)
  | openMint (payer mint : Address) (rent : Nat) (m : Mint Address)
  /-- At a key that signs, or at the associated address of the owner and the mint. -/
  | openToken (payer account mint owner : Address) (immutableOwner : Bool) (rent : Nat)
  | closeToken (account dest authority : Address) (cpi : Bool)
  /-- Any other token instruction. -/
  | token (op : Op Address) (cpi : Bool)

inductive Action
  | program (i : Instruction)
  | wallet (w : WalletAction)

structure Call where
  tx : Tx
  action : Action

/-- A token instruction that opens and closes nothing. -/
def opensNothing : Op Address → Bool
  | .initializeMint .. | .initializeAccount .. | .close .. => false
  | _ => true

variable (P : Platform)

/-- The dispatch of the program's entry point. -/
def process (tx : Tx) (i : Instruction) (s : State) : Except Failure State :=
  match i with
  | .initializeCounter accs => initializeHandler P tx accs s
  | .registerBusiness accs args => registerBusiness P tx accs args s
  | .updateBusinessConfig accs args => updateBusinessConfig P tx accs args s
  | .issueReceipt accs secretHash amountBand => issueReceipt P tx accs secretHash amountBand s
  | .claimReceipt accs secret => claimReceipt P tx accs secret s
  | .mintCardNft accs uri => mintCardNft P tx accs uri s
  | .mintVoucher accs voucherId uri => mintVoucher P tx accs voucherId uri s
  | .transferStamps accs amount => transferStamps tx accs amount s
  | .transferVoucher accs => transferVoucher P tx accs s
  | .presentVoucher accs => presentVoucher P tx accs s
  | .cancelPresentation accs => cancelPresentation P tx accs s
  | .redeemVoucher accs => redeemVoucher P tx accs s
  | .reclaimExpiredReceipt accs => reclaimExpiredReceipt tx accs s
  | .closeExpiredVoucher accs => closeExpiredVoucher P tx accs s
  | .closeDeadCard accs => closeDeadCard P tx accs s
  | .closeBusiness accs => closeBusiness P tx accs s
  | .migrateCard accs => migrateCard P tx accs s
  | .migrateBusiness accs => migrateBusiness P tx accs s
  | .retireIdleCardNft accs => retireIdleCardNft P tx accs s

/-- What a wallet does, with the signatures of `tx`. -/
def act (tx : Tx) (w : WalletAction) (s : State) : Except Failure State :=
  match w with
  | .pay source dest amount => transferLamports tx s .plain source dest amount
  | .handOver a => do
    check (a ∈ tx.signers) (.system .missingRequiredSignature)
    check (¬s.InUse a) (.system .accountAlreadyInUse)
    pure { s with foreign := a :: s.foreign }
  | .openMint payer mint rent m => do
    check (mint ∈ tx.signers) (.system .missingRequiredSignature)
    let s ← createAddress tx s .plain payer mint rent
    let t ← liftToken (exec ⟨tx.signers, false⟩ s.tokens (.initializeMint mint m))
    pure { s with tokens := t }
  | .openToken payer account mint owner immutableOwner rent => do
    check (account ∈ tx.signers ∨ account = .ata owner mint ∧ immutableOwner = true)
      (.system .missingRequiredSignature)
    let s ← createAddress tx s .plain payer account rent
    let t ← liftToken (exec ⟨tx.signers, false⟩ s.tokens
      (.initializeAccount account mint owner immutableOwner))
    pure { s with tokens := t }
  | .closeToken account dest authority cpi => do
    let t ← liftToken (exec ⟨tx.signers, cpi⟩ s.tokens (.close account dest authority))
    pure { s.move .withdraw account dest (s.lamports account) with tokens := t }
  | .token op cpi => do
    check (opensNothing op = true) (.token .invalidAccountData)
    let t ← liftToken (exec ⟨tx.signers, cpi⟩ s.tokens op)
    pure { s with tokens := t }

def perform (c : Call) (s : State) : Except Failure State :=
  match c.action with
  | .program i => process P c.tx i s
  | .wallet w => act c.tx w s

/-- One step: a call that succeeds, signed only by addresses that can sign. -/
def Next (s : State) (c : Call) (s' : State) : Prop :=
  (∀ a ∈ c.tx.signers, a.canSign = true) ∧ perform P c s = .ok s'

/-- A step taken: the state before it, the call, the state after it. -/
abbrev Taken := Runs.Step State Call

abbrev History := Runs.History State Call

/-- The calls of `hist`, newest first, lead from `start` to `s`. -/
abbrev Run := Runs.Run (Next P)

/-- An empty program state: the program owns nothing, and what others have made so far is at keys, or is
an associated token account, and of mints at keys. -/
structure State.Empty (s : State) : Prop where
  program : ∀ a, s.program.lookup a = none
  mints : ∀ {a m}, s.tokens.mints.lookup a = some m → ∃ k, a = .key k
  accounts : ∀ {a x}, s.tokens.accounts.lookup a = some x →
    (∃ k, x.mint = .key k) ∧ ((∃ k, a = .key k) ∨ ∃ owner, a = .ata owner x.mint)
  foreign : ∀ a ∈ s.foreign, ∃ k, a = .key k
  journal : s.journal = []

/-- The clock never runs backwards. -/
def ClockKept (hist : History) : Prop :=
  hist.Pairwise fun newer older => older.label.tx.now.toInt ≤ newer.label.tx.now.toInt

/-- The clock never runs backwards, and starts at zero or later. -/
def ClockForward (hist : History) : Prop := (∀ st ∈ hist, 0 ≤ st.label.tx.now.toInt) ∧ ClockKept hist

theorem ClockKept.of_calls {hist : History} {l : List Call} (h : hist.map (fun st => st.label) = l)
    (hp : l.Pairwise fun newer older => older.tx.now.toInt ≤ newer.tx.now.toInt) : ClockKept hist := by
  subst h
  exact List.pairwise_map.mp hp

theorem ClockForward.of_calls {hist : History} {l : List Call} (h : hist.map (fun st => st.label) = l)
    (h0 : ∀ c ∈ l, 0 ≤ c.tx.now.toInt)
    (hp : l.Pairwise fun newer older => older.tx.now.toInt ≤ newer.tx.now.toInt) : ClockForward hist := by
  refine ⟨fun st hst => h0 _ ?_, .of_calls h hp⟩
  rw [← h]
  exact List.mem_map_of_mem hst

/-- A call later than all others leaves the clock going forward. -/
theorem ClockForward.cons {hist : History} {st : Taken} (h : ClockForward hist)
    (h0 : 0 ≤ st.label.tx.now.toInt)
    (hle : ∀ older ∈ hist, older.label.tx.now.toInt ≤ st.label.tx.now.toInt) : ClockForward (st :: hist) :=
  ⟨List.forall_mem_cons.mpr ⟨h0, h.1⟩, List.pairwise_cons.mpr ⟨hle, h.2⟩⟩

/-! ## Calls one after the other -/

/-- The state after the calls, when all of them succeed. -/
def runCalls (s : State) : List Call → Except Failure State
  | [] => .ok s
  | c :: calls => do runCalls (← perform P c s) calls

/-- Whether all signers of the calls can sign, all calls succeed, and `p` holds in the end. -/
def Leads (s : State) (calls : List Call) (p : State → Bool) : Bool :=
  calls.all (fun c => c.tx.signers.all Address.canSign) && (runCalls P s calls).toOption.any p

variable {P}

theorem Run.of_runCalls : ∀ {calls : List Call} {start s s' : State} {hist : History}, Run P start hist s →
    (∀ c ∈ calls, ∀ a ∈ c.tx.signers, a.canSign = true) → runCalls P s calls = .ok s' →
    ∃ later, Run P start (later ++ hist) s' ∧ later.map (fun st => st.label) = calls.reverse
  | [], start, s, s', hist, hr, _, h => by
    cases h
    exact ⟨[], hr, rfl⟩
  | c :: calls, start, s, s', hist, hr, hsig, h => by
    obtain ⟨mid, hmid, hrest⟩ := Except.bind_eq_ok.mp h
    have hnext : Next P s c mid := ⟨hsig c List.mem_cons_self, hmid⟩
    obtain ⟨later, hrun, hcalls⟩ :=
      Run.of_runCalls (hr.step hnext) (fun c hc => hsig c (List.mem_cons_of_mem _ hc)) hrest
    refine ⟨later ++ [⟨s, c, mid⟩], ?_, ?_⟩
    · rwa [List.append_assoc]
    · rw [List.map_append, hcalls, List.reverse_cons]
      rfl

theorem Leads.run {s : State} {l : List Call} {p : State → Bool} (h : Leads P s l p = true) :
    ∃ hist s', Run P s hist s' ∧ hist.map (fun st => st.label) = l.reverse ∧ p s' = true := by
  simp only [Leads, Bool.and_eq_true, List.all_eq_true, Option.any_eq_true] at h
  obtain ⟨hsig, s', hs', hp⟩ := h
  have hok : runCalls P s l = .ok s' := by
    cases hr : runCalls P s l with
    | error e => rw [hr] at hs'; cases hs'
    | ok x => rw [hr] at hs'; cases hs'; rfl
  obtain ⟨hist, hrun, hcalls⟩ := Run.of_runCalls (Runs.Run.nil : Run P s [] s) hsig hok
  rw [List.append_nil] at hrun
  exact ⟨hist, s', hrun, hcalls, hp⟩

theorem Leads.step {s : State} {c : Call} {p : State → Bool} (h : Leads P s [c] p = true) :
    ∃ s', Next P s c s' ∧ p s' = true := by
  obtain ⟨hist, s', hrun, hcalls, hp⟩ := Leads.run h
  obtain ⟨st, rfl⟩ := List.length_eq_one_iff.mp (by simpa using congrArg List.length hcalls)
  obtain ⟨hnil, hnext, rfl⟩ := hrun.cons_inv
  simp only [List.map_cons, List.map_nil, List.reverse_cons, List.reverse_nil, List.nil_append,
    List.cons.injEq, and_true] at hcalls
  exact ⟨st.post, hnil.nil_inv ▸ hcalls ▸ hnext, hp⟩

/-! ## A small chain to try calls on -/

namespace Sample

/-- Every address is off the curve, rent is one lamport a byte, and a hash is its own preimage. -/
def platform : Platform := ⟨id, fun _ => true, id⟩

def key (n : UInt8) : Address := .key ⟨n :: List.replicate 31 0, rfl⟩

def hash (n : UInt8) : Bytes32 := ⟨n :: List.replicate 31 0, rfl⟩

/-- Nothing on it but the lamports of those who can sign. -/
def start : State := ⟨∅, ⟨∅, ∅⟩, [], fun a => if a.canSign then 1000000 else 0, []⟩

theorem start_empty : start.Empty where
  program _ := rfl
  mints h := by cases h
  accounts h := by cases h
  foreign _ h := by cases h
  journal := rfl

/-- The shop of `key 1`; `key 2` relays for it. -/
def shop : Address := .business (key 1) 255

def call (now : Int64) (signers : List Address) (i : Instruction) : Call := ⟨⟨now, signers⟩, .program i⟩

def name : Text := ⟨"Cafe", by decide⟩
def category : Text := ⟨"Food", by decide⟩
def rewardLabel : Text := ⟨"Free coffee", by decide⟩
def currency : Text := ⟨"EUR", by decide⟩
def uri : Text := ⟨"u", by decide⟩

def register (now : Int64) (stampsRequired : UInt8) (termsLockedUntil : Int64) : Call :=
  call now [key 1, key 2] (.registerBusiness ⟨shop, key 1, key 2⟩
    ⟨name, category, rewardLabel, stampsRequired, 0, currency, 600, termsLockedUntil⟩)

def update (now : Int64) (stampsRequired : UInt8) (termsLockedUntil : Int64) : Call :=
  call now [key 1] (.updateBusinessConfig ⟨shop, key 1⟩
    ⟨rewardLabel, stampsRequired, 0, 600, termsLockedUntil⟩)

def issue (now : Int64) (n : UInt8) : Call :=
  call now [key 1, key 2] (.issueReceipt ⟨shop, .receipt shop (hash n) 255, key 1, key 2⟩ (hash n) 1)

def card (c : UInt8) : Address := .card shop (key c) 255

/-- The customer is `key c`. -/
def claim (now : Int64) (c n : UInt8) : Call :=
  call now [key c, key 2]
    (.claimReceipt ⟨shop, .receipt shop (hash n) 255, card c, key c, key 2, key 2⟩ (hash n))

/-- The card of the customer `key c` gets its NFT, which `relayer` pays for. -/
def mintNft (now : Int64) (c : UInt8) (relayer : Address) : Call :=
  call now [key c, relayer] (.mintCardNft
    { business := shop, card := card c, mint := .cardMint (card c) 0 255,
      customerToken := .ata (key c) (.cardMint (card c) 0 255), customer := key c, relayer := relayer } uri)

def voucher (id : UInt64) : Address := .voucher shop id 255
def voucherMint (id : UInt64) : Address := .voucherMint shop id 255

/-- The account the customer `key c` gets the voucher `id` in. -/
def voucherToken (c : UInt8) (id : UInt64) : Address := .ata (key c) (voucherMint id)

/-- The customer `key c` cashes in; the card has no NFT. -/
def cashIn (now : Int64) (c : UInt8) (id : UInt64) : Call :=
  call now [key c, key 2] (.mintVoucher
    { business := shop, card := card c, voucher := voucher id, mint := voucherMint id,
      customerToken := voucherToken c id, cardMint := .cardMint (card c) 0 255,
      cardToken := .ata (key c) (.cardMint (card c) 0 255), cardRentPayer := key 2, customer := key c,
      relayer := key 2 } id uri)

/-- The customer presents the voucher, and the shop redeems it. -/
def present (now : Int64) (c : UInt8) (id : UInt64) : Call :=
  call now [key c] (.presentVoucher ⟨voucher id, voucherMint id, voucherToken c id, key c⟩)

def redeem (now : Int64) (c : UInt8) (id : UInt64) : Call :=
  call now [key 1, key 2]
    (.redeemVoucher ⟨shop, voucher id, voucherMint id, voucherToken c id, key 1, key 2, key 2⟩)

/-- Anybody closes the card of the customer `key c`, and the shop itself. -/
def closeCard (now : Int64) (c : UInt8) : Call :=
  call now [] (.closeDeadCard ⟨card c, shop, .cardMint (card c) 0 255, key 2⟩)

def closeShop (now : Int64) : Call := call now [] (.closeBusiness ⟨shop, key 2⟩)

end Sample

end Passdari
