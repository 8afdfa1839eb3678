import MppSdk.TsQuoteAllowlist

/-! # The Rust and the TypeScript verifier

Both servers check a transaction before they sign and broadcast it, in a different order:
where one throws at an index, another instruction or a missing field, the other goes on, and
rejects later.  Every payment that is read differently fits nothing, so the allowlists turn it
away.  `verifiers_agree`: on every request both can read, they accept the same transactions. -/

namespace MppSdk
namespace Ts
open Sponsorship Matching

/-! ## The quote -/

section Verify
variable {find : FindProgramAddress} {q : Quote} {tx : VersionedTransaction} {payer : Pubkey}

/-- The checks of a message once the request is read. -/
def verify (find : FindProgramAddress) (q : Quote) (message : CompiledMessage) : Thrown Unit := do
  let matched ← q.demands.foldlM (pick find q message) []
  validateInstructionAllowlist find message matched
    (.ofKeys q.allowedOwners (q.token.map (·.mint)) (q.token.bind (·.program)) q.feePayer
      q.requiredOwners)

/-- No memo of a transaction that pays a quote is empty, if none of the quote is. -/
theorem data_ne_nil_of_paidBy (hmemos : ∀ memo ∈ q.memos, memo.2 ≠ "") (h : q.PaidBy find tx) :
    ∀ ix ∈ tx.message.instructions,
      tx.message.staticAccountKeys[ix.programIdIndex.toNat]? = some programs.memoKey →
        ix.data ≠ [] := by
  intro ix hix hcalls
  obtain ⟨d, hd, hfits⟩ := h.exists_demand hix (isPayment_of_mem hcalls (by simp))
  cases d with
  | payout recipient amount =>
    rcases htoken : q.token with _ | token
    · simp only [Quote.Fits, htoken] at hfits
      obtain ⟨source, heffect, -⟩ := hfits
      have hcalled := (CompiledInstruction.effect_eq_transfer.mp heffect).1
      exact absurd (Option.some.inj (hcalls.symm.trans hcalled)) programs.memoKey_ne.1
    · simp only [Quote.Fits, htoken] at hfits
      obtain ⟨program, source, authority, d, heffect, hprogram, -⟩ := hfits
      have hcalled := (CompiledInstruction.effect_eq_tokenTransfer.mp heffect).1
      obtain rfl := Option.some.inj (hcalls.symm.trans hcalled)
      rcases hprogram with he | he
      · exact absurd he programs.memoKey_ne.2.1
      · exact absurd he programs.memoKey_ne.2.2.1
  | memo label memo =>
    obtain ⟨-, hdata⟩ := CompiledInstruction.effect_eq_memo.mp hfits
    rw [hdata]
    intro hnil
    have hempty : utf8 memo = utf8 "" := hnil
    exact hmemos _ (Quote.memo_of_mem_demands hd) (utf8_injective hempty)

theorem foldlM_iff {ε ε' α β : Type} {f : β → α → RustResult ε β} {g : β → α → RustResult ε' β}
    {as : List α} (h : ∀ b, ∀ a ∈ as, ∀ b', f b a = .ok b' ↔ g b a = .ok b') :
    ∀ {b b' : β}, as.foldlM f b = .ok b' ↔ as.foldlM g b = .ok b' := by
  induction as with
  | nil =>
    intro b b'
    simp [pure, Except.pure]
  | cons a as ih =>
    intro b b'
    have hrest := @ih fun b a ha => h b a (List.mem_cons_of_mem _ ha)
    simp only [List.foldlM_cons, bind_eq_ok, h b a List.mem_cons_self, hrest]

/-- **The verifiers agree on a quote.** -/
theorem verify_iff (hprogram : ∀ token ∈ q.token, ∃ expected, token.program = some expected)
    (hmemos : ∀ memo ∈ q.memos, memo.2 ≠ "")
    (hlookups : ∀ lookups ∈ tx.message.addressTableLookups, lookups = [])
    (hfirst : tx.message.staticAccountKeys.head? = some payer)
    (hfee : ∀ feePayer ∈ q.feePayer, feePayer = payer) :
    verify find q (.ofRust tx.message) = .ok () ↔ q.verify find tx = .ok () := by
  have hsame : q.PaidBy find tx → ∀ {after}, q.demands.foldlM (pick find q (.ofRust tx.message))
      [] = .ok after ↔ q.demands.foldlM (q.pick find tx) [] = .ok after := by
    intro hpaid after
    exact foldlM_iff fun matched d _ after =>
      pick_agrees hprogram hpaid.readable (data_ne_nil_of_paidBy hmemos hpaid)
  simp only [verify, Quote.verify, bind_eq_ok, allowlist_iff]
  -- a run of either shows that the transaction pays the quote, and then the rounds agree
  constructor
  · rintro ⟨matched, hmatched, hallow⟩
    have hpaid := Quote.paidBy_of_rounds hlookups hfirst hfee
      (exists_of_foldlM (fun matched d after hpick => exists_of_pick hprogram hpick)
        List.nodup_nil hmatched) hallow
    exact ⟨matched, (hsame hpaid).mp hmatched, hallow⟩
  · rintro ⟨matched, hmatched, hallow⟩
    have hpaid := Quote.paidBy_of_rounds hlookups hfirst hfee
      (exists_of_foldlM (fun matched d after hpick => Quote.exists_of_pick hpick)
        List.nodup_nil hmatched) hallow
    exact ⟨matched, (hsame hpaid).mpr hmatched, hallow⟩

end Verify

/-! ## The request -/

/-- The currency is native SOL, or the address of a mint with one of the token programs. -/
def QuotesToken (request : ChargeRequest) (details : MppSdk.MethodDetails) : Prop :=
  isNativeSol request.currency ∨ (∃ mint : Pubkey, request.currency = mint.toBase58) ∧
    (details.tokenProgram = some programs.TOKEN_PROGRAM ∨
      details.tokenProgram = some programs.TOKEN_2022_PROGRAM)

/-- A request both servers read the same: plain amounts whose splits add up to less than
`2 ^ 64`, keys that are addresses, and a currency that `QuotesToken`. -/
structure Comparable (request : ChargeRequest) (details : MppSdk.MethodDetails)
    (recipient : String) : Prop where
  amount : IsPlainAmount request.amount
  splits : ∀ split ∈ details.splitList, IsPlainAmount split.amount
  total : splitsSum details.splitList < 2 ^ 64
  recipient : request.recipient = some recipient ∧ ∃ key : Pubkey, recipient = key.toBase58
  feePayerKey : ∀ text ∈ details.feePayerKey, ∃ key : Pubkey, text = key.toBase58
  currency : QuotesToken request details

section Request
variable {find : FindProgramAddress} {tx : VersionedTransaction} {request : ChargeRequest}
  {details : MppSdk.MethodDetails} {recipient : String}

/-- What TypeScript takes for SOL, Rust does. -/
theorem isNativeSol_toUppercase {currency : String} (h : isNativeSol currency) :
    toUppercase currency = "SOL" := by
  have hchars : currency.toList.map Char.toLower = ['s', 'o', 'l'] := by
    have hlist : (currency.map Char.toLower).toList = ['s', 'o', 'l'] := congrArg String.toList h
    rwa [String.toList_map] at hlist
  have hlower : ∀ {c : Char} (l u : Char), l.toNat = u.toNat + 32 → c.toLower = l →
      c = l ∨ c = u := by
    intro c l u hlu hc
    unfold Char.toLower at hc
    split at hc
    · rename_i hupper
      subst hc
      have hle : c.val.toNat ≤ 90 := UInt32.le_iff_toNat_le.mp hupper.2
      have hadd : (c.val + 32).toNat = c.val.toNat + 32 := by
        rw [UInt32.toNat_add]
        show (c.val.toNat + 32) % 2 ^ 32 = _
        omega
      have hsame : (c.val + 32).toNat = u.val.toNat + 32 := hlu
      exact Or.inr (Char.ext (UInt32.toNat_inj.mp (by omega)))
    · exact Or.inl hc
  obtain ⟨a, rest, hlist, ha, hrest⟩ := List.map_eq_cons_iff.mp hchars
  obtain ⟨b, rest, rfl, hb, hrest⟩ := List.map_eq_cons_iff.mp hrest
  obtain ⟨c, rest, rfl, hc, hrest⟩ := List.map_eq_cons_iff.mp hrest
  obtain rfl := List.map_eq_nil_iff.mp hrest
  rw [toUppercase, hlist]
  rcases hlower 's' 'S' rfl ha with rfl | rfl <;> rcases hlower 'o' 'O' rfl hb with rfl | rfl <;>
    rcases hlower 'l' 'L' rfl hc with rfl | rfl <;> rfl

theorem not_isNativeSol (mint : Pubkey) : ¬ isNativeSol mint.toBase58 := by
  intro h
  have hupper := isNativeSol_toUppercase h
  exact toUppercase_ne (by decide) mint hupper

theorem memos_ofRust (externalId : Option String) (splits : List MppSdk.Split) :
    expectedMemoEntries externalId (splits.map Split.ofRust) = expectedMemos externalId splits := by
  rw [expectedMemoEntries, expectedMemos, List.filterMap_map]
  rfl

/-- No memo that is expected is empty. -/
theorem expectedMemos_ne {externalId : Option String} {splits : List MppSdk.Split} :
    ∀ memo ∈ expectedMemos externalId splits, memo.2 ≠ "" := by
  have hnonEmpty : ∀ {o : Option String} {s : String}, nonEmpty o = some s → s ≠ "" := by
    intro o s h
    exact of_decide_eq_true (Option.filter_eq_some_iff.mp h).2
  intro memo hmemo
  rcases List.mem_append.mp hmemo with h | h
  · obtain ⟨s, hs, rfl⟩ := List.mem_map.mp h
    exact hnonEmpty (Option.mem_toList.mp hs)
  · obtain ⟨split, -, h⟩ := List.mem_filterMap.mp h
    obtain ⟨s, hs, rfl⟩ := Option.map_eq_some_iff.mp h
    exact hnonEmpty hs

theorem lookups_iff :
    (¬ ∃ entries ∈ (CompiledMessage.ofRust tx.message).addressTableLookups, entries ≠ 0) ↔
      ∀ lookups ∈ tx.message.addressTableLookups, lookups = [] := by
  show (¬ ∃ entries ∈ (tx.message.addressTableLookups.filter (· ≠ [])).map List.length,
    entries ≠ 0) ↔ _
  cases tx.message.addressTableLookups with
  | none => simp
  | some lookups => cases lookups <;> simp [Option.filter]

theorem expectedFeePayer_iff (hkey : ∀ text ∈ details.feePayerKey, ∃ key : Pubkey,
      text = key.toBase58) {payer : Option String} :
    expectedFeePayer (.ofRust tx.message)
        (ChallengeRequest.ofRust request details recipient).methodDetails = .ok payer ↔
      ∃ feePayer, quotedFeePayer details = some feePayer ∧
        (∀ key ∈ feePayer, tx.message.staticAccountKeys.head? = some key) ∧
        feePayer.map Bytes.toBase58 = payer := by
  unfold expectedFeePayer quotedFeePayer
  show (if details.feePayer.getD false = false then _ else _) = _ ↔ _
  by_cases hfee : details.feePayer.getD false = false
  · rw [if_pos hfee, if_pos hfee]
    simp [eq_comm]
  rw [if_neg hfee, if_neg hfee]
  have hhead : (CompiledMessage.ofRust tx.message).staticAccounts.head? =
      tx.message.staticAccountKeys.head?.map Bytes.toBase58 := List.head?_map
  rcases hnone : details.feePayerKey with _ | text
  · simp [ChallengeRequest.ofRust, hnone, truthy, nonEmpty, bind_eq_ok]
  obtain ⟨key, rfl⟩ := hkey text hnone
  have htruthy : truthy (ChallengeRequest.ofRust request details recipient).methodDetails.feePayerKey
      = some key.toBase58 := by
    show truthy details.feePayerKey = _
    rw [hnone, truthy_toBase58]
  simp only [htruthy, bind_eq_ok, okOrElse_eq_ok, rejectIf_eq_ok, hhead, ne_eq, not_not,
    Option.bind_some, Bytes.fromBase58_eq_some.mpr rfl, Option.map_some, Option.some.injEq,
    exists_eq_left', Option.map_eq_some_iff]
  constructor
  · rintro ⟨-, ⟨first, hfirst, hsame⟩, h⟩
    obtain rfl := toBase58_inj.mp hsame
    refine ⟨?_, Except.ok.inj h⟩
    rintro _ ⟨⟩
    exact hfirst
  · rintro ⟨hfirst, rfl⟩
    exact ⟨(), ⟨key, hfirst key rfl, rfl⟩, rfl⟩

/-- The splits are paid if all of them have an address, and what is due is found. -/
theorem verifySplits_eq_ok {verifyTransfer : String → Int → List Nat → Thrown (List Nat)}
    (haddress : ∀ {text : String} {n : UInt64} {matched after},
      verifyTransfer text n.toNat matched = .ok after → ∃ key : Pubkey, text = key.toBase58)
    {after : List Nat} {splits : List MppSdk.Split} :
    ∀ {matched : List Nat}, (∀ split ∈ splits, IsPlainAmount split.amount) →
      (verifySplitsPreBroadcast verifyTransfer (splits.map Split.ofRust) matched = .ok after ↔
        ∃ due, splits.mapM splitDue = some due ∧
          due.foldlM (fun matched payout =>
            verifyTransfer payout.1.toBase58 payout.2.toNat matched) matched = .ok after) := by
  simp only [mapM_splitDue]
  induction splits with
  | nil =>
    intro matched _
    simp [verifySplitsPreBroadcast]
  | cons split splits ih =>
    intro matched hplain
    obtain ⟨hsplit, hrest⟩ := List.forall_mem_cons.mp hplain
    obtain ⟨n, hn, hbig⟩ := exists_amount hsplit
    rw [List.map_cons, verifySplitsPreBroadcast, List.foldlM_cons]
    show ((bigInt split.amount >>= fun n => verifyTransfer split.recipient n matched) >>= _) = _ ↔ _
    rw [hbig, ok_bind]
    constructor
    · intro h
      obtain ⟨next, hnext, h⟩ := bind_eq_ok.mp h
      obtain ⟨key, hkey⟩ := haddress hnext
      obtain ⟨due, hdue, hfold⟩ := (ih hrest).mp h
      refine ⟨(key, n) :: due, .cons (splitDue_eq_some.mpr ⟨hkey, hn⟩) hdue, ?_⟩
      rw [List.foldlM_cons, ← hkey, hnext]
      exact hfold
    · rintro ⟨all, hall, hfold⟩
      obtain ⟨payout, due, hdue, hduerest, rfl⟩ := List.forall₂_cons_right_iff.mp hall
      obtain ⟨hkey, hamount⟩ := splitDue_eq_some.mp hdue
      obtain rfl : n = payout.2 := Option.some.inj (hn.symm.trans hamount)
      rw [List.foldlM_cons, ← hkey] at hfold
      obtain ⟨next, hnext, hfold⟩ := bind_eq_ok.mp hfold
      exact bind_eq_ok.mpr ⟨next, hnext, (ih hrest).mpr ⟨due, hduerest, hfold⟩⟩

/-- The accounts that may be opened, and those that have to be. -/
theorem policy_eq {due : List (Pubkey × UInt64)} {feePayer : Option Pubkey}
    (hdue : details.splitList.mapM splitDue = some due) :
    expectedAtaCreationPolicy (.ofRust request details recipient) (feePayer.map Bytes.toBase58) = {
      allowedAtaOwners := (if feePayer.isSome then requiredOwners due details.splitList
        else due.map Prod.fst).map Bytes.toBase58
      requiredAtaOwners := (requiredOwners due details.splitList).map Bytes.toBase58 } := by
  have hrequired : ((details.splitList.map Split.ofRust).filter fun split => split.RequiresAta).map
      Split.recipient = (requiredOwners due details.splitList).map Bytes.toBase58 ∧
      (details.splitList.map Split.ofRust).map Split.recipient =
        (due.map Prod.fst).map Bytes.toBase58 := by
    have hall := mapM_splitDue.mp hdue
    clear hdue
    generalize details.splitList = splits at hall
    induction hall with
    | nil => exact ⟨rfl, rfl⟩
    | @cons payout split due splits hsplit hrest ih =>
      obtain ⟨hkey, -⟩ := splitDue_eq_some.mp hsplit
      have hkey' : (Split.ofRust split).recipient = payout.1.toBase58 := hkey
      constructor
      · have hsame : (Split.ofRust split).RequiresAta ↔ split.ataCreationRequired = some true :=
          Iff.rfl
        by_cases hata : split.ataCreationRequired = some true
        · simp [requiredOwners, hsame, hata, hkey'] 
          simpa [requiredOwners] using ih.1
        · simp [requiredOwners, hsame, hata]
          simpa [requiredOwners] using ih.1
      · simp only [List.map_cons, hkey', ih.2]
  have hsplits := splits_ofRust request details recipient
  simp only [expectedAtaCreationPolicy, hsplits, hrequired, Option.isSome_map]
  cases feePayer <;> rfl

/-- What is left for the recipient, in both languages. -/
theorem primary_iff (h : Comparable request details recipient) {left : Int} :
    (∃ total, bigInt request.amount = .ok total ∧
      ∃ sum, splitsTotal (details.splitList.map Split.ofRust) = .ok sum ∧
        ¬ total - sum ≤ 0 ∧ left = total - sum) ↔
      ∃ primary : UInt64, MppSdk.primaryAmount request details.splitList = .ok primary ∧
        left = primary.toNat := by
  obtain ⟨n, hn, hbig⟩ := exists_amount h.amount
  rw [hbig, splitsTotal_eq h.splits]
  simp only [primaryAmount_eq_ok, Except.ok.injEq, exists_eq_left', hn, Option.some.injEq,
    Nat.mod_eq_of_lt h.total]
  constructor
  · rintro ⟨hpositive, rfl⟩
    have hlt : n.toNat - splitsSum details.splitList < 2 ^ 64 :=
      Nat.lt_of_le_of_lt (Nat.sub_le _ _) n.toNat_lt
    have hleft := UInt64.toNat_ofNat_of_lt' hlt
    refine ⟨.ofNat (n.toNat - splitsSum details.splitList), ⟨?_, ?_⟩, ?_⟩
    · rw [UInt64.lt_iff_toNat_lt, hleft]
      show 0 < _
      omega
    · omega
    · omega
  · rintro ⟨primary, ⟨hpositive, hsum⟩, rfl⟩
    rw [UInt64.lt_iff_toNat_lt] at hpositive
    have hpositive : 0 < primary.toNat := hpositive
    constructor <;> omega

/-- The quote is verified by the steps of the code. -/
theorem verify_eq_ok {q : Quote} {verifyTransfer : String → Int → List Nat → Thrown (List Nat)}
    {owner : Pubkey} {primary : UInt64} {due : List (Pubkey × UInt64)} {externalId : Option String}
    (htransfer : ∀ owner amount matched, pick find q (.ofRust tx.message) matched
      (.payout owner amount) = verifyTransfer owner.toBase58 amount.toNat matched)
    (haddress : ∀ {text : String} {n : UInt64} {matched after},
      verifyTransfer text n.toNat matched = .ok after → ∃ key : Pubkey, text = key.toBase58)
    (hplain : ∀ split ∈ details.splitList, IsPlainAmount split.amount)
    (hpayouts : q.payouts = (owner, primary) :: due)
    (hdue : details.splitList.mapM splitDue = some due)
    (hmemos : q.memos = expectedMemos externalId details.splitList) :
    verify find q (.ofRust tx.message) = .ok () ↔
      ∃ first, verifyTransfer owner.toBase58 primary.toNat [] = .ok first ∧
        ∃ paid, verifySplitsPreBroadcast verifyTransfer (details.splitList.map Split.ofRust) first =
          .ok paid ∧
        ∃ noted, verifyMemoInstructionsPreBroadcast (.ofRust tx.message) paid externalId
          (details.splitList.map Split.ofRust) = .ok noted ∧
        validateInstructionAllowlist find (.ofRust tx.message) noted
          (.ofKeys q.allowedOwners (q.token.map (·.mint)) (q.token.bind (·.program)) q.feePayer
            q.requiredOwners) = .ok () := by
  have hmemo : ∀ label memo matched, pick find q (.ofRust tx.message) matched (.memo label memo) =
      verifyMemoPreBroadcast (.ofRust tx.message) matched label memo := fun _ _ _ => rfl
  simp only [verify, bind_eq_ok, Quote.demands, List.foldlM_append, List.foldlM_map, hpayouts,
    List.foldlM_cons, htransfer, hmemo, verifySplits_eq_ok haddress hplain, hdue, hmemos,
    verifyMemoInstructionsPreBroadcast, memos_ofRust]
  constructor
  · rintro ⟨noted, ⟨paid, ⟨first, hfirst, hpaid⟩, hnoted⟩, hallow⟩
    exact ⟨first, hfirst, paid, ⟨due, rfl, hpaid⟩, noted, hnoted, hallow⟩
  · rintro ⟨first, hfirst, paid, ⟨_, ⟨⟩, hpaid⟩, noted, hnoted, hallow⟩
    exact ⟨noted, ⟨paid, ⟨first, hfirst, hpaid⟩, hnoted⟩, hallow⟩

/-- What a request asks for, once it is read. -/
def requestQuote (request : ChargeRequest) (details : MppSdk.MethodDetails) (owner : Pubkey)
    (primary : UInt64) (due : List (Pubkey × UInt64)) (feePayer : Option Pubkey)
    (token : Option QuotedToken) : Quote where
  feePayer
  token
  payouts := (owner, primary) :: due
  memos := expectedMemos request.externalId details.splitList
  allowedOwners :=
    if feePayer.isSome then requiredOwners due details.splitList else due.map Prod.fst
  requiredOwners := requiredOwners due details.splitList

/-- No memo that is matched is too long. -/
theorem length_of_memos {matched after : List Nat} {externalId : Option String}
    {splits : List MppSdk.Split}
    (h : verifyMemoInstructionsPreBroadcast (.ofRust tx.message) matched externalId
      (splits.map Split.ofRust) = .ok after) :
    ∀ memo ∈ expectedMemos externalId splits, (utf8 memo.2).length ≤ 566 := by
  rw [verifyMemoInstructionsPreBroadcast, memos_ofRust] at h
  refine (foldlM_eq_ok (P := fun _ => True) (fun memo _ before after _ h => ⟨trivial, ?_⟩)
    trivial h).2
  obtain ⟨u, hlength, -⟩ := bind_eq_ok.mp h
  exact Nat.le_of_not_lt (rejectIf_eq_ok.mp hlength)

/-- The matcher of SOL transfers, as `verify` uses it. -/
def solMatcher (message : CompiledMessage) (feePayer : Option Pubkey) (recipient : String)
    (amount : Int) (matched : List Nat) : Thrown (List Nat) :=
  verifySolTransferPreBroadcast message recipient amount (feePayer.map Bytes.toBase58) matched

/-- The matcher of token transfers, as `verify` uses it. -/
def splMatcher (find : FindProgramAddress) (message : CompiledMessage) (feePayer : Option Pubkey)
    (mint program : Pubkey) (decimals : Option UInt8) (recipient : String) (amount : Int)
    (matched : List Nat) : Thrown (List Nat) :=
  verifySplTransferPreBroadcast find message recipient mint.toBase58 program.toBase58 amount
    (decimals.map UInt8.toNat) (feePayer.map Bytes.toBase58) matched

theorem address_of_solMatcher {feePayer : Option Pubkey} {text : String} {n : UInt64}
    {matched after : List Nat}
    (h : solMatcher (.ofRust tx.message) feePayer text n.toNat matched = .ok after) :
    ∃ key : Pubkey, text = key.toBase58 := by
  obtain ⟨-, -, -, key, hkey, -⟩ := exists_of_solRound (fun _ _ => (programs.systemKey, 0))
    (q := { feePayer, token := none, payouts := [], memos := [], allowedOwners := [],
            requiredOwners := [] }) rfl h
  exact ⟨key, hkey⟩

theorem address_of_splMatcher {feePayer : Option Pubkey} {mint program : Pubkey}
    {decimals : Option UInt8} {text : String} {n : UInt64} {matched after : List Nat}
    (h : splMatcher find (.ofRust tx.message) feePayer mint program decimals text n.toNat matched =
      .ok after) : ∃ key : Pubkey, text = key.toBase58 := by
  obtain ⟨-, -, -, key, hkey, -⟩ := exists_of_splRound
    (q := { feePayer, token := some ⟨mint, some program, decimals⟩, payouts := [], memos := [],
            allowedOwners := [], requiredOwners := [] }) rfl rfl h
  exact ⟨key, hkey⟩

/-- A quote in SOL is verified by the steps of the code. -/
theorem verify_of_sol {owner : Pubkey} {primary : UInt64} {due : List (Pubkey × UInt64)}
    {feePayer : Option Pubkey} (hplain : ∀ split ∈ details.splitList, IsPlainAmount split.amount)
    (hdue : details.splitList.mapM splitDue = some due) :
    verify find (requestQuote request details owner primary due feePayer none)
        (.ofRust tx.message) = .ok () ↔
      ∃ first, solMatcher (.ofRust tx.message) feePayer owner.toBase58 primary.toNat [] =
          .ok first ∧
        ∃ paid, verifySplitsPreBroadcast (solMatcher (.ofRust tx.message) feePayer)
          (details.splitList.map Split.ofRust) first = .ok paid ∧
        ∃ noted, verifyMemoInstructionsPreBroadcast (.ofRust tx.message) paid request.externalId
          (details.splitList.map Split.ofRust) = .ok noted ∧
        validateInstructionAllowlist find (.ofRust tx.message) noted
          (.ofKeys (if feePayer.isSome then requiredOwners due details.splitList
            else due.map Prod.fst) none none feePayer (requiredOwners due details.splitList)) =
              .ok () :=
  verify_eq_ok (fun _ _ _ => rfl) address_of_solMatcher hplain rfl hdue rfl

/-- A quote in a token is verified by the steps of the code. -/
theorem verify_of_spl {owner mint program : Pubkey} {decimals : Option UInt8} {primary : UInt64}
    {due : List (Pubkey × UInt64)} {feePayer : Option Pubkey}
    (hplain : ∀ split ∈ details.splitList, IsPlainAmount split.amount)
    (hdue : details.splitList.mapM splitDue = some due) :
    verify find (requestQuote request details owner primary due feePayer
        (some ⟨mint, some program, decimals⟩)) (.ofRust tx.message) = .ok () ↔
      ∃ first, splMatcher find (.ofRust tx.message) feePayer mint program decimals owner.toBase58
          primary.toNat [] = .ok first ∧
        ∃ paid, verifySplitsPreBroadcast
          (splMatcher find (.ofRust tx.message) feePayer mint program decimals)
          (details.splitList.map Split.ofRust) first = .ok paid ∧
        ∃ noted, verifyMemoInstructionsPreBroadcast (.ofRust tx.message) paid request.externalId
          (details.splitList.map Split.ofRust) = .ok noted ∧
        validateInstructionAllowlist find (.ofRust tx.message) noted
          (.ofKeys (if feePayer.isSome then requiredOwners due details.splitList
            else due.map Prod.fst) (some mint) (some program) feePayer
              (requiredOwners due details.splitList)) = .ok () :=
  verify_eq_ok (fun _ _ _ => rfl) address_of_splMatcher hplain rfl hdue rfl

theorem exists_quotedProgram (h : details.tokenProgram = some programs.TOKEN_PROGRAM ∨
      details.tokenProgram = some programs.TOKEN_2022_PROGRAM) :
    ∃ program : Pubkey, details.tokenProgram = some program.toBase58 ∧
      quotedProgram details = some (some program) := by
  have hkey : ∀ {text : String}, (text = programs.TOKEN_PROGRAM ∨
        text = programs.TOKEN_2022_PROGRAM) → details.tokenProgram = some text →
      ∀ program : Pubkey, program.toBase58 = text →
        details.tokenProgram = some program.toBase58 ∧
          quotedProgram details = some (some program) := by
    rintro text htext hprogram program rfl
    refine ⟨hprogram, ?_⟩
    rw [quotedProgram, hprogram]
    simp only [if_pos htext, Bytes.fromBase58_eq_some.mpr rfl, Option.map_some]
  rcases h with h | h
  · exact ⟨programs.tokenKey, hkey (Or.inl rfl) h _ (pubkeyOf_eq_iff.mpr rfl)⟩
  · exact ⟨programs.token2022Key, hkey (Or.inr rfl) h _ (pubkeyOf_eq_iff.mpr rfl)⟩

/-- A request in SOL has no token. -/
theorem token_of_sol (h : isNativeSol request.currency) :
    quotedToken request details = some none := by
  have hnative : request.IsNativeSol := isNativeSol_toUppercase h
  exact if_pos hnative

/-- A mint address is the token of its request, in both languages. -/
theorem token_of_mint {mint program : Pubkey} (hmint : request.currency = mint.toBase58)
    (hprogram : quotedProgram details = some (some program)) :
    ¬ isNativeSol request.currency ∧
      truthy (resolveStablecoinMint request.currency details.network) = some mint.toBase58 ∧
      quotedToken request details = some (some ⟨mint, some program, details.decimals⟩) := by
  have hnot : ¬ request.IsNativeSol := by
    intro h
    rw [ChargeRequest.IsNativeSol, hmint] at h
    exact toUppercase_ne (by decide) mint h
  refine ⟨hmint ▸ not_isNativeSol mint, ?_, ?_⟩
  · rw [hmint, (resolve_mint mint _).1, truthy_toBase58]
  · rw [quotedToken, if_neg hnot, hmint, (resolve_mint mint _).2, hprogram]
    simp

/-- The token program that a request names is the one that is expected. -/
theorem getD_tokenProgram {program : Pubkey} {other : String}
    (h : details.tokenProgram = some program.toBase58) :
    (ChallengeRequest.ofRust request details recipient).methodDetails.tokenProgram.getD other =
      program.toBase58 := by
  show details.tokenProgram.getD other = _
  rw [h]
  rfl

/-- **What the TypeScript server accepts**: a message whose first account is the fee payer that
is asked for and which verifies against the quote of the request. -/
theorem verifyMessage_eq_ok (h : Comparable request details recipient) :
    verifyMessagePreBroadcast find (.ofRust tx.message) (.ofRust request details recipient) =
        .ok () ↔
      (∀ lookups ∈ tx.message.addressTableLookups, lookups = []) ∧
      ∃ primary, MppSdk.primaryAmount request details.splitList = .ok primary ∧
      ∃ q, quoteOf request details primary = some q ∧
      ∃ payer, tx.message.staticAccountKeys.head? = some payer ∧
        (∀ feePayer ∈ q.feePayer, feePayer = payer) ∧
        verify find q (.ofRust tx.message) = .ok () := by
  obtain ⟨hrecipient, owner, rfl⟩ := h.recipient
  have howner : request.recipient.bind (Bytes.fromBase58 32) = some owner := by
    rw [hrecipient]
    exact Bytes.fromBase58_eq_some.mpr rfl
  have hsplits := splits_ofRust request details owner.toBase58
  constructor
  · intro hok
    simp only [verifyMessagePreBroadcast, hsplits, bind_eq_ok, rejectIf_eq_ok, List.length_map,
      requiresAta_ofRust, expectedFeePayer_iff h.feePayerKey] at hok
    obtain ⟨_, hlookups, _, hlength, total, htotal, sum, hsum, _, hpositive, _,
      ⟨feePayer, hfee, hfirst, rfl⟩, _, hnative, hok⟩ := hok
    obtain ⟨primary, hprimary, hleft⟩ :=
      (primary_iff h).mp ⟨total, htotal, sum, hsum, hpositive, rfl⟩
    rw [hleft] at hok
    refine ⟨lookups_iff.mp hlookups, primary, hprimary, ?_⟩
    have hlength : details.splitList.length ≤ 8 := Nat.le_of_not_lt hlength
    -- whatever the currency, the quote is the one of the request with this token
    have hquote : ∀ {token : Option QuotedToken} {due : List (Pubkey × UInt64)} {noted : List Nat}
        {mint program : Option Pubkey} {allowed required : List Pubkey},
        quotedToken request details = some token → details.splitList.mapM splitDue = some due →
        (requiresAta details.splitList →
          ∃ quoted ∈ token, request.currency = quoted.mint.toBase58) →
        (∀ memo ∈ expectedMemos request.externalId details.splitList,
          (utf8 memo.2).length ≤ 566) →
        validateInstructionAllowlist find (.ofRust tx.message) noted
          (.ofKeys allowed mint program feePayer required) = .ok () →
        verify find (requestQuote request details owner primary due feePayer token)
          (.ofRust tx.message) = .ok () →
        ∃ q, quoteOf request details primary = some q ∧
          ∃ payer, tx.message.staticAccountKeys.head? = some payer ∧
            (∀ feePayer ∈ q.feePayer, feePayer = payer) ∧
            verify find q (.ofRust tx.message) = .ok () := by
      intro token due noted mint program allowed required htoken hdue hallowed hmemos hallow hverify
      obtain ⟨payer, hpayer⟩ := exists_payer_of_allowlist (allowlist_iff.mp hallow)
      refine ⟨_, quoteOf_eq_some.mpr ⟨owner, howner, due, hdue, feePayer, hfee, token, htoken,
        ⟨hlength, hmemos, hallowed⟩, rfl⟩, payer, hpayer, ?_, hverify⟩
      intro key hkey
      exact Option.some.inj ((hfirst key hkey).symm.trans hpayer)
    rcases h.currency with hsol | ⟨⟨mint, hmint⟩, hprogram⟩
    · have hnative' : request.IsNativeSol := isNativeSol_toUppercase hsol
      have hsol' : isNativeSol
        (ChallengeRequest.ofRust request details owner.toBase58).currency := hsol
      rw [if_pos hsol'] at hok
      obtain ⟨first, hfirstPaid, hok⟩ := bind_eq_ok.mp hok
      obtain ⟨paid, hpaid, hok⟩ := bind_eq_ok.mp hok
      obtain ⟨noted, hnoted, hallow⟩ := bind_eq_ok.mp hok
      have hpaid' : verifySplitsPreBroadcast (solMatcher (.ofRust tx.message) feePayer)
        (details.splitList.map Split.ofRust) first = .ok paid := hpaid
      obtain ⟨due, hdue, -⟩ := (verifySplits_eq_ok address_of_solMatcher h.splits).mp hpaid'
      rw [policy_eq hdue] at hallow
      have hquoted : verify find (requestQuote request details owner primary due feePayer none)
          (.ofRust tx.message) = .ok () := (verify_of_sol h.splits hdue).mpr
        ⟨first, hfirstPaid, paid, hpaid', noted, hnoted, hallow⟩
      have hallow' : validateInstructionAllowlist find (.ofRust tx.message) noted
          (.ofKeys (if feePayer.isSome then requiredOwners due details.splitList
            else due.map Prod.fst) none none feePayer (requiredOwners due details.splitList)) =
              .ok () := hallow
      exact hquote (if_pos hnative') hdue (fun hata => absurd ⟨hsol', hata⟩ hnative)
        (length_of_memos hnoted) hallow' hquoted
    · obtain ⟨program, htext, hprogram⟩ := exists_quotedProgram hprogram
      obtain ⟨hnot, hresolve, htoken⟩ := token_of_mint hmint hprogram
      have hnot' : ¬ isNativeSol
        (ChallengeRequest.ofRust request details owner.toBase58).currency := hnot
      rw [if_neg hnot'] at hok
      obtain ⟨text, hmintText, hok⟩ := bind_eq_ok.mp hok
      obtain rfl := Option.some.inj (hresolve.symm.trans (okOrElse_eq_ok.mp hmintText))
      obtain ⟨_, -, hok⟩ := bind_eq_ok.mp hok
      obtain ⟨first, hfirstPaid, hok⟩ := bind_eq_ok.mp hok
      obtain ⟨paid, hpaid, hok⟩ := bind_eq_ok.mp hok
      obtain ⟨noted, hnoted, hallow⟩ := bind_eq_ok.mp hok
      have hget : ∀ other, (ChallengeRequest.ofRust request details
          owner.toBase58).methodDetails.tokenProgram.getD other = program.toBase58 :=
        fun other => getD_tokenProgram htext
      rw [hget] at hfirstPaid hallow
      rw [hget] at hpaid
      have hpaid' : verifySplitsPreBroadcast
        (splMatcher find (.ofRust tx.message) feePayer mint program details.decimals)
        (details.splitList.map Split.ofRust) first = .ok paid := hpaid
      obtain ⟨due, hdue, -⟩ := (verifySplits_eq_ok address_of_splMatcher h.splits).mp hpaid'
      rw [policy_eq hdue] at hallow
      have hallow' : validateInstructionAllowlist find (.ofRust tx.message) noted
          (.ofKeys (if feePayer.isSome then requiredOwners due details.splitList
            else due.map Prod.fst) (some mint) (some program) feePayer
              (requiredOwners due details.splitList)) = .ok () := hallow
      exact hquote htoken hdue (fun _ => ⟨_, rfl, hmint⟩) (length_of_memos hnoted) hallow'
        ((verify_of_spl h.splits hdue).mpr
          ⟨first, hfirstPaid, paid, hpaid', noted, hnoted, hallow'⟩)
  · rintro ⟨hlookups, primary, hprimary, q, hq, payer, hpayer, hfirst, hverify⟩
    obtain ⟨owner', howner', due, hdue, feePayer, hfee, token, htoken, ⟨hlength, -, hallowed⟩, rfl⟩ :=
      quoteOf_eq_some.mp hq
    obtain rfl := Option.some.inj (howner.symm.trans howner')
    obtain ⟨total, htotal, sum, hsum, hpositive, hleft⟩ :=
      (primary_iff h).mpr ⟨primary, hprimary, rfl⟩
    have hfirst' : ∀ key ∈ feePayer, tx.message.staticAccountKeys.head? = some key := by
      intro key hkey
      rw [hpayer, hfirst key hkey]
    have hnative : ¬ (isNativeSol request.currency ∧ requiresAta details.splitList) := by
      rintro ⟨hsol, hata⟩
      obtain ⟨quoted, -, hmint⟩ := hallowed hata
      exact not_isNativeSol quoted.mint (hmint ▸ hsol)
    simp only [verifyMessagePreBroadcast, hsplits, bind_eq_ok, rejectIf_eq_ok, List.length_map,
      requiresAta_ofRust, expectedFeePayer_iff h.feePayerKey]
    refine ⟨(), lookups_iff.mpr hlookups, (), Nat.not_lt.mpr hlength, total, htotal, sum, hsum, (),
      hpositive, _, ⟨feePayer, hfee, hfirst', rfl⟩, (), hnative, ?_⟩
    rw [← hleft]
    rcases h.currency with hsol | ⟨⟨mint, hmint⟩, hprogram⟩
    · have hsol' : isNativeSol
        (ChallengeRequest.ofRust request details owner.toBase58).currency := hsol
      obtain rfl := Option.some.inj (htoken.symm.trans (token_of_sol hsol))
      have hverify' : verify find (requestQuote request details owner primary due feePayer none)
        (.ofRust tx.message) = .ok () := hverify
      obtain ⟨first, hfirstPaid, paid, hpaid, noted, hnoted, hallow⟩ :=
        (verify_of_sol h.splits hdue).mp hverify'
      rw [if_pos hsol', policy_eq hdue]
      exact bind_eq_ok.mpr ⟨first, hfirstPaid, bind_eq_ok.mpr ⟨paid, hpaid,
        bind_eq_ok.mpr ⟨noted, hnoted, hallow⟩⟩⟩
    · obtain ⟨program, htext, hprogram⟩ := exists_quotedProgram hprogram
      obtain ⟨hnot, hresolve, htoken'⟩ := token_of_mint hmint hprogram
      have hnot' : ¬ isNativeSol
        (ChallengeRequest.ofRust request details owner.toBase58).currency := hnot
      obtain rfl := Option.some.inj (htoken.symm.trans htoken')
      have hverify' : verify find (requestQuote request details owner primary due feePayer
        (some ⟨mint, some program, details.decimals⟩)) (.ofRust tx.message) = .ok () := hverify
      obtain ⟨first, hfirstPaid, paid, hpaid, noted, hnoted, hallow⟩ :=
        (verify_of_spl h.splits hdue).mp hverify'
      have hget : ∀ other, (ChallengeRequest.ofRust request details
          owner.toBase58).methodDetails.tokenProgram.getD other = program.toBase58 :=
        fun other => getD_tokenProgram htext
      rw [if_neg hnot', policy_eq hdue, hget]
      refine bind_eq_ok.mpr ⟨mint.toBase58, okOrElse_eq_ok.mpr hresolve, bind_eq_ok.mpr ⟨(), ?_,
        bind_eq_ok.mpr ⟨first, hfirstPaid, bind_eq_ok.mpr ⟨paid, hpaid,
          bind_eq_ok.mpr ⟨noted, hnoted, hallow⟩⟩⟩⟩⟩
      exact rejectIf_eq_ok.mpr fun hne => hne.2 hmint

/-- **The verifiers accept the same payments.** -/
theorem verifiers_agree (find : FindProgramAddress) (tx : VersionedTransaction)
    (request : ChargeRequest) (details : MppSdk.MethodDetails) (recipient : String)
    (h : Comparable request details recipient) :
    verifyPreBroadcast find tx request details = .ok () ↔
      verifyMessagePreBroadcast find (.ofRust tx.message) (.ofRust request details recipient) =
        .ok () := by
  rw [verifyPreBroadcast_eq_ok, verifyMessage_eq_ok h]
  refine and_congr_right fun hlookups => exists_congr fun primary => and_congr_right fun _ =>
    exists_congr fun q => and_congr_right fun hq => exists_congr fun payer =>
      and_congr_right fun hpayer => and_congr_right fun hfirst => ?_
  obtain ⟨owner, _, due, _, feePayer, _, token, htoken, _, rfl⟩ := quoteOf_eq_some.mp hq
  refine (verify_iff ?_ expectedMemos_ne hlookups hpayer hfirst).symm
  rcases h.currency with hsol | ⟨⟨mint, hmint⟩, hprogram⟩
  · obtain rfl := Option.some.inj (htoken.symm.trans (token_of_sol hsol))
    exact fun token h => (nomatch h)
  · obtain ⟨program, -, hprogram⟩ := exists_quotedProgram hprogram
    obtain ⟨-, -, htoken'⟩ := token_of_mint hmint hprogram
    obtain rfl := Option.some.inj (htoken.symm.trans htoken')
    rintro _ ⟨⟩
    exact ⟨program, rfl⟩

end Request
namespace AgreementSample
open MppSdk.Sample

/-- Both servers read the sample charge. -/
theorem comparable : Comparable request details (key 2).toBase58 where
  amount := by decide
  splits := by decide +kernel
  total := by decide
  recipient := ⟨rfl, key 2, rfl⟩
  feePayerKey := by
    rintro _ ⟨⟩
    exact ⟨key 1, rfl⟩
  currency := Or.inr ⟨⟨usdc, (pubkeyOf_eq_iff.mpr rfl).symm⟩, Or.inl rfl⟩

/-- Both servers accept the sample payment. -/
theorem payment_agrees : verifyPreBroadcast find payment request details = .ok () ∧
    verifyMessagePreBroadcast find (.ofRust payment.message)
      (.ofRust request details (key 2).toBase58) = .ok () := by
  have haccepted : verifyPreBroadcast find payment request details = .ok () := by decide +kernel
  exact ⟨haccepted, (verifiers_agree find payment request details (key 2).toBase58
    comparable).mp haccepted⟩

end AgreementSample

end Ts
end MppSdk
