import MppSdk.ChargeInstructions

/-! # The charge of a request

What clients in any language make of a request: a line for the recipient with the external id,
and one for each split (`chargeLines`).  They differ in whose accounts they open and which
memos they write (`ChargePolicy`); `accepts_charge_iff` says what the server makes of it. -/

namespace MppSdk
open Sponsorship Matching

/-- What a client does where clients differ: whose accounts it opens, and which memos it
writes. -/
structure ChargePolicy where
  opensRecipient : Bool
  opensSplit : Split → Bool
  memoOf : Option String → Option String

/-- The lines of a request: the recipient's with the external id, then those of the splits. -/
def chargeLines (policy : ChargePolicy) (recipient : Pubkey) (primary : UInt64)
    (externalId : Option String) (due : List (Pubkey × UInt64)) (splits : List Split) :
    List PaymentLine :=
  ⟨recipient, primary, policy.opensRecipient, "externalId", policy.memoOf externalId⟩ ::
    (due.zip splits).map fun entry =>
      ⟨entry.1.1, entry.1.2, policy.opensSplit entry.2, "split", policy.memoOf entry.2.memo⟩

/-- The policy opens what is required and writes all memos that are there. -/
structure ChargePolicy.Sound (policy : ChargePolicy) : Prop where
  opens : ∀ split : Split, split.ataCreationRequired = some true → policy.opensSplit split = true
  memos : ∀ memo, nonEmpty (policy.memoOf memo) = nonEmpty memo

section Charge
variable {policy : ChargePolicy} {recipient : Pubkey} {primary : UInt64}
  {externalId : Option String} {due : List (Pubkey × UInt64)} {splits : List Split}

theorem payouts_of_chargeLines (hlength : due.length = splits.length) :
    (chargeLines policy recipient primary externalId due splits).map
      (fun line => (line.recipient, line.amount)) = (recipient, primary) :: due := by
  simp only [chargeLines, List.map_cons, List.map_map]
  congr 1
  exact List.map_fst_zip (Nat.le_of_eq hlength)

theorem length_chargeLines (hlength : due.length = splits.length) (h : splits.length ≤ 8) :
    (chargeLines policy recipient primary externalId due splits).length ≤ 9 := by
  rw [chargeLines, List.length_cons, List.length_map, List.length_zip, hlength, Nat.min_self]
  exact Nat.succ_le_succ h

/-- A labelled memo is kept if its text is. -/
theorem filter_labelled (label : String) (memo : Option String) :
    ((memo.map fun text => (label, text)).toList).filter (fun memo => memo.2 ≠ "") =
      (nonEmpty memo).toList.map fun text => (label, text) := by
  rcases memo with _ | text
  · rfl
  · by_cases hempty : text = "" <;> simp [nonEmpty, Option.filter, hempty]

theorem memos_of_splits (hpolicy : policy.Sound) :
    ∀ {splits : List Split} {due : List (Pubkey × UInt64)}, due.length = splits.length →
      (((due.zip splits).map fun entry : (Pubkey × UInt64) × Split =>
        (⟨entry.1.1, entry.1.2, policy.opensSplit entry.2, "split",
          policy.memoOf entry.2.memo⟩ : PaymentLine)).filterMap PaymentLine.labelled).filter
            (fun memo => memo.2 ≠ "") =
        splits.filterMap fun split => (nonEmpty split.memo).map fun memo => ("split", memo) := by
  intro splits
  induction splits with
  | nil =>
    intro due hlength
    obtain rfl := List.length_eq_zero_iff.mp hlength
    rfl
  | cons split splits ih =>
    intro due hlength
    rcases due with _ | ⟨payout, due⟩
    · cases hlength
    have hrest := ih (Nat.succ.inj hlength)
    have hhead := filter_labelled "split" (policy.memoOf split.memo)
    rw [hpolicy.memos] at hhead
    simp only [List.filterMap_eq_flatMap_toList, List.zip_cons_cons, List.map_cons,
      List.flatMap_cons, List.filter_append] at hrest ⊢
    rw [hrest]
    refine congrArg (· ++ _) (hhead.trans ?_)
    cases nonEmpty split.memo <;> rfl

/-- The memos of the lines that are not empty are those that are expected. -/
theorem memos_of_chargeLines (hpolicy : policy.Sound) (hlength : due.length = splits.length) :
    ((chargeLines policy recipient primary externalId due splits).filterMap
      PaymentLine.labelled).filter (fun memo => memo.2 ≠ "") = expectedMemos externalId splits := by
  have hhead := filter_labelled "externalId" (policy.memoOf externalId)
  rw [hpolicy.memos] at hhead
  rw [chargeLines, List.filterMap_eq_flatMap_toList, List.flatMap_cons,
    ← List.filterMap_eq_flatMap_toList, List.filter_append, memos_of_splits hpolicy hlength]
  exact congrArg (· ++ _) hhead

/-- The account of an owner is opened if it is required. -/
theorem exists_line_of_required (hpolicy : policy.Sound) {owner : Pubkey}
    (h : owner ∈ requiredOwners due splits) :
    ∃ line ∈ chargeLines policy recipient primary externalId due splits,
      line.recipient = owner ∧ line.opens = true := by
  obtain ⟨entry, hentry, rfl⟩ := List.mem_map.mp h
  obtain ⟨hmem, hrequired⟩ := List.mem_filter.mp hentry
  exact ⟨_, List.mem_cons_of_mem _ (List.mem_map.mpr ⟨entry, hmem, rfl⟩), rfl,
    hpolicy.opens entry.2 (of_decide_eq_true hrequired)⟩

variable {find : FindProgramAddress} {request : ChargeRequest} {details : MethodDetails}
  {tx : VersionedTransaction} {q : Quote} {signer payer : Pubkey} {token : Option TokenUse}
  {microLamports : UInt64} {units : UInt32}

/-- **What the server makes of a charge.**  A charge of a request is accepted exactly if it
opens accounts of allowed owners only, and writes no empty memo. -/
theorem accepts_charge_iff (hpolicy : policy.Sound)
    (hdistinct : DistinctAccounts find (recipients request details))
    (hprimary : primaryAmount request details.splitList = .ok primary)
    (hquote : quoteOf request details primary = some q)
    (hrecipient : request.recipient.bind (Bytes.fromBase58 32) = some recipient)
    (hdue : details.splitList.mapM splitDue = some due)
    (hpaid : q.PaidWith find signer token)
    (hfee : ∀ feePayer ∈ q.feePayer, feePayer = payer)
    (hprice : microLamports.toNat ≤ MAX_COMPUTE_UNIT_PRICE_MICROLAMPORTS)
    (hunits : units.toNat ≤ MAX_COMPUTE_UNIT_LIMIT)
    (hcompiled : Compiles payer (chargeInstructions find signer payer token microLamports units
      (chargeLines policy recipient primary request.externalId due details.splitList))
      tx.message) :
    verifyPreBroadcast find tx request details = .ok () ↔
      (∀ line ∈ chargeLines policy recipient primary request.externalId due details.splitList,
        line.opens = true → token.isSome → line.recipient ∈ q.allowedOwners) ∧
      ∀ line ∈ chargeLines policy recipient primary request.externalId due details.splitList,
        line.memo ≠ some "" := by
  have hverify : verifyPreBroadcast find tx request details = .ok () ↔
      q.verify find tx = .ok () := by
    rw [verifyPreBroadcast_eq_ok]
    constructor
    · rintro ⟨-, primary', hprimary', q', hquote', payer', -, -, h⟩
      obtain rfl := Except.ok.inj (hprimary.symm.trans hprimary')
      obtain rfl := Option.some.inj (hquote.symm.trans hquote')
      exact h
    · intro h
      exact ⟨hcompiled.noLookups, primary, hprimary, q, hquote, payer, hcompiled.first, hfee, h⟩
  have howners : DistinctAccounts find (q.payouts.map Prod.fst) := by
    intro owner howner owner' howner'
    exact hdistinct owner (mem_recipients_of_quoteOf hquote owner howner) owner'
      (mem_recipients_of_quoteOf hquote owner' howner')
  obtain ⟨recipient', hrecipient', due', hdue', feePayer, -, quoted, hquoted,
    ⟨-, hmemos, hallowed⟩, hq⟩ := quoteOf_eq_some.mp hquote
  obtain rfl := Option.some.inj (hrecipient.symm.trans hrecipient')
  obtain rfl := Option.some.inj (hdue.symm.trans hdue')
  have hlength : due.length = details.splitList.length := (mapM_splitDue.mp hdue).length_eq
  have hq' : q.payouts = (recipient, primary) :: due ∧
      q.memos = expectedMemos request.externalId details.splitList ∧
      q.requiredOwners = requiredOwners due details.splitList ∧ q.token = quoted := by
    rw [hq]
    exact ⟨rfl, rfl, rfl, rfl⟩
  obtain ⟨hpayouts, hqmemos, hqrequired, hqtoken⟩ := hq'
  rw [hverify]
  refine verify_lines_iff hpaid hprice hunits hcompiled hfee ?_ ?_ ?_ howners ?_
  · rw [hpayouts]
    exact payouts_of_chargeLines hlength
  · rw [hqmemos]
    exact memos_of_chargeLines hpolicy hlength
  · rw [hqmemos]
    exact hmemos
  · intro owner howner
    rw [hqrequired] at howner
    -- accounts are required of a token only
    have hata := (requiredOwners_ne_nil hlength).mp (List.ne_nil_of_mem howner)
    obtain ⟨use, huse, -⟩ := hallowed hata
    obtain ⟨used, rfl, -⟩ := hpaid.tokens use (hqtoken ▸ huse)
    exact ⟨rfl, exists_line_of_required hpolicy howner⟩

/-- The accounts of the splits that a client opens are ones it may open: those that are
required, and all where nobody else pays the fee. -/
theorem allowed_of_policy (hquote : quoteOf request details primary = some q)
    (hdue : details.splitList.mapM splitDue = some due)
    (hrecipient : policy.opensRecipient = false)
    (hsplit : ∀ split, policy.opensSplit split = true →
      q.feePayer = none ∨ split.ataCreationRequired = some true) :
    ∀ line ∈ chargeLines policy recipient primary externalId due details.splitList,
      line.opens = true → line.recipient ∈ q.allowedOwners := by
  obtain ⟨_, -, due', hdue', feePayer, -, quoted, -, -, rfl⟩ := quoteOf_eq_some.mp hquote
  obtain rfl := Option.some.inj (hdue.symm.trans hdue')
  intro line hline hopens
  rcases List.mem_cons.mp hline with rfl | hline
  · exact absurd (hrecipient.symm.trans hopens) Bool.false_ne_true
  obtain ⟨entry, hentry, rfl⟩ := List.mem_map.mp hline
  have hmem : entry.1.1 ∈ due.map Prod.fst :=
    List.mem_map_of_mem (List.of_mem_zip (a := entry.1) (b := entry.2) hentry).1
  rcases hsplit entry.2 hopens with hnone | hrequired
  · rcases feePayer with _ | payer
    · exact hmem
    · cases hnone
  · have howner : entry.1.1 ∈ requiredOwners due details.splitList :=
      List.mem_map.mpr ⟨entry, List.mem_filter.mpr ⟨hentry, decide_eq_true hrequired⟩, rfl⟩
    show entry.1.1 ∈ (if _ then _ else _)
    split
    · exact howner
    · exact hmem

/-- No memo of the lines is empty if no text is. -/
theorem memos_ne_iff (hlength : due.length = splits.length) :
    (∀ line ∈ chargeLines policy recipient primary externalId due splits, line.memo ≠ some "") ↔
      policy.memoOf externalId ≠ some "" ∧
        ∀ split ∈ splits, policy.memoOf split.memo ≠ some "" := by
  have hsplits : (due.zip splits).map Prod.snd = splits :=
    List.map_snd_zip (Nat.le_of_eq hlength.symm)
  rw [chargeLines, List.forall_mem_cons, List.forall_mem_map]
  refine and_congr_right fun _ => ?_
  constructor
  · intro h split hsplit
    rw [← hsplits] at hsplit
    obtain ⟨entry, hentry, rfl⟩ := List.mem_map.mp hsplit
    exact h entry hentry
  · intro h entry hentry
    exact h entry.2 (List.of_mem_zip (a := entry.1) (b := entry.2) hentry).2

end Charge

/-- Rounds that each write the line of a split write the lines of all. -/
theorem lines_of_foldlM {ε : Type} (find : FindProgramAddress) (signer payer : Pubkey)
    (token : Option TokenUse) (lineOf : Pubkey × UInt64 → Split → PaymentLine)
    (Good : Split → Prop) {step : List Instruction → Split → Except ε (List Instruction)} :
    ∀ {splits : List Split}, (∀ split ∈ splits, ∀ before after, step before split = .ok after →
      ∃ payout, splitDue split = some payout ∧ Good split ∧
        after = before ++ (lineOf payout split).instructions find signer payer token) →
      ∀ {before after : List Instruction}, splits.foldlM step before = .ok after →
      ∃ due, splits.mapM splitDue = some due ∧ (∀ split ∈ splits, Good split) ∧
        after = before ++ ((due.zip splits).map fun entry => lineOf entry.1 entry.2).flatMap
          fun line => line.instructions find signer payer token := by
  intro splits
  induction splits with
  | nil =>
    intro _ before after h
    obtain rfl : before = after := by cases h; rfl
    exact ⟨[], rfl, fun split h => (nomatch h), (List.append_nil before).symm⟩
  | cons split splits ih =>
    intro hstep before after h
    obtain ⟨hsplit, hsplits⟩ := List.forall_mem_cons.mp hstep
    rw [List.foldlM_cons] at h
    rcases hround : step before split with e | next
    · rw [hround] at h
      cases h
    · rw [hround] at h
      obtain ⟨payout, hpayout, hgood, rfl⟩ := hsplit before next hround
      obtain ⟨due, hdue, hall, rfl⟩ := ih hsplits h
      refine ⟨payout :: due, ?_, List.forall_mem_cons.mpr ⟨hgood, hall⟩, ?_⟩
      · rw [List.mapM_cons, hpayout, hdue]
        rfl
      · rw [List.zip_cons_cons, List.map_cons, List.flatMap_cons, List.append_assoc]

/-! ## The quote of a client -/

/-- The keys that have to do with a charge: who pays it, who pays its fee, and whom it pays. -/
def chargeParties (signer : Pubkey) (request : ChargeRequest) (details : MethodDetails) :
    List Pubkey :=
  signer :: ((details.feePayerKey.bind (Bytes.fromBase58 32)).toList ++ recipients request details)

theorem resolveStablecoinMint_eq_none {currency : String} {network : Option String} :
    resolveStablecoinMint currency network = none ↔ toUppercase currency = "SOL" := by
  unfold resolveStablecoinMint
  split <;> simp_all

/-- The token of a request that is not paid in SOL. -/
theorem quotedToken_of_mint {request : ChargeRequest} {details : MethodDetails} {mint : Pubkey}
    {program : Option Pubkey}
    (hmint : resolveStablecoinMint request.currency details.network = some mint.toBase58)
    (hprogram : quotedProgram details = some program) :
    quotedToken request details = some (some ⟨mint, program, details.decimals⟩) := by
  have hsol : ¬ request.IsNativeSol := by
    intro hsol
    have hnone : resolveStablecoinMint request.currency details.network = none :=
      resolveStablecoinMint_eq_none.mpr hsol
    cases hnone.symm.trans hmint
  rw [quotedToken, if_neg hsol, hmint, hprogram, Option.bind_some, Bytes.fromBase58_toBase58]
  rfl

/-- The memos that are expected are short enough if the texts that are not empty are. -/
theorem length_of_expectedMemos {externalId : Option String} {splits : List Split}
    (hexternal : ∀ text ∈ nonEmpty externalId, (utf8 text).length ≤ 566)
    (hsplits : ∀ split ∈ splits, ∀ text ∈ nonEmpty split.memo, (utf8 text).length ≤ 566) :
    ∀ memo ∈ expectedMemos externalId splits, (utf8 memo.2).length ≤ 566 := by
  intro memo hmemo
  rcases List.mem_append.mp hmemo with hmemo | hmemo
  · obtain ⟨text, htext, rfl⟩ := List.mem_map.mp hmemo
    exact hexternal text (Option.mem_toList.mp htext)
  · obtain ⟨split, hsplit, hmemo⟩ := List.mem_filterMap.mp hmemo
    obtain ⟨text, htext, rfl⟩ := Option.map_eq_some_iff.mp hmemo
    exact hsplits split hsplit text htext

theorem mem_of_mem_nonEmpty {memo : Option String} {text : String} (h : text ∈ nonEmpty memo) :
    text ∈ memo := (Option.filter_eq_some_iff.mp h).1

section Quoted
variable {find : FindProgramAddress} {request : ChargeRequest} {details : MethodDetails}
  {q : Quote} {signer : Pubkey} {primary : UInt64} {quoted : QuotedToken}

/-- The parties of a charge have token accounts of their own, so do its recipients. -/
theorem DistinctAccounts.recipients (h : DistinctAccounts find (chargeParties signer request details)) :
    DistinctAccounts find (recipients request details) := by
  intro owner howner owner' howner'
  exact h owner (List.mem_cons_of_mem _ (List.mem_append_right _ howner)) owner'
    (List.mem_cons_of_mem _ (List.mem_append_right _ howner'))

/-- The signer's account is not the fee payer's. -/
theorem DistinctAccounts.source (h : DistinctAccounts find (chargeParties signer request details))
    {payer : Pubkey} (hpayer : details.feePayerKey.bind (Bytes.fromBase58 32) = some payer)
    (hne : payer ≠ signer) (program mint : Pubkey) :
    associatedTokenAddress find signer program mint ≠
      associatedTokenAddress find payer program mint := by
  intro heq
  have hmem : payer ∈ chargeParties signer request details :=
    List.mem_cons_of_mem _ (List.mem_append_left _ (Option.mem_toList.mpr hpayer))
  exact hne (h _ List.mem_cons_self _ hmem _ _ heq).symm

end Quoted

/-- A transaction that a client has built for a request: what the client has read of the request,
and the lines it has compiled. -/
structure ChargeBuild (find : FindProgramAddress) (signer : Pubkey) (request : ChargeRequest)
    (details : MethodDetails) (tx : VersionedTransaction) where
  policy : ChargePolicy
  recipient : Pubkey
  primary : UInt64
  due : List (Pubkey × UInt64)
  feePayer : Option Pubkey
  quoted : Option QuotedToken
  token : Option TokenUse
  microLamports : UInt64
  units : UInt32
  recipient_eq : request.recipient = some recipient.toBase58
  primary_eq : primaryAmount request details.splitList = .ok primary
  due_eq : details.splitList.mapM splitDue = some due
  feePayer_eq : quotedFeePayer details = some feePayer
  feePayer_ne : ∀ key ∈ feePayer, key ≠ signer
  quoted_eq : quotedToken request details = some quoted
  lamports : quoted = none → token = none
  tokens : ∀ mint ∈ quoted, ∃ use, token = some use ∧ use.mint = mint.mint ∧
    (use.program = programs.tokenKey ∨ use.program = programs.token2022Key) ∧
    (∀ expected ∈ mint.program, use.program = expected) ∧
    ∀ expected ∈ mint.decimals, use.decimals = expected
  opens : requiresAta details.splitList → ∃ mint ∈ quoted, request.currency = mint.mint.toBase58
  fewSplits : details.splitList.length ≤ 8
  memos : ∀ memo ∈ expectedMemos request.externalId details.splitList,
    (utf8 memo.2).length ≤ 566
  sound : policy.Sound
  price : microLamports.toNat ≤ MAX_COMPUTE_UNIT_PRICE_MICROLAMPORTS
  limit : units.toNat ≤ MAX_COMPUTE_UNIT_LIMIT
  compiled : Compiles (feePayer.getD signer) (chargeInstructions find signer (feePayer.getD signer)
    token microLamports units (chargeLines policy recipient primary request.externalId due
      details.splitList)) tx.message

namespace ChargeBuild
variable {find : FindProgramAddress} {signer : Pubkey} {request : ChargeRequest}
  {details : MethodDetails} {tx : VersionedTransaction}

/-- The lines that are compiled. -/
def lines (b : ChargeBuild find signer request details tx) : List PaymentLine :=
  chargeLines b.policy b.recipient b.primary request.externalId b.due details.splitList

/-- The owners whose accounts the server lets the client open. -/
def allowedOwners (b : ChargeBuild find signer request details tx) : List Pubkey :=
  if b.feePayer.isSome then requiredOwners b.due details.splitList else b.due.map Prod.fst

/-- What the request asks for. -/
def quote (b : ChargeBuild find signer request details tx) : Quote where
  feePayer := b.feePayer
  token := b.quoted
  payouts := (b.recipient, b.primary) :: b.due
  memos := expectedMemos request.externalId details.splitList
  allowedOwners := b.allowedOwners
  requiredOwners := requiredOwners b.due details.splitList

theorem recipient_of (b : ChargeBuild find signer request details tx) :
    request.recipient.bind (Bytes.fromBase58 32) = some b.recipient := by
  rw [b.recipient_eq]
  exact Bytes.fromBase58_toBase58 b.recipient

theorem quoteOf_eq (b : ChargeBuild find signer request details tx) :
    quoteOf request details b.primary = some b.quote :=
  quoteOf_eq_some.mpr ⟨b.recipient, b.recipient_of, b.due, b.due_eq, b.feePayer, b.feePayer_eq,
    b.quoted, b.quoted_eq, ⟨b.fewSplits, b.memos, b.opens⟩, rfl⟩

theorem length_eq (b : ChargeBuild find signer request details tx) :
    b.due.length = details.splitList.length := (mapM_splitDue.mp b.due_eq).length_eq

theorem feePayerKey_of_mem (b : ChargeBuild find signer request details tx) {payer : Pubkey}
    (h : payer ∈ b.feePayer) : details.feePayerKey.bind (Bytes.fromBase58 32) = some payer := by
  have hquoted := b.feePayer_eq
  unfold quotedFeePayer at hquoted
  split at hquoted
  · obtain hnone : none = b.feePayer := Option.some.inj hquoted
    rw [← hnone] at h
    cases h
  · obtain ⟨key, hkey, hsome⟩ := Option.map_eq_some_iff.mp hquoted
    rw [← hsome] at h
    cases h
    exact hkey

/-- **What the server makes of it.**  It accepts the transaction exactly if it opens accounts of
allowed owners only, and no memo is empty. -/
theorem accepted_iff (b : ChargeBuild find signer request details tx)
    (hdistinct : DistinctAccounts find (chargeParties signer request details)) :
    verifyPreBroadcast find tx request details = .ok () ↔
      (∀ line ∈ b.lines, line.opens = true → b.token.isSome →
        line.recipient ∈ b.allowedOwners) ∧
      ∀ line ∈ b.lines, line.memo ≠ some "" := by
  refine accepts_charge_iff b.sound hdistinct.recipients b.primary_eq b.quoteOf_eq b.recipient_of
    b.due_eq ⟨b.lamports, b.tokens, ?_, ?_⟩ ?_ b.price b.limit b.compiled
  · exact fun hpayer => b.feePayer_ne signer hpayer rfl
  · intro payer hpayer
    exact hdistinct.source (b.feePayerKey_of_mem hpayer) (b.feePayer_ne payer hpayer)
  · intro payer hpayer
    have hsome : b.feePayer = some payer := hpayer
    rw [hsome]
    rfl

/-- A client that opens no other accounts of splits than it may is accepted exactly if no memo
is empty. -/
theorem accepted_iff_memos (b : ChargeBuild find signer request details tx)
    (hdistinct : DistinctAccounts find (chargeParties signer request details))
    (hrecipient : b.policy.opensRecipient = false)
    (hsplit : ∀ split, b.policy.opensSplit split = true →
      b.feePayer = none ∨ split.ataCreationRequired = some true) :
    verifyPreBroadcast find tx request details = .ok () ↔
      b.policy.memoOf request.externalId ≠ some "" ∧
        ∀ split ∈ details.splitList, b.policy.memoOf split.memo ≠ some "" := by
  have hallowed : ∀ line ∈ b.lines, line.opens = true → line.recipient ∈ b.allowedOwners :=
    allowed_of_policy b.quoteOf_eq b.due_eq hrecipient hsplit
  rw [b.accepted_iff hdistinct, ← memos_ne_iff b.length_eq]
  exact and_iff_right fun line hline hopens _ => hallowed line hline hopens

end ChargeBuild
namespace Sample

/-! ## Compiling the messages of examples -/

/-- The accounts of a message with their roles, the payer first. -/
def accountMetas (payer : Pubkey) (instructions : List Instruction) : List AccountMeta :=
  .new payer true :: instructions.flatMap fun i => .newReadonly i.programId false :: i.accounts

/-- An account signs if it does so for some instruction, and likewise is written. -/
def hasRole (role : AccountMeta → Bool) (metas : List AccountMeta) (key : Pubkey) : Bool :=
  metas.any fun account => account.pubkey = key ∧ role account = true

/-- Where the roles of an account put it: signers come first, and what is written. -/
def rankOf (metas : List AccountMeta) (key : Pubkey) : Nat :=
  (if hasRole AccountMeta.isSigner metas key then 0 else 2) +
    if hasRole AccountMeta.isWritable metas key then 0 else 1

/-- The accounts by their ranks, those of one rank in the order that is given. -/
def sortedKeys (before : Pubkey → Pubkey → Bool) (payer : Pubkey) (metas : List AccountMeta) :
    List Pubkey :=
  let others := ((metas.map AccountMeta.pubkey).filter (· ≠ payer)).reverse.dedup.reverse
  payer :: others.insertionSort fun a b => rankOf metas a < rankOf metas b ∨
    rankOf metas a = rankOf metas b ∧ before a b = true

/-- The accounts of a rank. -/
def countOf (metas : List AccountMeta) (keys : List Pubkey) (rank : Nat) : UInt8 :=
  .ofNat (keys.countP fun key => rankOf metas key = rank)

/-- A message that is compiled as it is documented. -/
def compileMessage (before : Pubkey → Pubkey → Bool)
    (version : MessageHeader → MessageBody → VersionedMessage) : CompileMessage :=
  fun instructions payer blockhash =>
    let metas := accountMetas payer instructions
    let keys := sortedKeys before payer metas
    version ⟨countOf metas keys 0 + countOf metas keys 1, countOf metas keys 1,
        countOf metas keys 3⟩
      { accountKeys := keys
        recentBlockhash := blockhash
        instructions := instructions.map fun i =>
          ⟨.ofNat (keys.idxOf i.programId), i.accounts.map fun account =>
            .ofNat (keys.idxOf account.pubkey), i.data⟩ }

section Compile
variable {before : Pubkey → Pubkey → Bool} {payer : Pubkey} {instructions : List Instruction}

theorem map_accountMetas :
    (accountMetas payer instructions).map AccountMeta.pubkey = accountKeysOf payer instructions := by
  rw [accountMetas, accountKeysOf, List.map_cons, List.map_flatMap]
  rfl

theorem mem_sortedKeys {key : Pubkey} (h : key ∈ accountKeysOf payer instructions) :
    key ∈ sortedKeys before payer (accountMetas payer instructions) := by
  by_cases hpayer : key = payer
  · exact hpayer ▸ List.mem_cons_self
  · refine List.mem_cons_of_mem _ ((List.perm_insertionSort _ _).mem_iff.mpr ?_)
    rw [List.mem_reverse, List.mem_dedup, List.mem_reverse, map_accountMetas]
    exact List.mem_filter.mpr ⟨h, decide_eq_true hpayer⟩

theorem length_sortedKeys : (sortedKeys before payer (accountMetas payer instructions)).length ≤
    (accountKeysOf payer instructions).length := by
  rw [sortedKeys, List.length_cons, List.length_insertionSort, List.length_reverse,
    map_accountMetas, accountKeysOf, List.filter_cons_of_neg (by simp), List.length_cons]
  refine Nat.succ_le_succ ((List.dedup_sublist _).length_le.trans ?_)
  rw [List.length_reverse]
  exact List.length_filter_le _ _

/-- The index of a key finds it. -/
theorem getElem?_index {keys : List Pubkey} {key : Pubkey} (hlength : keys.length ≤ 256)
    (h : key ∈ keys) : keys[(UInt8.ofNat (keys.idxOf key)).toNat]? = some key := by
  have hlt : keys.idxOf key < 256 := (List.idxOf_lt_length_of_mem h).trans_le hlength
  rw [UInt8.toNat_ofNat_of_lt' hlt]
  exact List.getElem?_idxOf h

theorem compiles_of_length {message : VersionedMessage} {blockhash : Hash}
    (hlength : (accountKeysOf payer instructions).length ≤ 256)
    (hlookups : ∀ lookups ∈ message.addressTableLookups, lookups = [])
    (hkeys : message.staticAccountKeys =
      sortedKeys before payer (accountMetas payer instructions))
    (hinstructions : message.instructions = (compileMessage before .legacy instructions payer
      blockhash).instructions) : Compiles payer instructions message := by
  refine ⟨hlookups, by rw [hkeys]; rfl, ?_⟩
  rw [hkeys, hinstructions]
  show List.Forall₂ _ instructions (instructions.map _)
  rw [List.forall₂_map_right_iff, List.forall₂_same]
  intro i hi
  have hfew : (sortedKeys before payer (accountMetas payer instructions)).length ≤ 256 :=
    length_sortedKeys.trans hlength
  have hmem : ∀ key ∈ i.programId :: i.accounts.map AccountMeta.pubkey,
      key ∈ sortedKeys before payer (accountMetas payer instructions) := fun key hkey =>
    mem_sortedKeys (List.mem_cons_of_mem _ (List.mem_flatMap.mpr ⟨i, hi, hkey⟩))
  refine ⟨getElem?_index hfew (hmem _ List.mem_cons_self), ?_, rfl⟩
  rw [List.map_map]
  refine List.map_congr_left fun account haccount => ?_
  exact getElem?_index hfew (hmem _ (List.mem_cons_of_mem _ (List.mem_map_of_mem haccount)))

/-- Legacy messages are compiled as documented. -/
theorem compileMessage_legacy : (compileMessage before .legacy).Documented :=
  fun _ _ _ hlength => compiles_of_length hlength (fun _ h => nomatch h) rfl rfl

/-- So are those of version 0 without tables. -/
theorem compileMessage_v0 :
    (compileMessage before fun header body => .v0 header body []).Documented :=
  fun _ _ _ hlength => compiles_of_length hlength (fun lookups h => by cases h; rfl) rfl rfl

end Compile

/-- The order of the bytes of keys. -/
def bytesBefore (a b : Pubkey) : Bool := a.toList ≤ b.toList

/-- The parties of the sample charge have token accounts of their own. -/
theorem distinctParties {request : ChargeRequest}
    (hrecipient : request.recipient = some (key 2).toBase58) :
    DistinctAccounts find (chargeParties (key 3) request details) := by
  have hparties : chargeParties (key 3) request details = [key 3, key 1, key 2, key 4] := by
    rw [chargeParties, recipients, hrecipient]
    decide +kernel
  have hnodup : [payerAta, feePayerAta, recipientAta, vendorAta].Nodup := by decide +kernel
  rw [hparties]
  intro owner howner owner' howner' program mint
  have haccounts : ([key 3, key 1, key 2, key 4].map fun owner =>
      associatedTokenAddress find owner program mint).Nodup := hnodup
  exact fun heq => List.inj_on_of_nodup_map haccounts howner howner' heq

end Sample
end MppSdk
