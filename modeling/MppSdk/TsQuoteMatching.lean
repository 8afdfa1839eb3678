import MppSdk.ExactPayment
import MppSdk.TsChargeClient
import MppSdk.TsPreBroadcast

/-! # The TypeScript matchers over a quote

The rounds of the TypeScript server over what a quote asks for (`pick`), on a message as the
decoder of the client library gives it.  The decoder leaves out empty data and empty account
indices, and the server throws where it reads them.  What a round takes fits, as in Rust
(`exists_of_pick`), and on a transaction that pays the quote the rounds take the same
instructions (`pick_agrees`). -/

namespace MppSdk
namespace Ts
open Sponsorship Matching

/-! ## The decoded message -/

/-- An instruction as the decoder gives it. -/
def CompiledInstruction.ofRust (ix : MppSdk.CompiledInstruction) : CompiledInstruction where
  accountIndices := if ix.accounts = [] then none else some (ix.accounts.map UInt8.toNat)
  data := if ix.data = [] then none else some ix.data
  programAddressIndex := ix.programIdIndex.toNat

/-- A message as the decoder gives it; an empty list of table lookups is left out. -/
def CompiledMessage.ofRust (message : VersionedMessage) : CompiledMessage where
  addressTableLookups :=
    (message.addressTableLookups.filter (· ≠ [])).map List.length
  instructions := message.instructions.map CompiledInstruction.ofRust
  lifetimeToken := message.body.recentBlockhash.toBase58
  staticAccounts := message.staticAccountKeys.map Bytes.toBase58

section Decoded
variable {message : VersionedMessage} {ix : MppSdk.CompiledInstruction} {index : UInt8}
  {label text : String} {key : Pubkey}

theorem toBase58_inj {a b : Pubkey} : a.toBase58 = b.toBase58 ↔ a = b := by
  rw [← Bytes.fromBase58_eq_some, Bytes.fromBase58_eq_some.mpr rfl, Option.some.injEq]

theorem accountAddress_eq_ok :
    accountAddress (.ofRust message) index.toNat label = .ok text ↔
      ∃ key, message.staticAccountKeys[index.toNat]? = some key ∧ key.toBase58 = text := by
  rw [accountAddress, okOrElse_eq_ok]
  show truthy (message.staticAccountKeys.map Bytes.toBase58)[index.toNat]? = _ ↔ _
  rw [List.getElem?_map]
  cases message.staticAccountKeys[index.toNat]? with
  | none => simp [truthy, nonEmpty]
  | some key =>
    rw [Option.map_some, truthy_toBase58]
    simp

theorem programAddress_eq_ok :
    programAddress (.ofRust message) (.ofRust ix) = .ok text ↔
      ∃ key, message.staticAccountKeys[ix.programIdIndex.toNat]? = some key ∧
        key.toBase58 = text := accountAddress_eq_ok

theorem accountAddress_of_some (h : message.staticAccountKeys[index.toNat]? = some key) :
    accountAddress (.ofRust message) index.toNat label = .ok key.toBase58 :=
  accountAddress_eq_ok.mpr ⟨key, h, rfl⟩

theorem programAddress_of_some
    (h : message.staticAccountKeys[ix.programIdIndex.toNat]? = some key) :
    programAddress (.ofRust message) (.ofRust ix) = .ok key.toBase58 :=
  accountAddress_of_some h

theorem data_eq_ok {data : List UInt8} :
    defined (CompiledInstruction.ofRust ix).data = .ok data ↔ ix.data ≠ [] ∧ ix.data = data := by
  rw [defined, okOrElse_eq_ok, CompiledInstruction.ofRust]
  by_cases h : ix.data = [] <;> simp [h]

theorem accountIndices_eq_ok {indices : List Nat} :
    defined (CompiledInstruction.ofRust ix).accountIndices = .ok indices ↔
      ix.accounts ≠ [] ∧ ix.accounts.map UInt8.toNat = indices := by
  rw [defined, okOrElse_eq_ok, CompiledInstruction.ofRust]
  by_cases h : ix.accounts = [] <;> simp [h]

/-- Deriving a token account of keys. -/
theorem findAssociatedTokenPda_eq (find : FindProgramAddress) (mint owner program : Pubkey) :
    findAssociatedTokenPda find mint.toBase58 owner.toBase58 program.toBase58 =
      .ok (associatedTokenAddress find owner program mint).toBase58 := by
  have haddress : ∀ key : Pubkey, address key.toBase58 = .ok key := fun key => address_eq_ok.mpr rfl
  simp only [findAssociatedTokenPda, haddress, ok_bind]
  rfl

end Decoded

/-! ## What the matchers take -/

section Taken
variable {find : FindProgramAddress} {message : VersionedMessage} {q : Quote}
  {ix : MppSdk.CompiledInstruction} {matched : List Nat} {i j : Nat}

/-- A text that the fee payer of a quote has is its address. -/
theorem feePayer_ne {key : Pubkey} :
    q.feePayer.map Bytes.toBase58 ≠ some key.toBase58 ↔ q.feePayer ≠ some key := by
  cases q.feePayer with
  | none => simp
  | some payer => simp [toBase58_inj]

/-- The matcher of SOL transfers takes what fits. -/
theorem fits_of_solTransferAt {recipient : String} {amount : UInt64} (htoken : q.token = none)
    (h : solTransferAt (.ofRust message) recipient amount.toNat (q.feePayer.map Bytes.toBase58)
      matched (.ofRust ix) i = .ok (some j)) :
    j = i ∧ i ∉ matched ∧ ∃ key : Pubkey, recipient = key.toBase58 ∧
      q.Fits find message.staticAccountKeys (.payout key amount) ix := by
  simp only [solTransferAt, continueIf_eq_some, bind_eq_ok, ne_eq, not_not, not_or, data_eq_ok,
    programAddress_eq_ok, accountIndices_eq_ok, Nat.not_lt] at h
  obtain ⟨hfree, _, ⟨program, hcalls, rfl⟩, hsystem, data, ⟨-, rfl⟩, ⟨hlength, htype⟩, hamount,
    indices, ⟨-, hindices⟩, h⟩ := h
  obtain rfl : program = programs.systemKey := pubkeyOf_eq_iff.mp hsystem
  rcases haccounts : ix.accounts with _ | ⟨a, _ | ⟨b, rest⟩⟩ <;> rw [haccounts] at hindices <;>
    subst hindices
  · cases h
  · cases h
  simp only [List.map_cons, bind_eq_ok, accountAddress_eq_ok, continueIf_eq_some, not_not,
    rejectIf_eq_ok] at h
  obtain ⟨_, ⟨source, hsource, rfl⟩, _, ⟨destination, hdestination, rfl⟩, hrecipient, -, hfunds,
    hindex⟩ := h
  refine ⟨by cases hindex; rfl, hfree, destination, hrecipient.symm, ?_⟩
  simp only [Quote.Fits, htoken]
  refine ⟨source, CompiledInstruction.effect_eq_transfer.mpr ⟨hcalls, ?_⟩, feePayer_ne.mp hfunds⟩
  exact systemEffect_eq_transfer.mpr ⟨hlength, htype, (Int.ofNat.inj hamount).symm, a, b, rest,
    haccounts, hsource, hdestination⟩

/-- The matcher of memos takes what fits. -/
theorem fits_of_memoAt {label memo : String}
    (h : memoAt (.ofRust message) matched (utf8 memo) (.ofRust ix) i = .ok (some j)) :
    j = i ∧ i ∉ matched ∧ q.Fits find message.staticAccountKeys (.memo label memo) ix := by
  simp only [memoAt, continueIf_eq_some, bind_eq_ok, ne_eq, not_not, data_eq_ok,
    programAddress_eq_ok] at h
  obtain ⟨hfree, _, ⟨program, hcalls, rfl⟩, hmemo, data, ⟨-, rfl⟩, hdata, hindex⟩ := h
  obtain rfl : program = programs.memoKey := pubkeyOf_eq_iff.mp hmemo
  exact ⟨by cases hindex; rfl, hfree, CompiledInstruction.effect_eq_memo.mpr ⟨hcalls, hdata⟩⟩

/-- The matcher of token transfers takes what fits. -/
theorem fits_of_splTransferAt {recipient : String} {amount : UInt64} {token : QuotedToken}
    {expected : Pubkey} (htoken : q.token = some token) (hexpected : token.program = some expected)
    (h : splTransferAt find (.ofRust message) recipient token.mint.toBase58 expected.toBase58
      amount.toNat (token.decimals.map UInt8.toNat) (q.feePayer.map Bytes.toBase58) matched
      (.ofRust ix) i = .ok (some j)) :
    j = i ∧ i ∉ matched ∧ ∃ key : Pubkey, recipient = key.toBase58 ∧
      q.Fits find message.staticAccountKeys (.payout key amount) ix := by
  simp only [splTransferAt, continueIf_eq_some, bind_eq_ok, ne_eq, not_not, not_or, not_and_or,
    data_eq_ok, programAddress_eq_ok, accountIndices_eq_ok, Nat.not_lt] at h
  obtain ⟨hfree, _, ⟨program, hcalls, rfl⟩, hprograms, hsame, data, ⟨-, rfl⟩, ⟨hlength, hhead⟩,
    hamount, hdecimals, indices, ⟨-, hindices⟩, h⟩ := h
  obtain rfl := toBase58_inj.mp hsame
  rcases haccounts : ix.accounts with _ | ⟨a, _ | ⟨m, _ | ⟨b, _ | ⟨c, rest⟩⟩⟩⟩ <;>
    rw [haccounts] at hindices <;> subst hindices
  · cases h
  · cases h
  · cases h
  · cases h
  simp only [List.map_cons, bind_eq_ok, accountAddress_eq_ok, continueIf_eq_some, not_not] at h
  obtain ⟨_, ⟨source, hsource, rfl⟩, _, ⟨mint, hmint, rfl⟩, _, ⟨destination, hdestination, rfl⟩, _,
    ⟨authority, hauthority, rfl⟩, hmint', u, hfunds, ata, hata, hdestination', hindex⟩ := h
  obtain rfl := toBase58_inj.mp hmint'
  -- deriving the account of the recipient reads its address
  obtain ⟨key, rfl⟩ : ∃ key : Pubkey, recipient = key.toBase58 := by
    simp only [findAssociatedTokenPda, bind_eq_ok, address_eq_ok] at hata
    obtain ⟨-, -, key, hkey, -⟩ := hata
    exact ⟨key, hkey⟩
  rw [findAssociatedTokenPda_eq] at hata
  obtain rfl := Except.ok.inj hata
  obtain rfl := toBase58_inj.mp hdestination'
  obtain ⟨tail, htail⟩ := List.head?_eq_some_iff.mp hhead
  have hnine : tail[8]? = some (tail.get ⟨8, by rw [htail, List.length_cons] at hlength; omega⟩) :=
    List.getElem?_eq_getElem _
  refine ⟨by cases hindex; rfl, hfree, key, rfl, ?_⟩
  simp only [Quote.Fits, htoken]
  refine ⟨program, source, authority, _, CompiledInstruction.effect_eq_tokenTransfer.mpr ⟨hcalls,
    hprograms.imp pubkeyOf_eq_iff.mp pubkeyOf_eq_iff.mp, tokenEffect_eq_transfer.mpr
      ⟨rfl, a, m, b, c, rest, tail, haccounts, htail, hsource, hmint, hdestination, hauthority,
        hnine, ?_⟩⟩, hprograms.imp pubkeyOf_eq_iff.mp pubkeyOf_eq_iff.mp, ?_, ?_, ?_⟩
  · rw [htail] at hamount
    exact (Int.ofNat.inj hamount).symm
  · intro expected he
    rw [hexpected] at he
    exact Option.some.inj he
  · intro d hd
    by_contra hne
    refine hdecimals ⟨d.toNat, ?_, ?_⟩
    · rw [Option.mem_def.mp hd]
      rfl
    · rw [htail, List.getElem?_cons_succ, hnine, Option.map_some, Option.some.injEq]
      exact fun he => hne (UInt8.toNat_inj.mp he)
  · cases hpayer : q.feePayer with
    | none => exact ⟨by rintro ⟨⟩, by rintro _ ⟨⟩⟩
    | some payer =>
      simp only [hpayer, Option.map_some, rejectFeePayerFunds, bind_eq_ok, rejectIf_eq_ok,
        findAssociatedTokenPda_eq] at hfunds
      obtain ⟨-, hauthorizes, _, hown, hown'⟩ := hfunds
      obtain rfl := Except.ok.inj hown
      constructor
      · intro he
        exact hauthorizes (congrArg Bytes.toBase58 (Option.some.inj he).symm)
      · rintro _ ⟨⟩ rfl
        exact hown' rfl

end Taken

/-! ## What the matchers pass over -/

/-- The body takes the instruction if it is free and fits, and passes over it otherwise. -/
def Decides (fits : Prop) (body : Thrown (Option Nat)) (matched : List Nat) (i : Nat) : Prop :=
  ((i ∉ matched ∧ fits) ∧ body = .ok (some i)) ∨ (¬ (i ∉ matched ∧ fits) ∧ body = .ok none)

section Decided
variable {find : FindProgramAddress} {message : VersionedMessage} {q : Quote}
  {ix : MppSdk.CompiledInstruction} {matched : List Nat} {i : Nat}

theorem continueIf_pos {c : Prop} [Decidable c] {rest : Thrown (Option Nat)} (h : c) :
    continueIf c rest = .ok none := if_pos h

theorem continueIf_neg {c : Prop} [Decidable c] {rest : Thrown (Option Nat)} (h : ¬ c) :
    continueIf c rest = rest := if_neg h

theorem data_of_ne_nil (h : ix.data ≠ []) :
    defined (CompiledInstruction.ofRust ix).data = .ok ix.data := data_eq_ok.mpr ⟨h, rfl⟩

theorem accountIndices_of_ne_nil (h : ix.accounts ≠ []) :
    defined (CompiledInstruction.ofRust ix).accountIndices = .ok (ix.accounts.map UInt8.toNat) :=
  accountIndices_eq_ok.mpr ⟨h, rfl⟩

/-- The matcher of SOL transfers decides every readable instruction. -/
theorem decides_solTransferAt {recipient : Pubkey} {amount : UInt64} (htoken : q.token = none)
    (hread : Readable find message.staticAccountKeys q ix) :
    Decides (q.Fits find message.staticAccountKeys (.payout recipient amount) ix)
      (solTransferAt (.ofRust message) recipient.toBase58 amount.toNat
        (q.feePayer.map Bytes.toBase58) matched (.ofRust ix) i) matched i := by
  have hfits : q.Fits find message.staticAccountKeys (.payout recipient amount) ix ↔
      ∃ source, ix.effect message.staticAccountKeys =
        .transfer source recipient amount.toNat ∧ q.feePayer ≠ some source := by
    simp only [Quote.Fits, htoken]
  unfold Decides
  by_cases hfree : i ∈ matched
  · exact Or.inr ⟨fun h => h.1 hfree, continueIf_pos hfree⟩
  obtain ⟨program, hcalls⟩ := hread.calls
  have hprogram := programAddress_of_some hcalls
  by_cases hsystem : program = programs.systemKey
  case neg =>
    refine Or.inr ⟨?_, ?_⟩
    · rintro ⟨-, h⟩
      obtain ⟨source, heffect, -⟩ := hfits.mp h
      have hcalled := (CompiledInstruction.effect_eq_transfer.mp heffect).1
      exact hsystem (Option.some.inj (hcalls.symm.trans hcalled))
    · have hother : program.toBase58 ≠ programs.SYSTEM_PROGRAM :=
        fun h => hsystem (pubkeyOf_eq_iff.mp h)
      rw [solTransferAt, continueIf_neg hfree, hprogram, ok_bind, continueIf_pos hother]
  subst hsystem
  -- what fits something is a transfer: its data and its accounts are there to be read
  obtain ⟨d, hd⟩ := hread.fits (isPayment_of_mem hcalls (by simp))
  obtain ⟨source, destination, n, heffect, hfunds⟩ := exists_transfer_of_fits htoken hcalls hd
  obtain ⟨hlength, htype, rfl, a, b, rest, haccounts, hsource, hdestination⟩ :=
    systemEffect_eq_transfer.mp (CompiledInstruction.effect_eq_transfer.mp heffect).2
  have hdata : ix.data ≠ [] := by
    intro h
    rw [h] at hlength
    exact absurd hlength (by decide)
  have hshape : ¬ (ix.data.length < 12 ∨ fromLeBytes (slice ix.data 0 4) ≠ 2) := by
    rw [not_or]
    exact ⟨Nat.not_lt.mpr hlength, not_not.mpr htype⟩
  have hindices : defined (CompiledInstruction.ofRust ix).accountIndices =
      .ok (a.toNat :: b.toNat :: rest.map UInt8.toNat) := by
    rw [accountIndices_of_ne_nil (by simp [haccounts]), haccounts]
    rfl
  have hsystem : ¬ programs.systemKey.toBase58 ≠ programs.SYSTEM_PROGRAM :=
    not_not.mpr (pubkeyOf_eq_iff.mpr rfl)
  have hbody : solTransferAt (.ofRust message) recipient.toBase58 amount.toNat
      (q.feePayer.map Bytes.toBase58) matched (.ofRust ix) i =
      continueIf ((fromLeBytes ((ix.data.drop 4).take 8) : Int) ≠ amount.toNat)
        (continueIf (destination.toBase58 ≠ recipient.toBase58) (.ok (some i))) := by
    rw [solTransferAt, continueIf_neg hfree, hprogram, ok_bind, continueIf_neg hsystem,
      data_of_ne_nil hdata, ok_bind, continueIf_neg hshape, hindices, ok_bind]
    simp only [accountAddress_of_some hsource, accountAddress_of_some hdestination, ok_bind]
    rw [throwIf, rejectIf_neg (feePayer_ne.mpr hfunds)]
    rfl
  rw [hbody]
  by_cases hpays : fromLeBytes ((ix.data.drop 4).take 8) = amount.toNat ∧ destination = recipient
  · obtain ⟨hamount, rfl⟩ := hpays
    refine Or.inl ⟨⟨hfree, hfits.mpr ⟨source, ?_, hfunds⟩⟩, ?_⟩
    · rw [heffect, hamount]
    · rw [hamount, continueIf_neg (not_not.mpr rfl), continueIf_neg (not_not.mpr rfl)]
  · refine Or.inr ⟨?_, ?_⟩
    · rintro ⟨-, h⟩
      obtain ⟨source', heffect', -⟩ := hfits.mp h
      rw [heffect] at heffect'
      injection heffect' with _ hrecipient hamount
      exact hpays ⟨hamount, hrecipient⟩
    · by_cases hamount : fromLeBytes ((ix.data.drop 4).take 8) = amount.toNat
      · rw [hamount, continueIf_neg (not_not.mpr rfl)]
        exact continueIf_pos fun h => hpays ⟨hamount, toBase58_inj.mp h⟩
      · exact continueIf_pos fun h => hamount (Int.ofNat.inj h)

/-- The fee payer funds no transfer that fits. -/
theorem rejectFeePayerFunds_of_ne {mint program source authority : Pubkey}
    (hauthority : q.feePayer ≠ some authority)
    (hfunds : ∀ payer ∈ q.feePayer, source ≠ associatedTokenAddress find payer program mint) :
    rejectFeePayerFunds find mint.toBase58 (q.feePayer.map Bytes.toBase58) program.toBase58
      source.toBase58 authority.toBase58 = .ok () := by
  cases hpayer : q.feePayer with
  | none => rfl
  | some payer =>
    have hauthorizes : ¬ authority.toBase58 = payer.toBase58 := by
      rw [toBase58_inj]
      rintro rfl
      exact hauthority hpayer
    have hown : ¬ source.toBase58 =
        (associatedTokenAddress find payer program mint).toBase58 := by
      rw [toBase58_inj]
      exact hfunds payer hpayer
    simp only [Option.map_some, rejectFeePayerFunds, throwIf, rejectIf_neg hauthorizes, ok_bind,
      findAssociatedTokenPda_eq, rejectIf_neg hown]

/-- The matcher of token transfers decides every readable instruction. -/
theorem decides_splTransferAt {recipient : Pubkey} {amount : UInt64} {token : QuotedToken}
    {expected : Pubkey} (htoken : q.token = some token) (hexpected : token.program = some expected)
    (hread : Readable find message.staticAccountKeys q ix) :
    Decides (q.Fits find message.staticAccountKeys (.payout recipient amount) ix)
      (splTransferAt find (.ofRust message) recipient.toBase58 token.mint.toBase58
        expected.toBase58 amount.toNat (token.decimals.map UInt8.toNat)
        (q.feePayer.map Bytes.toBase58) matched (.ofRust ix) i) matched i := by
  unfold Decides
  by_cases hfree : i ∈ matched
  · exact Or.inr ⟨fun h => h.1 hfree, continueIf_pos hfree⟩
  obtain ⟨program, hcalls⟩ := hread.calls
  have hprogramAddress := programAddress_of_some hcalls
  have hcalled : q.Fits find message.staticAccountKeys (.payout recipient amount) ix →
      (program = programs.tokenKey ∨ program = programs.token2022Key) ∧
        ∃ source authority d, ix.effect message.staticAccountKeys =
          .tokenTransfer program source token.mint
            (associatedTokenAddress find recipient program token.mint) authority amount.toNat
            d := by
    intro h
    simp only [Quote.Fits, htoken] at h
    obtain ⟨program', source, authority, d, heffect, hprogram, -⟩ := h
    have hcalled := (CompiledInstruction.effect_eq_tokenTransfer.mp heffect).1
    obtain rfl := Option.some.inj (hcalls.symm.trans hcalled)
    exact ⟨hprogram, source, authority, d, heffect⟩
  by_cases hprogram : program = programs.tokenKey ∨ program = programs.token2022Key
  case neg =>
    refine Or.inr ⟨fun h => hprogram (hcalled h.2).1, ?_⟩
    have hother : program.toBase58 ≠ programs.TOKEN_PROGRAM ∧
        program.toBase58 ≠ programs.TOKEN_2022_PROGRAM := by
      rw [not_or] at hprogram
      exact hprogram.imp (fun hne h => hne (pubkeyOf_eq_iff.mp h))
        (fun hne h => hne (pubkeyOf_eq_iff.mp h))
    rw [splTransferAt, continueIf_neg hfree, hprogramAddress, ok_bind, continueIf_pos hother]
  -- what fits something is a transfer of the token, and none of the fee payer's
  obtain ⟨d, hd⟩ := hread.fits
    (isPayment_of_mem hcalls (by rcases hprogram with rfl | rfl <;> simp))
  obtain ⟨source, destination, authority, n, decimals, heffect, hsame, hdecimals, hauthority,
    hfunds⟩ := exists_tokenTransfer_of_fits htoken hcalls hprogram hd
  obtain rfl : program = expected := hsame expected hexpected
  obtain ⟨-, -, hdata⟩ := CompiledInstruction.effect_eq_tokenTransfer.mp heffect
  obtain ⟨-, a, m, b, c, rest, tail, haccounts, hix, hsource, hmint, hdestination, hauthority',
    htail, rfl⟩ := tokenEffect_eq_transfer.mp hdata
  obtain ⟨hlong, -⟩ := List.getElem?_eq_some_iff.mp htail
  have hprogram' : ¬ (program.toBase58 ≠ programs.TOKEN_PROGRAM ∧
      program.toBase58 ≠ programs.TOKEN_2022_PROGRAM) := by
    rw [not_and_or, not_not, not_not]
    exact hprogram.imp pubkeyOf_eq_iff.mpr pubkeyOf_eq_iff.mpr
  have hshape : ¬ ((12 :: tail).length < 10 ∨ (12 :: tail).head? ≠ some 12) := by
    rw [not_or, not_not, List.length_cons]
    exact ⟨by omega, rfl⟩
  have hdecimals' : ¬ ∃ decimals ∈ token.decimals.map UInt8.toNat,
      (12 :: tail)[9]?.map UInt8.toNat ≠ some decimals := by
    rintro ⟨_, he, hne⟩
    obtain ⟨d, hd, rfl⟩ := Option.map_eq_some_iff.mp he
    rw [List.getElem?_cons_succ, htail, Option.map_some, hdecimals d hd] at hne
    exact hne rfl
  have hindices : defined (CompiledInstruction.ofRust ix).accountIndices =
      .ok (a.toNat :: m.toNat :: b.toNat :: c.toNat :: rest.map UInt8.toNat) := by
    rw [accountIndices_of_ne_nil (by simp [haccounts]), haccounts]
    rfl
  have hbody : splTransferAt find (.ofRust message) recipient.toBase58 token.mint.toBase58
      program.toBase58 amount.toNat (token.decimals.map UInt8.toNat)
      (q.feePayer.map Bytes.toBase58) matched (.ofRust ix) i =
      continueIf ((fromLeBytes (tail.take 8) : Int) ≠ amount.toNat)
        (continueIf (destination.toBase58 ≠
          (associatedTokenAddress find recipient program token.mint).toBase58)
            (.ok (some i))) := by
    rw [splTransferAt, continueIf_neg hfree, hprogramAddress, ok_bind, continueIf_neg hprogram',
      continueIf_neg (not_not.mpr rfl), data_of_ne_nil (by simp [hix]), ok_bind, hix,
      continueIf_neg hshape, continueIf_neg hdecimals', hindices, ok_bind]
    simp only [accountAddress_of_some hsource, accountAddress_of_some hmint,
      accountAddress_of_some hdestination, accountAddress_of_some hauthority', ok_bind,
      continueIf_neg (not_not.mpr (rfl : token.mint.toBase58 = token.mint.toBase58)),
      rejectFeePayerFunds_of_ne hauthority hfunds, findAssociatedTokenPda_eq]
    rfl
  rw [hbody]
  by_cases hamount : fromLeBytes (tail.take 8) = amount.toNat
  case neg =>
    refine Or.inr ⟨?_, continueIf_pos fun h => hamount (Int.ofNat.inj h)⟩
    rintro ⟨-, h⟩
    obtain ⟨-, source', authority', d', heffect'⟩ := hcalled h
    rw [heffect] at heffect'
    injection heffect' with _ _ _ _ _ hamount'
    exact hamount hamount'
  rw [hamount, continueIf_neg (not_not.mpr rfl)]
  by_cases hdestination : destination = associatedTokenAddress find recipient program token.mint
  · refine Or.inl ⟨⟨hfree, ?_⟩, continueIf_neg (not_not.mpr (congrArg _ hdestination))⟩
    simp only [Quote.Fits, htoken]
    refine ⟨program, source, authority, decimals, ?_, hprogram, hsame, hdecimals, hauthority,
      hfunds⟩
    rw [heffect, hdestination, hamount]
  · refine Or.inr ⟨?_, continueIf_pos fun h => hdestination (toBase58_inj.mp h)⟩
    rintro ⟨-, h⟩
    obtain ⟨-, source', authority', d', heffect'⟩ := hcalled h
    rw [heffect] at heffect'
    injection heffect' with _ _ _ hdestination'
    exact hdestination hdestination'

/-- The matcher of memos decides every instruction that calls a program and is no empty
memo. -/
theorem decides_memoAt {label memo : String}
    (hread : Readable find message.staticAccountKeys q ix)
    (hspoken : message.staticAccountKeys[ix.programIdIndex.toNat]? = some programs.memoKey →
      ix.data ≠ []) :
    Decides (q.Fits find message.staticAccountKeys (.memo label memo) ix)
      (memoAt (.ofRust message) matched (utf8 memo) (.ofRust ix) i) matched i := by
  have hfits : q.Fits find message.staticAccountKeys (.memo label memo) ix ↔
      message.staticAccountKeys[ix.programIdIndex.toNat]? = some programs.memoKey ∧
        ix.data = utf8 memo := CompiledInstruction.effect_eq_memo
  unfold Decides
  by_cases hfree : i ∈ matched
  · exact Or.inr ⟨fun h => h.1 hfree, continueIf_pos hfree⟩
  obtain ⟨program, hcalls⟩ := hread.calls
  rw [hfits, hcalls, Option.some.injEq]
  rw [memoAt, continueIf_neg hfree, programAddress_of_some hcalls, ok_bind]
  by_cases hprogram : program = programs.memoKey
  case neg =>
    have hother : program.toBase58 ≠ programs.MEMO_PROGRAM :=
      fun h => hprogram (pubkeyOf_eq_iff.mp h)
    exact Or.inr ⟨fun h => hprogram h.2.1, continueIf_pos hother⟩
  subst hprogram
  -- the decoder leaves out the data of an empty memo, and the server would throw
  have hmemo : ¬ programs.memoKey.toBase58 ≠ programs.MEMO_PROGRAM :=
    not_not.mpr (pubkeyOf_eq_iff.mpr rfl)
  rw [continueIf_neg hmemo, data_of_ne_nil (hspoken hcalls), ok_bind]
  by_cases hdata : ix.data = utf8 memo
  · exact Or.inl ⟨⟨hfree, rfl, hdata⟩, continueIf_neg (not_not.mpr hdata)⟩
  · exact Or.inr ⟨fun h => hdata h.2.2, continueIf_pos hdata⟩

end Decided
/-! ## The rounds -/

section Rounds
variable {find : FindProgramAddress} {q : Quote} {tx : VersionedTransaction} {matched after : List Nat}

/-- The round of the matchers for one demand. -/
def pick (find : FindProgramAddress) (q : Quote) (message : CompiledMessage) (matched : List Nat) :
    Demand → Thrown (List Nat)
  | .payout recipient amount =>
      match q.token with
      | none => verifySolTransferPreBroadcast message recipient.toBase58 amount.toNat
          (q.feePayer.map Bytes.toBase58) matched
      | some token => verifySplTransferPreBroadcast find message recipient.toBase58
          token.mint.toBase58 (token.program.getD programs.tokenKey).toBase58 amount.toNat
          (token.decimals.map UInt8.toNat) (q.feePayer.map Bytes.toBase58) matched
  | .memo label memo => verifyMemoPreBroadcast message matched label memo

/-- The loop of a round takes one instruction. -/
theorem exists_of_round {message : VersionedMessage}
    {body : CompiledInstruction → Nat → Thrown (Option Nat)}
    {rest : Option Nat → Thrown (List Nat)} (hsome : ∀ i, rest (some i) = .ok (i :: matched))
    (hnone : rest none ≠ .ok after)
    (h : (scan body 0 (CompiledMessage.ofRust message).instructions >>= rest) = .ok after) :
    ∃ k ix i, message.instructions[k]? = some ix ∧ body (.ofRust ix) k = .ok (some i) ∧
      after = i :: matched := by
  obtain ⟨r, hscan, h⟩ := bind_eq_ok.mp h
  cases r with
  | none => exact absurd h hnone
  | some i =>
    obtain ⟨k, a, ha, hbody⟩ := exists_of_scan hscan
    rw [Nat.zero_add] at hbody
    obtain ⟨ix, hix, rfl⟩ : ∃ ix, message.instructions[k]? = some ix ∧ .ofRust ix = a := by
      have hmap : (message.instructions.map CompiledInstruction.ofRust)[k]? = some a := ha
      rw [List.getElem?_map] at hmap
      exact Option.map_eq_some_iff.mp hmap
    exact ⟨k, ix, i, hix, hbody, Except.ok.inj (h.symm.trans (hsome i))⟩

variable (find) in
/-- A round for SOL takes a free transfer that fits, to a recipient that has an address. -/
theorem exists_of_solRound {message : VersionedMessage} {recipient : String} {amount : UInt64}
    (htoken : q.token = none)
    (h : verifySolTransferPreBroadcast (.ofRust message) recipient amount.toNat
      (q.feePayer.map Bytes.toBase58) matched = .ok after) :
    ∃ i, after = i :: matched ∧ i ∉ matched ∧ ∃ key : Pubkey, recipient = key.toBase58 ∧
      At (q.Fits find message.staticAccountKeys) message.instructions (.payout key amount) i := by
  obtain ⟨k, ix, i, hix, hbody, rfl⟩ := exists_of_round (fun i => rfl) (by rintro ⟨⟩) h
  obtain ⟨rfl, hfree, key, hkey, hfits⟩ := fits_of_solTransferAt htoken hbody
  exact ⟨i, rfl, hfree, key, hkey, ix, hix, hfits⟩

/-- A round for a token does the same. -/
theorem exists_of_splRound {message : VersionedMessage} {recipient : String} {amount : UInt64}
    {token : QuotedToken} {expected : Pubkey} (htoken : q.token = some token)
    (hexpected : token.program = some expected)
    (h : verifySplTransferPreBroadcast find (.ofRust message) recipient token.mint.toBase58
      expected.toBase58 amount.toNat (token.decimals.map UInt8.toNat)
      (q.feePayer.map Bytes.toBase58) matched = .ok after) :
    ∃ i, after = i :: matched ∧ i ∉ matched ∧ ∃ key : Pubkey, recipient = key.toBase58 ∧
      At (q.Fits find message.staticAccountKeys) message.instructions (.payout key amount) i := by
  obtain ⟨k, ix, i, hix, hbody, rfl⟩ := exists_of_round (fun i => rfl) (by rintro ⟨⟩) h
  obtain ⟨rfl, hfree, key, hkey, hfits⟩ := fits_of_splTransferAt htoken hexpected hbody
  exact ⟨i, rfl, hfree, key, hkey, ix, hix, hfits⟩

/-- **A round takes a free instruction that fits.** -/
theorem exists_of_pick (hprogram : ∀ token ∈ q.token, ∃ expected, token.program = some expected)
    {d : Demand} (h : pick find q (.ofRust tx.message) matched d = .ok after) :
    ∃ i, after = i :: matched ∧ i ∉ matched ∧
      At (q.Fits find tx.message.staticAccountKeys) tx.message.instructions d i := by
  cases d with
  | payout recipient amount =>
    unfold pick at h
    rcases htoken : q.token with _ | token
    · simp only [htoken] at h
      obtain ⟨i, hafter, hfree, key, hkey, hat⟩ := exists_of_solRound find htoken h
      obtain rfl := toBase58_inj.mp hkey
      exact ⟨i, hafter, hfree, hat⟩
    · obtain ⟨expected, hexpected⟩ := hprogram token htoken
      simp only [htoken, hexpected, Option.getD_some] at h
      obtain ⟨i, hafter, hfree, key, hkey, hat⟩ := exists_of_splRound htoken hexpected h
      obtain rfl := toBase58_inj.mp hkey
      exact ⟨i, hafter, hfree, hat⟩
  | memo label memo =>
    obtain ⟨-, -, h⟩ := bind_eq_ok.mp h
    obtain ⟨k, ix, i, hix, hbody, rfl⟩ := exists_of_round (fun i => rfl) (by rintro ⟨⟩) h
    obtain ⟨rfl, hfree, hfits⟩ : i = k ∧ k ∉ matched ∧
        q.Fits find tx.message.staticAccountKeys (.memo label memo) ix := fits_of_memoAt hbody
    exact ⟨i, rfl, hfree, ix, hix, hfits⟩

/-- Two loops that decide every element the same way end the same way. -/
theorem exists_scan_both {fits : MppSdk.CompiledInstruction → Prop}
    {r : MppSdk.CompiledInstruction → Nat → Verified (Option Nat)}
    {t : CompiledInstruction → Nat → Thrown (Option Nat)}
    {items : List MppSdk.CompiledInstruction}
    (hr : ∀ ix ∈ items, ∀ i, MppSdk.Decides (fits ix) (r ix i) matched i)
    (ht : ∀ ix ∈ items, ∀ i, Decides (fits ix) (t (.ofRust ix) i) matched i) :
    ∀ i, ∃ x, scan r i items = .ok x ∧
      scan t i (items.map CompiledInstruction.ofRust) = .ok x := by
  induction items with
  | nil => exact fun i => ⟨none, rfl, rfl⟩
  | cons ix items ih =>
    intro i
    obtain ⟨hrHead, hrTail⟩ := List.forall_mem_cons.mp hr
    obtain ⟨htHead, htTail⟩ := List.forall_mem_cons.mp ht
    rw [List.map_cons]
    show ∃ x, (r ix i >>= _) = .ok x ∧ (t (.ofRust ix) i >>= _) = .ok x
    rcases hrHead i with ⟨hfree, hr⟩ | ⟨hnot, hr⟩
    · rcases htHead i with ⟨-, ht⟩ | ⟨hnot, -⟩
      · rw [hr, ht]
        exact ⟨some i, rfl, rfl⟩
      · exact absurd hfree hnot
    · rcases htHead i with ⟨hfree, -⟩ | ⟨-, ht⟩
      · exact absurd hfree hnot
      · rw [hr, ht]
        exact ih hrTail htTail (i + 1)

/-- **The rounds agree** on a transaction in which every payment fits something and no memo
is empty. -/
theorem pick_agrees (hprogram : ∀ token ∈ q.token, ∃ expected, token.program = some expected)
    (hread : ∀ ix ∈ tx.message.instructions, Readable find tx.message.staticAccountKeys q ix)
    (hspoken : ∀ ix ∈ tx.message.instructions,
      tx.message.staticAccountKeys[ix.programIdIndex.toNat]? = some programs.memoKey →
        ix.data ≠ []) {d : Demand} :
    pick find q (.ofRust tx.message) matched d = .ok after ↔
      q.pick find tx matched d = .ok after := by
  cases d with
  | payout recipient amount =>
    unfold pick Quote.pick
    rcases htoken : q.token with _ | token
    · obtain ⟨x, hr, ht⟩ := exists_scan_both
        (fun ix hix i => show MppSdk.Decides (q.Fits find tx.message.staticAccountKeys
          (.payout recipient amount) ix) _ matched i from
            MppSdk.decides_solTransferAt htoken (hread ix hix))
        (fun ix hix i => decides_solTransferAt htoken (hread ix hix)) 0
      simp only [verifySolTransferPreBroadcast, verifySolTransferInstructions]
      show (scan _ 0 (tx.message.instructions.map CompiledInstruction.ofRust) >>= _) = _ ↔ _
      rw [hr, ht]
      cases x with
      | none => exact iff_of_false (by rintro ⟨⟩) (by rintro ⟨⟩)
      | some i => exact ⟨fun h => congrArg _ (Except.ok.inj h), fun h => congrArg _ (Except.ok.inj h)⟩
    · obtain ⟨expected, hexpected⟩ := hprogram token htoken
      obtain ⟨x, hr, ht⟩ := exists_scan_both
        (fun ix hix i => show MppSdk.Decides (q.Fits find tx.message.staticAccountKeys
          (.payout recipient amount) ix) _ matched i from
            MppSdk.decides_splTransferAt htoken (hread ix hix))
        (fun ix hix i => decides_splTransferAt htoken hexpected (hread ix hix)) 0
      simp only [verifySplTransferPreBroadcast, verifySplTransferInstructions, hexpected,
        Option.getD_some] at hr ⊢
      show (scan _ 0 (tx.message.instructions.map CompiledInstruction.ofRust) >>= _) = _ ↔ _
      rw [hr, ht]
      cases x with
      | none => exact iff_of_false (by rintro ⟨⟩) (by rintro ⟨⟩)
      | some i => exact ⟨fun h => congrArg _ (Except.ok.inj h), fun h => congrArg _ (Except.ok.inj h)⟩
  | memo label memo =>
    obtain ⟨x, hr, ht⟩ := exists_scan_both
      (fun ix hix i => show MppSdk.Decides (q.Fits find tx.message.staticAccountKeys
        (.memo label memo) ix) _ matched i from MppSdk.decides_memoAt (hread ix hix))
      (fun ix hix i => decides_memoAt (hread ix hix) (hspoken ix hix)) 0
    have ht' : scan (memoAt (.ofRust tx.message) matched (utf8 memo)) 0
        (CompiledMessage.ofRust tx.message).instructions = .ok x := ht
    simp only [pick, Quote.pick, verifyMemoPreBroadcast, MppSdk.verifyMemo, bind_eq_ok, rejectIf_eq_ok, hr,
      ht']
    cases x with
    | none => simp [error]
    | some i => simp [pure, Except.pure]

end Rounds
end Ts
end MppSdk
