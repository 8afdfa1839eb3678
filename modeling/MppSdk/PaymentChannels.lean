import MppSdk.SessionTypes

/-! # The payment-channels program

`program/payment_channels.rs` and the generated builder of the `open` instruction: the
addresses of a channel and the instruction that opens it. -/

namespace MppSdk

/-- An account of an instruction. -/
structure AccountMeta where
  pubkey : Pubkey
  isSigner : Bool
  isWritable : Bool
deriving DecidableEq

/-- `AccountMeta::new`. -/
def AccountMeta.new (pubkey : Pubkey) (isSigner : Bool) : AccountMeta :=
  { pubkey, isSigner, isWritable := true }

/-- `AccountMeta::new_readonly`. -/
def AccountMeta.newReadonly (pubkey : Pubkey) (isSigner : Bool) : AccountMeta :=
  { pubkey, isSigner, isWritable := false }

/-- `solana_instruction::Instruction`. -/
structure Instruction where
  programId : Pubkey
  accounts : List AccountMeta
  data : List UInt8
deriving DecidableEq

/-- `Distribution`: a recipient of a channel's proceeds and its share. -/
structure Distribution where
  recipient : Pubkey
  bps : UInt16
deriving DecidableEq

/-- `OpenChannelParams`. -/
structure OpenChannelParams where
  payer : Pubkey
  payee : Pubkey
  mint : Pubkey
  authorizedSigner : Pubkey
  salt : UInt64
  deposit : UInt64
  gracePeriod : UInt32
  recipients : List Distribution
  tokenProgram : Pubkey
  programId : Pubkey
deriving DecidableEq

/-- `ChannelAddresses`. -/
structure ChannelAddresses where
  channel : Pubkey
  payerTokenAccount : Pubkey
  channelTokenAccount : Pubkey
  eventAuthority : Pubkey
deriving DecidableEq

/-- `CHANNEL_SEED`. -/
def CHANNEL_SEED : List UInt8 := "channel".toUTF8.toList
/-- `EVENT_AUTHORITY_SEED`. -/
def EVENT_AUTHORITY_SEED : List UInt8 := "event_authority".toUTF8.toList
/-- `RENT_SYSVAR_ID`. -/
def RENT_SYSVAR_ID : String := "SysvarRent111111111111111111111111111111111"

/-- `rent_sysvar_id`. -/
def rentSysvarId : Pubkey := pubkeyOf RENT_SYSVAR_ID (by decide +kernel)

/-! ## Addresses -/

section Addresses
variable (find : FindProgramAddress)

/-- `find_channel_pda`. -/
def findChannelPda (payer payee mint authorizedSigner : Pubkey) (salt : UInt64)
    (programId : Pubkey) : Pubkey × UInt8 :=
  find [CHANNEL_SEED, payer.toList, payee.toList, mint.toList, authorizedSigner.toList,
    leBytes 8 salt.toNat] programId

/-- `find_event_authority_pda`. -/
def findEventAuthorityPda (programId : Pubkey) : Pubkey × UInt8 :=
  find [EVENT_AUTHORITY_SEED] programId

/-- `find_associated_token_address`. -/
def findAssociatedTokenAddress (owner mint tokenProgram : Pubkey) : Pubkey × UInt8 :=
  find [owner.toList, tokenProgram.toList, mint.toList] programs.associatedTokenKey

/-- `derive_channel_addresses`. -/
def deriveChannelAddresses (params : OpenChannelParams) : ChannelAddresses :=
  let channel := (findChannelPda find params.payer params.payee params.mint
    params.authorizedSigner params.salt params.programId).1
  { channel
    payerTokenAccount :=
      (findAssociatedTokenAddress find params.payer params.mint params.tokenProgram).1
    channelTokenAccount :=
      (findAssociatedTokenAddress find channel params.mint params.tokenProgram).1
    eventAuthority := (findEventAuthorityPda find params.programId).1 }

end Addresses

/-! ## The open instruction -/

/-- `OPEN_DISCRIMINATOR`. -/
def OPEN_DISCRIMINATOR : UInt8 := 1

/-- `OpenArgs` in Borsh: the fields in order, the recipients after their number. -/
def openArgsBytes (params : OpenChannelParams) : List UInt8 :=
  leBytes 8 params.salt.toNat ++ leBytes 8 params.deposit.toNat ++
    leBytes 4 params.gracePeriod.toNat ++ leBytes 4 params.recipients.length ++
    params.recipients.flatMap fun entry => entry.recipient.toList ++ leBytes 2 entry.bps.toNat

/-- `build_open_instruction`. -/
def buildOpenInstruction (find : FindProgramAddress) (params : OpenChannelParams) : Instruction :=
  let addresses := deriveChannelAddresses find params
  { programId := params.programId
    accounts := [
      .new params.payer true,
      .newReadonly params.payee false,
      .newReadonly params.mint false,
      .newReadonly params.authorizedSigner false,
      .new addresses.channel false,
      .new addresses.payerTokenAccount false,
      .new addresses.channelTokenAccount false,
      .newReadonly params.tokenProgram false,
      .newReadonly programs.systemKey false,
      .newReadonly rentSysvarId false,
      .newReadonly programs.associatedTokenKey false,
      .newReadonly addresses.eventAuthority false,
      .newReadonly params.programId false]
    data := OPEN_DISCRIMINATOR :: openArgsBytes params }

end MppSdk
