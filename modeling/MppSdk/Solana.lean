import MppSdk.Base58

/-! # Programs, mints and token programs

`protocol/solana.rs`: the well-known addresses, and the mint and token program behind
a currency. -/

namespace MppSdk

/-- `Pubkey::from_str(s).unwrap()` for a text that is a key. -/
def pubkeyOf (s : String) (h : (Bytes.fromBase58 32 s).isSome) : Pubkey :=
  (Bytes.fromBase58 32 s).get h

/-- A key has the text it is read from. -/
theorem pubkeyOf_eq_iff {s : String} {h : (Bytes.fromBase58 32 s).isSome} {key : Pubkey} :
    key.toBase58 = s ↔ key = pubkeyOf s h := by
  rw [pubkeyOf, eq_comm, ← Bytes.fromBase58_eq_some]
  constructor
  · intro hs
    exact (Option.get_of_eq_some h hs).symm
  · rintro rfl
    exact (Option.some_get h).symm

/-- `str::to_uppercase`, one character.  Only the characters whose upper case is ASCII
are changed: no other character can make an ASCII name. -/
def upperChar (c : Char) : List Char :=
  if 'a' ≤ c ∧ c ≤ 'z' then [Char.ofNat (c.toNat - 32)]
  else match c.toNat with
    | 0xDF => ['S', 'S']
    | 0x131 => ['I']
    | 0x17F => ['S']
    | 0xFB00 => ['F', 'F']
    | 0xFB01 => ['F', 'I']
    | 0xFB02 => ['F', 'L']
    | 0xFB03 => ['F', 'F', 'I']
    | 0xFB04 => ['F', 'F', 'L']
    | 0xFB05 => ['S', 'T']
    | 0xFB06 => ['S', 'T']
    | _ => [c]

/-- `str::to_uppercase`, for comparison with ASCII names. -/
def toUppercase (s : String) : String := String.ofList (s.toList.flatMap upperChar)

namespace programs

def TOKEN_PROGRAM : String := "TokenkegQfeZyiNwAJbNbGKPFXCWuBvf9Ss623VQ5DA"
def TOKEN_2022_PROGRAM : String := "TokenzQdBNbLqP5VEhdkAS6EPFLC1PHnBqCXEpPxuEb"
def ASSOCIATED_TOKEN_PROGRAM : String := "ATokenGPvbdGVxr1b2hvZbsiqW5xWH25efTNsLJA8knL"
def COMPUTE_BUDGET_PROGRAM : String := "ComputeBudget111111111111111111111111111111"
def MEMO_PROGRAM : String := "MemoSq4gqABAXKb96qnH8TysNcWxMyWCqXgDLGmfcHr"
def SYSTEM_PROGRAM : String := "11111111111111111111111111111111"

def tokenKey : Pubkey := pubkeyOf TOKEN_PROGRAM (by decide +kernel)
def token2022Key : Pubkey := pubkeyOf TOKEN_2022_PROGRAM (by decide +kernel)
def associatedTokenKey : Pubkey := pubkeyOf ASSOCIATED_TOKEN_PROGRAM (by decide +kernel)
def computeBudgetKey : Pubkey := pubkeyOf COMPUTE_BUDGET_PROGRAM (by decide +kernel)
def memoKey : Pubkey := pubkeyOf MEMO_PROGRAM (by decide +kernel)
def systemKey : Pubkey := pubkeyOf SYSTEM_PROGRAM (by decide +kernel)

/-- The six programs are pairwise different. -/
theorem keys_nodup :
    [computeBudgetKey, memoKey, systemKey, tokenKey, token2022Key, associatedTokenKey].Nodup := by
  decide +kernel

theorem computeBudgetKey_ne : computeBudgetKey ≠ memoKey ∧ computeBudgetKey ≠ systemKey ∧
    computeBudgetKey ≠ tokenKey ∧ computeBudgetKey ≠ token2022Key ∧
    computeBudgetKey ≠ associatedTokenKey := by
  have h := (List.nodup_cons.mp keys_nodup).1
  simpa only [List.mem_cons, not_or, List.not_mem_nil, not_false_eq_true, and_true] using h

theorem memoKey_ne : memoKey ≠ systemKey ∧ memoKey ≠ tokenKey ∧ memoKey ≠ token2022Key ∧
    memoKey ≠ associatedTokenKey := by
  have h := (List.nodup_cons.mp keys_nodup.of_cons).1
  simpa only [List.mem_cons, not_or, List.not_mem_nil, not_false_eq_true, and_true] using h

theorem systemKey_ne :
    systemKey ≠ tokenKey ∧ systemKey ≠ token2022Key ∧ systemKey ≠ associatedTokenKey := by
  have h := (List.nodup_cons.mp keys_nodup.of_cons.of_cons).1
  simpa only [List.mem_cons, not_or, List.not_mem_nil, not_false_eq_true, and_true] using h

theorem associatedTokenKey_ne :
    associatedTokenKey ≠ tokenKey ∧ associatedTokenKey ≠ token2022Key := by
  have h := keys_nodup.of_cons.of_cons.of_cons
  simp only [List.nodup_cons, List.mem_cons, List.not_mem_nil, not_or, or_false] at h
  exact ⟨Ne.symm h.1.2, Ne.symm h.2.1⟩

end programs

/-- `Pubkey::find_program_address`: the address of the seeds under a program, and its
bump. -/
abbrev FindProgramAddress : Type := (seeds : List (List UInt8)) → (program : Pubkey) → Pubkey × UInt8

/-- The associated token account of an owner. -/
def associatedTokenAddress (find : FindProgramAddress) (owner tokenProgram mint : Pubkey) :
    Pubkey :=
  (find [owner.toList, tokenProgram.toList, mint.toList] programs.associatedTokenKey).1

namespace mints

def USDC_MAINNET : String := "EPjFWdd5AufqSSqeM2qN1xzybapC8G4wEGGkZwyTDt1v"
def USDC_DEVNET : String := "4zMMC9srt5Ri5X14GAgXhaHii3GnPAEERYPJgZJDncDU"
def USDC_TESTNET : String := USDC_DEVNET
def USDT_MAINNET : String := "Es9vMFrzaCERmJfrF4H2FYD4KCoNkY11McCe8BenwNYB"
def USDG_MAINNET : String := "2u1tszSeqZ3qBWF3uNGPFc8TzMk2tdiwknnRMWGWjGWH"
def USDG_DEVNET : String := "4F6PM96JJxngmHnZLBh9n58RH4aTVNWvDs2nuwrT5BP7"
def USDG_TESTNET : String := USDG_DEVNET
def PYUSD_MAINNET : String := "2b1kV6DkPAnxd5ixfnxCpjxmKwqjjaYmCZfHsFu24GXo"
def PYUSD_DEVNET : String := "CXk2AMBfi3TwaEL2468s6zP8xq9NxTXjp9gjMgzeUynM"
def PYUSD_TESTNET : String := PYUSD_DEVNET
def CASH_MAINNET : String := "CASHx9KJUStyftLFWGvEVf59SGeG9sh5FfcnZMVPCASH"

end mints

/-- `resolve_stablecoin_mint`: the mint of a currency on a network; `none` for SOL, and
an unknown symbol is taken for a mint. -/
def resolveStablecoinMint (currency : String) (network : Option String) : Option String :=
  match toUppercase currency with
  | "SOL" => none
  | "USDC" => some (match network with
      | some "devnet" => mints.USDC_DEVNET
      | some "testnet" => mints.USDC_TESTNET
      | _ => mints.USDC_MAINNET)
  | "USDT" => some mints.USDT_MAINNET
  | "USDG" => some (match network with
      | some "devnet" => mints.USDG_DEVNET
      | some "testnet" => mints.USDG_TESTNET
      | _ => mints.USDG_MAINNET)
  | "PYUSD" => some (match network with
      | some "devnet" => mints.PYUSD_DEVNET
      | some "testnet" => mints.PYUSD_TESTNET
      | _ => mints.PYUSD_MAINNET)
  | "CASH" => some mints.CASH_MAINNET
  | _ => some currency

/-- `stablecoin_uses_token_2022`. -/
def stablecoinUsesToken2022 (mint : String) : Bool :=
  mint ∈ [mints.PYUSD_MAINNET, mints.PYUSD_DEVNET, mints.USDG_MAINNET, mints.USDG_DEVNET,
    mints.CASH_MAINNET]

/-- `default_token_program_for_currency`. -/
def defaultTokenProgramForCurrency (currency : String) (network : Option String) : String :=
  match resolveStablecoinMint currency network with
  | some mint =>
      if stablecoinUsesToken2022 mint then programs.TOKEN_2022_PROGRAM else programs.TOKEN_PROGRAM
  | none => programs.TOKEN_PROGRAM

end MppSdk
