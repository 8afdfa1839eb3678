import MppSdk.ChargeTypes
import MppSdk.PreBroadcast

/-! # The TypeScript server: values and constants

What the TypeScript charge server takes from its language (thrown errors, `BigInt`, the
text of a number), the types of a challenge, and `constants.ts`. -/

namespace MppSdk
namespace Ts

/-- What a function may throw. -/
structure JsError where
  message : String
  code : Option String := none
deriving DecidableEq, Repr

/-- The result of a function that may throw. -/
abbrev Thrown : Type → Type := RustResult JsError

/-- `throw new Error(message)`. -/
def error {α : Type} (message : String) : Thrown α := .error (.error { message })

/-- `if (c) throw new Error(message);`. -/
abbrev throwIf (c : Prop) [Decidable c] (message : String) : Thrown Unit :=
  rejectIf c { message }

/-- Reading a property of what may be undefined. -/
def defined {α : Type} (o : Option α) : Thrown α :=
  okOrElse o { message := "Cannot read properties of undefined" }

/-! ## Numbers -/

/-- White space and line ends. -/
def isWhiteSpace (c : Char) : Bool :=
  c.toNat ∈ [0x9, 0xA, 0xB, 0xC, 0xD, 0x20, 0xA0, 0x1680, 0x2028, 0x2029, 0x202F, 0x205F, 0x3000,
    0xFEFF] ∨ 0x2000 ≤ c.toNat ∧ c.toNat ≤ 0x200A

/-- The value of a digit. -/
def digitValue (c : Char) : Nat :=
  if '0' ≤ c ∧ c ≤ '9' then c.toNat - 0x30
  else if 'a' ≤ c ∧ c ≤ 'f' then c.toNat - 0x61 + 10
  else if 'A' ≤ c ∧ c ≤ 'F' then c.toNat - 0x41 + 10
  else 36

/-- At least one digit of the radix. -/
def digits (radix : Nat) (cs : List Char) : Option Int :=
  if cs ≠ [] ∧ cs.all (digitValue · < radix) then
    some (cs.foldl (fun n c => radix * n + digitValue c) 0 : Nat)
  else none

/-- The integer a string denotes: nothing is 0, a decimal may have a sign, and a hexadecimal,
octal or binary one has a prefix. -/
def parseBigInt (s : String) : Option Int :=
  match ((s.toList.dropWhile isWhiteSpace).reverse.dropWhile isWhiteSpace).reverse with
  | [] => some 0
  | '0' :: 'x' :: cs => digits 16 cs
  | '0' :: 'X' :: cs => digits 16 cs
  | '0' :: 'o' :: cs => digits 8 cs
  | '0' :: 'O' :: cs => digits 8 cs
  | '0' :: 'b' :: cs => digits 2 cs
  | '0' :: 'B' :: cs => digits 2 cs
  | '-' :: cs => (digits 10 cs).map Neg.neg
  | '+' :: cs => digits 10 cs
  | cs => digits 10 cs

/-- `BigInt(s)`. -/
def bigInt (s : String) : Thrown Int :=
  okOrElse (parseBigInt s) { message := s!"Cannot convert {s} to a BigInt" }

/-- The double nearest to an integer, ties to even. -/
def toDouble (n : Nat) : Nat :=
  let e := n.log2 - 52
  let q := n / 2 ^ e
  let r := n % 2 ^ e
  (if 2 ^ e < 2 * r ∨ 2 ^ e = 2 * r ∧ q % 2 = 1 then q + 1 else q) * 2 ^ e

/-- `String(n)` of the number that `n` is read as: the shortest digits that are read as this
number, filled up with zeros. -/
def numberToString (n : Nat) : String :=
  let v := toDouble n
  let candidates := (List.range 22).reverse.map fun e => (v + 10 ^ e / 2) / 10 ^ e * 10 ^ e
  toString ((candidates.find? fun c => toDouble c = v).getD v)

/-! ## Challenges -/

/-- A split of a challenge. -/
structure Split where
  amount : String
  ataCreationRequired : Option Bool := none
  memo : Option String := none
  recipient : String
deriving DecidableEq

/-- The method details of a challenge. -/
structure MethodDetails where
  decimals : Option Nat := none
  feePayer : Option Bool := none
  feePayerKey : Option String := none
  network : Option String := none
  splits : Option (List Split) := none
  tokenProgram : Option String := none
deriving DecidableEq

/-- `ChallengeRequest`. -/
structure ChallengeRequest where
  amount : String
  currency : String
  externalId : Option String := none
  methodDetails : MethodDetails
  recipient : String
deriving DecidableEq

/-- `challenge.methodDetails.splits ?? []`. -/
def ChallengeRequest.splits (challenge : ChallengeRequest) : List Split :=
  challenge.methodDetails.splits.getD []

/-- A text that is there and not empty. -/
abbrev truthy (s : Option String) : Option String := nonEmpty s

/-- `expectedMemoEntries`. -/
def expectedMemoEntries (externalId : Option String) (splits : List Split) :
    List (String × String) :=
  (truthy externalId).toList.map (fun memo => ("externalId", memo)) ++
    splits.filterMap (fun split => (truthy split.memo).map fun memo => ("split", memo))

/-! ## Constants -/

def USDC : List (String × String) :=
  [("devnet", mints.USDC_DEVNET), ("mainnet-beta", mints.USDC_MAINNET)]
def USDT : List (String × String) := [("mainnet-beta", mints.USDT_MAINNET)]
def USDG : List (String × String) :=
  [("devnet", mints.USDG_DEVNET), ("mainnet-beta", mints.USDG_MAINNET)]
def PYUSD : List (String × String) :=
  [("devnet", mints.PYUSD_DEVNET), ("mainnet-beta", mints.PYUSD_MAINNET)]
def CASH : List (String × String) := [("mainnet-beta", mints.CASH_MAINNET)]

/-- `STABLECOIN_MINTS`. -/
def STABLECOIN_MINTS : List (String × List (String × String)) :=
  [("CASH", CASH), ("PYUSD", PYUSD), ("USDC", USDC), ("USDG", USDG), ("USDT", USDT)]

/-- `STABLECOIN_TOKEN_PROGRAMS`. -/
def STABLECOIN_TOKEN_PROGRAMS : List (String × String) :=
  [("CASH", programs.TOKEN_2022_PROGRAM), ("PYUSD", programs.TOKEN_2022_PROGRAM),
    ("USDC", programs.TOKEN_PROGRAM), ("USDG", programs.TOKEN_2022_PROGRAM),
    ("USDT", programs.TOKEN_PROGRAM)]

/-- `resolveStablecoinMint`. -/
def resolveStablecoinMint (currency : String) (network : Option String) : Option String :=
  let mint (mints : List (String × String)) : Option String :=
    (mints.lookup (network.getD "mainnet-beta")).or (mints.lookup "mainnet-beta")
  match toUppercase currency with
  | "SOL" => none
  | "USDC" => mint USDC
  | "USDT" => mint USDT
  | "USDG" => mint USDG
  | "PYUSD" => mint PYUSD
  | "CASH" => mint CASH
  | _ => some currency

/-- `stablecoinSymbolForCurrency`. -/
def stablecoinSymbolForCurrency (currency : String) : Option String :=
  let normalized := toUppercase currency
  if (STABLECOIN_MINTS.lookup normalized).isSome then some normalized
  else (STABLECOIN_MINTS.find? fun entry =>
    entry.2.any (fun mint => mint.2 = currency)).map Prod.fst

/-- `defaultTokenProgramForCurrency`. -/
def defaultTokenProgramForCurrency (currency : String) (network : Option String) : String :=
  let symbol := if currency = "" then none
    else stablecoinSymbolForCurrency ((resolveStablecoinMint currency network).getD currency)
  match symbol with
  | some symbol => (STABLECOIN_TOKEN_PROGRAMS.lookup symbol).getD programs.TOKEN_PROGRAM
  | none => programs.TOKEN_PROGRAM

/-- `currency.toLowerCase() === 'sol'`; no other character than an ASCII letter has one of
these in lower case. -/
def isNativeSol (currency : String) : Prop := currency.toLower = "sol"

instance (currency : String) : Decidable (isNativeSol currency) :=
  inferInstanceAs (Decidable (_ = _))

/-! ## Addresses -/

/-- `address`. -/
def address (s : String) : Thrown Pubkey :=
  okOrElse (Bytes.fromBase58 32 s) { message := s!"{s} is not a valid address" }

/-- `findAssociatedTokenPda`. -/
def findAssociatedTokenPda (find : FindProgramAddress) (mint owner tokenProgram : String) :
    Thrown String := do
  let mint ← address mint
  let owner ← address owner
  let tokenProgram ← address tokenProgram
  return (associatedTokenAddress find owner tokenProgram mint).toBase58

/-- The double of 2^53 + 1 is 2^53, and the digits of 2^64 - 1 are cut. -/
example : numberToString 9007199254740993 = "9007199254740992" ∧
    numberToString 18446744073709551615 = "18446744073709552000" := by decide +kernel

end Ts
end MppSdk
