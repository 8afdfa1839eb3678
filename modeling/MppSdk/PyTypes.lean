import MppSdk.ChargeTypes
import MppSdk.Json
import MppSdk.ParseUnits
import MppSdk.Transaction

/-! # The Python server: values and constants

What the Python charge server takes from its language (exceptions, `base64`, reading values
of any type), the types of a challenge, and `protocol/solana.py`. -/

namespace MppSdk
namespace Py

/-- An exception: the code of a `PaymentError`, if it is one, and its text. -/
structure PyError where
  code : Option String := none
  message : String
deriving DecidableEq, Repr

/-- What a function returns or raises; what `except Exception` does not catch is a panic. -/
abbrev Raises : Type → Type := RustResult PyError

/-- `raise PaymentError(message, code=code)`. -/
def paymentError {α : Type} (code message : String) : Raises α :=
  .error (.error { code := some code, message })

/-- `if c: raise PaymentError(message, code=code)`. -/
abbrev raiseIf (c : Prop) [Decidable c] (code message : String) : Raises Unit :=
  rejectIf c { code := some code, message }

/-- Any other exception. -/
def exception {α : Type} (message : String) : Raises α := .error (.error { message })

/-! ## Base64 -/

/-- The value of a character of base64. -/
def base64Value (c : Char) : Option Nat :=
  if 'A' ≤ c ∧ c ≤ 'Z' then some (c.toNat - 'A'.toNat)
  else if 'a' ≤ c ∧ c ≤ 'z' then some (c.toNat - 'a'.toNat + 26)
  else if '0' ≤ c ∧ c ≤ '9' then some (c.toNat - '0'.toNat + 52)
  else if c = '+' then some 62
  else if c = '/' then some 63
  else none

/-- The loop of `a2b_base64`, at a position of a group of four characters, with the bits that
are left over and the padding seen.  Characters that are not in the alphabet are skipped, and a
padding that completes a group ends the text. -/
def base64Loop : List Char → (position : Nat) → (left : Nat) → (pads : Nat) →
    Except String (List UInt8)
  | [], position, _, _ =>
      if position = 0 then .ok []
      else if position = 1 then .error "Invalid base64-encoded string"
      else .error "Incorrect padding"
  | c :: cs, position, left, pads =>
      if c = '=' then
        if 2 ≤ position then
          if 4 ≤ position + (pads + 1) then .ok [] else base64Loop cs position left (pads + 1)
        else base64Loop cs position left pads
      else match base64Value c with
        | none => base64Loop cs position left pads
        | some v =>
            match position with
            | 0 => base64Loop cs 1 v 0
            | 1 => (base64Loop cs 2 (v % 16) 0).map (UInt8.ofNat (left * 4 + v / 16) :: ·)
            | 2 => (base64Loop cs 3 (v % 4) 0).map (UInt8.ofNat (left * 16 + v / 4) :: ·)
            | _ => (base64Loop cs 0 0 0).map (UInt8.ofNat (left * 64 + v) :: ·)

/-- `base64.b64decode`. -/
def b64decode (s : String) : Raises (List UInt8) :=
  if s.toList.all (·.toNat < 128) then
    match base64Loop s.toList 0 0 0 with
    | .ok bytes => .ok bytes
    | .error message => exception message
  else exception "string argument should contain only ASCII characters"

/-- `decode` of `_base64url.py`. -/
def base64UrlDecode (s : String) : Raises (List UInt8) :=
  let normalized := (s.toList.filter (· ≠ '=')).map fun c =>
    if c = '-' then '+' else if c = '_' then '/' else c
  let padding := (4 - normalized.length % 4) % 4
  b64decode (String.ofList (normalized ++ List.replicate padding '='))

/-- Characters that are not in the alphabet make no difference. -/
example : b64decode "QUJD" = .ok [65, 66, 67] ∧ b64decode "Q\nU-JD" = .ok [65, 66, 67] := by
  decide +kernel

/-! ## Values of any type -/

/-- `bool(value)`; of a number with a fraction or an exponent the digits decide. -/
def isTrue : Json → Bool
  | .null => false
  | .bool b => b
  | .unsigned n => n ≠ 0
  | .negative n => n ≠ 0
  | .float text => (text.toList.takeWhile fun c => c ≠ 'e' ∧ c ≠ 'E').any fun c =>
      c.isDigit ∧ c ≠ '0'
  | .str s => s ≠ ""
  | .arr items => items ≠ []
  | .obj fields => fields ≠ []

/-- `value or {}`. -/
def orEmpty (v : Json) : Json := if isTrue v then v else .obj []

/-- `value.get(key)`. -/
def getKey (v : Json) (key : String) : Raises Json :=
  match v with
  | .obj fields => .ok ((Json.field fields key).getD .null)
  | _ => exception "object has no attribute 'get'"

/-- `for item in value`, where an item of a string or a key of a dict is a string. -/
def iterate : Json → Raises (List Json)
  | .arr items => .ok items
  | .obj fields => .ok (fields.map fun f => .str f.1)
  | .str s => .ok (s.toList.map fun c => .str (String.singleton c))
  | _ => exception "object is not iterable"

/-- `value == text`. -/
def isText (v : Json) (text : String) : Bool := v.asStr = some text

/-- `str(value)`, of the values whose text may be the one of an integer. -/
def str? : Json → Option String
  | .unsigned n => some (toString n)
  | .negative n => some (toString n.toInt)
  | .str s => some s
  | _ => none

/-- A field that is used as a text; `None` is not, and neither is a value of another type. -/
def textField (v : Json) (key default : String) : Raises String :=
  match v with
  | .obj fields => match Json.field fields key with
    | none => .ok default
    | some .null => .ok default
    | some (.str s) => .ok s
    | some _ => exception s!"{key} is not a str"
  | _ => exception "object has no attribute 'get'"

/-- `data[key]`, used as a text. -/
def requiredField (v : Json) (key : String) : Raises String :=
  match v with
  | .obj fields => match Json.field fields key with
    | some (.str s) => .ok s
    | some _ => exception s!"{key} is not a str"
    | none => exception key
  | _ => exception "object is not subscriptable"

/-! ## Challenges -/

/-- `Split`. -/
structure Split where
  recipient : String
  amount : String
  memo : String := ""
deriving DecidableEq

/-- `Split.from_dict`. -/
def Split.fromDict (data : Json) : Raises Split := do
  let recipient ← requiredField data "recipient"
  let amount ← requiredField data "amount"
  let memo ← textField data "memo" ""
  return { recipient, amount, memo }

/-- `MethodDetails`. -/
structure MethodDetails where
  network : String := "mainnet-beta"
  tokenProgram : String := ""
  feePayer : Bool := false
  splits : List Split := []
deriving DecidableEq

/-- `MethodDetails.from_dict`. -/
def MethodDetails.fromDict (data : Json) : Raises MethodDetails := do
  let items ← match data with
    | .obj fields => iterate ((Json.field fields "splits").getD (.arr []))
    | _ => exception "object has no attribute 'get'"
  let splits ← items.mapM Split.fromDict
  let network ← textField data "network" "mainnet-beta"
  let tokenProgram ← textField data "tokenProgram" ""
  let feePayer ← getKey data "feePayer"
  return { network, tokenProgram, feePayer := isTrue feePayer, splits }

/-- `ChargeRequest`. -/
structure ChargeRequest where
  amount : String
  currency : String
  recipient : String := ""
  externalId : String := ""
  methodDetails : Json := .null

/-- `ChargeRequest.from_dict`. -/
def ChargeRequest.fromDict (data : Json) : Raises ChargeRequest := do
  let amount ← textField data "amount" ""
  let currency ← textField data "currency" ""
  let recipient ← textField data "recipient" ""
  let externalId ← textField data "externalId" ""
  let methodDetails ← getKey data "methodDetails"
  return { amount, currency, recipient, externalId, methodDetails }

/-- `CredentialPayload`. -/
structure CredentialPayload where
  type : String
  transaction : String := ""
  signature : String := ""
deriving DecidableEq

/-- `CredentialPayload.from_dict`. -/
def CredentialPayload.fromDict (data : Json) : Raises CredentialPayload := do
  let type ← textField data "type" ""
  let transaction ← textField data "transaction" ""
  let signature ← textField data "signature" ""
  return { type, transaction, signature }

/-- `ChallengeEcho`. -/
structure ChallengeEcho where
  id : String
  realm : String
  method : String
  intent : String
  request : String
  expires : String := ""
  digest : String := ""
  opaqueData : Option String := none
deriving DecidableEq

/-- `PaymentCredential`. -/
structure PaymentCredential where
  challenge : ChallengeEcho
  payload : Json

/-- `Receipt`; a receipt of this server always says success. -/
structure Receipt where
  method : String
  timestamp : String
  reference : String
  challengeId : String
  externalId : String
deriving DecidableEq

/-! ## Currencies -/

/-- `KNOWN_MINTS`. -/
def KNOWN_MINTS : List (String × List (String × String)) :=
  [("USDC", [("mainnet-beta", mints.USDC_MAINNET), ("devnet", mints.USDC_DEVNET),
      ("testnet", mints.USDC_DEVNET)]),
    ("USDT", [("mainnet-beta", mints.USDT_MAINNET)]),
    ("USDG", [("mainnet-beta", mints.USDG_MAINNET), ("devnet", mints.USDG_DEVNET),
      ("testnet", mints.USDG_DEVNET)]),
    ("PYUSD", [("mainnet-beta", mints.PYUSD_MAINNET), ("devnet", mints.PYUSD_DEVNET),
      ("testnet", mints.PYUSD_DEVNET)]),
    ("CASH", [("mainnet-beta", mints.CASH_MAINNET)])]

/-- `STABLECOIN_TOKEN_PROGRAMS`. -/
def STABLECOIN_TOKEN_PROGRAMS : List (String × String) :=
  [("USDC", programs.TOKEN_PROGRAM), ("USDT", programs.TOKEN_PROGRAM),
    ("USDG", programs.TOKEN_2022_PROGRAM), ("PYUSD", programs.TOKEN_2022_PROGRAM),
    ("CASH", programs.TOKEN_2022_PROGRAM)]

/-- `resolve_mint`; the empty text is native SOL. -/
def resolveMint (currency network : String) : String :=
  let upper := toUppercase currency
  if upper = "SOL" then ""
  else match KNOWN_MINTS.lookup upper with
    | some networks => (networks.lookup network).getD ((networks.lookup "mainnet-beta").getD currency)
    | none => currency

/-- `stablecoin_symbol`. -/
def stablecoinSymbol (currency : String) : Option String :=
  let upper := toUppercase currency
  if (KNOWN_MINTS.lookup upper).isSome then some upper
  else (KNOWN_MINTS.find? fun entry => entry.2.any fun mint => mint.2 = currency).map Prod.fst

/-- `default_token_program_for_currency`. -/
def defaultTokenProgramForCurrency (currency network : String) : String :=
  match (stablecoinSymbol (resolveMint currency network)).or (stablecoinSymbol currency) with
  | some symbol => (STABLECOIN_TOKEN_PROGRAMS.lookup symbol).getD programs.TOKEN_PROGRAM
  | none => programs.TOKEN_PROGRAM

/-- `is_native_sol`. -/
def isNativeSol (currency : String) : Bool := toUppercase currency = "SOL"

/-- `check_network_blockhash`. -/
def checkNetworkBlockhash (network blockhashB58 : String) : Raises Unit :=
  if ¬ "SURFNETxSAFEHASH".toList.isPrefixOf blockhashB58.toList then .ok ()
  else if network = "localnet" then .ok ()
  else paymentError "wrong-network"
    (s!"Signed against localnet but the server expects {network}. " ++
      s!"Switch your client RPC to {network} and re-sign.")

end Py
end MppSdk
