import MppSdk.ChargeTypes
import MppSdk.Solana
import MppSdk.Transaction

/-! # The Go server: values and constants

What the Go charge server takes from its language (errors, case folding, integer scanning,
the decoding of JSON into structs), the types of a challenge, and `protocol/solana.go`. -/

namespace MppSdk
namespace Go

/-- An error: the code of an `mpp.Error`, if it is one, and its text. -/
structure GoError where
  code : Option String := none
  message : String
deriving DecidableEq, Repr

/-- What a function that returns an error, or panics, returns. -/
abbrev Result : Type → Type := RustResult GoError

/-- `mpp.NewError`. -/
def newError {α : Type} (code message : String) : Result α :=
  .error (.error { code := some code, message })

/-- `mpp.WrapError`. -/
def wrapError {α : Type} (code message err : String) : Result α :=
  newError code s!"{message}: {err}"

/-- `return err` of a library function. -/
def orReturn {α : Type} : Except String α → Result α
  | .ok a => .ok a
  | .error message => .error (.error { message })

theorem orReturn_eq_ok {α : Type} {r : Except String α} {a : α} :
    orReturn r = .ok a ↔ r = .ok a := by
  rcases r with e | b <;> simp [orReturn]

/-! ## Strings and integers -/

/-- Simple folding, for comparison with ASCII names: besides the upper case letters only two
characters fold to an ASCII letter. -/
def foldChar (c : Char) : Char :=
  if c.toNat = 0x212A then 'k' else if c.toNat = 0x17F then 's' else c.toLower

/-- `strings.EqualFold`, where one side is ASCII. -/
def equalFold (s t : String) : Bool := s.toList.map foldChar = t.toList.map foldChar

/-- `strings.ToUpper`, for comparison with ASCII names. -/
def toUpper (s : String) : String :=
  String.ofList (s.toList.map fun c =>
    if c.toNat = 0x17F then 'S' else if c.toNat = 0x131 then 'I' else c.toUpper)

/-- The white space of `fmt` and `strings.TrimSpace`. -/
def isSpace (c : Char) : Bool :=
  c.toNat ∈ [0x9, 0xA, 0xB, 0xC, 0xD, 0x20, 0x85, 0xA0, 0x1680, 0x2028, 0x2029, 0x202F, 0x205F,
    0x3000] ∨ 0x2000 ≤ c.toNat ∧ c.toNat ≤ 0x200A

/-- The space that `Sscanf` skips before a verb: a line end is an error. -/
def skipSpace : List Char → Option (List Char)
  | [] => some []
  | c :: cs =>
      if c = '\n' then none
      else if c = '\r' ∧ cs.head? = some '\n' then none
      else if isSpace c then skipSpace cs
      else some (c :: cs)

/-- `Sscanf(s, "%d", &n)` for a `uint64`: the digits in front, whatever follows them. -/
def sscanUint64 (s : String) : Option UInt64 := do
  let digits := (← skipSpace s.toList).takeWhile Char.isDigit
  if digits = [] then none
  else
    let n ← digitsValue digits
    if n < 2 ^ 64 then some (UInt64.ofNat n) else none

/-- `ParseAmount`: an optional sign and digits, not negative, that fit a `uint64`. -/
def parseAmount (amount : String) : Result UInt64 :=
  let value : Option Nat := match amount.toList with
    | '-' :: ds => if ds = [] then none else (digitsValue ds).filter (· = 0)
    | '+' :: ds => if ds = [] then none else digitsValue ds
    | ds => if ds = [] then none else digitsValue ds
  okOrElse ((value.filter (· < 2 ^ 64)).map UInt64.ofNat)
    { message := s!"invalid amount: {amount}" }

/-! ## JSON into structs -/

/-- The fields of a struct's value; `null` has none. -/
def structFields : Json → Option (List (String × Json))
  | .obj fields => some fields
  | .null => some []
  | _ => none

/-- The values given for a field, whatever the case of its name. -/
def valuesOf (fields : List (String × Json)) (key : String) : List Json :=
  (fields.filter fun field => equalFold field.1 key).map Prod.snd

/-- A field of a plain type: `null` leaves it as it is, and the last value counts. -/
def plainField {α : Type} (read : Json → Option α) (zero : α) (fields : List (String × Json))
    (key : String) : Option α :=
  (valuesOf fields key).foldlM (fun a v => match v with
    | .null => some a
    | v => read v) zero

/-- A field of a pointer, slice or interface type: `null` clears it. -/
def pointerField {α : Type} (read : Json → Option α) (fields : List (String × Json))
    (key : String) : Option (Option α) :=
  (valuesOf fields key).foldlM (fun _ v => match v with
    | .null => some none
    | v => (read v).map some) none

/-- A text field. -/
abbrev stringField (fields : List (String × Json)) (key : String) : Option String :=
  plainField Json.asStr "" fields key

/-! ## Challenges -/

/-- `Split`. -/
structure Split where
  recipient : String := ""
  amount : String := ""
  label : String := ""
  memo : String := ""
deriving DecidableEq

/-- `Split` from JSON. -/
def Split.ofJson (value : Json) : Option Split := do
  let fields ← structFields value
  return {
    recipient := ← stringField fields "recipient"
    amount := ← stringField fields "amount"
    label := ← stringField fields "label"
    memo := ← stringField fields "memo" }

/-- `MethodDetails`. -/
structure MethodDetails where
  network : String := ""
  decimals : Option UInt8 := none
  tokenProgram : String := ""
  feePayer : Option Bool := none
  feePayerKey : String := ""
  splits : List Split := []
  recentBlockhash : String := ""
deriving DecidableEq

/-- `MethodDetails` from JSON. -/
def MethodDetails.ofJson (value : Json) : Option MethodDetails := do
  let fields ← structFields value
  return {
    network := ← stringField fields "network"
    decimals := ← pointerField Json.asU8 fields "decimals"
    tokenProgram := ← stringField fields "tokenProgram"
    feePayer := ← pointerField Json.asBool fields "feePayer"
    feePayerKey := ← stringField fields "feePayerKey"
    splits := (← pointerField (Json.asVec Split.ofJson) fields "splits").getD []
    recentBlockhash := ← stringField fields "recentBlockhash" }

/-- `ChargeRequest`. -/
structure ChargeRequest where
  amount : String := ""
  currency : String := ""
  recipient : String := ""
  description : String := ""
  externalID : String := ""
  methodDetails : Option Json := none

/-- `ChargeRequest` from JSON. -/
def ChargeRequest.ofJson (value : Json) : Option ChargeRequest := do
  let fields ← structFields value
  return {
    amount := ← stringField fields "amount"
    currency := ← stringField fields "currency"
    recipient := ← stringField fields "recipient"
    description := ← stringField fields "description"
    externalID := ← stringField fields "externalId"
    methodDetails := ← pointerField some fields "methodDetails" }

/-- `CredentialPayload`. -/
structure CredentialPayload where
  type : String := ""
  transaction : String := ""
  signature : String := ""
deriving DecidableEq

/-- `CredentialPayload` from JSON. -/
def CredentialPayload.ofJson (value : Json) : Option CredentialPayload := do
  let fields ← structFields value
  return {
    type := ← stringField fields "type"
    transaction := ← stringField fields "transaction"
    signature := ← stringField fields "signature" }

/-! ## Currencies -/

/-- `knownMints`. -/
def knownMints : List (String × List (String × String)) :=
  [("USDC", [("devnet", mints.USDC_DEVNET), ("testnet", mints.USDC_DEVNET),
      ("mainnet-beta", mints.USDC_MAINNET)]),
    ("USDT", [("mainnet-beta", mints.USDT_MAINNET)]),
    ("USDG", [("devnet", mints.USDG_DEVNET), ("testnet", mints.USDG_DEVNET),
      ("mainnet-beta", mints.USDG_MAINNET)]),
    ("PYUSD", [("devnet", mints.PYUSD_DEVNET), ("testnet", mints.PYUSD_DEVNET),
      ("mainnet-beta", mints.PYUSD_MAINNET)]),
    ("CASH", [("mainnet-beta", mints.CASH_MAINNET)])]

/-- `token2022Stablecoins`. -/
def token2022Stablecoins : List String := ["PYUSD", "USDG", "CASH"]

/-- `ResolveMint`; the empty text is native SOL. -/
def resolveMint (currency network : String) : String :=
  if toUpper currency = "SOL" then ""
  else match knownMints.lookup (toUpper currency) with
    | some mints => (mints.lookup network).getD ((mints.lookup "mainnet-beta").getD "")
    | none => currency

/-- `StablecoinSymbol`; the empty text is none. -/
def stablecoinSymbol (currency : String) : String :=
  if (knownMints.lookup (toUpper currency)).isSome then toUpper currency
  else ((knownMints.find? fun entry =>
    entry.2.any fun mint => mint.2 = currency).map Prod.fst).getD ""

/-- `DefaultTokenProgramForCurrency`. -/
def defaultTokenProgramForCurrency (currency network : String) : String :=
  let symbol := stablecoinSymbol (resolveMint currency network)
  let symbol := if symbol = "" then stablecoinSymbol currency else symbol
  if symbol ∈ token2022Stablecoins then programs.TOKEN_2022_PROGRAM else programs.TOKEN_PROGRAM

/-- `isNativeSOL`. -/
def isNativeSOL (currency : String) : Bool := equalFold currency "sol"

/-- What the server takes from its libraries; an error is its text. -/
structure Libraries where
  /-- HMAC-SHA256 of a key and a message. -/
  hmacSha256 : List UInt8 → List UInt8 → List UInt8
  /-- `base64.RawURLEncoding`. -/
  base64UrlEncode : List UInt8 → String
  base64UrlDecode : String → Except String (List UInt8)
  /-- `base64.StdEncoding.DecodeString`. -/
  base64Decode : String → Except String (List UInt8)
  /-- The value of a JSON text, and of a value decoded into `any` and marshalled again. -/
  parseJson : List UInt8 → Option Json
  remarshal : Json → Json
  /-- `strconv.Quote`. -/
  quote : String → String
  /-- An RFC 3339 timestamp, in nanoseconds since the epoch, and back. -/
  parseRfc3339 : String → Option Int
  formatRfc3339 : Int → String
  /-- `UnmarshalWithDecoder`, `MarshalBinary` and `Signers` of solana-go. -/
  unmarshalTransaction : List UInt8 → Except String VersionedTransaction
  marshalMessage : VersionedMessage → Except String (List UInt8)
  signers : VersionedMessage → List Pubkey
  /-- `ResolveInstructionAccounts`. -/
  resolveAccounts : VersionedMessage → CompiledInstruction → Except String (List Pubkey)
  /-- The recipient and the lamports of a system transfer that an instruction decodes to. -/
  systemTransfer : List Pubkey → List UInt8 → Option (Pubkey × UInt64)
  /-- The mint, the destination and the amount of a `TransferChecked` of a program. -/
  transferChecked : Pubkey → List Pubkey → List UInt8 → Option (Pubkey × Pubkey × UInt64)
  /-- `FindProgramAddress`. -/
  findProgramAddress : List (List UInt8) → Pubkey → Except String Pubkey

end Go
end MppSdk
