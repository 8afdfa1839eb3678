import Mathlib.Data.List.Nodup
import Mathlib.Data.List.Perm.Subperm

/-! # Sponsored transactions

A sponsor signs, as the payer of the fees, a transaction somebody else wrote.  Its terms
say which effects the instructions may have (`Terms.Allows`).  Whatever the ledger, a
transaction whose effects are all allowed moves none of the sponsor's tokens and takes
from it the rent of the accounts it is to open, once for each owner (`spent_le`), and a
bounded fee (`priorityFee_le`). -/

namespace Sponsorship
variable {Key : Type}

/-- What one instruction of a transaction does. -/
inductive Effect (Key : Type) : Type
  | computeUnitLimit (units : Nat)
  | computeUnitPrice (microLamports : Nat)
  | memo (text : List UInt8)
  | transfer (source destination : Key) (lamports : Nat)
  | tokenTransfer (program source mint destination authority : Key) (amount : Nat)
      (decimals : UInt8)
  | openAccount (payer account owner mint program : Key)
  | unknown
deriving DecidableEq

/-- What an effect transfers. -/
def Effect.amount : Effect Key → Nat
  | transfer _ _ lamports => lamports
  | tokenTransfer _ _ _ _ _ amount _ => amount
  | _ => 0

/-- The token of a charge: its mint, the programs that may move it, and its decimals
where the charge says them. -/
structure Token (Key : Type) where
  mint : Key
  programs : List Key
  decimals : Option UInt8

/-- What a charge calls for.  Without a token it is paid in lamports. -/
structure Terms (Key : Type) where
  sponsor : Key
  token : Option (Token Key)
  payouts : List (Key × Nat)
  memos : List (List UInt8)
  owners : List Key
  maxUnits : Nat
  maxPrice : Nat

/-- The address of the token account of an owner, under a program and for a mint. -/
abbrev AddressOf (Key : Type) : Type := (owner program mint : Key) → Key

namespace Terms
variable (addressOf : AddressOf Key) (t : Terms Key)

/-- The effects the terms allow. -/
def Allows : Effect Key → Prop
  | .computeUnitLimit units => units ≤ t.maxUnits
  | .computeUnitPrice microLamports => microLamports ≤ t.maxPrice
  | .memo text => text ∈ t.memos
  | .transfer source destination lamports =>
      t.token.isNone ∧ (destination, lamports) ∈ t.payouts ∧ source ≠ t.sponsor
  | .tokenTransfer program source mint destination authority amount decimals =>
      ∃ token ∈ t.token, mint = token.mint ∧ program ∈ token.programs ∧
        (∀ d ∈ token.decimals, decimals = d) ∧
        (∃ payout ∈ t.payouts, payout.2 = amount ∧
          destination = addressOf payout.1 program mint) ∧
        authority ≠ t.sponsor ∧ source ≠ addressOf t.sponsor program mint
  | .openAccount payer account owner mint program =>
      ∃ token ∈ t.token, mint = token.mint ∧ program ∈ token.programs ∧
        payer = t.sponsor ∧ owner ∈ t.owners ∧ account = addressOf owner program mint
  | .unknown => False

end Terms

/-! ## What the ledger takes from the sponsor -/

/-- The ledger as the sponsor sees it: the token accounts that are open, and what it has
paid in lamports and in tokens. -/
structure Ledger (Key : Type) where
  accounts : List Key
  lamports : Nat
  tokens : Nat

section Ledger
variable (addressOf : AddressOf Key) (programOf : Key → Key) (rent : Nat) (sponsor : Key)

/-- What one effect does to the ledger.  Opening an account that is open does nothing;
otherwise the payer pays the rent, and the program has to be the one the mint belongs to.
An unknown effect may do anything. -/
inductive Step : Effect Key → Ledger Key → Ledger Key → Prop
  | computeUnitLimit (units : Nat) (l : Ledger Key) : Step (.computeUnitLimit units) l l
  | computeUnitPrice (price : Nat) (l : Ledger Key) : Step (.computeUnitPrice price) l l
  | memo (text : List UInt8) (l : Ledger Key) : Step (.memo text) l l
  | ownTransfer (destination : Key) (n : Nat) (l : Ledger Key) :
      Step (.transfer sponsor destination n) l { l with lamports := l.lamports + n }
  | transfer (source destination : Key) (n : Nat) (l : Ledger Key) (h : source ≠ sponsor) :
      Step (.transfer source destination n) l l
  | ownTokenTransfer (program source mint destination authority : Key) (n : Nat) (d : UInt8)
      (l : Ledger Key) (h : authority = sponsor ∨ source = addressOf sponsor program mint) :
      Step (.tokenTransfer program source mint destination authority n d) l
        { l with tokens := l.tokens + n }
  | tokenTransfer (program source mint destination authority : Key) (n : Nat) (d : UInt8)
      (l : Ledger Key) (h : authority ≠ sponsor ∧ source ≠ addressOf sponsor program mint) :
      Step (.tokenTransfer program source mint destination authority n d) l l
  | openedBefore (payer account owner mint program : Key) (l : Ledger Key)
      (h : account ∈ l.accounts) : Step (.openAccount payer account owner mint program) l l
  | openOwn (account owner mint : Key) (l : Ledger Key) (h : account ∉ l.accounts) :
      Step (.openAccount sponsor account owner mint (programOf mint)) l
        { l with accounts := account :: l.accounts, lamports := l.lamports + rent }
  | openOther (payer account owner mint : Key) (l : Ledger Key) (h : account ∉ l.accounts)
      (hp : payer ≠ sponsor) :
      Step (.openAccount payer account owner mint (programOf mint)) l
        { l with accounts := account :: l.accounts }
  | unknown (l l' : Ledger Key) : Step .unknown l l'

/-- The effects of a transaction, one after another. -/
inductive Steps : List (Effect Key) → Ledger Key → Ledger Key → Prop
  | nil (l : Ledger Key) : Steps [] l l
  | cons {e : Effect Key} {es : List (Effect Key)} {l m n : Ledger Key}
      (head : Step addressOf programOf rent sponsor e l m) (tail : Steps es m n) :
      Steps (e :: es) l n

end Ledger

section Cost
variable {addressOf : AddressOf Key} {programOf : Key → Key} {rent : Nat} {t : Terms Key}
  {l l' : Ledger Key}

/-- The accounts the terms let a transaction open. -/
def Terms.accounts (addressOf : AddressOf Key) (programOf : Key → Key) (t : Terms Key) :
    List Key :=
  match t.token with
  | some token => t.owners.map fun owner => addressOf owner (programOf token.mint) token.mint
  | none => []

theorem Terms.length_accounts_le : (t.accounts addressOf programOf).length ≤ t.owners.length := by
  unfold Terms.accounts
  split
  · exact Nat.le_of_eq (List.length_map _)
  · exact Nat.zero_le _

/-- What has happened so far: the sponsor has paid the rent of the accounts opened, each
of them new and one the terms name, and nothing else. -/
def Paid (addressOf : AddressOf Key) (programOf : Key → Key) (rent : Nat) (t : Terms Key)
    (l l' : Ledger Key) : Prop :=
  ∃ opened : List Key, opened.Nodup ∧ (∀ a ∈ opened, a ∈ t.accounts addressOf programOf) ∧
    (∀ a ∈ opened, a ∉ l.accounts) ∧ l'.accounts = opened ++ l.accounts ∧
    l'.lamports = l.lamports + rent * opened.length ∧ l'.tokens = l.tokens

theorem Paid.refl (l : Ledger Key) : Paid addressOf programOf rent t l l :=
  ⟨[], List.nodup_nil, by simp, by simp, rfl, rfl, rfl⟩

/-- An allowed effect opens at most one account. -/
theorem Paid.step {m n : Ledger Key} {e : Effect Key}
    (hpaid : Paid addressOf programOf rent t l m) (ha : t.Allows addressOf e)
    (hs : Step addressOf programOf rent t.sponsor e m n) :
    Paid addressOf programOf rent t l n := by
  cases hs with
  | computeUnitLimit => exact hpaid
  | computeUnitPrice => exact hpaid
  | memo => exact hpaid
  | transfer => exact hpaid
  | tokenTransfer => exact hpaid
  | openedBefore => exact hpaid
  | ownTransfer => exact absurd rfl ha.2.2
  | ownTokenTransfer program source mint destination authority n d _ h =>
    obtain ⟨token, -, -, -, -, -, hauthority, hsource⟩ := ha
    exact h.elim (fun he => absurd he hauthority) (fun he => absurd he hsource)
  | openOther payer account owner mint _ h hp =>
    obtain ⟨token, -, -, -, hpayer, -⟩ := ha
    exact absurd hpayer hp
  | openOwn account owner mint _ hnew =>
    obtain ⟨opened, hnodup, hnamed, hfresh, haccounts, hlamports, htokens⟩ := hpaid
    obtain ⟨token, htoken, rfl, -, -, howner, rfl⟩ := ha
    have hnew' : addressOf owner (programOf token.mint) token.mint ∉ opened ++ l.accounts :=
      haccounts ▸ hnew
    rw [List.mem_append, not_or] at hnew'
    refine ⟨addressOf owner (programOf token.mint) token.mint :: opened,
      List.nodup_cons.mpr ⟨hnew'.1, hnodup⟩, ?_, ?_, ?_, ?_, htokens⟩
    · refine List.forall_mem_cons.mpr ⟨?_, hnamed⟩
      have hsome : t.token = some token := htoken
      rw [Terms.accounts, hsome]
      exact List.mem_map.mpr ⟨owner, howner, rfl⟩
    · exact List.forall_mem_cons.mpr ⟨hnew'.2, hfresh⟩
    · show _ :: m.accounts = _
      rw [haccounts]
      rfl
    · show m.lamports + rent = _
      rw [hlamports, List.length_cons, Nat.mul_succ]
      omega
  | unknown => exact ha.elim

/-- An allowed transaction opens accounts the terms name, and nothing else happens. -/
theorem Paid.steps {es : List (Effect Key)} {m n : Ledger Key}
    (hpaid : Paid addressOf programOf rent t l m) (ha : ∀ e ∈ es, t.Allows addressOf e)
    (hs : Steps addressOf programOf rent t.sponsor es m n) :
    Paid addressOf programOf rent t l n := by
  induction hs with
  | nil => exact hpaid
  | cons head _ ih =>
    obtain ⟨he, hes⟩ := List.forall_mem_cons.mp ha
    exact ih (hpaid.step he head) hes

/-- **The cost of an allowed transaction**: none of the sponsor's tokens, and of its
lamports at most one rent for each owner the terms name. -/
theorem spent_le {es : List (Effect Key)} (ha : ∀ e ∈ es, t.Allows addressOf e)
    (hs : Steps addressOf programOf rent t.sponsor es l l') :
    l'.tokens = l.tokens ∧ l'.lamports ≤ l.lamports + rent * t.owners.length := by
  obtain ⟨opened, hnodup, hnamed, -, -, hlamports, htokens⟩ := (Paid.refl l).steps ha hs
  have hlength : opened.length ≤ (t.accounts addressOf programOf).length :=
    (hnodup.subperm hnamed).length_le
  have howners : opened.length ≤ t.owners.length := Nat.le_trans hlength Terms.length_accounts_le
  have hrent : rent * opened.length ≤ rent * t.owners.length := Nat.mul_le_mul_left rent howners
  exact ⟨htokens, by omega⟩

end Cost

/-! ## The priority fee -/

/-- The compute units a transaction may use: what it asks for, or the most it is given
when it asks for nothing. -/
def unitLimit (default : Nat) : List (Effect Key) → Nat
  | [] => default
  | .computeUnitLimit units :: _ => units
  | _ :: es => unitLimit default es

/-- The price of a compute unit, in micro-lamports. -/
def unitPrice : List (Effect Key) → Nat
  | [] => 0
  | .computeUnitPrice microLamports :: _ => microLamports
  | _ :: es => unitPrice es

/-- The priority fee in lamports, rounded up. -/
def priorityFee (default : Nat) (es : List (Effect Key)) : Nat :=
  (unitLimit default es * unitPrice es + 999999) / 1000000

section Fee
variable {addressOf : AddressOf Key} {t : Terms Key} {es : List (Effect Key)}

theorem unitLimit_le {default : Nat} (ha : ∀ e ∈ es, t.Allows addressOf e) :
    unitLimit default es ≤ max default t.maxUnits := by
  induction es with
  | nil => exact Nat.le_max_left _ _
  | cons e es ih =>
    obtain ⟨he, hes⟩ := List.forall_mem_cons.mp ha
    cases e with
    | computeUnitLimit units => exact Nat.le_trans he (Nat.le_max_right _ _)
    | _ => exact ih hes

theorem unitPrice_le (ha : ∀ e ∈ es, t.Allows addressOf e) : unitPrice es ≤ t.maxPrice := by
  induction es with
  | nil => exact Nat.zero_le _
  | cons e es ih =>
    obtain ⟨he, hes⟩ := List.forall_mem_cons.mp ha
    cases e with
    | computeUnitPrice microLamports => exact he
    | _ => exact ih hes

/-- **The priority fee of an allowed transaction is bounded by the terms.** -/
theorem priorityFee_le {default : Nat} (ha : ∀ e ∈ es, t.Allows addressOf e) :
    priorityFee default es ≤ (max default t.maxUnits * t.maxPrice + 999999) / 1000000 := by
  have hmul : unitLimit default es * unitPrice es ≤ max default t.maxUnits * t.maxPrice :=
    Nat.mul_le_mul (unitLimit_le ha) (unitPrice_le ha)
  exact Nat.div_le_div_right (Nat.add_le_add_right hmul 999999)

end Fee
end Sponsorship
