import Gearing.Reserve
import Gearing.Market.Amount
import Gearing.Text.UpperCase

/-!
Markets as they are configured: a wrapped native token and the listed reserves.

Addresses stay texts until they are asked for. `Market.validate` names the first fault, reserve by
reserve; symbols that differ in case alone are duplicates, and so are two spellings of one address.
-/
namespace Gearing

structure Listing where
  symbol : String
  address : String
  decimals : Nat
  ltvBps : Nat
  liquidationThresholdBps : Nat
  liquidationBonusBps : Nat := 0
  reserveFactorBps : Nat := 0
  borrowingEnabled : Bool := true
  active : Bool := true
  price : Binary64 := Binary64.ofNat 1
  deriving DecidableEq, Repr

structure Market where
  name : String
  wrappedNative : String
  listings : List Listing
  deriving DecidableEq, Repr

inductive MarketError where
  | badWrappedNative (text : String) (fault : Address.Fault)
  | badToken (text : String) (fault : Address.Fault)
  | ltvTooHigh (symbol : String) (ltv : Nat)
  | ltvAboveThreshold (symbol : String) (ltv threshold : Nat)
  | duplicateSymbol (symbol : String)
  | duplicateAddress (address : Address)
  | amountTooPrecise (symbol : String) (decimals : Nat) (text : String)
  | badAmount (symbol text : String)
  deriving DecidableEq, Repr

def MarketError.message : MarketError → String
  | badWrappedNative text fault =>
    "Invalid wrapped native address '" ++ text ++ "': " ++ fault.message
  | badToken text fault => "Invalid token address '" ++ text ++ "': " ++ fault.message
  | ltvTooHigh symbol ltv =>
    symbol ++ ": ltv " ++ toString ltv ++ " must be below " ++ toString scale
  | ltvAboveThreshold symbol ltv threshold =>
    symbol ++ ": ltv " ++ toString ltv ++ " exceeds liquidation threshold " ++ toString threshold
  | duplicateSymbol symbol => "Duplicate reserve symbol " ++ symbol
  | duplicateAddress address => "Duplicate reserve address " ++ address.checksum
  | amountTooPrecise symbol decimals text =>
    symbol ++ " has " ++ toString decimals ++ " decimals, '" ++ text ++ "' is too precise"
  | badAmount symbol text => "Invalid " ++ symbol ++ " amount '" ++ text ++ "'"

namespace Listing

def token (l : Listing) : Except MarketError Address :=
  match Address.parse l.address with
  | .ok a => .ok a
  | .error fault => .error (.badToken l.address fault)

def oraclePrice (l : Listing) : Word := FixedPoint.priceOfFloat l.price

/-- The reserve of a listing, with unit indices and no liquidity. -/
def reserve (l : Listing) : Except MarketError Reserve :=
  l.token.map fun asset => {
    asset
    symbol := l.symbol
    decimals := l.decimals
    ltvBps := l.ltvBps
    liquidationThresholdBps := l.liquidationThresholdBps
    liquidationBonusBps := l.liquidationBonusBps
    active := l.active
    borrowingEnabled := l.borrowingEnabled
    price := l.oraclePrice }

def parseAmount (l : Listing) (text : String) : Except MarketError Word :=
  match Amount.parse l.decimals text.toList with
  | .ok w => .ok w
  | .error .tooPrecise => .error (.amountTooPrecise l.symbol l.decimals text)
  | .error .malformed => .error (.badAmount l.symbol text)

end Listing

namespace Market

def wrappedNativeAddress (m : Market) : Except MarketError Address :=
  match Address.parse m.wrappedNative with
  | .ok a => .ok a
  | .error fault => .error (.badWrappedNative m.wrappedNative fault)

/-- What a listing must not clash with: the symbols, in upper case, and addresses before it. -/
structure Taken where
  symbols : List String := []
  addresses : List Address := []

/-- Takes a listing in, or names its first fault. -/
def enlist (t : Taken) (l : Listing) : Except MarketError Taken := do
  let address ← l.token
  if scale ≤ l.ltvBps then throw (.ltvTooHigh l.symbol l.ltvBps)
  else if l.liquidationThresholdBps < l.ltvBps then
    throw (.ltvAboveThreshold l.symbol l.ltvBps l.liquidationThresholdBps)
  else if Text.upper l.symbol ∈ t.symbols then throw (.duplicateSymbol l.symbol)
  else if address ∈ t.addresses then throw (.duplicateAddress address)
  else return { symbols := Text.upper l.symbol :: t.symbols, addresses := address :: t.addresses }

def validate (m : Market) : Except MarketError Unit := do
  let _ ← m.wrappedNativeAddress
  let _ ← m.listings.foldlM enlist {}

/-- The first listing with that symbol, up to ASCII case. -/
def listing? (m : Market) (symbol : String) : Option Listing :=
  m.listings.find? fun l => l.symbol.toLower = symbol.toLower

def active (m : Market) : List Listing := m.listings.filter (·.active)

end Market
end Gearing
