import Netcf.Shared.Pattern

set_option autoImplicit false

-- The type library of interface.rng.  A value stands for its text after the white space processing
-- of its data type, which is the spelling the schema itself uses.
namespace Netcf.Schema

open Shared.Pattern
open RegularExpression (char)

def digit : RegularExpression Char := oneOf (range '0' '9')

def hexDigit : RegularExpression Char := oneOf (range '0' '9' ++ range 'A' 'F' ++ range 'a' 'f')

def decimal : RegularExpression Char := oneOrMore digit

def deviceName : RegularExpression Char :=
  oneOrMore (oneOf (range 'a' 'z' ++ range 'A' 'Z' ++ range '0' '9' ++ ['_', '.', '-', ':', '/']))

def macAddr : RegularExpression Char :=
  (hexDigit ^ 2 * char ':') ^ 5 * hexDigit ^ 2

def octet : RegularExpression Char :=
  char '2' * char '5' * oneOf (range '0' '5') +
  char '2' * oneOf (range '0' '4') * digit +
  char '1' * digit ^ 2 +
  oneOf (range '1' '9') * digit +
  digit

def ipv4Addr : RegularExpression Char :=
  (octet * char '.') ^ 3 * octet

def group : RegularExpression Char := between hexDigit 1 4

-- The octets of the dotted tail of an ipv6-addr, unlike those of an ipv4-addr, may have a leading 0.
def tailOctet : RegularExpression Char :=
  char '2' * char '5' * oneOf (range '0' '5') +
  char '1' * digit ^ 2 +
  char '2' * oneOf (range '0' '4') * digit +
  between digit 1 2

def dottedTail : RegularExpression Char :=
  (tailOctet * char '.') ^ 3 * tailOctet

def part : RegularExpression Char := group * char ':'

def ipv6Addr : RegularExpression Char :=
  part ^ 7 * group +
  part ^ 6 * char ':' * group +
  part ^ 5 * char ':' * optional part * group +
  part ^ 4 * char ':' * upTo part 2 * group +
  part ^ 3 * char ':' * upTo part 3 * group +
  part ^ 2 * char ':' * upTo part 4 * group +
  part ^ 6 * dottedTail +
  upTo part 5 * char ':' * dottedTail +
  char ':' * char ':' * upTo part 5 * dottedTail +
  group * char ':' * char ':' * upTo part 5 * group +
  char ':' * char ':' * upTo part 6 * group +
  between part 1 7 * char ':'

-- A double that is at least 0: NaN and the negative numbers are out, INF and -0 are in.
def timeval : RegularExpression Char :=
  let point := char '.'
  let exponent := oneOf ['e', 'E'] * optional (oneOf ['+', '-']) * decimal
  let zeros := oneOrMore (char '0')
  optional (char '+') * (decimal * optional (point * digit.star) + point * decimal) * optional exponent +
  char '-' * (zeros * optional (point * (char '0').star) + point * zeros) * optional exponent +
  char 'I' * char 'N' * char 'F'

abbrev DeviceName := Lexeme deviceName
abbrev MacAddr := Lexeme macAddr
abbrev Ipv4Addr := Lexeme ipv4Addr
abbrev Ipv6Addr := Lexeme ipv6Addr
abbrev Timeval := Lexeme timeval

def value (text : String) : Nat := Nat.ofDigitChars 10 text.toList 0

structure Unsigned (most : Nat) extends Lexeme decimal where
  bounded : value text ≤ most
  deriving DecidableEq

def Unsigned.value {most : Nat} (number : Unsigned most) : Nat := Schema.value number.text

def Unsigned.Canonical {most : Nat} (number : Unsigned most) : Prop :=
  number.text = toString number.value

instance {most : Nat} (number : Unsigned most) : Decidable number.Canonical :=
  inferInstanceAs (Decidable (_ = _))

abbrev Uint := Unsigned (2 ^ 32 - 1)
abbrev Ipv4Prefix := Unsigned 32
abbrev Ipv6Prefix := Unsigned 128
abbrev VlanId := Unsigned 4096

inductive StartMode
  | onboot | none | hotplug
  deriving DecidableEq

def StartMode.text : StartMode → String
  | .onboot => "onboot"
  | .none => "none"
  | .hotplug => "hotplug"

inductive BondMode
  | balanceRr | activeBackup | balanceXor | broadcast | ieee8023ad | balanceTlb | balanceAlb
  deriving DecidableEq

def BondMode.text : BondMode → String
  | .balanceRr => "balance-rr"
  | .activeBackup => "active-backup"
  | .balanceXor => "balance-xor"
  | .broadcast => "broadcast"
  | .ieee8023ad => "802.3ad"
  | .balanceTlb => "balance-tlb"
  | .balanceAlb => "balance-alb"

inductive Carrier
  | ioctl | netif
  deriving DecidableEq

def Carrier.text : Carrier → String
  | .ioctl => "ioctl"
  | .netif => "netif"

inductive ArpValidate
  | none | active | backup | all
  deriving DecidableEq

def ArpValidate.text : ArpValidate → String
  | .none => "none"
  | .active => "active"
  | .backup => "backup"
  | .all => "all"

inductive OnOff
  | on | off
  deriving DecidableEq

def OnOff.text : OnOff → String
  | .on => "on"
  | .off => "off"

inductive YesNo
  | yes | no
  deriving DecidableEq

def YesNo.text : YesNo → String
  | .yes => "yes"
  | .no => "no"

-- Addresses and numbers are single words without a slash.
theorem address_chars (address : Ipv6Addr) {c : Char} (listed : c ∈ ['/', ' ', '\'']) :
    c ∉ address.text.toList := by
  have letters := @Lexeme.within _ address (fun c => !(['/', ' ', '\''].contains c)) (by decide +kernel)
  intro inside
  have allowed := letters c inside
  simp only [List.contains_eq_mem, listed, decide_true, Bool.not_true] at allowed
  cases allowed

theorem digits_chars {most : Nat} (number : Unsigned most) {c : Char} (listed : c ∈ ['/', ' ', '\'']) :
    c ∉ number.text.toList := by
  have letters := @Lexeme.within _ number.toLexeme (fun c => !(['/', ' ', '\''].contains c))
    (by decide +kernel)
  intro inside
  have allowed := letters c inside
  simp only [List.contains_eq_mem, listed, decide_true, Bool.not_true] at allowed
  cases allowed

theorem address_nonempty (address : Ipv6Addr) : address.text ≠ "" := by
  intro empty
  exact address.nonempty (by decide +kernel) (by simp [empty])

theorem digits_nonempty {most : Nat} (number : Unsigned most) : number.text ≠ "" := by
  intro empty
  exact number.toLexeme.nonempty (by decide +kernel) (by simp [empty])

end Netcf.Schema
