import HostedEvm.Keccak

set_option autoImplicit false

/-!
Transactions with a known sender.

A transaction is sealed by the digest of its other fields, laid out by `preimage`. One that was
never sealed has hash zero and counts as empty.
-/

namespace HostedEvm

/-- An account and some of its slots, warmed before a transaction runs. -/
structure AccessListItem where
  address : Address
  storageKeys : List Word
  deriving DecidableEq

/-- A transaction as the host hands it over. -/
structure Transaction where
  nonce : UInt64 := 0
  sender : Address := 0
  /-- The account called, or none to create a contract. -/
  recipient : Option Address := none
  value : Word := 0
  gasLimit : Gas := 0
  gasPrice : Word := 0
  /-- Call data, or the code of the new contract. -/
  input : Bytes := []
  accessList : List AccessListItem := []
  /-- The seal, or zero. -/
  hash : Word := 0
  deriving DecidableEq

namespace Transaction

/-- The bytes of the recipient: a mark, and the address behind it if there is one. -/
def recipientBytes : Option Address → Bytes
  | some address => 1 :: Bytes.ofAddress address
  | none => [0]

def itemBytes (item : AccessListItem) : Bytes :=
  Bytes.ofAddress item.address ++ item.storageKeys.flatMap Bytes.ofWord

/-- The bytes that the seal is the digest of. -/
def preimage (tx : Transaction) : Bytes :=
  Bytes.ofGas tx.nonce ++ Bytes.ofAddress tx.sender ++ recipientBytes tx.recipient ++
    Bytes.ofWord tx.value ++ Bytes.ofGas tx.gasLimit ++ Bytes.ofWord tx.gasPrice ++ tx.input ++
    tx.accessList.flatMap itemBytes

/-- The transaction with the seal that belongs to its fields. -/
def sealed (tx : Transaction) : Transaction := { tx with hash := Keccak.digest tx.preimage }

/-- The transaction with another access list, sealed anew. -/
def withAccessList (tx : Transaction) (items : List AccessListItem) : Transaction :=
  { tx with accessList := items }.sealed

def isCreation (tx : Transaction) : Bool := tx.recipient.isNone

def isEmpty (tx : Transaction) : Bool := tx.hash = 0

end Transaction

/-- The account that a contract created by `sender` at `nonce` gets. -/
def createdAddress (sender : Address) (nonce : UInt64) : Address :=
  Bytes.toAddress ((Keccak.digestBytes (Bytes.ofAddress sender ++ Bytes.ofGas nonce)).drop 12)

end HostedEvm
