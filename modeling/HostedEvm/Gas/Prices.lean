import HostedEvm.Word

set_option autoImplicit false

/-!
What the host charges for work on its storage.
-/

namespace HostedEvm

structure StoragePrices where
  has : Gas := 0
  delete : Gas := 0
  readFlat : Gas := 0
  readByte : Gas := 0
  writeFlat : Gas := 0
  writeByte : Gas := 0
  iterate : Gas := 0
  deriving DecidableEq

namespace StoragePrices

/-- Prices that charge nothing. -/
def free : StoragePrices := {}

/-- The prices of a host that sets none. -/
def standard : StoragePrices where
  has := 1000
  delete := 1000
  readFlat := 1000
  readByte := 3
  writeFlat := 2000
  writeByte := 30
  iterate := 30

def isFree (prices : StoragePrices) : Bool := prices = free

def read (prices : StoragePrices) (length : Gas) : Gas :=
  prices.readFlat.plus (prices.readByte.times length)

def write (prices : StoragePrices) (length : Gas) : Gas :=
  prices.writeFlat.plus (prices.writeByte.times length)

end StoragePrices

end HostedEvm
