import Receipt.Date
import Receipt.Number.Binary64

/-!
# Orders

The transaction that a receipt is about. All single figures are optional, so that an order may be
filled in part; what a missing figure means is decided where it is printed.
-/

namespace Receipt

structure Order.Item where
  name : String
  quantity : UInt32
  unitPrice : Binary64
  totalPrice : Binary64
deriving DecidableEq, Repr

structure Order where
  orderId : Option String := none
  date : Option Date := none
  items : List Order.Item := []
  subtotal : Option Binary64 := none
  /-- The tax rate in percent. -/
  taxRate : Option Binary64 := none
  taxAmount : Option Binary64 := none
  totalAmount : Option Binary64 := none
deriving DecidableEq, Repr

namespace Order

/-- A part of an order that a section can print. -/
inductive Part where
  | info
  | items
  | subtotal
  | tax
  | total
deriving DecidableEq, Repr

namespace Part

def name : Part → String
  | info => "orderInfo"
  | items => "itemList"
  | subtotal => "subtotal"
  | tax => "tax"
  | total => "total"

def words : List (String × Part) :=
  [info, items, subtotal, tax, total].map fun p => (p.name, p)

/-- The key of an order under which the figure of the part stands. -/
def key : Part → String
  | info => "orderId"
  | items => "items"
  | subtotal => "subtotal"
  | tax => "taxAmount"
  | total => "totalAmount"

end Part

def cents (n : Nat) : Binary64 :=
  .nearest false n 100

/-- The order printed where no order is at hand. -/
def sample : Order where
  orderId := some "A-0042"
  date := some { year := 2024, month := 12, day := 4 }
  items := [
    ⟨"Cheeseburger", 2, cents 899, cents 1798⟩,
    ⟨"French Fries", 1, cents 399, cents 399⟩,
    ⟨"Soft Drink", 2, cents 299, cents 598⟩]
  subtotal := some (cents 2795)
  taxRate := some (cents 800)
  taxAmount := some (cents 224)
  totalAmount := some (cents 3019)

end Order

end Receipt
