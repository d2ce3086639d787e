import Receipt.Json.Record
import Receipt.Order.Basic

/-!
# Reading orders

The form in which a point of sale writes an order. All fields of an order may be left out or null,
those of an item may not; the list of items may be left out and may not be null.
-/

namespace Receipt.Order

open Json

/-- Dates, written as texts. -/
def dateScalar : Scalar Date where
  expected := "a formatted date string"
  take?
    | .text s => some ((Date.read s).mapError fun fault => .malformed fault.message)
    | _ => none

def Item.field {α : Type} (name : String) (k : Scalar α) (set : Item → α → Item) : Record.Field Item where
  name := name
  required := true
  read _ item cs := do
    let (a, rest) ← k.read cs
    pure (set item a, rest)

def Item.record : Record Item where
  name := "OrderItem"
  blank := ⟨"", 0, .zero false, .zero false⟩
  fields := [
    Item.field "name" .text fun item name => { item with name },
    Item.field "quantity" .word32 fun item quantity => { item with quantity },
    Item.field "unitPrice" .amount fun item unitPrice => { item with unitPrice },
    Item.field "totalPrice" .amount fun item totalPrice => { item with totalPrice }]

/-- A field that holds a scalar or a null. -/
def field {α : Type} (name : String) (k : Scalar α) (set : Order → Option α → Order) :
    Record.Field Order where
  name := name
  read _ order cs := do
    let (a, rest) ← readOption k.read cs
    pure (set order a, rest)

def record : Record Order where
  name := "Order"
  blank := {}
  fields := [
    field "orderId" .text fun order orderId => { order with orderId },
    field "date" dateScalar fun order date => { order with date },
    { name := "items"
      read := fun depth order cs => do
        let (items, rest) ← readList Item.record.read depth cs
        pure ({ order with items }, rest) },
    field "subtotal" .amount fun order subtotal => { order with subtotal },
    field "taxRate" .amount fun order taxRate => { order with taxRate },
    field "taxAmount" .amount fun order taxAmount => { order with taxAmount },
    field "totalAmount" .amount fun order totalAmount => { order with totalAmount }]

def read (text : String) : Except Json.Error Order :=
  readWhole (record.read maxDepth) text

end Receipt.Order
