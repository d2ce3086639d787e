import Receipt.Money
import Receipt.Number.Shortest
import Receipt.Order.Basic

/-!
# Order lines

The lines that the parts of an order take on a receipt of some width. A label and its amount stand at
the two ends of the line, with at least one space between them; nothing of them is cut off. An item
takes a row of a name column, the quantity and the price; only the name is cut.

A line or a column that no text can have is an error, as is a figure that is missing or not finite. The
characters of labels, gaps and amounts are bytes, so that the longest text bounds the line in characters.
Memory is taken as given: lines below that bound are printed, whatever a machine could hold of them.
-/

namespace Receipt.Order

/-- Why a part of an order cannot be printed. -/
inductive Fault where
  /-- The figure of the part is missing. -/
  | missing (part : Part)
  /-- An amount of the part is not finite. -/
  | notFinite (part : Part) (amount : Binary64)
  /-- The gap between label and amount makes the line longer than any text. -/
  | gapTooWide
  /-- A name column is wider than a column can be. -/
  | columnTooWide
deriving DecidableEq, Repr

/-- The columns that quantity and price take at least. -/
def figureColumns : Nat := 8

/-- The bytes that a text has at most. -/
def maxLength : Nat := Nat.pow 2 63 - 1

def maxColumn : Nat := 65535

def gap (label amount : String) (width : Nat) : Nat :=
  max (width - (label.toList.length + amount.toList.length)) 1

/-- The characters of a line with a label, its gap and an amount. -/
def lineLength (label amount : String) (width : Nat) : Nat :=
  label.toList.length + gap label amount width + amount.toList.length

/-- A label at the left and an amount at the right end of a line. -/
def columns (label amount : String) (width : Nat) : String :=
  label ++ String.ofList (List.replicate (gap label amount width) ' ') ++ amount

/-- The width of the name column on a line of some width. -/
def nameColumns (width : Nat) : Nat :=
  max (width - figureColumns) 1

/-- The row of an item whose price has been written. -/
def itemRow (name : String) (quantity : UInt32) (price : String) (width : Nat) : String :=
  let column := nameColumns width
  String.ofList ((name.toList.take (column - 1)).rightpad column ' ' ++
    'x' :: Nat.toDigits 10 quantity.toNat ++ price.toList.leftpad 7 ' ')

def amountText (part : Part) (amount : Binary64) : Except Fault String :=
  match Money.text? amount with
  | some text => .ok text
  | none => .error (.notFinite part amount)

def itemLine (item : Item) (width : Nat) : Except Fault String := do
  let price ← amountText .items item.totalPrice
  if maxColumn < nameColumns width then throw .columnTooWide
  pure (itemRow item.name item.quantity price width)

/-- The line of a part with a single amount. -/
def amountLine (part : Part) (label : String) (amount : Option Binary64) (width : Nat) :
    Except Fault String := do
  let some amount := amount | throw (.missing part)
  let text ← amountText part amount
  if maxLength < lineLength label text width then throw .gapTooWide
  pure (columns label text width)

/-- The label of the tax line, with the rate if there is one. -/
def taxLabel (rate : Option Binary64) : String :=
  match rate with
  | some rate => "Tax (" ++ Money.rateText rate ++ "%):"
  | none => "Tax:"

/-- The line with the order's number, and its date if there is one. -/
def infoLine (o : Order) : Except Fault String := do
  let some id := o.orderId | throw (.missing .info)
  pure <| match o.date with
    | some date => "Order #" ++ id ++ "   Date: " ++ date.text
    | none => "Order #" ++ id

/-- The text of a part for lines of some width; the items take a line each. -/
def text (o : Order) (part : Part) (width : Nat) : Except Fault String :=
  match part with
  | .info => o.infoLine
  | .items => do
    let rows ← o.items.mapM (itemLine · width)
    pure ("\n".intercalate rows)
  | .subtotal => amountLine .subtotal "Subtotal:" o.subtotal width
  | .tax => amountLine .tax (taxLabel o.taxRate) o.taxAmount width
  | .total => amountLine .total "TOTAL:" o.totalAmount width

end Receipt.Order
