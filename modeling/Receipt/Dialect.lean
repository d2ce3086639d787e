import Receipt.Composer
import Receipt.Layout.Reader

/-!
# Receipts

From the text of a layout to a complete receipt. `Dialect.body` reads and composes and may fail;
`Dialect.receipt` never fails: if anything goes wrong, nothing of the body is kept and a line with the
error is printed instead. Every receipt ends with one feed and one cut.
-/

namespace Receipt

/-- Why a receipt has no body. -/
inductive Fault where
  | layout (f : Layout.Fault)
  | body (f : Composer.Fault)
  /-- Something failed that should not. -/
  | internal (message : String)
deriving DecidableEq, Repr

def Order.Fault.message : Order.Fault → String
  | missing part => "order has no " ++ part.key
  | notFinite part amount =>
    "invalid amount for " ++ part.key ++ ": " ++ Number.Shortest.text amount
  | gapTooWide => "internal error: capacity overflow"
  | columnTooWide => "internal error: Formatting argument out of range"

def Composer.Fault.message : Composer.Fault → String
  | order f => f.message
  | unknownType tag => "unknown section type: " ++ tag

namespace Fault

def message : Fault → String
  | layout f => f.message
  | body f => f.message
  | internal text => "internal error: " ++ text

/-- What is printed in place of a body: the fault in one bold line. -/
def notice (f : Fault) : Program :=
  [.align .center, .text ("ERROR: " ++ f.message) (some .emphasis)]

end Fault

namespace Program

/-- A body with the feed and the cut that end a receipt. -/
def finish (body : Program) : Program :=
  body ++ ending

/-- What is printed for a document without a layout. -/
def absentLayout : Program :=
  [.align .center, .text Layout.absentNotice none]

end Program

namespace Dialect

def bodyOf (d : Dialect) (order : Option Order) (l : Layout) : Except Fault Program :=
  (d.compose order l.sections).mapError .body

/-- The body of a receipt whose layout is given as text. -/
def body (d : Dialect) (order : Option Order) (text : String) : Except Fault Program := do
  match ← (Layout.read? text).mapError .layout with
  | some l => d.bodyOf order l
  | none => pure Program.absentLayout

/-- A complete receipt with a body, or with a notice of what went wrong. -/
def complete : Except Fault Program → Program
  | .ok body => body.finish
  | .error f => f.notice.finish

def receiptOf (d : Dialect) (order : Option Order) (l : Layout) : Program :=
  complete (d.bodyOf order l)

/-- The receipt whose layout is given as text. -/
def receipt (d : Dialect) (order : Option Order) (text : String) : Program :=
  complete (d.body order text)

/-- Prints a receipt; the printer sees nothing before the receipt is complete. -/
def print {σ : Type} [Printer σ] (d : Dialect) (order : Option Order) (text : String)
    (printer : σ) : σ :=
  (d.receipt order text).replay printer

end Dialect

end Receipt
