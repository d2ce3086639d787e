import Receipt.Config
import Receipt.Layout.Basic
import Receipt.Order.Lines
import Receipt.Placeholder
import Receipt.Program

/-!
# Composing receipts

A composer takes the sections of a layout one by one and records what they print. Every value that a
section leaves open is taken from the rule of its type, and failing that from a fixed default. A
section whose type is bound to a part of an order prints that part if an order is at hand; otherwise it
prints what is written, and if nothing is written the sample order.

A text section sets the alignment before its content is worked out, so a section that fails has left
that one primitive behind. The feed and the cut at the end of a receipt are not the composer's.
-/

namespace Receipt

/-- The vocabulary and the switches under which receipts are composed. -/
structure Dialect where
  vocabulary : Vocabulary := .standard
  options : Options := {}
deriving DecidableEq, Inhabited

def Config.dialect (c : Config) : Dialect where
  vocabulary := c.vocabulary
  options := c.options

/-- A receipt in the making. -/
structure Composer where
  dialect : Dialect
  order : Option Order := none
  /-- The alignment that was set last. -/
  alignment : Alignment := .left
  /-- What has been recorded so far. -/
  program : Program := []

namespace Composer

inductive Fault where
  /-- The order does not have what the section needs. -/
  | order (f : Order.Fault)
  /-- The type of the section is not known, and the dialect does not allow that. -/
  | unknownType (tag : String)
deriving DecidableEq, Repr

/-! ### What a section amounts to -/

def alignmentOf (s : Section) (rule : Rule) : Alignment :=
  (s.alignment.or rule.alignment).getD .left

/-- The style of a text section, if it is not plain. -/
def styleOf (s : Section) (rule : Rule) : Option TextStyle :=
  let asked := s.style.getD {}
  TextStyle.mark { bold := rule.emphasis.isBold asked.bold, size := asked.size.getD rule.size }

/-- What is written for a section: by itself, or by its rule. -/
def writtenOf (s : Section) (rule : Rule) : Option String :=
  s.content.or rule.content

def template (o : Options) (text : String) : String :=
  if o.placeholders then Placeholder.resolve text else text

/-- The text of a section that is bound to a part of an order. -/
def boundText (o : Options) (order : Option Order) (part : Order.Part) (written : Option String) :
    Except Order.Fault String :=
  match order, written with
  | some order, _ => order.text part o.lineWidth.toNat
  | none, some text => .ok (template o text)
  | none, none => Order.sample.text part o.lineWidth.toNat

def textOf (o : Options) (order : Option Order) (s : Section) (rule : Rule) :
    Except Order.Fault String :=
  match rule.binding with
  | some part => boundText o order part (writtenOf s rule)
  | none => .ok (template o ((writtenOf s rule).getD ""))

/-- A line without the carriage return at its end. -/
def withoutReturn (line : List Char) : List Char :=
  if line.getLast? = some '\r' then line.dropLast else line

/-- The lines of a text, each without the carriage return at its end. -/
def linesOf (text : String) : List String :=
  (text.toList.splitOn '\n').map fun line => String.ofList (withoutReturn line)

def textOps (o : Options) (rule : Rule) (style : Option TextStyle) (text : String) : Program :=
  if rule.multiline then (linesOf text).flatMap fun line => [.text line style, .feed 1]
  else .text text style :: (if o.autoFeed then [.feed 1] else [])

/-! ### The feeds of a spacer

One feed moves at most 255 lines, so a spacer feeds round by round until no line is left.
-/

/-- The lines of the next feed: all that are left, or else as many as a byte can say. -/
def nextFeed (left : UInt32) : UInt8 :=
  if left ≤ 255 then left.toUInt8 else 255

/-- The lines that are left behind the next feed. -/
def behindFeed (left : UInt32) : UInt32 :=
  left - (nextFeed left).toUInt32

theorem toNat_nextFeed (left : UInt32) : (nextFeed left).toNat = min left.toNat 255 := by
  unfold nextFeed
  split
  · next hle =>
    have hle : left.toNat ≤ 255 := UInt32.le_iff_toNat_le.mp hle
    rw [UInt32.toNat_toUInt8, Nat.min_eq_left hle]
    omega
  · next hgt =>
    have hgt : ¬ left.toNat ≤ 255 := fun hle => hgt (UInt32.le_iff_toNat_le.mpr hle)
    rw [Nat.min_eq_right (by omega)]
    rfl

/-- A feed moves no more lines than are left. -/
theorem nextFeed_le (left : UInt32) : (nextFeed left).toUInt32 ≤ left := by
  rw [UInt32.le_iff_toNat_le, UInt8.toNat_toUInt32, toNat_nextFeed]
  exact Nat.min_le_left _ _

/-- The lines are those of the next feed and those behind it: the difference does not wrap around. -/
theorem nextFeed_add_behindFeed (left : UInt32) :
    (nextFeed left).toNat + (behindFeed left).toNat = left.toNat := by
  unfold behindFeed
  rw [UInt32.toNat_sub_of_le _ _ (nextFeed_le left), UInt8.toNat_toUInt32, toNat_nextFeed]
  omega

theorem one_le_toNat_nextFeed {left : UInt32} (h : left ≠ 0) : 1 ≤ (nextFeed left).toNat := by
  have hsome : left.toNat ≠ 0 := fun hzero => h (UInt32.toNat_inj.mp hzero)
  rw [toNat_nextFeed]
  omega

theorem toNat_behindFeed_lt {left : UInt32} (h : left ≠ 0) :
    (behindFeed left).toNat < left.toNat := by
  have hfed := one_le_toNat_nextFeed h
  have hsum := nextFeed_add_behindFeed left
  omega

/-- Records feeds behind those that are there, until no line is left. -/
def feedsOnto (fed : Array Op) (left : UInt32) : Array Op :=
  if left = 0 then fed
  else feedsOnto (fed.push (.feed (nextFeed left))) (behindFeed left)
termination_by left.toNat
decreasing_by exact toNat_behindFeed_lt ‹_›

/-- The feeds of a spacer. -/
def feedOps (lines : UInt32) : Program :=
  (feedsOnto #[] lines).toList

theorem feedsOnto_zero (fed : Array Op) : feedsOnto fed 0 = fed := by
  rw [feedsOnto, if_pos rfl]

theorem feedsOnto_of_ne_zero (fed : Array Op) {left : UInt32} (h : left ≠ 0) :
    feedsOnto fed left = feedsOnto (fed.push (.feed (nextFeed left))) (behindFeed left) := by
  rw [feedsOnto, if_neg h]

theorem toList_feedsOnto (fed : Array Op) (left : UInt32) :
    (feedsOnto fed left).toList = fed.toList ++ feedOps left := by
  unfold feedOps
  by_cases hnone : left = 0
  · rw [hnone, feedsOnto_zero, feedsOnto_zero, List.append_nil]
  · -- Both sides take a round and are used again on what it leaves, behind different feeds.
    rw [feedsOnto_of_ne_zero fed hnone, feedsOnto_of_ne_zero #[] hnone,
      toList_feedsOnto _ (behindFeed left), toList_feedsOnto _ (behindFeed left),
      Array.toList_push, List.append_assoc]
    rfl
termination_by left.toNat
decreasing_by all_goals exact toNat_behindFeed_lt hnone

theorem feedOps_zero : feedOps 0 = [] := by
  rw [feedOps, feedsOnto_zero]

/-- One round: a feed, then the feeds of what is left behind it. -/
theorem feedOps_of_ne_zero {left : UInt32} (h : left ≠ 0) :
    feedOps left = .feed (nextFeed left) :: feedOps (behindFeed left) := by
  rw [feedOps, feedsOnto_of_ne_zero #[] h, toList_feedsOnto]
  rfl

/-! ### Taking sections -/

def record (c : Composer) (ops : Program) : Composer :=
  { c with program := c.program ++ ops }

def setAlignment (c : Composer) (a : Alignment) : Composer :=
  { c.record [.align a] with alignment := a }

def pushText (c : Composer) (s : Section) (rule : Rule) : Composer × Option Fault :=
  let c := c.setAlignment (alignmentOf s rule)
  match textOf c.dialect.options c.order s rule with
  | .ok text => (c.record (textOps c.dialect.options rule (styleOf s rule) text), none)
  | .error f => (c, some (.order f))

/-- Takes a section; the composer afterwards, and why the section failed if it did. -/
def push (c : Composer) (s : Section) : Composer × Option Fault :=
  match c.dialect.vocabulary.get? s.tag with
  | none =>
    match c.dialect.options.unknownSections with
    | .skip => (c, none)
    | .error => (c, some (.unknownType s.tag))
  | some rule =>
    match rule.kind with
    | .spacer => (c.record (feedOps (s.lines.getD 1)), none)
    | .text => c.pushText s rule

/-- Takes sections up to the first that fails. -/
def pushAll (c : Composer) : List Section → Except Fault Composer
  | [] => .ok c
  | s :: rest =>
    match c.push s with
    | (c, none) => c.pushAll rest
    | (_, some f) => .error f

end Composer

/-- The body of a receipt: what all sections of a layout print. -/
def Dialect.compose (d : Dialect) (order : Option Order) (sections : List Section) :
    Except Composer.Fault Program := do
  let c ← Composer.pushAll { dialect := d, order } sections
  pure c.program

end Receipt
