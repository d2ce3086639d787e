import Receipt.Rule
import Receipt.TagMap

/-!
# Vocabularies

A vocabulary gives each known section type its rule. The standard vocabulary is a table of tags that
share a rule; a dialect adds to it, or replaces rules of it.
-/

namespace Receipt

/-- The rules of the known section types, by tag. -/
abbrev Vocabulary := TagMap Rule

namespace Vocabulary

def separatorLine : String := "================================"

/-- Single lines: store, customer, loyalty, payment and split-bill fields. -/
def lineTags : List String := [
  "item", "itemPrice", "itemPromotion", "discounts", "promotion", "subtotalAfter", "loyalty",
  "customerName", "memberStatus", "customerId", "loyaltyPoints", "memberSince", "paymentMethod",
  "pointsEarned", "totalPoints", "membershipStatus", "customerProfile", "itemSubtotal",
  "itemDiscounts", "memberAppreciation", "appDiscount", "subtotalAfterAll", "paymentType",
  "pointsEarnedToday", "newBalance", "nextReward", "personalizedThanks", "tableInfo", "guestInfo",
  "groupId", "itemModifier", "payerName", "payingFor", "payerItem", "tip", "payerTotal",
  "totalTips", "grandTotal", "vipThanks"]

/-- Headings that open a block of lines. -/
def headingTags : List String := [
  "itemHeader", "promotionHeader", "customerHeader", "loyaltyRewardsHeader", "platinumMember",
  "orderItemsHeader", "categoryHeader", "orderPromotionHeader", "rewardsSummary", "vipGroup",
  "orderDetails", "entreeHeader", "appetizerHeader", "dessertHeader", "beverageHeader",
  "splitPaymentHeader", "paymentSummaryHeader"]

/-- The tags of the standard vocabulary with the rule that each group shares. -/
def standardGroups : List (List String × Rule) := [
  (["header", "storeHeader"], { emphasis := .bold }),
  (["separator"], { content := some separatorLine }),
  (["text"], {}),
  (lineTags, {}),
  (["orderInfo"], { binding := some .info }),
  (["itemList"], { multiline := true, binding := some .items }),
  (["subtotal"], { binding := some .subtotal }),
  (["tax"], { binding := some .tax }),
  (["total"], { emphasis := .alwaysBold, binding := some .total }),
  (headingTags, {}),
  (["thankYou", "thanks"],
    { alignment := some .center, content := some "Thank you!", multiline := true }),
  (["spacer"], { kind := .spacer })]

def standard : Vocabulary :=
  TagMap.insertAll ∅ (standardGroups.flatMap fun (tags, rule) => tags.map fun tag => (tag, rule))

end Vocabulary

end Receipt
