import LamLang.Datum.Written
import Mathlib.Data.List.Basic

/-
  Data as trees of items.

  A list and a tuple differ in nothing but their name, so a
  property of data is proved by one induction that goes from
  the items of either to the whole.

  Key definitions include:
    * `LamLang.Datum.Within`
    * `LamLang.Datum.listed`

  Main statements:
    * `LamLang.Datum.item_induction`
    * `LamLang.Datum.listed_of_items?`
-/

------------------------------------------------------------
-- Induction On Items
------------------------------------------------------------

namespace LamLang

namespace Datum

/- Only lists and tuples have items. -/
theorem items?_eq_some
    {datum : Datum}
    {items : List Datum}
    (hItems : datum.items? = some items) :
    datum = .list items ∨ datum = .tuple items := by
  cases datum with
  | list inner =>
      cases hItems
      exact .inl rfl
  | tuple inner =>
      cases hItems
      exact .inr rfl
  | _ => cases hItems

theorem sizeOf_lt_of_items?
    {datum item : Datum}
    {items : List Datum}
    (hItems : datum.items? = some items)
    (hMem : item ∈ items) :
    sizeOf item < sizeOf datum := by
  have hItem := List.sizeOf_lt_of_mem hMem
  rcases items?_eq_some hItems with rfl | rfl
  · simp only [list.sizeOf_spec]
    omega
  · simp only [tuple.sizeOf_spec]
    omega

/-
  What holds of a datum as soon as it holds of all its items
  holds of every datum.
-/
@[elab_as_elim]
theorem item_induction
    {motive : Datum → Prop}
    (step :
      ∀ datum,
        (∀ items, datum.items? = some items →
          ∀ item ∈ items, motive item) →
        motive datum)
    (datum : Datum) :
    motive datum :=
  step datum fun _ _ item _ => item_induction step item
termination_by sizeOf datum
decreasing_by
  apply sizeOf_lt_of_items? <;> assumption

/- A datum, its items, their items, and so on. -/
inductive Within
    (part : Datum) :
    Datum → Prop
| refl : Within part part
| item
    {item whole : Datum}
    {items : List Datum}
    (hItems : whole.items? = some items)
    (hMem : item ∈ items)
    (hPart : Within part item) :
    Within part whole

theorem Within.eq_of_leaf
    {part leaf : Datum}
    (hPart : part.Within leaf)
    (hLeaf : leaf.items? = none) :
    part = leaf := by
  cases hPart with
  | refl => rfl
  | item hItems _ _ =>
      rw [hLeaf] at hItems
      cases hItems

/- A list and a tuple of the same items are written alike. -/
theorem write_eq_write_list
    {datum : Datum}
    {items : List Datum}
    (hItems : datum.items? = some items) :
    datum.write = (Datum.list items).write := by
  rcases items?_eq_some hItems with rfl | rfl
  · rfl
  · rw [write, write]

end Datum

end LamLang

------------------------------------------------------------
-- Lists For Tuples
------------------------------------------------------------

namespace LamLang

namespace Datum

mutual

/- A term with all its tuples turned into lists. -/
def listed : Datum → Datum
| .list items => .list (listedAll items)
| .tuple items => .list (listedAll items)
| datum => datum

/- Terms with all their tuples turned into lists. -/
def listedAll : List Datum → List Datum
| [] => []
| item :: items => item.listed :: listedAll items

end

theorem listedAll_eq_map
    (items : List Datum) :
    listedAll items = items.map listed := by
  induction items with
  | nil => simp [listedAll]
  | cons item items ih => simp [listedAll, ih]

theorem listed_of_items?
    {datum : Datum}
    {items : List Datum}
    (hItems : datum.items? = some items) :
    datum.listed = .list (items.map listed) := by
  rcases items?_eq_some hItems with rfl | rfl
  · simp [listed, listedAll_eq_map]
  · simp [listed, listedAll_eq_map]

theorem listed_of_items?_none
    {datum : Datum}
    (hItems : datum.items? = none) :
    datum.listed = datum := by
  cases datum with
  | list items => cases hItems
  | tuple items => cases hItems
  | _ => simp [listed]

end Datum

end LamLang
