/-!
Bindable values and the conversions into them. A value is what a placeholder is bound to
and what a column of a result row holds; there are five kinds and no nesting.
-/
namespace DataAccess

inductive Value where
  | null
  | integer (n : Int64)
  | real (x : Float)
  | text (s : String)
  | blob (bytes : List UInt8)
deriving Inhabited, BEq

/-- Types whose inhabitants can be bound to a placeholder. -/
class ToValue (α : Type) where
  toValue : α → Value

export ToValue (toValue)

namespace Value

instance : ToValue Value := ⟨id⟩
instance : ToValue Int8 := ⟨fun n => .integer n.toInt64⟩
instance : ToValue Int16 := ⟨fun n => .integer n.toInt64⟩
instance : ToValue Int32 := ⟨fun n => .integer n.toInt64⟩
instance : ToValue Int64 := ⟨.integer⟩
instance : ToValue UInt8 := ⟨fun n => .integer (Int64.ofNat n.toNat)⟩
instance : ToValue UInt16 := ⟨fun n => .integer (Int64.ofNat n.toNat)⟩
instance : ToValue UInt32 := ⟨fun n => .integer (Int64.ofNat n.toNat)⟩
instance : ToValue Float32 := ⟨fun x => .real x.toFloat⟩
instance : ToValue Float := ⟨.real⟩
instance : ToValue String := ⟨.text⟩
instance : ToValue (List UInt8) := ⟨.blob⟩

/-- The database has no booleans: true is stored as one, false as zero. -/
instance : ToValue Bool := ⟨fun b => .integer (if b then 1 else 0)⟩

instance {α : Type} [ToValue α] : ToValue (Option α) :=
  ⟨fun | some a => toValue a | none => .null⟩

end Value
end DataAccess
