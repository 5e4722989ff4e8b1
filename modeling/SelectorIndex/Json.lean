import SelectorIndex.Number.Double

/-!
# JSON values

A number is an integer or a number of double precision. An object keeps its
fields as they were written, repeated names included; `normal` is the one form
of all spellings of a value, its fields in ascending order and the last of a
repeated name kept. `a == b` compares normal forms and takes plus and minus zero
for equal; `a = b` means that the two are spelled alike.
-/

namespace SelectorIndex

inductive Json where
  | null
  | bool (b : Bool)
  | int (n : Int)
  | double (x : Double)
  | string (s : String)
  | array (items : List Json)
  | object (fields : List (String × Json))
  deriving Inhabited, Repr

namespace Json

/-! ## Comparison -/

mutual

/-- The values are built alike, with numbers of double precision that `equal` says are. -/
def same (equal : Double → Double → Bool) : Json → Json → Bool
  | null, null => true
  | bool a, bool b => a == b
  | int a, int b => a == b
  | double a, double b => equal a b
  | string a, string b => a == b
  | array xs, array ys => sameItems equal xs ys
  | object fs, object gs => sameFields equal fs gs
  | _, _ => false

def sameItems (equal : Double → Double → Bool) : List Json → List Json → Bool
  | [], [] => true
  | x :: xs, y :: ys => same equal x y && sameItems equal xs ys
  | _, _ => false

def sameFields (equal : Double → Double → Bool) :
    List (String × Json) → List (String × Json) → Bool
  | [], [] => true
  | (k, x) :: fs, (l, y) :: gs => k == l && same equal x y && sameFields equal fs gs
  | _, _ => false

end

mutual

theorem same_iff : ∀ {a b : Json}, same (· == ·) a b = true ↔ a = b
  | null, b => by cases b <;> simp [same]
  | bool _, b => by cases b <;> simp [same]
  | int _, b => by cases b <;> simp [same]
  | double _, b => by cases b <;> simp [same]
  | string _, b => by cases b <;> simp [same]
  | array xs, b => by cases b <;> simp [same, @sameItems_iff xs]
  | object fs, b => by cases b <;> simp [same, @sameFields_iff fs]

theorem sameItems_iff : ∀ {xs ys : List Json}, sameItems (· == ·) xs ys = true ↔ xs = ys
  | [], ys => by cases ys <;> simp [sameItems]
  | x :: xs, ys => by
    cases ys <;> simp [sameItems, same_iff (a := x), @sameItems_iff xs]

theorem sameFields_iff :
    ∀ {fs gs : List (String × Json)}, sameFields (· == ·) fs gs = true ↔ fs = gs
  | [], gs => by cases gs <;> simp [sameFields]
  | (k, x) :: fs, gs => by
    cases gs <;> simp [sameFields, same_iff (a := x), @sameFields_iff fs, Prod.ext_iff]

end

instance : DecidableEq Json := fun _ _ => decidable_of_iff _ same_iff

/-! ## The normal form -/

/-- A field added to fields in ascending order, in the place of one of its name. -/
def putField (key : String) (value : Json) : List (String × Json) → List (String × Json)
  | [] => [(key, value)]
  | (k, v) :: rest =>
    if key < k then (key, value) :: (k, v) :: rest
    else if key = k then (key, value) :: rest
    else (k, v) :: putField key value rest

mutual

def normal : Json → Json
  | array items => array (normalItems items)
  | object fields => object (normalFields [] fields)
  | j => j

def normalItems : List Json → List Json
  | [] => []
  | j :: rest => normal j :: normalItems rest

/-- The fields added in turn to `sorted`. -/
def normalFields (sorted : List (String × Json)) : List (String × Json) → List (String × Json)
  | [] => sorted
  | (key, j) :: rest => normalFields (putField key (normal j) sorted) rest

end

/-- Two values are equal when their normal forms are, but for the signs of zeros. -/
instance : BEq Json := ⟨fun a b => same Double.equal a.normal b.normal⟩

end Json

end SelectorIndex
