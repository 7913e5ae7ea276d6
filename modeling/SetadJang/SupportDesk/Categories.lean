import SetadJang.Framework.PyText
import SetadJang.Framework.Txn
import Mathlib.Data.List.Sort

/-!
# The category tree of the support desk

Categories point to their parents.  Every row also stores its depth and its path, the slugs
from its root down to itself; `save` computes both from the stored row of the parent, and a
category that moves has its descendants saved again.  A parent is checked by comparing paths.

The key of a category is its place in the table: categories are deactivated and not deleted.
Each service is one transaction, and the column limits are those of PostgreSQL.
-/

namespace SetadJang.SupportDesk

open SetadJang.Framework

/-! ## Rows -/

structure SupportCategory where
  parent : Option ℕ
  department : ℕ
  title : String
  slug : String
  path : String
  depth : ℕ
  description : String
  icon : String
  order : ℤ
  isActive : Bool
deriving DecidableEq, Repr

abbrev Categories := List SupportCategory

inductive CategoryError where
  | taxonomyTree (message : String)
  | doesNotExist
  | dataError
  | integrityError
  | recursionError
  | noFreeSlug
deriving DecidableEq, Repr

/-- Django's `slugify(value, allow_unicode=True)`, which keeps word characters and hyphens
only, and the collation a query sorts texts by. -/
structure TextRules where
  slugify : String → String
  slugify_no_slash : ∀ value, '/' ∉ (slugify value).toList
  collate : String → String → Bool

/-- `uuid.uuid4().hex`. -/
structure UuidHex where
  hex : String
  length : hex.length = 32
  digits : hex.toList.all (fun c => c.isDigit || ('a' ≤ c && c ≤ 'f')) = true

/-! ## Slugs -/

/-- `SupportCategory.slug.max_length`. -/
def slugMaxLength : ℕ := 220

/-- The candidates of `_unique_slug` in turn: the base, then the base with `-2`, `-3`, … -/
def slugCandidate (base : String) (maxLength : ℕ) : ℕ → String
  | 0 => base
  | n + 1 =>
      let suffixText := "-" ++ toString (n + 2)
      String.ofList (base.toList.take (maxLength - suffixText.length)) ++ suffixText

/-- What `_unique_slug` starts from. -/
def slugBase (rules : TextRules) (value : String) (maxLength : ℕ) (uuid : UuidHex) : String :=
  let base := String.ofList ((rules.slugify value).toList.take maxLength)
  if base.isEmpty then String.ofList (uuid.hex.toList.take 12) else base

/-- `_unique_slug` of a row that has no key yet: the first candidate that is not taken.  Two
candidates more than there are rows are enough, see `uniqueSlug_isSome`. -/
def uniqueSlug (rules : TextRules) (rows : Categories) (value : String) (maxLength : ℕ)
    (uuid : UuidHex) : Option String :=
  ((List.range (rows.length + 2)).map (slugCandidate (slugBase rules value maxLength uuid) maxLength)).find?
    fun candidate => rows.all fun row => row.slug != candidate

/-! ## Saving -/

/-- `depth` and `path` as `SupportCategory.save` computes them. -/
def place (rows : Categories) (row : SupportCategory) : Except CategoryError SupportCategory :=
  match row.parent with
  | none => .ok { row with depth := 0, path := "/" ++ row.slug ++ "/" }
  | some pk =>
      match rows[pk]? with
      | none => .error .doesNotExist
      | some parent =>
          .ok { row with
            depth := parent.depth + 1
            path := pyRStrip (· == '/') parent.path ++ "/" ++ row.slug ++ "/" }

/-- `SupportCategory.path.max_length`. -/
def pathMaxLength : ℕ := 700

/-- The limits of the columns. -/
def FitsColumns (row : SupportCategory) : Prop :=
  row.title.length ≤ 180 ∧ row.path.length ≤ pathMaxLength ∧ row.depth ≤ 32767 ∧
    row.icon.length ≤ 80 ∧ 0 ≤ row.order ∧ row.order ≤ 2147483647

instance (row : SupportCategory) : Decidable (FitsColumns row) :=
  inferInstanceAs (Decidable (_ ∧ _))

/-- The unique columns and constraints: no two titles of a department under one parent, and
none at the root. -/
def Clash (row other : SupportCategory) : Prop :=
  row.slug = other.slug ∨ row.path = other.path ∨
    (row.parent = other.parent ∧ row.department = other.department ∧ row.title = other.title)

instance (row other : SupportCategory) : Decidable (Clash row other) :=
  inferInstanceAs (Decidable (_ ∨ _))

/-- The row as `save` writes it, beside the others. -/
def savedRow (rows others : Categories) (row : SupportCategory) :
    Except CategoryError SupportCategory := do
  let row ← place rows row
  checkThat (FitsColumns row) .dataError
  checkThat (∀ other ∈ others, ¬ Clash row other) .integrityError
  pure row

/-- `category.save(update_fields=["depth", "path", "updated_at"])` of a loaded row. -/
def savePlace (rows : Categories) (pk : ℕ) (row : SupportCategory) :
    Except CategoryError Categories := do
  let saved ← savedRow rows (rows.eraseIdx pk) row
  pure (rows.modify pk fun stored => { stored with depth := saved.depth, path := saved.path })

/-! ## Services -/

/-- A parent given by its key: the caller has loaded it. -/
def loadParent (rows : Categories) :
    Option ℕ → Except CategoryError (Option (ℕ × SupportCategory))
  | none => .ok none
  | some pk =>
      match rows[pk]? with
      | none => .error .doesNotExist
      | some parent => .ok (some (pk, parent))

/-- `_assert_valid_category_parent`. -/
def assertValidCategoryParent (category parent : Option (ℕ × SupportCategory))
    (department : ℕ) : Except CategoryError Unit :=
  match parent with
  | none => .ok ()
  | some (parentPk, parent) =>
      if parent.department ≠ department then
        .error (.taxonomyTree "دسته والد باید متعلق به همان دپارتمان باشد.")
      else
        match category with
        | none => .ok ()
        | some (pk, category) =>
            if parentPk = pk then
              .error (.taxonomyTree "دسته‌بندی نمی‌تواند والد خودش باشد.")
            else if pyStartsWith parent.path category.path then
              .error (.taxonomyTree "انتقال دسته‌بندی به یکی از زیرشاخه‌های خودش مجاز نیست.")
            else .ok ()

/-- The arguments of `create_category`. -/
structure CategoryInput where
  department : ℕ
  title : String
  parent : Option ℕ := none
  description : String := ""
  icon : String := ""
  order : ℤ := 0

/-- The row `create_category` hands to `save`. -/
def newCategory (input : CategoryInput) (slug : String) : SupportCategory where
  parent := input.parent
  department := input.department
  title := pyStrip input.title
  slug := slug
  path := ""
  depth := 0
  description := pyStrip input.description
  icon := pyStrip input.icon
  order := input.order
  isActive := true

/-- `create_category`. -/
def createCategory (rules : TextRules) (rows : Categories) (input : CategoryInput)
    (uuid : UuidHex) : Except CategoryError Categories := do
  let parent ← loadParent rows input.parent
  assertValidCategoryParent none parent input.department
  match uniqueSlug rules rows (pyStrip input.title) slugMaxLength uuid with
  | none => .error .noFreeSlug
  | some slug =>
      let row ← savedRow rows rows (newCategory input slug)
      pure (rows ++ [row])

/-- `SupportCategory.all_objects.filter(parent=category).order_by("order", "title")`. -/
def childrenOf (rules : TextRules) (rows : Categories) (pk : ℕ) : List (ℕ × SupportCategory) :=
  (rows.zipIdx.filterMap fun (row, k) =>
    if row.parent = some pk then some (k, row) else none).insertionSort fun a b =>
      a.2.order < b.2.order ∨ (a.2.order = b.2.order ∧ rules.collate a.2.title b.2.title = true)

/-- `_refresh_descendant_paths`: the number is how many calls deep Python still goes. -/
def refreshDescendantPaths (rules : TextRules) : ℕ → Categories → ℕ → Except CategoryError Categories
  | 0, _, _ => .error .recursionError
  | levels + 1, rows, pk =>
      (childrenOf rules rows pk).foldlM (fun rows (childPk, child) => do
        let rows ← savePlace rows childPk child
        refreshDescendantPaths rules levels rows childPk) rows

/-- `sys.getrecursionlimit()`. -/
def recursionLimit : ℕ := 1000

/-- The fields of `update_category`, those that are given; the parent may be given as `None`. -/
structure CategoryFields where
  department : Option ℕ := none
  parent : Option (Option ℕ) := none
  title : Option String := none
  description : Option String := none
  icon : Option String := none
  order : Option ℤ := none
  isActive : Option Bool := none

/-- The row once the given fields are set, its texts stripped. -/
def CategoryFields.set (fields : CategoryFields) (row : SupportCategory) : SupportCategory :=
  { row with
    department := fields.department.getD row.department
    parent := fields.parent.getD row.parent
    title := (fields.title.map pyStrip).getD row.title
    description := (fields.description.map pyStrip).getD row.description
    icon := (fields.icon.map pyStrip).getD row.icon
    order := fields.order.getD row.order
    isActive := fields.isActive.getD row.isActive }

/-- `update_category`.  The fields that are not given keep the values loaded, and where no
value changes nothing is saved. -/
def updateCategory (rules : TextRules) (rows : Categories) (pk : ℕ) (fields : CategoryFields) :
    Except CategoryError Categories :=
  match rows[pk]? with
  | none => .error .doesNotExist
  | some category => do
      let parent ← loadParent rows (fields.parent.getD category.parent)
      assertValidCategoryParent (some (pk, category)) parent
        (fields.department.getD category.department)
      if fields.set category = category then
        pure rows
      else do
        let row ← savedRow rows (rows.eraseIdx pk) (fields.set category)
        refreshDescendantPaths rules recursionLimit (rows.set pk row) pk

/-- `deactivate_category`; the last argument says whether an open ticket has the category. -/
def deactivateCategory (rows : Categories) (pk : ℕ) (openTickets : Bool) :
    Except CategoryError Categories :=
  if rows[pk]?.isNone then .error .doesNotExist
  else if rows.any fun row => decide (row.parent = some pk) && row.isActive then
    .error (.taxonomyTree "برای غیرفعال‌سازی این دسته ابتدا زیرشاخه‌های فعال آن را غیرفعال کنید.")
  else if openTickets then
    .error (.taxonomyTree "دسته‌ای که تیکت باز دارد قابل غیرفعال‌سازی نیست.")
  else .ok (rows.modify pk fun row => { row with isActive := false })

/-! ## Runs -/

inductive CategoryAct where
  | create (input : CategoryInput) (uuid : UuidHex)
  | update (category : ℕ) (fields : CategoryFields)
  | deactivate (category : ℕ) (openTickets : Bool)

def categoryCall (rules : TextRules) (rows : Categories) :
    CategoryAct → Except CategoryError Categories
  | .create input uuid => createCategory rules rows input uuid
  | .update category fields => updateCategory rules rows category fields
  | .deactivate category openTickets => deactivateCategory rows category openTickets

/-- One call; a raise rolls it back. -/
def categoryStep (rules : TextRules) (rows : Categories) (act : CategoryAct) : Categories :=
  match categoryCall rules rows act with
  | .ok rows' => rows'
  | .error _ => rows

end SetadJang.SupportDesk
