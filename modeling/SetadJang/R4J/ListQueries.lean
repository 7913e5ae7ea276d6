import Mathlib.Data.List.Sort
import Mathlib.Data.String.Basic
import SetadJang.Core.NamespaceVersions
import SetadJang.Framework.PyUnicode

/-!
# The public list of criminals and its cache keys

A page of the public list is cached under a key that is built from the texts of the query
string: page, page size, ordering, and a digest of the other parameters.  The cache is asked
before anything is validated, and separators inside the texts are not escaped.  What the view
without its cache reads of a query string is another matter: numbers, cleaned filters, and all
parameters in the links to the pages around.
-/

namespace SetadJang.R4J

open SetadJang.Framework SetadJang.Core

/-! ## Query strings -/

/-- The parameters of a query string, in their order. -/
structure QueryDict where
  items : List (String × String)
deriving DecidableEq, Repr

namespace QueryDict

def getlist (q : QueryDict) (name : String) : List String :=
  (q.items.filter fun item => item.1 == name).map Prod.snd

/-- `query_params.get(name)`: the last value. -/
def get (q : QueryDict) (name : String) : Option String := (q.getlist name).getLast?

/-- The names, each once. -/
def keys (q : QueryDict) : List String := (q.items.map Prod.fst).dedup

end QueryDict

/-! ## The cache key -/

def isHexDigit (c : Char) : Bool := c.isDigit || (decide ('a' ≤ c) && decide (c ≤ 'f'))

/-- A cut `hexdigest()` of SHA-256, taken to tell texts apart. -/
structure Hexdigest where
  digest : String → String
  injective : Function.Injective digest
  hex : ∀ s, ∀ c ∈ (digest s).toList, isHexDigit c = true

namespace QueryDict

def relevantKeys (q : QueryDict) : List String :=
  (q.keys.filter fun key => key != "page" && key != "page_size").insertionSort (· ≤ ·)

/-- `raw` in `_build_filters_signature`. -/
def filtersText (q : QueryDict) : String :=
  "|".intercalate (q.relevantKeys.map fun key => key ++ "=" ++ (q.get key).getD "")

/-- `_build_filters_signature`. -/
def filtersSignature (short : Hexdigest) (q : QueryDict) : String :=
  if q.relevantKeys = [] then "no_filters" else short.digest q.filtersText

/-- `StandardPagination.page_size`. -/
def defaultPageSize : ℕ := 20

/-- The texts of the page, its size and the ordering, as they go into the key. -/
def keyTexts (q : QueryDict) : List String :=
  [(q.get "page").getD "1", (q.get "page_size").getD (toString defaultPageSize),
    (q.get "ordering").getD ""]

end QueryDict

def publicListNamespace : String := "r4j:public_list"

/-- The key of `get_public_criminals_page_cached` and `set_public_criminals_page_cache`. -/
def publicPageKey (short long : Hexdigest) (version : ℕ) (q : QueryDict) : String :=
  payloadKey long.digest publicListNamespace version (q.keyTexts ++ [q.filtersSignature short])

/-! ## The table -/

inductive Gender where
  | male
  | female
  | unknown
deriving DecidableEq, Repr

def Gender.value : Gender → String
  | male => "male"
  | female => "female"
  | unknown => "unknown"

def Gender.all : List Gender := [.male, .female, .unknown]

structure R4JCriminalPhoto where
  id : ℕ
  image : String
  isPrimary : Bool
  isActive : Bool
deriving DecidableEq, Repr

/-- A row with its aliases and its photos, these in their order. -/
structure R4JCriminal where
  id : ℕ
  slug : String
  firstName : String
  lastName : String
  gender : Gender
  country : String
  province : String
  city : String
  isPublished : Bool
  isActive : Bool
  totalBountyToman : ℕ
  bountiesCount : ℕ
  aliases : List String
  photos : List R4JCriminalPhoto
deriving DecidableEq, Repr

/-- `R4JPublicCriminalListSerializer`. -/
structure PublicCriminal where
  id : ℕ
  slug : String
  firstName : String
  lastName : String
  country : String
  province : String
  city : String
  primaryPhoto : Option (ℕ × String)
  totalBountyToman : ℕ
  bountiesCount : ℕ
deriving DecidableEq, Repr

/-- `get_primary_photo`: the primary one of the active photos, else the first. -/
def R4JCriminal.primaryPhoto (c : R4JCriminal) : Option (ℕ × String) :=
  let photos := c.photos.filter R4JCriminalPhoto.isActive
  ((photos.find? R4JCriminalPhoto.isPrimary) <|> photos.head?).map fun photo =>
    (photo.id, photo.image)

def R4JCriminal.serialize (c : R4JCriminal) : PublicCriminal :=
  ⟨c.id, c.slug, c.firstName, c.lastName, c.country, c.province, c.city, c.primaryPhoto,
    c.totalBountyToman, c.bountiesCount⟩

/-! ## The filters -/

/-- `cleaned_data` of `R4JCriminalPublicFilter`. -/
structure PublicFilters where
  search : String
  country : String
  province : String
  city : String
  gender : Option Gender
  ordering : List String
deriving DecidableEq, Repr

/-- `CharField.clean`: stripped, and refused with a NUL in it. -/
def cleanText (value : Option String) : Option String :=
  let text := pyStrip (value.getD "")
  if '\x00' ∈ text.toList then none else some text

/-- `ChoiceField.clean`. -/
def cleanGender (value : Option String) : Option (Option Gender) :=
  let text := value.getD ""
  if text = "" then some none
  else (Gender.all.find? fun gender => gender.value == text).map some

def orderingFields : List String :=
  ["total_bounty_toman", "bounties_count", "published_at", "created_at", "first_name",
    "last_name"]

/-- The comma separated choices of `OrderingFilter`. -/
def cleanOrdering (value : Option String) : Option (List String) :=
  let text := value.getD ""
  if text = "" then some []
  else
    let parts := (pySplit ',' text.toList).map String.ofList
    let choices := orderingFields ++ orderingFields.map ("-" ++ ·)
    if (parts.all fun part => part == "" || choices.contains part) = true then some parts
    else none

/-- The cleaned filters; one that is not valid makes the whole filterset invalid. -/
def QueryDict.filters (q : QueryDict) : Option PublicFilters := do
  let search ← cleanText (q.get "search")
  let country ← cleanText (q.get "country")
  let province ← cleanText (q.get "province")
  let city ← cleanText (q.get "city")
  let gender ← cleanGender (q.get "gender")
  let ordering ← cleanOrdering (q.get "ordering")
  return ⟨search, country, province, city, gender, ordering⟩

/-- What the database does with filters: `iexact`, the search of `apply_smart_search`, and the
order of the rows. -/
structure QueryEngine where
  iexact : String → String → Bool
  smartSearch : String → R4JCriminal → Bool
  arrange : Option PublicFilters → List R4JCriminal → List R4JCriminal
  arrange_perm : ∀ filters rows, (arrange filters rows).Perm rows

namespace QueryEngine

def matchesFilters (engine : QueryEngine) (filters : PublicFilters) (c : R4JCriminal) : Bool :=
  (filters.search == "" || engine.smartSearch filters.search c) &&
    (filters.country == "" || engine.iexact c.country filters.country) &&
    (filters.province == "" || engine.iexact c.province filters.province) &&
    (filters.city == "" || engine.iexact c.city filters.city) &&
    filters.gender.all fun gender => gender == c.gender

/-- The rows of the list; with invalid filters all that are public. -/
def lists (engine : QueryEngine) (filters : Option PublicFilters) (c : R4JCriminal) : Bool :=
  c.isPublished && c.isActive && filters.all fun filters => engine.matchesFilters filters c

def rows (engine : QueryEngine) (filters : Option PublicFilters) (table : List R4JCriminal) :
    List R4JCriminal :=
  engine.arrange filters (table.filter (engine.lists filters))

end QueryEngine

/-! ## Pages -/

/-- The pages a query can ask for; a number is positive. -/
inductive PageNumber where
  | last
  | number (n : ℕ)
deriving DecidableEq, Repr

/-- A link: the page it names and the other parameters, sorted. -/
structure PageLink where
  page : Option ℕ
  params : List (String × List String)
deriving DecidableEq, Repr

/-- The answer of the view; `notFound` is the 404 of an invalid page. -/
inductive ListAnswer where
  | notFound
  | page (count : ℕ) (next previous : Option PageLink) (results : List PublicCriminal)
deriving DecidableEq, Repr

namespace QueryDict

/-- `get_page_size`: what is no positive number falls back to the default. -/
def pageSize (q : QueryDict) : ℕ :=
  match (q.get "page_size").bind pyInt with
  | some n => if n ≤ 0 then defaultPageSize else min n.toNat 100
  | none => defaultPageSize

/-- `get_page_number` and `validate_number`, up to the number of pages. -/
def pageNumber (q : QueryDict) : Option PageNumber :=
  let text := (q.get "page").getD ""
  if text = "" then some (.number 1)
  else if text = "last" then some .last
  else
    match pyInt text with
    | some n => if n < 1 then none else some (.number n.toNat)
    | none => none

/-- The parameters beside `page` in the links, with all their values. -/
def otherParams (q : QueryDict) : List (String × List String) :=
  ((q.keys.filter fun key => key != "page").insertionSort (· ≤ ·)).map fun key =>
    (key, q.getlist key)

end QueryDict

/-- The number of the page: `last` stands for the number of pages. -/
def PageNumber.resolve (pages : ℕ) : PageNumber → ℕ
  | last => pages
  | number n => n

/-- `Paginator.num_pages`. -/
def numPages (count size : ℕ) : ℕ := (max 1 count + size - 1) / size

/-- `get_next_link`. -/
def nextLink (pages n : ℕ) (params : List (String × List String)) : Option PageLink :=
  if n < pages then some ⟨some (n + 1), params⟩ else none

/-- `get_previous_link`; the link to the first page names none. -/
def previousLink (n : ℕ) (params : List (String × List String)) : Option PageLink :=
  if n ≤ 1 then none
  else if n = 2 then some ⟨none, params⟩
  else some ⟨some (n - 1), params⟩

/-- `R4JPublicCriminalListView.get` without its cache. -/
def uncachedList (engine : QueryEngine) (table : List R4JCriminal) (q : QueryDict) : ListAnswer :=
  let rows := engine.rows q.filters table
  let pages := numPages rows.length q.pageSize
  match q.pageNumber with
  | none => .notFound
  | some page =>
      let n := page.resolve pages
      if n ≤ pages then
        .page rows.length (nextLink pages n q.otherParams) (previousLink n q.otherParams)
          (((rows.drop ((n - 1) * q.pageSize)).take q.pageSize).map R4JCriminal.serialize)
      else .notFound

end SetadJang.R4J
