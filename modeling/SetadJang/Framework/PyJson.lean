import Mathlib.Algebra.Order.Ring.Int
import Mathlib.Data.List.Sort

/-!
# JSON texts of Python values

`json.dumps(value, sort_keys=True, ensure_ascii=False, separators=(",", ":"))` on the values
it accepts.  A dictionary is sorted by its Python keys and only then its keys are written as
strings, so the order of the text is the order of the Python values: numbers by size, texts
by code points.

A JSON column gives a value back with every key as a string.  `json_stable` says when its
text is still the same.
-/

namespace SetadJang.Framework

/-- A number as a key is compared by: a finite one is a fraction. -/
inductive PyNumber where
  | negInf
  | finite (numerator : ℤ) (denominator : ℕ)
  | posInf
deriving DecidableEq, Repr

def PyNumber.lt : PyNumber → PyNumber → Bool
  | .finite a b, .finite c d => decide (a * d < c * b)
  | .negInf, .finite _ _ | .negInf, .posInf | .finite _ _, .posInf => true
  | _, _ => false

/-- The keys of a dictionary that `json.dumps` accepts.  A float comes with its value and its
`repr`; `nan`, which has no order, is left out. -/
inductive PyKey where
  | str (text : String)
  | int (value : ℤ)
  | bool (value : Bool)
  | float (value : PyNumber) (text : String)
  | none
deriving DecidableEq, Repr

/-- The values that `json.dumps` accepts.  A tuple is written as a list.  A float is its
`repr`. -/
inductive PyJson where
  | null
  | bool (value : Bool)
  | int (value : ℤ)
  | float (text : String)
  | str (text : String)
  | list (items : List PyJson)
  | dict (entries : List (PyKey × PyJson))

namespace PyKey

def number : PyKey → Option PyNumber
  | .int value => some (.finite value 1)
  | .bool value => some (.finite (if value then 1 else 0) 1)
  | .float value _ => some value
  | .str _ | .none => Option.none

/-- The string a key is written as. -/
def text : PyKey → String
  | .str text => text
  | .int value => toString value
  | .bool true => "true"
  | .bool false => "false"
  | .float _ text => text
  | .none => "null"

end PyKey

/-- `<=` on texts: by code points. -/
def codeLe : List Char → List Char → Bool
  | [], _ => true
  | _ :: _, [] => false
  | c :: cs, d :: ds => if c.toNat = d.toNat then codeLe cs ds else Nat.blt c.toNat d.toNat

def textLe (a b : String) : Bool := codeLe a.toList b.toList

namespace PyKey

/-- `<` on keys, where Python defines it. -/
def lt : PyKey → PyKey → Bool
  | .str a, .str b => textLe a b && a != b
  | a, b =>
      match a.number, b.number with
      | some x, some y => x.lt y
      | _, _ => false

/-- `sorted` of these keys raises no `TypeError`. -/
def comparable (keys : List PyKey) : Bool :=
  decide (keys.length ≤ 1) || keys.all (fun k => match k with | .str _ => true | _ => false) ||
    keys.all fun k => k.number.isSome

end PyKey

/-- `sorted` of keys. -/
def sortKeys (keys : List PyKey) : List PyKey := keys.insertionSort fun a b => b.lt a = false

/-- `sorted(dct.items())`, on entries with different keys. -/
def sortEntries {α : Type} (entries : List (PyKey × α)) : List (PyKey × α) :=
  entries.insertionSort fun a b => b.1.lt a.1 = false

/-! ## The text -/

def hexDigit (n : ℕ) : Char := Char.ofNat (if n < 10 then 48 + n else 87 + n)

def escapeChar (c : Char) : List Char :=
  match c with
  | '"' => ['\\', '"']
  | '\\' => ['\\', '\\']
  | '\n' => ['\\', 'n']
  | '\r' => ['\\', 'r']
  | '\t' => ['\\', 't']
  | c =>
      if c.toNat = 12 then ['\\', 'f']
      else if c.toNat = 8 then ['\\', 'b']
      else if c.toNat < 32 then ['\\', 'u', '0', '0', hexDigit (c.toNat / 16), hexDigit (c.toNat % 16)]
      else [c]

def jsonString (s : String) : String := "\"" ++ String.ofList (s.toList.flatMap escapeChar) ++ "\""

def jsonEntry (entry : PyKey × String) : String := jsonString entry.1.text ++ ":" ++ entry.2

mutual

/-- `json.dumps` on a value whose dictionaries can be sorted. -/
def PyJson.dumps : PyJson → String
  | .null => "null"
  | .bool true => "true"
  | .bool false => "false"
  | .int value => toString value
  | .float text => text
  | .str text => jsonString text
  | .list items => "[" ++ ",".intercalate (dumpsItems items) ++ "]"
  | .dict entries => "\x7b" ++ ",".intercalate ((sortEntries (dumpsEntries entries)).map jsonEntry) ++ "\x7d"

def dumpsItems : List PyJson → List String
  | [] => []
  | item :: items => item.dumps :: dumpsItems items

def dumpsEntries : List (PyKey × PyJson) → List (PyKey × String)
  | [] => []
  | (key, value) :: entries => (key, value.dumps) :: dumpsEntries entries

end

mutual

/-- Every dictionary of the value can be sorted. -/
def PyJson.sortable : PyJson → Bool
  | .list items => sortableItems items
  | .dict entries => PyKey.comparable (entries.map Prod.fst) && sortableEntries entries
  | _ => true

def sortableItems : List PyJson → Bool
  | [] => true
  | item :: items => item.sortable && sortableItems items

def sortableEntries : List (PyKey × PyJson) → Bool
  | [] => true
  | (_, value) :: entries => value.sortable && sortableEntries entries

end

mutual

/-- The value as a JSON column gives it back: the keys are strings. -/
def PyJson.readBack : PyJson → PyJson
  | .list items => .list (readBackItems items)
  | .dict entries => .dict (readBackEntries entries)
  | value => value

def readBackItems : List PyJson → List PyJson
  | [] => []
  | item :: items => item.readBack :: readBackItems items

def readBackEntries : List (PyKey × PyJson) → List (PyKey × PyJson)
  | [] => []
  | (key, value) :: entries => (.str key.text, value.readBack) :: readBackEntries entries

end

/-- The strings are in strictly ascending order. -/
def ascending : List String → Bool
  | a :: b :: rest => textLe a b && a != b && ascending (b :: rest)
  | _ => true

mutual

/-- In every dictionary the order of the keys is the order of their strings. -/
def PyJson.orderStable : PyJson → Bool
  | .list items => orderStableItems items
  | .dict entries =>
      ascending ((sortKeys (entries.map Prod.fst)).map PyKey.text) && orderStableEntries entries
  | _ => true

def orderStableItems : List PyJson → Bool
  | [] => true
  | item :: items => item.orderStable && orderStableItems items

def orderStableEntries : List (PyKey × PyJson) → Bool
  | [] => true
  | (_, value) :: entries => value.orderStable && orderStableEntries entries

end

/-! ## The order of texts -/

theorem codeLe_total (as bs : List Char) : (codeLe as bs || codeLe bs as) = true := by
  induction as generalizing bs with
  | nil => simp [codeLe]
  | cons a as ih =>
      cases bs with
      | nil => simp [codeLe]
      | cons b bs =>
          by_cases hab : a.toNat = b.toNat
          · simp only [codeLe, hab, if_true]
            exact ih bs
          · have hba : ¬ b.toNat = a.toNat := fun h => hab h.symm
            simp only [codeLe, hab, hba, if_false, Bool.or_eq_true, Nat.blt_eq]
            omega

theorem codeLe_antisymm {as bs : List Char} (hab : codeLe as bs = true)
    (hba : codeLe bs as = true) : as = bs := by
  induction as generalizing bs with
  | nil =>
      cases bs with
      | nil => rfl
      | cons b bs => simp [codeLe] at hba
  | cons a as ih =>
      cases bs with
      | nil => simp [codeLe] at hab
      | cons b bs =>
          by_cases heq : a.toNat = b.toNat
          · simp only [codeLe, heq, if_true] at hab hba
            rw [Char.toNat_inj.mp heq, ih hab hba]
          · have heq' : ¬ b.toNat = a.toNat := fun h => heq h.symm
            simp only [codeLe, heq, heq', if_false, Nat.blt_eq] at hab hba
            omega

theorem codeLe_trans {as bs cs : List Char} (hab : codeLe as bs = true)
    (hbc : codeLe bs cs = true) : codeLe as cs = true := by
  induction as generalizing bs cs with
  | nil => simp [codeLe]
  | cons a as ih =>
      cases bs with
      | nil => simp [codeLe] at hab
      | cons b bs =>
          cases cs with
          | nil => simp [codeLe] at hbc
          | cons c cs =>
              simp only [codeLe] at hab hbc ⊢
              split_ifs at hab hbc ⊢ with h₁ h₂ h₃ h₄ h₅
              all_goals try simp only [Nat.blt_eq] at hab hbc ⊢
              · exact ih hab hbc
              all_goals omega

theorem textLe_total (a b : String) : (textLe a b || textLe b a) = true := codeLe_total _ _

theorem textLe_antisymm {a b : String} (hab : textLe a b = true) (hba : textLe b a = true) :
    a = b := String.toList_injective (codeLe_antisymm hab hba)

/-- Ascending strings are ordered and different. -/
theorem pairwise_of_ascending {xs : List String} (h : ascending xs = true) :
    xs.Pairwise fun a b => textLe a b = true ∧ a ≠ b := by
  induction xs with
  | nil => exact List.Pairwise.nil
  | cons a xs ih =>
      cases xs with
      | nil => simp
      | cons b rest =>
          simp only [ascending, Bool.and_eq_true, bne_iff_ne] at h
          obtain ⟨⟨hle, hne⟩, hrest⟩ := h
          have htail := ih hrest
          refine List.Pairwise.cons (fun x hx => ?_) htail
          rcases List.mem_cons.mp hx with rfl | hx
          · exact ⟨hle, hne⟩
          · obtain ⟨hbx, -⟩ := (List.pairwise_cons.mp htail).1 x hx
            refine ⟨codeLe_trans hle hbx, ?_⟩
            rintro rfl
            exact hne (textLe_antisymm hle hbx)

/-! ## The text of a value that was read back -/

/-- An entry with its key as a string. -/
def withText {α : Type} (entry : PyKey × α) : PyKey × α := (.str entry.1.text, entry.2)

theorem sortEntries_keys {α : Type} (entries : List (PyKey × α)) :
    (sortEntries entries).map Prod.fst = sortKeys (entries.map Prod.fst) :=
  List.map_insertionSort _ _ Prod.fst entries fun _ _ _ _ => Iff.rfl

/-- String keys are ordered as the strings. -/
theorem lt_str_eq_false_iff (a b : String) :
    (PyKey.str b).lt (.str a) = false ↔ textLe a b = true := by
  have htotal := textLe_total a b
  by_cases heq : b = a
  · subst heq
    simpa [PyKey.lt] using htotal
  · cases hba : textLe b a with
    | false => simpa [PyKey.lt, hba] using htotal
    | true =>
        have hab : textLe a b = false := by
          by_contra hab
          exact heq (textLe_antisymm hba (by simpa using hab))
        simp [PyKey.lt, hba, hab, heq]

/-- Entries with string keys are sorted by the strings. -/
theorem sortEntries_str {α : Type} (entries : List (String × α)) :
    sortEntries (entries.map fun entry => (PyKey.str entry.1, entry.2)) =
      (entries.insertionSort fun a b => textLe a.1 b.1 = true).map fun entry =>
        (PyKey.str entry.1, entry.2) := by
  refine (List.map_insertionSort _ _ _ entries fun a _ b _ => ?_).symm
  exact (lt_str_eq_false_iff a.1 b.1).symm

/-- If the strings of the sorted keys ascend, writing the keys as strings first changes
nothing. -/
theorem sortEntries_withText {α : Type} {entries : List (PyKey × α)}
    (h : ascending ((sortKeys (entries.map Prod.fst)).map PyKey.text) = true) :
    sortEntries (entries.map withText) = (sortEntries entries).map withText := by
  let texts := fun entry : PyKey × α => (entry.1.text, entry.2)
  let strings := fun entry : String × α => (PyKey.str entry.1, entry.2)
  have hwith : (withText : PyKey × α → PyKey × α) = strings ∘ texts := rfl
  rw [hwith, ← List.map_map, ← List.map_map, sortEntries_str]
  congr 1
  rw [← sortEntries_keys, List.map_map] at h
  have hstrict := pairwise_of_ascending h
  have hkeys : ((sortEntries entries).map (PyKey.text ∘ Prod.fst)) =
      ((sortEntries entries).map texts).map Prod.fst := by rw [List.map_map]; rfl
  rw [hkeys] at hstrict
  have hnodup : (((sortEntries entries).map texts).map Prod.fst).Nodup := hstrict.imp And.right
  have hperm : List.Perm ((entries.map texts).insertionSort fun a b => textLe a.1 b.1 = true)
      ((sortEntries entries).map texts) :=
    (List.perm_insertionSort _ _).trans ((List.perm_insertionSort _ _).symm.map texts)
  have hsorted : ((entries.map texts).insertionSort fun a b => textLe a.1 b.1 = true).Pairwise
      fun a b => textLe a.1 b.1 = true := by
    have htotal : Std.Total fun a b : String × α => textLe a.1 b.1 = true :=
      ⟨fun a b => by simpa using textLe_total a.1 b.1⟩
    have htrans : IsTrans (String × α) fun a b => textLe a.1 b.1 = true :=
      ⟨fun _ _ _ hab hbc => codeLe_trans hab hbc⟩
    exact List.pairwise_insertionSort _ _
  refine hperm.eq_of_pairwise ?_ hsorted ?_
  · intro a b ha hb hab hba
    exact List.inj_on_of_nodup_map hnodup (hperm.mem_iff.mp ha) hb (textLe_antisymm hab hba)
  · exact (List.pairwise_map.mp hstrict).imp And.left

theorem dumpsEntries_keys (entries : List (PyKey × PyJson)) :
    (dumpsEntries entries).map Prod.fst = entries.map Prod.fst := by
  induction entries with
  | nil => rfl
  | cons entry entries ih => simp [dumpsEntries, ih]

mutual

/-- **Stable texts.** A value whose keys keep their order as strings has the same text after
it was read back. -/
theorem dumps_readBack : ∀ {value : PyJson}, value.orderStable = true →
    value.readBack.dumps = value.dumps
  | .null, _ | .bool _, _ | .int _, _ | .float _, _ | .str _, _ => rfl
  | .list items, h => by
      have hitems : orderStableItems items = true := h
      simp only [PyJson.readBack, PyJson.dumps, dumpsItems_readBack hitems]
  | .dict entries, h => by
      simp only [PyJson.orderStable, Bool.and_eq_true] at h
      have hkeys : ascending
          ((sortKeys ((dumpsEntries entries).map Prod.fst)).map PyKey.text) = true := by
        rw [dumpsEntries_keys]
        exact h.1
      have hsort := sortEntries_withText hkeys
      simp only [PyJson.readBack, PyJson.dumps, dumpsEntries_readBack h.2, hsort, List.map_map]
      rfl

theorem dumpsItems_readBack : ∀ {items : List PyJson}, orderStableItems items = true →
    dumpsItems (readBackItems items) = dumpsItems items
  | [], _ => rfl
  | item :: items, h => by
      simp only [orderStableItems, Bool.and_eq_true] at h
      simp only [readBackItems, dumpsItems, dumps_readBack h.1, dumpsItems_readBack h.2]

theorem dumpsEntries_readBack : ∀ {entries : List (PyKey × PyJson)},
    orderStableEntries entries = true →
    dumpsEntries (readBackEntries entries) = (dumpsEntries entries).map withText
  | [], _ => rfl
  | (key, value) :: entries, h => by
      simp only [orderStableEntries, Bool.and_eq_true] at h
      simp only [readBackEntries, dumpsEntries, dumps_readBack h.1, dumpsEntries_readBack h.2,
        List.map_cons, withText]

end

end SetadJang.Framework
