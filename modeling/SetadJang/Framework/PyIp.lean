import Mathlib.Algebra.GroupWithZero.Nat
import Mathlib.Data.List.Basic
import SetadJang.Framework.PyFormat
import SetadJang.Framework.PyText

/-!
# Network addresses

`ipaddress.ip_address` of a text, and `is_global` of what it returns.  An address is its
number; an IPv6 address may carry a scope, which no network looks at.
-/

namespace SetadJang.Framework

/-! ## Parsing -/

inductive IpAddress where
  | v4 (value : ℕ)
  | v6 (value : ℕ) (scope : Option (List Char))
deriving DecidableEq, Repr

/-- `_parse_octet`. -/
def parseOctet (s : List Char) : Option ℕ :=
  if s ≠ [] ∧ s.all Char.isDigit = true ∧ s.length ≤ 3 ∧ (s = ['0'] ∨ s.head? ≠ some '0') ∧
      digitsValue s ≤ 255 then
    some (digitsValue s)
  else none

/-- `IPv4Address._ip_int_from_string`. -/
def parseIpv4 (s : List Char) : Option ℕ :=
  match pySplit '.' s with
  | [a, b, c, d] =>
      match parseOctet a, parseOctet b, parseOctet c, parseOctet d with
      | some a, some b, some c, some d => some (((a * 256 + b) * 256 + c) * 256 + d)
      | _, _, _, _ => none
  | _ => none

def hexValue (c : Char) : Option ℕ :=
  if c.isDigit then some (c.toNat - 48)
  else if 'a' ≤ c ∧ c ≤ 'f' then some (c.toNat - 87)
  else if 'A' ≤ c ∧ c ≤ 'F' then some (c.toNat - 55)
  else none

/-- `_parse_hextet`. -/
def parseHextet (s : List Char) : Option ℕ :=
  if s ≠ [] ∧ s.length ≤ 4 then
    s.foldl (fun value c => do return (← value) * 16 + (← hexValue c)) (some 0)
  else none

/-- The number of some hextets, the first one on top. -/
def hextetsValue (parts : List (List Char)) : Option ℕ :=
  parts.foldl (fun value part => do return (← value) * 65536 + (← parseHextet part)) (some 0)

/-- The parts of an IPv6 text; a last part in IPv4 notation stands for two hextets. -/
def ipv6Parts (s : List Char) : Option (List (List Char)) :=
  let parts := pySplit ':' s
  if parts.length < 3 then none
  else
    let last := parts.getLastD []
    if last.contains '.' then
      (parseIpv4 last).map fun value =>
        parts.dropLast ++ [Nat.toDigits 16 (value / 65536), Nat.toDigits 16 (value % 65536)]
    else some parts

/-- Where a run of zeroes is left out: the empty parts between the first and the last. -/
def skips (parts : List (List Char)) : List ℕ :=
  (List.range parts.length).filter fun i =>
    decide (1 ≤ i) && decide (i + 1 < parts.length) && (parts.getD i []).isEmpty

/-- `IPv6Address._ip_int_from_string`. -/
def parseIpv6 (s : List Char) : Option ℕ := do
  let parts ← ipv6Parts s
  if 9 < parts.length then none
  else
    match skips parts with
    | [] => if parts.length = 8 then hextetsValue parts else none
    | [skip] =>
        let high := parts.take skip
        let low := parts.drop (skip + 1)
        -- an empty end is part of the `::` beside it, or of nothing
        let high := if high.head? = some [] then high.tail else high
        let endsOk := parts.head? ≠ some [] ∨ high = []
        let lowEmpty := low.getLast? = some []
        let low := if lowEmpty then low.dropLast else low
        if endsOk ∧ (¬ lowEmpty ∨ low = []) ∧ high.length + low.length < 8 then do
          let top ← hextetsValue high
          let bottom ← hextetsValue low
          return top * 65536 ^ (8 - high.length) + bottom
        else none
    | _ => none

/-- `ipaddress.ip_address`; `none` is its `ValueError`. -/
def ipAddress (s : List Char) : Option IpAddress :=
  if s.contains '/' then none
  else
    match parseIpv4 s with
    | some value => some (.v4 value)
    | none =>
        match pyPartition '%' s with
        | (address, hasScope, scope) =>
            if hasScope = true ∧ (scope = [] ∨ scope.contains '%' = true) then none
            else (parseIpv6 address).map (.v6 · (if hasScope = true then some scope else none))

/-! ## The shape of address texts -/

/-- A loop that folds parsed parts has parsed them all. -/
theorem foldl_parsed {α β : Type} {parse : α → Option β} (combine : β → β → β) {rows : List α}
    {start : Option β} {v : β}
    (h : rows.foldl (fun value a => do return combine (← value) (← parse a)) start = some v) :
    start.isSome = true ∧ ∀ a ∈ rows, (parse a).isSome = true := by
  induction rows generalizing start with
  | nil =>
      have hstart : start = some v := h
      exact ⟨by rw [hstart]; rfl, nofun⟩
  | cons a rows ih =>
      obtain ⟨hturn, hrest⟩ := ih h
      cases hs : start with
      | none =>
          rw [hs] at hturn
          cases hturn
      | some x =>
          cases ha : parse a with
          | none =>
              simp [hs, ha] at hturn
          | some y =>
              refine ⟨rfl, List.forall_mem_cons.mpr ⟨?_, hrest⟩⟩
              rw [ha]
              rfl

/-- The characters of hextets. -/
def HexText (s : List Char) : Prop := ∀ c ∈ s, (hexValue c).isSome = true

theorem hexText_nil : HexText [] := nofun

theorem hexText_of_parseHextet {s : List Char} {v : ℕ} (h : parseHextet s = some v) : HexText s := by
  unfold parseHextet at h
  split_ifs at h
  exact (foldl_parsed (fun value digit => value * 16 + digit) h).2

theorem hexText_of_hextetsValue {parts : List (List Char)} {v : ℕ}
    (h : hextetsValue parts = some v) : ∀ part ∈ parts, HexText part := by
  intro part hpart
  have hall := (foldl_parsed (fun value hextet => value * 65536 + hextet) h).2
  obtain ⟨w, hw⟩ := Option.isSome_iff_exists.mp (hall part hpart)
  exact hexText_of_parseHextet hw

/-- The parts around the one that is left out are hextets or empty. -/
theorem hexText_of_ends {parts : List (List Char)} {skip : ℕ} (hskips : skips parts = [skip])
    (hhigh : ∀ part ∈ if (parts.take skip).head? = some [] then (parts.take skip).tail
      else parts.take skip, HexText part)
    (hlow : ∀ part ∈ if (parts.drop (skip + 1)).getLast? = some [] then
      (parts.drop (skip + 1)).dropLast else parts.drop (skip + 1), HexText part) :
    ∀ part ∈ parts, HexText part := by
  have hskip : skip ∈ skips parts := by simp [hskips]
  simp only [skips, List.mem_filter, List.mem_range, Bool.and_eq_true, List.isEmpty_iff] at hskip
  obtain ⟨hlt, -, hempty⟩ := hskip
  intro part hpart
  have hsplit : part ∈ parts.take skip ∨ part = parts.getD skip [] ∨ part ∈ parts.drop (skip + 1) := by
    rw [← List.take_append_drop skip parts, List.mem_append] at hpart
    refine hpart.imp_right fun hdrop => ?_
    rw [List.drop_eq_getElem_cons hlt, List.mem_cons] at hdrop
    rw [List.getD_eq_getElem?_getD, List.getElem?_eq_getElem hlt, Option.getD_some]
    exact hdrop
  rcases hsplit with htake | rfl | hdrop
  · split at hhigh
    · next hhead =>
        obtain ⟨rest, hrest⟩ := List.head?_eq_some_iff.mp hhead
        rw [hrest] at htake hhigh
        rcases List.mem_cons.mp htake with rfl | hmem
        · exact hexText_nil
        · exact hhigh part hmem
    · exact hhigh part htake
  · rw [hempty]
    exact hexText_nil
  · split at hlow
    · next hlast =>
        obtain ⟨front, hfront⟩ := List.getLast?_eq_some_iff.mp hlast
        rw [hfront] at hdrop hlow
        rcases List.mem_append.mp hdrop with hmem | hmem
        · exact hlow part (by simpa using hmem)
        · rw [List.mem_singleton.mp hmem]
          exact hexText_nil
    · exact hlow part hdrop

theorem hexText_of_parseIpv6 {s : List Char} {v : ℕ} (h : parseIpv6 s = some v) :
    ∃ parts, ipv6Parts s = some parts ∧ ∀ part ∈ parts, HexText part := by
  unfold parseIpv6 at h
  obtain ⟨parts, hparts, h⟩ := Option.bind_eq_some_iff.mp h
  refine ⟨parts, hparts, ?_⟩
  split at h
  · cases h
  · split at h
    · split at h
      · exact hexText_of_hextetsValue h
      · cases h
    · next skip hskips =>
        -- the part that is left out is empty, and so are the ends dropped beside it
        obtain ⟨-, hvalue⟩ := Option.ite_none_right_eq_some.mp h
        obtain ⟨top, htop, hrest⟩ := Option.bind_eq_some_iff.mp hvalue
        obtain ⟨bottom, hbottom, -⟩ := Option.bind_eq_some_iff.mp hrest
        exact hexText_of_ends hskips (hexText_of_hextetsValue htop) (hexText_of_hextetsValue hbottom)
    · cases h

/-- A character of an address text. -/
def IsAddressChar (c : Char) : Prop := c = ':' ∨ c = '.' ∨ (hexValue c).isSome = true

theorem hexValue_isSome {c : Char} (h : (hexValue c).isSome = true) :
    48 ≤ c.toNat ∧ c.toNat ≤ 57 ∨ 97 ≤ c.toNat ∧ c.toNat ≤ 102 ∨ 65 ≤ c.toNat ∧ c.toNat ≤ 70 := by
  unfold hexValue at h
  split_ifs at h with hdigit hlower hupper
  · left
    exact Char.isDigit_iff_toNat.mp hdigit
  · right
    left
    exact hlower
  · right
    right
    exact hupper
  · cases h

theorem not_dot_of_hexText {s : List Char} (h : HexText s) : '.' ∉ s := by
  intro hmem
  exact absurd (h _ hmem) (by decide)

theorem hexText_of_parseOctet {s : List Char} {v : ℕ} (h : parseOctet s = some v) : HexText s := by
  unfold parseOctet at h
  split_ifs at h with hs
  intro c hc
  rw [hexValue, if_pos (List.all_eq_true.mp hs.2.1 c hc)]
  rfl

/-- An IPv4 text is four parts of digits. -/
theorem octets_of_parseIpv4 {s : List Char} {v : ℕ} (h : parseIpv4 s = some v) :
    (pySplit '.' s).length = 4 ∧ ∀ part ∈ pySplit '.' s, HexText part := by
  unfold parseIpv4 at h
  split at h
  · next a b c d hparts =>
      split at h
      · next ha hb hc hd =>
          rw [hparts]
          refine ⟨rfl, ?_⟩
          simp only [List.forall_mem_cons]
          exact ⟨hexText_of_parseOctet ha, hexText_of_parseOctet hb, hexText_of_parseOctet hc,
            hexText_of_parseOctet hd, nofun⟩
      · cases h
  · cases h

theorem dots_of_parseIpv4 {s : List Char} {v : ℕ} (h : parseIpv4 s = some v) :
    s.count '.' = 3 := by
  have hlength := count_sep_pySplit '.' s
  rw [(octets_of_parseIpv4 h).1] at hlength
  omega

theorem chars_of_parseIpv4 {s : List Char} {v : ℕ} (h : parseIpv4 s = some v) :
    ∀ c ∈ s, c = '.' ∨ (hexValue c).isSome = true := by
  intro c hc
  by_cases hdot : c = '.'
  · exact Or.inl hdot
  · obtain ⟨part, hpart, hmem⟩ := (mem_pySplit hdot).mp hc
    exact Or.inr ((octets_of_parseIpv4 h).2 part hpart c hmem)

/-- The parts of an IPv6 text between colons: hextets, or IPv4 notation in the last of them. -/
theorem parts_of_parseIpv6 {s : List Char} {v : ℕ} (h : parseIpv6 s = some v) :
    3 ≤ (pySplit ':' s).length ∧ ((∀ part ∈ pySplit ':' s, HexText part) ∨
      ∃ front last w, pySplit ':' s = front ++ [last] ∧ (∀ part ∈ front, HexText part) ∧
        parseIpv4 last = some w) := by
  obtain ⟨parts, hparts, hhex⟩ := hexText_of_parseIpv6 h
  unfold ipv6Parts at hparts
  obtain ⟨hlength, hparts⟩ := Option.ite_none_left_eq_some.mp hparts
  refine ⟨by omega, ?_⟩
  obtain ⟨front, last, hsplit⟩ := (List.eq_nil_or_concat _).resolve_left (pySplit_ne_nil ':' s)
  rw [List.concat_eq_append] at hsplit
  rw [hsplit] at hparts ⊢
  simp only [List.getLastD_concat, List.dropLast_concat] at hparts
  split at hparts
  · obtain ⟨w, hw, rfl⟩ := Option.map_eq_some_iff.mp hparts
    exact Or.inr ⟨front, last, w, rfl, fun part hpart => hhex part (List.mem_append_left _ hpart), hw⟩
  · obtain rfl := Option.some.inj hparts
    exact Or.inl hhex

theorem chars_of_parseIpv6 {s : List Char} {v : ℕ} (h : parseIpv6 s = some v) :
    ∀ c ∈ s, IsAddressChar c := by
  intro c hc
  by_cases hcolon : c = ':'
  · exact Or.inl hcolon
  · right
    obtain ⟨part, hpart, hmem⟩ := (mem_pySplit hcolon).mp hc
    rcases (parts_of_parseIpv6 h).2 with hhex | ⟨front, last, w, hsplit, hhex, hlast⟩
    · exact Or.inr (hhex part hpart c hmem)
    · rw [hsplit] at hpart
      rcases List.mem_append.mp hpart with hfront | hend
      · exact Or.inr (hhex part hfront c hmem)
      · rw [List.mem_singleton.mp hend] at hmem
        exact chars_of_parseIpv4 hlast c hmem

theorem colon_of_parseIpv6 {s : List Char} {v : ℕ} (h : parseIpv6 s = some v) : ':' ∈ s := by
  have hlength := count_sep_pySplit ':' s
  have hthree := (parts_of_parseIpv6 h).1
  exact List.count_pos_iff.mp (by omega)

/-- An IPv6 text has no dot, or the three of IPv4 notation. -/
theorem dots_of_parseIpv6 {s : List Char} {v : ℕ} (h : parseIpv6 s = some v) :
    '.' ∈ s ↔ s.count '.' = 3 := by
  constructor
  · intro hdot
    rw [count_pySplit (by decide : '.' ≠ ':')]
    rcases (parts_of_parseIpv6 h).2 with hhex | ⟨front, last, w, hsplit, hhex, hlast⟩
    · obtain ⟨part, hpart, hmem⟩ := (mem_pySplit (by decide : '.' ≠ ':')).mp hdot
      exact absurd hmem (not_dot_of_hexText (hhex part hpart))
    · have hnone : front.flatten.count '.' = 0 := by
        rw [List.count_eq_zero]
        intro hmem
        obtain ⟨part, hpart, hpartdot⟩ := List.mem_flatten.mp hmem
        exact not_dot_of_hexText (hhex part hpart) hpartdot
      rw [hsplit, List.flatten_append, List.count_append, hnone, List.flatten_singleton,
        dots_of_parseIpv4 hlast]
  · intro hcount
    exact List.count_pos_iff.mp (by omega)

/-! ## Networks -/

/-- A network: its first address and the number of its host bits. -/
structure IpNetwork where
  network : ℕ
  hostBits : ℕ
deriving DecidableEq, Repr

def IpNetwork.contains (net : IpNetwork) (value : ℕ) : Bool :=
  value / 2 ^ net.hostBits == net.network / 2 ^ net.hostBits

/-- An IPv4 network `a.b.c.d/bits`. -/
def ipv4Network (a b c d bits : ℕ) : IpNetwork := ⟨((a * 256 + b) * 256 + c) * 256 + d, 32 - bits⟩

/-- An IPv6 network whose first hextets are given. -/
def ipv6Network (hextets : List ℕ) (bits : ℕ) : IpNetwork :=
  ⟨hextets.foldl (fun value hextet => value * 65536 + hextet) 0 * 65536 ^ (8 - hextets.length),
    128 - bits⟩

/-- `_private_networks` of IPv4. -/
def ipv4PrivateNetworks : List IpNetwork :=
  [ipv4Network 0 0 0 0 8, ipv4Network 10 0 0 0 8, ipv4Network 127 0 0 0 8,
    ipv4Network 169 254 0 0 16, ipv4Network 172 16 0 0 12, ipv4Network 192 0 0 0 24,
    ipv4Network 192 0 0 170 31, ipv4Network 192 0 2 0 24, ipv4Network 192 168 0 0 16,
    ipv4Network 198 18 0 0 15, ipv4Network 198 51 100 0 24, ipv4Network 203 0 113 0 24,
    ipv4Network 240 0 0 0 4, ipv4Network 255 255 255 255 32]

/-- `_private_networks_exceptions` of IPv4. -/
def ipv4PrivateExceptions : List IpNetwork :=
  [ipv4Network 192 0 0 9 32, ipv4Network 192 0 0 10 32]

/-- `_private_networks` of IPv6. -/
def ipv6PrivateNetworks : List IpNetwork :=
  [ipv6Network [0, 0, 0, 0, 0, 0, 0, 1] 128, ipv6Network [0] 128,
    ipv6Network [0, 0, 0, 0, 0, 0xffff] 96, ipv6Network [0x64, 0xff9b, 1] 48,
    ipv6Network [0x100] 64, ipv6Network [0x2001] 23, ipv6Network [0x2001, 0xdb8] 32,
    ipv6Network [0x2002] 16, ipv6Network [0x3fff] 20, ipv6Network [0xfc00] 7,
    ipv6Network [0xfe80] 10]

/-- `_private_networks_exceptions` of IPv6. -/
def ipv6PrivateExceptions : List IpNetwork :=
  [ipv6Network [0x2001, 1, 0, 0, 0, 0, 0, 1] 128, ipv6Network [0x2001, 1, 0, 0, 0, 0, 0, 2] 128,
    ipv6Network [0x2001, 3] 32, ipv6Network [0x2001, 4, 0x112] 48, ipv6Network [0x2001, 0x20] 28,
    ipv6Network [0x2001, 0x30] 28]

def inPrivateNetworks (networks exceptions : List IpNetwork) (value : ℕ) : Bool :=
  networks.any (·.contains value) && exceptions.all fun net => !net.contains value

namespace IpAddress

/-- `is_global` of an IPv4 address; `100.64.0.0/10` is neither private nor global. -/
def isGlobalV4 (value : ℕ) : Bool :=
  !(ipv4Network 100 64 0 0 10).contains value &&
    !inPrivateNetworks ipv4PrivateNetworks ipv4PrivateExceptions value

/-- `is_global`. An IPv4-mapped address is judged by the address it maps. -/
def isGlobal : IpAddress → Bool
  | v4 value => isGlobalV4 value
  | v6 value _ =>
      if value / 2 ^ 32 = 0xffff then isGlobalV4 (value % 2 ^ 32)
      else !inPrivateNetworks ipv6PrivateNetworks ipv6PrivateExceptions value

end IpAddress

end SetadJang.Framework
