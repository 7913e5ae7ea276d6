import SetadJang.Framework.PyIp

/-!
# The client's address

`apps/core/client_ip.py`: behind `k` trusted proxies the address of the client is the `k`-th entry
of `X-Forwarded-For` from the right, the one that the first of these proxies appended.  What the
client sends in the header stands before it.

An entry may carry a port.  It is told from an IPv6 address by its dots: three of them and a colon
are read as an IPv4 address with a port.  An IPv6 address that ends in IPv4 notation has three dots
and colons of its own.
-/

namespace SetadJang.Core

open SetadJang.Framework

/-! ## The resolver -/

/-- The two entries of `request.META` that are read. -/
structure RequestMeta where
  remoteAddr : Option String
  xForwardedFor : Option String
deriving DecidableEq, Repr

/-- `trusted_proxy_count`; the setting is `none` where it is not a number. -/
def trustedProxyCount (numProxies : Option ℤ) : ℕ := (numProxies.getD 0).toNat

/-- `_strip_port`. -/
def stripPort (address : String) : String :=
  let addr := pyStrip address
  match addr.toList with
  | [] => addr
  | '[' :: rest => if ']' ∈ rest then String.ofList (rest.takeWhile (· != ']')) else addr
  | cs => if cs.count '.' = 3 ∧ ':' ∈ cs then String.ofList (pyRPartition ':' cs).1 else addr

/-- The entries of the header that are not blank, stripped. -/
def forwardedAddrs (xff : String) : List String :=
  ((pySplit ',' xff.toList).map fun part => pyStrip (String.ofList part)).filter (· ≠ "")

/-- `get_client_ip`. -/
def getClientIp (numProxies : Option ℤ) (request : RequestMeta) : Option String :=
  let count := trustedProxyCount numProxies
  if count = 0 then request.remoteAddr
  else
    match request.xForwardedFor with
    | none => request.remoteAddr
    | some xff =>
        let addrs := forwardedAddrs xff
        if xff = "" ∨ addrs.length < count then request.remoteAddr
        else (addrs[addrs.length - count]?).map stripPort

/-! ## What proxies write -/

/-- How a proxy writes an address. -/
inductive AddressForm where
  | plain
  | withPort (port : ℕ)
  | bracketed
  | bracketedWithPort (port : ℕ)
deriving DecidableEq, Repr

def IsIpv4Text (host : List Char) : Prop := (parseIpv4 host).isSome = true

def IsIpv6Text (host : List Char) : Prop := (parseIpv6 host).isSome = true

instance (host : List Char) : Decidable (IsIpv4Text host) := inferInstanceAs (Decidable (_ = true))

instance (host : List Char) : Decidable (IsIpv6Text host) := inferInstanceAs (Decidable (_ = true))

/-- The forms of the two kinds of addresses. -/
def AddressForm.Fits (host : List Char) : AddressForm → Prop
  | .plain => IsIpv4Text host ∨ IsIpv6Text host
  | .withPort _ => IsIpv4Text host
  | .bracketed => IsIpv6Text host
  | .bracketedWithPort _ => IsIpv6Text host

/-- An entry that a proxy appends: an address in one of its forms, with blanks around it. -/
structure AppendedAddress where
  host : List Char
  form : AddressForm
  fits : form.Fits host
  before : List Char
  after : List Char
  before_blank : ∀ c ∈ before, pyIsSpace c = true
  after_blank : ∀ c ∈ after, pyIsSpace c = true

namespace AppendedAddress

/-- The address as it is written. -/
def written (entry : AppendedAddress) : List Char :=
  match entry.form with
  | .plain => entry.host
  | .withPort port => entry.host ++ ':' :: (toString port).toList
  | .bracketed => '[' :: (entry.host ++ [']'])
  | .bracketedWithPort port => '[' :: (entry.host ++ ']' :: ':' :: (toString port).toList)

/-- The entry in the header. -/
def text (entry : AppendedAddress) : String :=
  String.ofList (entry.before ++ (entry.written ++ entry.after))

/-- An IPv6 address in IPv4 notation, without brackets. -/
def MixedPlain (entry : AppendedAddress) : Prop :=
  entry.form = .plain ∧ ':' ∈ entry.host ∧ '.' ∈ entry.host

instance (entry : AppendedAddress) : Decidable entry.MixedPlain := inferInstanceAs (Decidable (_ ∧ _))

end AppendedAddress

/-- The header that arrives: what the client sent, if anything, and what the proxies appended. -/
def forwardedFor (client : Option String) (entries : List AppendedAddress) : String :=
  (String.singleton ',').intercalate (client.toList ++ entries.map AppendedAddress.text)

/-! ## Characters of addresses -/

theorem char_of_address {c : Char} (h : IsAddressChar c) :
    pyIsSpace c = false ∧ c ≠ ',' ∧ c ≠ '[' ∧ c ≠ ']' := by
  have hcode : 48 ≤ c.toNat ∧ c.toNat ≤ 58 ∨ 97 ≤ c.toNat ∧ c.toNat ≤ 102 ∨
      65 ≤ c.toNat ∧ c.toNat ≤ 70 ∨ c.toNat = 46 := by
    rcases h with rfl | rfl | hhex
    · decide
    · decide
    · have := hexValue_isSome hhex
      omega
  have hne : ∀ d : Char, c.toNat ≠ d.toNat → c ≠ d := fun d hd heq => hd (heq ▸ rfl)
  refine ⟨?_, hne ',' ?_, hne '[' ?_, hne ']' ?_⟩
  · simp only [pyIsSpace, Bool.or_eq_false_iff, Bool.and_eq_false_iff, decide_eq_false_iff_not,
      beq_eq_false_iff_ne]
    omega
  · show c.toNat ≠ 44
    omega
  · show c.toNat ≠ 91
    omega
  · show c.toNat ≠ 93
    omega

theorem chars_of_fits {host : List Char} {form : AddressForm} (h : form.Fits host) :
    host ≠ [] ∧ ∀ c ∈ host, IsAddressChar c := by
  have hv4 : IsIpv4Text host → host ≠ [] ∧ ∀ c ∈ host, IsAddressChar c := by
    intro hhost
    obtain ⟨v, hv⟩ := Option.isSome_iff_exists.mp hhost
    have hdots := dots_of_parseIpv4 hv
    refine ⟨?_, fun c hc => Or.inr (chars_of_parseIpv4 hv c hc)⟩
    rintro rfl
    cases hdots
  have hv6 : IsIpv6Text host → host ≠ [] ∧ ∀ c ∈ host, IsAddressChar c := by
    intro hhost
    obtain ⟨v, hv⟩ := Option.isSome_iff_exists.mp hhost
    exact ⟨List.ne_nil_of_mem (colon_of_parseIpv6 hv), chars_of_parseIpv6 hv⟩
  cases form with
  | plain => exact h.elim hv4 hv6
  | withPort port => exact hv4 h
  | bracketed => exact hv6 h
  | bracketedWithPort port => exact hv6 h

/-- No blank and no comma stands in a written address. -/
theorem written_chars (entry : AppendedAddress) :
    entry.written ≠ [] ∧ ∀ c ∈ entry.written, pyIsSpace c = false ∧ c ≠ ',' := by
  obtain ⟨hne, hchars⟩ := chars_of_fits entry.fits
  have hhost : ∀ c ∈ entry.host, pyIsSpace c = false ∧ c ≠ ',' := fun c hc =>
    ⟨(char_of_address (hchars c hc)).1, (char_of_address (hchars c hc)).2.1⟩
  have hport : ∀ port : ℕ, ∀ c ∈ (toString port).toList, pyIsSpace c = false ∧ c ≠ ',' := by
    intro port c hc
    have hdigit : c.isDigit = true := by
      by_contra hnot
      exact not_mem_str (by simpa using hnot) port hc
    have haddress : IsAddressChar c := Or.inr (Or.inr (by rw [hexValue, if_pos hdigit]; rfl))
    exact ⟨(char_of_address haddress).1, (char_of_address haddress).2.1⟩
  unfold AppendedAddress.written
  cases entry.form with
  | plain => exact ⟨hne, hhost⟩
  | withPort port =>
      refine ⟨by simp, ?_⟩
      simp only [List.forall_mem_append, List.forall_mem_cons]
      exact ⟨hhost, by decide, hport port⟩
  | bracketed =>
      refine ⟨by simp, ?_⟩
      simp only [List.forall_mem_append, List.forall_mem_cons]
      exact ⟨by decide, hhost, by decide, List.forall_mem_nil _⟩
  | bracketedWithPort port =>
      refine ⟨by simp, ?_⟩
      simp only [List.forall_mem_append, List.forall_mem_cons]
      exact ⟨by decide, hhost, by decide, by decide, hport port⟩

theorem pyStrip_text (entry : AppendedAddress) : pyStrip entry.text = String.ofList entry.written :=
  pyStrip_padded entry.before_blank entry.after_blank (written_chars entry).1
    fun c hc => ((written_chars entry).2 c hc).1

theorem comma_not_mem_text (entry : AppendedAddress) : ',' ∉ entry.text.toList := by
  have hblank : ∀ {cs : List Char}, (∀ c ∈ cs, pyIsSpace c = true) → ',' ∉ cs := by
    intro cs hcs hmem
    exact absurd (hcs _ hmem) (by decide)
  rw [AppendedAddress.text, String.toList_ofList, List.mem_append, List.mem_append, not_or, not_or]
  exact ⟨hblank entry.before_blank, fun hmem => ((written_chars entry).2 _ hmem).2 rfl,
    hblank entry.after_blank⟩

/-! ## The entry that is read -/

/-- Whatever the client sent, the entries of the proxies end the list. -/
theorem forwardedAddrs_forwardedFor (client : Option String) {entries : List AppendedAddress}
    (hne : entries ≠ []) :
    ∃ front, forwardedAddrs (forwardedFor client entries) =
      front ++ entries.map fun entry => String.ofList entry.written := by
  have hparts : (entries.map AppendedAddress.text).flatMap (fun text => pySplit ',' text.toList) =
      entries.map fun entry => entry.text.toList := by
    rw [List.flatMap_map, ← List.flatMap_singleton' (entries.map fun entry => entry.text.toList),
      List.flatMap_map]
    apply List.flatMap_congr
    intro entry _
    exact pySplit_of_not_mem (comma_not_mem_text entry)
  have hentries : ((entries.map fun entry => entry.text.toList).map
      fun part => pyStrip (String.ofList part)).filter (· ≠ "") =
        entries.map fun entry => String.ofList entry.written := by
    rw [List.map_map]
    have hmap : entries.map ((fun part => pyStrip (String.ofList part)) ∘
        fun entry => entry.text.toList) = entries.map fun entry => String.ofList entry.written := by
      apply List.map_congr_left
      intro entry _
      show pyStrip (String.ofList entry.text.toList) = _
      rw [String.ofList_toList, pyStrip_text]
    rw [hmap, List.filter_eq_self]
    intro text htext
    obtain ⟨entry, -, rfl⟩ := List.mem_map.mp htext
    have hwritten := (written_chars entry).1
    simpa using hwritten
  rw [forwardedAddrs, forwardedFor, pySplit_join ',' (by simp [hne]), List.flatMap_append, hparts,
    List.map_append, List.filter_append, hentries]
  exact ⟨_, rfl⟩

theorem getClientIp_forwarded (remote client : Option String) (first : AppendedAddress)
    (rest : List AppendedAddress) :
    getClientIp (some (rest.length + 1)) ⟨remote, some (forwardedFor client (first :: rest))⟩ =
      some (stripPort (String.ofList first.written)) := by
  obtain ⟨front, hfront⟩ := forwardedAddrs_forwardedFor client (List.cons_ne_nil first rest)
  have hcount : trustedProxyCount (some (rest.length + 1)) = rest.length + 1 := by
    simp [trustedProxyCount]
  have hne : forwardedFor client (first :: rest) ≠ "" := by
    intro hempty
    rw [hempty] at hfront
    have hnil : forwardedAddrs "" = [] := by decide
    rw [hnil, List.map_cons] at hfront
    simp at hfront
  unfold getClientIp
  simp only [hcount, hfront]
  rw [if_neg (by omega), if_neg]
  · have hplace : (front ++ (first :: rest).map fun entry => String.ofList entry.written).length -
        (rest.length + 1) = front.length := by simp
    rw [hplace, List.getElem?_append_right (Nat.le_refl _), Nat.sub_self]
    rfl
  · rintro (hempty | hshort)
    · exact hne hempty
    · simp only [List.length_append, List.length_map, List.length_cons] at hshort
      omega

/-! ## The port -/

theorem pyStrip_written (entry : AppendedAddress) :
    pyStrip (String.ofList entry.written) = String.ofList entry.written := by
  have hpadded : pyStrip (String.ofList ([] ++ (entry.written ++ []))) = _ :=
    pyStrip_padded (List.forall_mem_nil _) (List.forall_mem_nil _) (written_chars entry).1
      fun c hc => ((written_chars entry).2 c hc).1
  simpa using hpadded

/-- `_strip_port` of a text without a bracket at its start. -/
theorem stripPort_open {cs : List Char} (hstrip : pyStrip (String.ofList cs) = String.ofList cs)
    (hne : cs ≠ []) (hhead : cs.head? ≠ some '[') :
    stripPort (String.ofList cs) =
      if cs.count '.' = 3 ∧ ':' ∈ cs then String.ofList (pyRPartition ':' cs).1
      else String.ofList cs := by
  unfold stripPort
  simp only [hstrip, String.toList_ofList]
  split
  · exact absurd rfl hne
  · exact absurd rfl hhead
  · rfl

theorem stripPort_bracketed {host rest : List Char}
    (hstrip : pyStrip (String.ofList ('[' :: (host ++ ']' :: rest))) =
      String.ofList ('[' :: (host ++ ']' :: rest))) (hhost : ']' ∉ host) :
    stripPort (String.ofList ('[' :: (host ++ ']' :: rest))) = String.ofList host := by
  unfold stripPort
  simp only [hstrip, String.toList_ofList]
  rw [if_pos (by simp), List.takeWhile_append_of_pos, List.takeWhile_cons_of_neg (by simp),
    List.append_nil]
  intro c hc
  simpa using fun heq : c = ']' => hhost (heq ▸ hc)

theorem pyRPartition_last {c : Char} {before after : List Char} (h : c ∉ after) :
    (pyRPartition c (before ++ c :: after)).1 = before := by
  have hdrop : ((before ++ c :: after).reverse.dropWhile (· != c)).tail = before.reverse := by
    rw [List.reverse_append, List.reverse_cons, List.append_assoc,
      List.dropWhile_append_of_pos]
    · simp
    · intro d hd
      simpa using fun heq : d = c => h (List.mem_reverse.mp (heq ▸ hd))
  simp only [pyRPartition, pyPartition]
  rw [hdrop, List.reverse_reverse]

/-- What stands before the last separator is not the whole text. -/
theorem pyRPartition_ne {c : Char} {cs : List Char} (h : c ∈ cs) : (pyRPartition c cs).1 ≠ cs := by
  obtain ⟨after, before, hsplit, hafter⟩ := List.eq_append_cons_of_mem (List.mem_reverse.mpr h)
  have hcs : cs = before.reverse ++ c :: after.reverse := by
    rw [← List.reverse_reverse cs, hsplit]
    simp
  rw [hcs, pyRPartition_last (by simpa using hafter)]
  intro heq
  have hlength := congrArg List.length heq
  simp at hlength

theorem head_of_address {cs : List Char} (h : ∀ c ∈ cs, IsAddressChar c) : cs.head? ≠ some '[' := by
  intro hhead
  exact (char_of_address (h _ (List.mem_of_head? hhead))).2.2.1 rfl

/-- **The port.** `_strip_port` gives the address back unless it is IPv6 in IPv4 notation without
brackets. -/
theorem stripPort_written_iff (entry : AppendedAddress) :
    stripPort (String.ofList entry.written) = String.ofList entry.host ↔ ¬ entry.MixedPlain := by
  obtain ⟨hne, hchars⟩ := chars_of_fits entry.fits
  have hstrip := pyStrip_written entry
  have hclosing : ']' ∉ entry.host := fun hmem => (char_of_address (hchars _ hmem)).2.2.2 rfl
  have hfits := entry.fits
  unfold AppendedAddress.written at hstrip ⊢
  unfold AppendedAddress.MixedPlain
  cases hform : entry.form with
  | plain =>
      simp only [hform] at hstrip hfits ⊢
      rw [stripPort_open hstrip hne (head_of_address hchars)]
      -- three dots and a colon: an IPv4 text has no colon, an IPv6 text may have both
      rcases hfits with hv4 | hv6
      · obtain ⟨v, hv⟩ := Option.isSome_iff_exists.mp hv4
        have hcolon : ':' ∉ entry.host := by
          intro hmem
          rcases chars_of_parseIpv4 hv _ hmem with hdot | hhex
          · exact absurd hdot (by decide)
          · exact absurd hhex (by decide)
        simp [hcolon]
      · obtain ⟨v, hv⟩ := Option.isSome_iff_exists.mp hv6
        have hcolon := colon_of_parseIpv6 hv
        rw [dots_of_parseIpv6 hv]
        by_cases hdots : entry.host.count '.' = 3
        · rw [if_pos ⟨hdots, hcolon⟩]
          simp only [hdots, hcolon, true_and, not_true_eq_false, iff_false]
          intro heq
          exact pyRPartition_ne hcolon (String.ofList_injective heq)
        · simp [hdots]
  | withPort port =>
      simp only [hform] at hstrip hfits ⊢
      obtain ⟨v, hv⟩ := Option.isSome_iff_exists.mp hfits
      have hport : '.' ∉ (toString port).toList := not_mem_str rfl port
      have hdots : (entry.host ++ ':' :: (toString port).toList).count '.' = 3 := by
        rw [List.count_append, dots_of_parseIpv4 hv, List.count_cons_of_ne (by decide),
          List.count_eq_zero.mpr hport]
      have hhead : (entry.host ++ ':' :: (toString port).toList).head? ≠ some '[' := by
        obtain ⟨d, ds, hd⟩ := List.exists_cons_of_ne_nil hne
        have hfirst := head_of_address hchars
        rw [hd] at hfirst ⊢
        exact hfirst
      rw [stripPort_open hstrip (by simp) hhead, if_pos ⟨hdots, by simp⟩,
        pyRPartition_last (colon_not_mem_str port)]
      simp
  | bracketed =>
      simp only [hform] at hstrip ⊢
      rw [stripPort_bracketed hstrip hclosing]
      simp
  | bracketedWithPort port =>
      simp only [hform] at hstrip ⊢
      rw [stripPort_bracketed hstrip hclosing]
      simp

/-- **The client's address.** Behind `k ≥ 1` proxies, whatever the client sent, the address that was
appended first is returned exactly when it is not IPv6 in IPv4 notation without brackets; and two
clients with other addresses of that kind get different results. -/
theorem client_ip_iff (remote client : Option String) (first : AppendedAddress)
    (rest : List AppendedAddress) :
    (getClientIp (some (rest.length + 1)) ⟨remote, some (forwardedFor client (first :: rest))⟩ =
        some (String.ofList first.host) ↔ ¬ first.MixedPlain) ∧
      (¬ first.MixedPlain → ∀ (remote' client' : Option String) (other : AppendedAddress)
        (rest' : List AppendedAddress), ¬ other.MixedPlain → first.host ≠ other.host →
          getClientIp (some (rest.length + 1))
              ⟨remote, some (forwardedFor client (first :: rest))⟩ ≠
            getClientIp (some (rest'.length + 1))
              ⟨remote', some (forwardedFor client' (other :: rest'))⟩) := by
  constructor
  · rw [getClientIp_forwarded, Option.some.injEq]
    exact stripPort_written_iff first
  · intro hfirst remote' client' other rest' hother hne
    rw [getClientIp_forwarded, getClientIp_forwarded, (stripPort_written_iff first).mpr hfirst,
      (stripPort_written_iff other).mpr hother]
    intro heq
    exact hne (String.ofList_injective (Option.some.inj heq))

/-- An address in the plain form, after a blank. -/
def plainEntry (host : List Char) (h : IsIpv4Text host ∨ IsIpv6Text host) : AppendedAddress where
  host := host
  form := .plain
  fits := h
  before := [' ']
  after := []
  before_blank := List.forall_mem_singleton.mpr rfl
  after_blank := List.forall_mem_nil _

/-- Two clients that a dual-stack proxy writes as mapped addresses are one client. -/
theorem mapped_clients_merged :
    getClientIp (some 1) ⟨none, some (forwardedFor (some "8.8.8.8")
        [plainEntry "::ffff:1.2.3.4".toList (Or.inr (by decide +kernel))])⟩ = some "::ffff" ∧
      getClientIp (some 1) ⟨none, some (forwardedFor none
        [plainEntry "::ffff:5.6.7.8".toList (Or.inr (by decide +kernel))])⟩ = some "::ffff" := by
  constructor
  · decide +kernel
  · decide +kernel

end SetadJang.Core
