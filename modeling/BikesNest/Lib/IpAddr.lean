import Mathlib.Data.List.Basic

/-!
# Internet addresses as text

`std::net::IpAddr` with the two functions that go between addresses and text.
`parseIpAddr` is the recursive-descent reader of `core::net`: decimal octets
without a leading zero for IPv4, up to eight groups of at most four
hexadecimal digits for IPv6, where one `::` stands for a run of zero groups
and the last two groups may be written as an IPv4 address.  `IpAddr.display`
is what `to_string` writes.

The fact that other modules use is `isAddressChar_of_parse`: a text that
parses is not empty and has only hexadecimal digits, colons and full stops, so
it has neither white space nor a comma in it.
-/

namespace BikesNest.Net

/-- `std::net::Ipv4Addr`. -/
structure Ipv4Addr where
  one : UInt8
  two : UInt8
  three : UInt8
  four : UInt8
  deriving DecidableEq, Repr

/-- `std::net::Ipv6Addr`: eight groups. -/
structure Ipv6Addr where
  segments : Vector UInt16 8
  deriving DecidableEq, Repr

/-- `std::net::IpAddr`. -/
inductive IpAddr where
  | v4 (address : Ipv4Addr)
  | v6 (address : Ipv6Addr)
  deriving DecidableEq, Repr

/-! ## Reading -/

/-- `char::to_digit`. -/
def toDigit (radix : Nat) (c : Char) : Option Nat :=
  let n := c.toNat
  let value :=
    if 48 ≤ n ∧ n ≤ 57 then some (n - 48)
    else if 97 ≤ n ∧ n ≤ 122 then some (n - 87)
    else if 65 ≤ n ∧ n ≤ 90 then some (n - 55)
    else none
  value.filter fun digit => digit < radix

/-- `Parser::read_given_char`. -/
def readGivenChar (target : Char) : List Char → Option (List Char)
  | [] => none
  | c :: rest => if c = target then some rest else none

/-- The loop of `Parser::read_number`: digits as long as there are any.  More
than `room` of them are a failure. -/
def readDigits (radix : Nat) : Nat → Nat → List Char → Option (Nat × List Char)
  | _, result, [] => some (result, [])
  | room, result, c :: rest =>
    match toDigit radix c with
    | none => some (result, c :: rest)
    | some digit =>
      if room = 0 then none else readDigits radix (room - 1) (result * radix + digit) rest

/-- `Parser::read_number` for an unsigned type with `bound` values. -/
def readNumber (radix maxDigits : Nat) (allowZeroPrefix : Bool) (bound : Nat)
    (s : List Char) : Option (Nat × List Char) :=
  match readDigits radix maxDigits 0 s with
  | none => none
  | some (result, rest) =>
    let digitCount := s.length - rest.length
    if digitCount = 0 then none
    else if allowZeroPrefix = false ∧ s.head? = some '0' ∧ 1 < digitCount then none
    else if result < bound then some (result, rest)
    else none

/-- `Parser::read_separator`: the separator stands before every part but the
first. -/
def readSeparator {α : Type} (sep : Char) (index : Nat)
    (inner : List Char → Option (α × List Char)) (s : List Char) :
    Option (α × List Char) :=
  if 0 < index then (readGivenChar sep s).bind inner else inner s

/-- One octet of `Parser::read_ipv4_addr`. -/
def readOctet (index : Nat) (s : List Char) : Option (Nat × List Char) :=
  readSeparator '.' index (readNumber 10 3 false 256) s

/-- `Parser::read_ipv4_addr`. -/
def readIpv4Addr (s : List Char) : Option (Ipv4Addr × List Char) :=
  (readOctet 0 s).bind fun one =>
  (readOctet 1 one.2).bind fun two =>
  (readOctet 2 two.2).bind fun three =>
  (readOctet 3 three.2).bind fun four =>
    some (⟨.ofNat one.1, .ofNat two.1, .ofNat three.1, .ofNat four.1⟩, four.2)

/-- The two groups that an embedded IPv4 address fills. -/
def Ipv4Addr.groups (address : Ipv4Addr) : List UInt16 :=
  [.ofNat (address.one.toNat * 256 + address.two.toNat),
    .ofNat (address.three.toNat * 256 + address.four.toNat)]

/-- `read_groups` of `Parser::read_ipv6_addr`, with `left` of the `limit`
groups to go: the groups read, whether the last two came from an IPv4 address,
and the rest of the text. -/
def readGroups (limit : Nat) : Nat → List Char → List UInt16 × Bool × List Char
  | 0, s => ([], false, s)
  | left + 1, s =>
    let i := limit - (left + 1)
    match if i < limit - 1 then readSeparator ':' i readIpv4Addr s else none with
    | some (address, rest) => (address.groups, true, rest)
    | none =>
      match readSeparator ':' i (readNumber 16 4 true 65536) s with
      | some (group, rest) =>
        let more := readGroups limit left rest
        (.ofNat group :: more.1, more.2.1, more.2.2)
      | none => ([], false, s)

/-- The eight groups from those before and those after the `::`. -/
def Ipv6Addr.ofGroups (head tail : List UInt16) : Ipv6Addr where
  segments := .ofFn fun i =>
    if i.val < 8 - tail.length then head.getD i 0 else tail.getD (i - (8 - tail.length)) 0

/-- `Parser::read_ipv6_addr`. -/
def readIpv6Addr (s : List Char) : Option (Ipv6Addr × List Char) :=
  let head := readGroups 8 8 s
  if head.1.length = 8 then some (.ofGroups head.1 [], head.2.2)
  else if head.2.1 then none
  else
    (readGivenChar ':' head.2.2).bind fun s =>
    (readGivenChar ':' s).bind fun s =>
      let limit := 8 - (head.1.length + 1)
      let tail := readGroups limit limit s
      some (.ofGroups head.1 tail.1, tail.2.2)

/-- `Parser::read_ip_addr`. -/
def readIpAddr (s : List Char) : Option (IpAddr × List Char) :=
  ((readIpv4Addr s).map fun found => (IpAddr.v4 found.1, found.2)).or
    ((readIpv6Addr s).map fun found => (IpAddr.v6 found.1, found.2))

/-- `str::parse::<IpAddr>`: the reader has to come to the end of the text. -/
def parseIpAddr (s : List Char) : Option IpAddr :=
  match readIpAddr s with
  | some (address, rest) => if rest = [] then some address else none
  | none => none

/-! ## Writing -/

/-- `Ipv4Addr::to_string`. -/
def Ipv4Addr.display (address : Ipv4Addr) : List Char :=
  List.intercalate ['.']
    ([address.one, address.two, address.three, address.four].map fun octet =>
      Nat.toDigits 10 octet.toNat)

/-- The part `fmt_subslice` of an IPv6 address. -/
def fmtSubslice (chunk : List UInt16) : List Char :=
  List.intercalate [':'] (chunk.map fun segment => Nat.toDigits 16 segment.toNat)

/-- Where the first longest run of zero groups starts and how long it is:
`current` is the run that ends before group `i`, `longest` the best so far. -/
def zeroSpan : Nat → Nat × Nat → Nat × Nat → List UInt16 → Nat × Nat
  | _, longest, _, [] => longest
  | i, longest, current, segment :: rest =>
    if segment = 0 then
      let current := (if current.2 = 0 then i else current.1, current.2 + 1)
      zeroSpan (i + 1) (if current.2 > longest.2 then current else longest) current rest
    else zeroSpan (i + 1) longest (0, 0) rest

/-- `Ipv6Addr::to_string`. -/
def Ipv6Addr.display (address : Ipv6Addr) : List Char :=
  let segments := address.segments.toList
  if segments.take 6 = [0, 0, 0, 0, 0, 0xffff] then
    let low := fun i => (segments.getD i 0).toNat
    "::ffff:".toList ++ Ipv4Addr.display
      ⟨.ofNat (low 6 / 256), .ofNat (low 6 % 256), .ofNat (low 7 / 256), .ofNat (low 7 % 256)⟩
  else
    let zeroes := zeroSpan 0 (0, 0) (0, 0) segments
    if zeroes.2 > 1 then
      fmtSubslice (segments.take zeroes.1) ++ "::".toList ++
        fmtSubslice (segments.drop (zeroes.1 + zeroes.2))
    else fmtSubslice segments

/-- `IpAddr::to_string`. -/
def IpAddr.display : IpAddr → List Char
  | .v4 address => address.display
  | .v6 address => address.display

/-! ## What a text that parses is made of -/

/-- The characters an address is written with. -/
def isAddressChar (c : Char) : Bool :=
  c = '.' || c = ':' || (toDigit 16 c).isSome

/-- The reader goes from `s` to `rest` over address characters only. -/
def Reads (s rest : List Char) : Prop :=
  ∃ used, s = used ++ rest ∧ ∀ c ∈ used, isAddressChar c = true

theorem Reads.refl (s : List Char) : Reads s s := ⟨[], rfl, by simp⟩

theorem Reads.trans {s t u : List Char} (h₁ : Reads s t) (h₂ : Reads t u) : Reads s u := by
  obtain ⟨used₁, rfl, hused₁⟩ := h₁
  obtain ⟨used₂, rfl, hused₂⟩ := h₂
  refine ⟨used₁ ++ used₂, by simp, ?_⟩
  intro c hc
  rw [List.mem_append] at hc
  exact hc.elim (hused₁ c) (hused₂ c)

theorem Reads.cons {c : Char} {s rest : List Char} (hc : isAddressChar c = true)
    (h : Reads s rest) : Reads (c :: s) rest :=
  have hhead : Reads (c :: s) s := ⟨[c], rfl, by simpa using hc⟩
  hhead.trans h

theorem readGivenChar_reads {target : Char} {s rest : List Char}
    (htarget : isAddressChar target = true) (h : readGivenChar target s = some rest) :
    Reads s rest := by
  cases s with
  | nil => simp [readGivenChar] at h
  | cons c s =>
    rw [readGivenChar] at h
    split at h
    · rename_i hc
      cases h
      subst hc
      exact (Reads.refl rest).cons htarget
    · simp at h

/-- A digit of a smaller radix is a hexadecimal digit. -/
theorem isAddressChar_of_toDigit {radix digit : Nat} {c : Char} (hradix : radix ≤ 16)
    (h : toDigit radix c = some digit) : isAddressChar c = true := by
  have hhex : toDigit 16 c = some digit := by
    simp only [toDigit, Option.filter_eq_some_iff, decide_eq_true_eq] at h ⊢
    exact ⟨h.1, by omega⟩
  simp [isAddressChar, hhex]

theorem readDigits_reads {radix room result value : Nat} {s rest : List Char}
    (hradix : radix ≤ 16) (h : readDigits radix room result s = some (value, rest)) :
    Reads s rest := by
  induction s generalizing room result with
  | nil =>
    simp only [readDigits, Option.some.injEq, Prod.mk.injEq] at h
    exact h.2 ▸ Reads.refl []
  | cons c s ih =>
    rw [readDigits] at h
    cases hdigit : toDigit radix c with
    | none =>
      simp only [hdigit, Option.some.injEq, Prod.mk.injEq] at h
      exact h.2 ▸ Reads.refl (c :: s)
    | some digit =>
      simp only [hdigit] at h
      split at h
      · simp at h
      · exact (ih h).cons (isAddressChar_of_toDigit hradix hdigit)

theorem readNumber_reads {radix maxDigits bound value : Nat} {allow : Bool} {s rest : List Char}
    (hradix : radix ≤ 16) (h : readNumber radix maxDigits allow bound s = some (value, rest)) :
    Reads s rest := by
  unfold readNumber at h
  cases hdigits : readDigits radix maxDigits 0 s with
  | none => simp [hdigits] at h
  | some found =>
    simp only [hdigits] at h
    split_ifs at h
    simp only [Option.some.injEq, Prod.mk.injEq] at h
    have hreads : Reads s found.2 := readDigits_reads hradix hdigits
    exact h.2 ▸ hreads

theorem readSeparator_reads {α : Type} {sep : Char} {index : Nat}
    {inner : List Char → Option (α × List Char)} {a : α} {s rest : List Char}
    (hsep : isAddressChar sep = true)
    (hinner : ∀ {t}, inner t = some (a, rest) → Reads t rest)
    (h : readSeparator sep index inner s = some (a, rest)) : Reads s rest := by
  unfold readSeparator at h
  split at h
  · obtain ⟨t, ht, hrest⟩ := Option.bind_eq_some_iff.mp h
    exact (readGivenChar_reads hsep ht).trans (hinner hrest)
  · exact hinner h

theorem readOctet_reads {index value : Nat} {s rest : List Char}
    (h : readOctet index s = some (value, rest)) : Reads s rest :=
  readSeparator_reads (by decide) (readNumber_reads (by decide)) h

theorem readIpv4Addr_reads {address : Ipv4Addr} {s rest : List Char}
    (h : readIpv4Addr s = some (address, rest)) : Reads s rest := by
  simp only [readIpv4Addr, Option.bind_eq_some_iff] at h
  obtain ⟨one, h₁, two, h₂, three, h₃, four, h₄, heq⟩ := h
  cases heq
  have hfirst : Reads s two.2 := (readOctet_reads h₁).trans (readOctet_reads h₂)
  have hlast : Reads two.2 four.2 := (readOctet_reads h₃).trans (readOctet_reads h₄)
  exact hfirst.trans hlast

theorem readGroups_reads (limit : Nat) :
    ∀ (left : Nat) (s : List Char), Reads s (readGroups limit left s).2.2
  | 0, s => Reads.refl s
  | left + 1, s => by
    rw [readGroups]
    split
    · rename_i found address rest hfound
      split_ifs at hfound
      exact readSeparator_reads (by decide) readIpv4Addr_reads hfound
    · split
      · rename_i group rest hgroup
        have hreads : Reads s rest :=
          readSeparator_reads (by decide) (readNumber_reads (by decide)) hgroup
        exact hreads.trans (readGroups_reads limit left rest)
      · exact Reads.refl s

theorem readIpv6Addr_reads {address : Ipv6Addr} {s rest : List Char}
    (h : readIpv6Addr s = some (address, rest)) : Reads s rest := by
  have hhead := readGroups_reads 8 8 s
  unfold readIpv6Addr at h
  simp only at h
  split_ifs at h
  · simp only [Option.some.injEq, Prod.mk.injEq] at h
    exact h.2 ▸ hhead
  · obtain ⟨t, ht, h⟩ := Option.bind_eq_some_iff.mp h
    obtain ⟨u, hu, h⟩ := Option.bind_eq_some_iff.mp h
    simp only [Option.some.injEq, Prod.mk.injEq] at h
    have hcolons : Reads s u :=
      (hhead.trans (readGivenChar_reads (by decide) ht)).trans
        (readGivenChar_reads (by decide) hu)
    exact h.2 ▸ hcolons.trans (readGroups_reads _ _ u)

theorem readIpAddr_reads {address : IpAddr} {s rest : List Char}
    (h : readIpAddr s = some (address, rest)) : Reads s rest := by
  simp only [readIpAddr, Option.or_eq_some_iff, Option.map_eq_some_iff] at h
  rcases h with ⟨found, hfound, heq⟩ | ⟨-, found, hfound, heq⟩
  · cases heq
    exact readIpv4Addr_reads hfound
  · cases heq
    exact readIpv6Addr_reads hfound

/-- An address is written with address characters only. -/
theorem isAddressChar_of_parse {s : List Char} {address : IpAddr}
    (h : parseIpAddr s = some address) : ∀ c ∈ s, isAddressChar c = true := by
  unfold parseIpAddr at h
  cases hread : readIpAddr s with
  | none => simp [hread] at h
  | some found =>
    simp only [hread] at h
    split at h
    · rename_i hend
      obtain ⟨used, hused, hchars⟩ := readIpAddr_reads hread
      rw [hend, List.append_nil] at hused
      exact hused ▸ hchars
    · simp at h

/-- The empty text is no address. -/
theorem ne_nil_of_parse {s : List Char} {address : IpAddr}
    (h : parseIpAddr s = some address) : s ≠ [] := by
  intro hs
  have hnone : parseIpAddr [] = none := by decide
  simp [hs, hnone] at h

example : (parseIpAddr "2001:db8::2".toList).map IpAddr.display = some "2001:db8::2".toList := by
  decide +kernel

end BikesNest.Net
