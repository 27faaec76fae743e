import BikesNest.Lib.IpAddr
import BikesNest.Domain.Text

/-!
# The client address

`resolveClientIp` is the rule of `client_ip.rs`: behind `hops` trusted proxies
the address of the client is the entry of `X-Forwarded-For` that many places
from the right, and the TCP peer where there is no such entry or it is no IP
address.  `fromRequestParts` hands it the header as the request has it, which is
the text of the *first* line of that name.

A request comes to the server along a route: each proxy in turn appends the
address of its own peer, on a line that is there or on a further one
(`Hop.forward`).  The result is `resolves_outermost_iff`, which says for which
routes and which kinds of client header the address resolved is the one that the
outermost proxy appended, whatever the client wrote.
-/

namespace BikesNest.Web

open Net

/-! ## Header values -/

/-- The bytes that `http::HeaderValue` takes. -/
def isHeaderByte (b : UInt8) : Bool := (32 ≤ b && b ≠ 127) || b = 9

/-- The bytes that `HeaderValue::to_str` reads. -/
def isVisibleAscii (b : UInt8) : Bool := (32 ≤ b && b < 127) || b = 9

/-- `http::HeaderValue`: the value of one header line. -/
structure HeaderValue where
  bytes : List UInt8
  valid : ∀ b ∈ bytes, isHeaderByte b = true

/-- `HeaderValue::to_str(..).ok()`. -/
def HeaderValue.toStr (value : HeaderValue) : Option (List Char) :=
  if value.bytes.all isVisibleAscii then
    some (value.bytes.map fun b => Char.ofNat b.toNat)
  else none

/-! ## The rule -/

/-- `UNKNOWN_PEER`. -/
def unknownPeer : List Char := "test-peer".toList

/-- The entries of a forwarded header. -/
def entries (xff : List Char) : List (List Char) :=
  ((xff.splitOn ',').map Text.trimChars).filter fun s => !s.isEmpty

/-- `resolve_client_ip`. -/
def resolveClientIp (peer : Option IpAddr) (xff : Option (List Char)) (hops : UInt8) :
    List Char :=
  let peerIp := (peer.map IpAddr.display).getD unknownPeer
  if hops = 0 then peerIp
  else
    match xff with
    | none => peerIp
    | some xff =>
      let entries := entries xff
      -- `checked_sub`
      if entries.length < hops.toNat then peerIp
      else
        match entries[entries.length - hops.toNat]? with
        | some candidate => if (parseIpAddr candidate).isSome then candidate else peerIp
        | none => peerIp

/-- What the extractor reads of a request: the address in `ConnectInfo` and the
lines of `X-Forwarded-For`, in the order in which they came. -/
structure Parts where
  peer : Option IpAddr
  forwardedFor : List HeaderValue

/-- `ClientIp::from_request_parts`.  `HeaderMap::get` answers the first line. -/
def fromRequestParts (parts : Parts) (trustedProxyHops : UInt8) : List Char :=
  resolveClientIp parts.peer (parts.forwardedFor.head?.bind HeaderValue.toStr) trustedProxyHops

/-! ## Routes -/

/-- An IP address as a proxy writes it. -/
structure AddressText where
  chars : List Char
  address : IpAddr
  parses : parseIpAddr chars = some address

/-- The bytes of an ASCII text. -/
def asciiBytes (s : List Char) : List UInt8 := s.map fun c => UInt8.ofNat c.toNat

theorem toNat_le_of_isAddressChar {c : Char} (h : isAddressChar c = true) :
    33 ≤ c.toNat ∧ c.toNat ≤ 122 ∧ c ≠ ',' := by
  simp only [isAddressChar, Bool.or_eq_true, decide_eq_true_eq] at h
  rcases h with (rfl | rfl) | hdigit
  · decide
  · decide
  · have hrange : 48 ≤ c.toNat ∧ c.toNat ≤ 122 := by
      obtain ⟨digit, hdigit⟩ := Option.isSome_iff_exists.mp hdigit
      simp only [toDigit, Option.filter_eq_some_iff] at hdigit
      split_ifs at hdigit <;> simp at hdigit <;> omega
    refine ⟨by omega, hrange.2, ?_⟩
    rintro rfl
    exact absurd hrange.1 (by decide)

theorem isVisibleAscii_ofNat {n : Nat} (h₁ : 32 ≤ n) (h₂ : n ≤ 126) :
    isVisibleAscii (UInt8.ofNat n) = true := by
  have hn : (UInt8.ofNat n).toNat = n := by simp; omega
  simp only [isVisibleAscii, Bool.or_eq_true, Bool.and_eq_true, decide_eq_true_eq,
    UInt8.le_iff_toNat_le, UInt8.lt_iff_toNat_lt, hn]
  exact Or.inl ⟨h₁, Nat.lt_succ_of_le h₂⟩

theorem isHeaderByte_of_isVisibleAscii {b : UInt8} (h : isVisibleAscii b = true) :
    isHeaderByte b = true := by
  simp only [isVisibleAscii, isHeaderByte, Bool.or_eq_true, Bool.and_eq_true,
    decide_eq_true_eq] at h ⊢
  refine h.imp (fun h => ⟨h.1, ?_⟩) id
  rintro rfl
  exact absurd h.2 (by decide)

theorem isVisibleAscii_asciiBytes {s : List Char} (h : ∀ c ∈ s, isAddressChar c = true) :
    ∀ b ∈ asciiBytes s, isVisibleAscii b = true := by
  intro b hb
  obtain ⟨c, hc, rfl⟩ := List.mem_map.mp hb
  have hrange := toNat_le_of_isAddressChar (h c hc)
  exact isVisibleAscii_ofNat (by omega) (by omega)

theorem AddressText.isAddressChar (a : AddressText) :
    ∀ c ∈ a.chars, Net.isAddressChar c = true :=
  isAddressChar_of_parse a.parses

theorem AddressText.isVisibleAscii (a : AddressText) :
    ∀ b ∈ asciiBytes a.chars, Web.isVisibleAscii b = true :=
  isVisibleAscii_asciiBytes a.isAddressChar

/-- A line of its own for an address. -/
def AddressText.line (a : AddressText) : HeaderValue where
  bytes := asciiBytes a.chars
  valid b hb := isHeaderByte_of_isVisibleAscii (a.isVisibleAscii b hb)

theorem isHeaderByte_separator : ∀ b ∈ asciiBytes ", ".toList, isHeaderByte b = true :=
  List.all_eq_true.mp (by decide)

/-- A line with an address appended. -/
def HeaderValue.extend (value : HeaderValue) (a : AddressText) : HeaderValue where
  bytes := value.bytes ++ (asciiBytes ", ".toList ++ a.line.bytes)
  valid := by
    intro b hb
    rw [List.mem_append, List.mem_append] at hb
    rcases hb with hb | hb | hb
    · exact value.valid b hb
    · exact isHeaderByte_separator b hb
    · exact a.line.valid b hb

/-- Where a proxy writes the address: on a line that is there, or on a further
one. -/
inductive Placement where
  | existing (line : Nat)
  | further

/-- A trusted proxy on the way to the server: the address of its peer and where it
puts it. -/
structure Hop where
  placement : Placement
  address : AddressText

/-- The line on which the address comes to stand when the request has `lines`
lines.  Where the line to be extended is not there, it is a further one. -/
def Hop.landing (hop : Hop) (lines : Nat) : Nat :=
  match hop.placement with
  | .existing line => min line lines
  | .further => lines

/-- The lines that leave the proxy. -/
def Hop.forward (hop : Hop) (lines : List HeaderValue) : List HeaderValue :=
  if hop.landing lines.length < lines.length then
    lines.modify (hop.landing lines.length) (·.extend hop.address)
  else lines ++ [hop.address.line]

/-- The lines that come to the server, along the route from the outermost proxy
to the innermost. -/
def deliver (route : List Hop) (lines : List HeaderValue) : List HeaderValue :=
  route.foldl (fun lines hop => hop.forward lines) lines

/-- The lines on which the addresses of a route come to stand. -/
def landings : Nat → List Hop → List Nat
  | _, [] => []
  | lines, hop :: route =>
    hop.landing lines :: landings (max lines (hop.landing lines + 1)) route

/-- Every proxy puts its address on the first line. -/
def AllOnFirst (lines : Nat) (route : List Hop) : Prop := ∀ line ∈ landings lines route, line = 0

instance (lines : Nat) (route : List Hop) : Decidable (AllOnFirst lines route) :=
  inferInstanceAs (Decidable (∀ line ∈ landings lines route, line = 0))

/-- What can be said of a client's own header without its content: that there is
none, or how many lines follow the first and whether the first can be read. -/
inductive Shape where
  | silent
  | sends (legible : Bool) (more : Nat)
  deriving DecidableEq

/-- The number of lines. -/
def Shape.lines : Shape → Nat
  | .silent => 0
  | .sends _ more => more + 1

/-- Nothing that the client sends keeps the first line from being read. -/
def Shape.legible : Shape → Bool
  | .silent => true
  | .sends legible _ => legible

/-- The client's lines have the shape. -/
def Shape.Admits (shape : Shape) (client : List HeaderValue) : Prop :=
  client.length = shape.lines ∧
    ∀ first ∈ client.head?, first.toStr.isSome = shape.legible

/-! ## The first line -/

/-- The addresses that come to stand on the first line. -/
def onFirst : Nat → List Hop → List AddressText
  | _, [] => []
  | lines, hop :: route =>
    let later := onFirst (max lines (hop.landing lines + 1)) route
    if hop.landing lines = 0 then hop.address :: later else later

theorem onFirst_length_le (lines : Nat) (route : List Hop) :
    (onFirst lines route).length ≤ route.length := by
  induction route generalizing lines with
  | nil => simp [onFirst]
  | cons hop route ih =>
    have hlater := ih (max lines (hop.landing lines + 1))
    rw [onFirst]
    split
    · simp only [List.length_cons]
      omega
    · simp only [List.length_cons]
      omega

theorem onFirst_of_allOnFirst {lines : Nat} {route : List Hop} (h : AllOnFirst lines route) :
    onFirst lines route = route.map Hop.address := by
  induction route generalizing lines with
  | nil => rfl
  | cons hop route ih =>
    simp only [AllOnFirst, landings, List.mem_cons, forall_eq_or_imp] at h
    rw [onFirst, if_pos h.1, ih h.2, List.map_cons]

theorem onFirst_length_lt {lines : Nat} {route : List Hop} (h : ¬ AllOnFirst lines route) :
    (onFirst lines route).length < route.length := by
  induction route generalizing lines with
  | nil => simp [AllOnFirst, landings] at h
  | cons hop route ih =>
    simp only [AllOnFirst, landings, List.mem_cons, forall_eq_or_imp, not_and] at h
    rw [onFirst]
    split
    · rename_i hzero
      have hlater := ih (h hzero)
      simp only [List.length_cons]
      omega
    · have hlater := onFirst_length_le (max lines (hop.landing lines + 1)) route
      simp only [List.length_cons]
      omega

/-- What one proxy does to the first line of a request that has one. -/
theorem forward_cons (hop : Hop) (first : HeaderValue) (rest : List HeaderValue) :
    ∃ rest', hop.forward (first :: rest) =
        (if hop.landing (rest.length + 1) = 0 then first.extend hop.address else first) :: rest' ∧
      rest'.length + 1 = max (rest.length + 1) (hop.landing (rest.length + 1) + 1) := by
  unfold Hop.forward
  rw [List.length_cons]
  cases hlanding : hop.landing (rest.length + 1) with
  | zero => exact ⟨rest, by simp, by omega⟩
  | succ line =>
    split
    · rename_i hlt
      refine ⟨rest.modify line (·.extend hop.address), by simp, ?_⟩
      rw [List.length_modify]
      omega
    · rename_i hlt
      have hle : hop.landing (rest.length + 1) ≤ rest.length + 1 := by
        unfold Hop.landing
        split <;> omega
      refine ⟨rest ++ [hop.address.line], by simp, ?_⟩
      rw [List.length_append, List.length_singleton]
      omega

theorem head_deliver (route : List Hop) (first : HeaderValue) (rest : List HeaderValue) :
    (deliver route (first :: rest)).head? =
      some ((onFirst (rest.length + 1) route).foldl HeaderValue.extend first) := by
  induction route generalizing first rest with
  | nil => rfl
  | cons hop route ih =>
    obtain ⟨rest', hforward, hlength⟩ := forward_cons hop first rest
    show (deliver route (hop.forward (first :: rest))).head? = _
    rw [hforward, ih, hlength, onFirst]
    split <;> rfl

/-! ## What is read on it -/

/-- The text that the addresses add to a line. -/
def appended (addresses : List AddressText) : List Char :=
  addresses.flatMap fun a => ',' :: ' ' :: a.chars

theorem map_asciiBytes {s : List Char} (h : ∀ c ∈ s, c.toNat < 256) :
    (asciiBytes s).map (fun b => Char.ofNat b.toNat) = s := by
  rw [asciiBytes, List.map_map]
  conv_rhs => rw [← List.map_id s]
  apply List.map_congr_left
  intro c hc
  have hlt := h c hc
  have hbyte : (UInt8.ofNat c.toNat).toNat = c.toNat := by simp; omega
  simp only [Function.comp_apply, hbyte, id_eq, Char.ofNat_toNat]

theorem AddressText.toStr_line (a : AddressText) : a.line.toStr = some a.chars := by
  have hvisible : a.line.bytes.all Web.isVisibleAscii = true :=
    List.all_eq_true.mpr a.isVisibleAscii
  rw [HeaderValue.toStr, if_pos hvisible]
  show some ((asciiBytes a.chars).map _) = _
  rw [map_asciiBytes]
  intro c hc
  have := toNat_le_of_isAddressChar (a.isAddressChar c hc)
  omega

theorem toStr_extend (value : HeaderValue) (a : AddressText) :
    (value.extend a).toStr = value.toStr.map (· ++ (',' :: ' ' :: a.chars)) := by
  have hvisible : a.line.bytes.all isVisibleAscii = true :=
    List.all_eq_true.mpr a.isVisibleAscii
  have htail : (asciiBytes ", ".toList ++ a.line.bytes).all isVisibleAscii = true := by
    rw [List.all_append, hvisible, Bool.and_true]
    decide
  have hline : a.line.bytes.map (fun b => Char.ofNat b.toNat) = a.chars := by
    have h := a.toStr_line
    rw [HeaderValue.toStr, if_pos hvisible] at h
    exact Option.some.inj h
  unfold HeaderValue.toStr
  show (if (value.bytes ++ (asciiBytes ", ".toList ++ a.line.bytes)).all isVisibleAscii = true
    then some ((value.bytes ++ (asciiBytes ", ".toList ++ a.line.bytes)).map _) else none) = _
  rw [List.all_append, htail, Bool.and_true]
  split
  · rw [List.map_append, List.map_append, hline]
    rfl
  · rfl

theorem toStr_foldl_extend (addresses : List AddressText) (value : HeaderValue) :
    (addresses.foldl HeaderValue.extend value).toStr =
      value.toStr.map (· ++ appended addresses) := by
  induction addresses generalizing value with
  | nil => simp [appended]
  | cons a addresses ih =>
    rw [List.foldl_cons, ih, toStr_extend, Option.map_map]
    congr 1
    funext text
    simp [appended]

/-! ## The entries -/

theorem not_isWhitespace {c : Char} (h : isAddressChar c = true) :
    Text.isWhitespace c = false := by
  have hrange := toNat_le_of_isAddressChar h
  simp only [Text.isWhitespace, Bool.or_eq_false_iff, Bool.and_eq_false_iff,
    decide_eq_false_iff_not, beq_eq_false_iff_ne]
  omega

/-- Nothing is trimmed from an address. -/
theorem AddressText.trim (a : AddressText) : Text.trimChars a.chars = a.chars := by
  have hno : ∀ c ∈ a.chars, ¬ Text.isWhitespace c = true := by
    intro c hc
    simp [not_isWhitespace (a.isAddressChar c hc)]
  have hdrop : a.chars.dropWhile Text.isWhitespace = a.chars := by
    rw [List.dropWhile_eq_self_iff]
    intro hpos
    exact hno _ (List.getElem_mem hpos)
  rw [Text.trimChars, hdrop, List.rdropWhile_eq_self_iff]
  intro hne
  exact hno _ (List.getLast_mem hne)

theorem entries_append (text : List Char) (a : AddressText) :
    entries (text ++ (',' :: ' ' :: a.chars)) = entries text ++ [a.chars] := by
  have hcomma : ',' ∉ ' ' :: a.chars := by
    rw [List.mem_cons, not_or]
    refine ⟨by decide, fun hmem => ?_⟩
    exact (toNat_le_of_isAddressChar (a.isAddressChar _ hmem)).2.2 rfl
  have htrim : Text.trimChars (' ' :: a.chars) = a.chars := by
    have hblank : Text.isWhitespace ' ' = true := by decide
    rw [Text.trimChars, List.dropWhile_cons_of_pos hblank]
    exact a.trim
  have hne : a.chars.isEmpty = false := by
    rw [List.isEmpty_eq_false_iff]
    exact ne_nil_of_parse a.parses
  unfold entries
  rw [List.splitOn_append_cons_self, List.splitOn_eq_singleton hcomma, List.map_append,
    List.filter_append]
  simp [htrim, hne]

theorem entries_appended (addresses : List AddressText) (text : List Char) :
    entries (text ++ appended addresses) = entries text ++ addresses.map AddressText.chars := by
  induction addresses generalizing text with
  | nil => simp [appended]
  | cons a addresses ih =>
    have hsplit : text ++ appended (a :: addresses) =
        (text ++ (',' :: ' ' :: a.chars)) ++ appended addresses := by simp [appended]
    rw [hsplit, ih, entries_append, List.map_cons, List.append_assoc, List.singleton_append]

theorem entries_address (a : AddressText) : entries a.chars = [a.chars] := by
  have hcomma : ',' ∉ a.chars := fun hmem =>
    (toNat_le_of_isAddressChar (a.isAddressChar _ hmem)).2.2 rfl
  have hne : a.chars.isEmpty = false := by
    rw [List.isEmpty_eq_false_iff]
    exact ne_nil_of_parse a.parses
  rw [entries, List.splitOn_eq_singleton hcomma]
  simp [a.trim, hne]

/-! ## What is resolved -/

/-- The peer address as `resolve_client_ip` answers it. -/
def peerIp (peer : Option IpAddr) : List Char := (peer.map IpAddr.display).getD unknownPeer

/-- The stand-in for a peer is no address. -/
theorem peerIp_eq_iff (peer : Option IpAddr) (a : AddressText) :
    peerIp peer = a.chars ↔ peer.map IpAddr.display = some a.chars := by
  cases peer with
  | some peer => simp [peerIp]
  | none =>
    have hne : unknownPeer ≠ a.chars := by
      intro h
      have ht : Net.isAddressChar 't' = true := a.isAddressChar 't' (h ▸ by decide)
      exact absurd ht (by decide)
    simp [peerIp, hne]

/-- With `hops` entries after them, the others do not count. -/
theorem resolveClientIp_of_entries {xff : List Char} {hops : UInt8} {before : List (List Char)}
    {a : AddressText} {after : List (List Char)} (peer : Option IpAddr)
    (hentries : entries xff = before ++ a.chars :: after)
    (hhops : hops.toNat = after.length + 1) :
    resolveClientIp peer (some xff) hops = a.chars := by
  have hpos : hops ≠ 0 := by
    rintro rfl
    simp at hhops
  have hlength : (entries xff).length = before.length + hops.toNat := by
    rw [hentries, List.length_append, List.length_cons, hhops]
  have hcandidate : (entries xff)[(entries xff).length - hops.toNat]? = some a.chars := by
    have hindex : (entries xff).length - hops.toNat = before.length := by omega
    rw [hindex, hentries, List.getElem?_append_right (Nat.le_refl _), Nat.sub_self]
    rfl
  simp only [resolveClientIp, if_neg hpos]
  rw [if_neg (by omega), hcandidate]
  simp only [a.parses, Option.isSome_some, if_true]

/-- A chain that is too short. -/
theorem resolveClientIp_of_short {xff : List Char} {hops : UInt8} (peer : Option IpAddr)
    (h : (entries xff).length < hops.toNat) :
    resolveClientIp peer (some xff) hops = peerIp peer := by
  simp only [resolveClientIp, if_pos h, ite_self]
  rfl

/-- A header that cannot be read. -/
theorem resolveClientIp_none (peer : Option IpAddr) (hops : UInt8) :
    resolveClientIp peer none hops = peerIp peer := by
  simp only [resolveClientIp, ite_self]
  rfl

/-- What the server resolves for a request that left the client with a header. -/
theorem fromRequestParts_cons (peer : Option IpAddr) (route : List Hop) (first : HeaderValue)
    (rest : List HeaderValue) (hops : UInt8) :
    fromRequestParts ⟨peer, deliver route (first :: rest)⟩ hops =
      resolveClientIp peer
        (first.toStr.map (· ++ appended (onFirst (rest.length + 1) route))) hops := by
  rw [fromRequestParts, head_deliver, Option.bind_some, toStr_foldl_extend]

/-- A client without a header: the outermost proxy starts the first line. -/
theorem deliver_nil (outermost : Hop) (inner : List Hop) :
    deliver (outermost :: inner) [] = deliver inner [outermost.address.line] := by
  have hlanding : outermost.landing 0 = 0 := by
    unfold Hop.landing
    split <;> omega
  show deliver inner (outermost.forward []) = _
  rw [Hop.forward, List.length_nil, hlanding, if_neg (Nat.lt_irrefl 0), List.nil_append]

theorem allOnFirst_silent (outermost : Hop) (inner : List Hop) :
    AllOnFirst 0 (outermost :: inner) ↔ AllOnFirst 1 inner := by
  have hlanding : outermost.landing 0 = 0 := by
    unfold Hop.landing
    split <;> omega
  simp [AllOnFirst, landings, hlanding]

/-- Without a header of the client's. -/
theorem fromRequestParts_silent (peer : Option IpAddr) (outermost : Hop) (inner : List Hop)
    {hops : UInt8} (hhops : hops.toNat = inner.length + 1) :
    fromRequestParts ⟨peer, deliver (outermost :: inner) []⟩ hops =
      if AllOnFirst 1 inner then outermost.address.chars else peerIp peer := by
  rw [deliver_nil, fromRequestParts_cons, AddressText.toStr_line, Option.map_some]
  have hentries : entries (outermost.address.chars ++ appended (onFirst 1 inner)) =
      [] ++ outermost.address.chars :: (onFirst 1 inner).map AddressText.chars := by
    rw [entries_appended, entries_address, List.singleton_append, List.nil_append]
  split
  · rename_i hall
    apply resolveClientIp_of_entries peer hentries
    rw [onFirst_of_allOnFirst hall]
    simp [hhops]
  · rename_i hall
    have hlt := onFirst_length_lt hall
    apply resolveClientIp_of_short
    rw [List.length_nil, Nat.zero_add, hentries, List.nil_append, List.length_cons,
      List.length_map]
    omega

/-- With every address on the first line, what can be read before them does not
count. -/
theorem fromRequestParts_allOnFirst (peer : Option IpAddr) {outermost : Hop}
    {inner : List Hop} {hops : UInt8} (hhops : hops.toNat = inner.length + 1)
    {first : HeaderValue} {rest : List HeaderValue} (hlegible : first.toStr.isSome = true)
    (hall : AllOnFirst (rest.length + 1) (outermost :: inner)) :
    fromRequestParts ⟨peer, deliver (outermost :: inner) (first :: rest)⟩ hops =
      outermost.address.chars := by
  obtain ⟨text, htext⟩ := Option.isSome_iff_exists.mp hlegible
  rw [fromRequestParts_cons, htext, Option.map_some, onFirst_of_allOnFirst hall]
  have hentries := entries_appended ((outermost :: inner).map Hop.address) text
  apply resolveClientIp_of_entries peer hentries
  simp [hhops]

/-! ## What a client can write -/

/-- `192.0.2.1`. -/
def documentationOne : AddressText where
  chars := "192.0.2.1".toList
  address := .v4 ⟨192, 0, 2, 1⟩
  parses := by decide +kernel

/-- `192.0.2.2`. -/
def documentationTwo : AddressText where
  chars := "192.0.2.2".toList
  address := .v4 ⟨192, 0, 2, 2⟩
  parses := by decide +kernel

theorem exists_ne_address (a : AddressText) : ∃ forged : AddressText, forged.chars ≠ a.chars := by
  by_cases h : documentationOne.chars = a.chars
  · refine ⟨documentationTwo, fun htwo => ?_⟩
    exact absurd (htwo.trans h.symm) (by decide)
  · exact ⟨documentationOne, h⟩

/-- A line with `count + 1` copies of an address. -/
def forgedLine (forged : AddressText) (count : Nat) : HeaderValue :=
  (List.replicate count forged).foldl HeaderValue.extend forged.line

theorem toStr_forgedLine (forged : AddressText) (count : Nat) :
    (forgedLine forged count).toStr =
      some (forged.chars ++ appended (List.replicate count forged)) := by
  rw [forgedLine, toStr_foldl_extend, AddressText.toStr_line, Option.map_some]

/-- The header of a client that knows how many addresses will be missing from the
first line. -/
def forgedClient (forged : AddressText) (route : List Hop) (more : Nat) : List HeaderValue :=
  forgedLine forged (route.length - (onFirst (more + 1) route).length - 1) ::
    List.replicate more forged.line

theorem admits_forgedClient (forged : AddressText) (route : List Hop) (more : Nat) :
    (Shape.sends true more).Admits (forgedClient forged route more) := by
  constructor
  · simp [forgedClient, Shape.lines]
  · simp [forgedClient, Shape.legible, toStr_forgedLine]

/-- Where an address is missing from the first line, the client fills its place. -/
theorem fromRequestParts_forged (peer : Option IpAddr) {route : List Hop} {hops : UInt8}
    (hhops : hops.toNat = route.length) (forged : AddressText) (more : Nat)
    (hall : ¬ AllOnFirst (more + 1) route) :
    fromRequestParts ⟨peer, deliver route (forgedClient forged route more)⟩ hops =
      forged.chars := by
  have hlt := onFirst_length_lt hall
  rw [forgedClient, fromRequestParts_cons, toStr_forgedLine, Option.map_some,
    List.length_replicate]
  generalize hcount : route.length - (onFirst (more + 1) route).length - 1 = count
  have hentries : entries (forged.chars ++ appended (List.replicate count forged) ++
        appended (onFirst (more + 1) route)) =
      [] ++ forged.chars :: ((List.replicate count forged).map AddressText.chars ++
        (onFirst (more + 1) route).map AddressText.chars) := by
    rw [entries_appended, entries_appended, entries_address, List.nil_append,
      List.singleton_append, List.cons_append]
  apply resolveClientIp_of_entries peer hentries
  simp only [List.length_append, List.length_map, List.length_replicate]
  omega

/-- A line that `to_str` refuses. -/
def illegibleLine : HeaderValue where
  bytes := [0x80]
  valid := List.all_eq_true.mp (by decide)

/-- The address resolved is the one that the outermost proxy appended, whatever
the client writes in its header, exactly where every proxy appends on the first
line and that can be read, or where the server falls back on its peer and the
two addresses are one. -/
theorem resolves_outermost_iff (peer : Option IpAddr) (outermost : Hop) (inner : List Hop)
    (hops : UInt8) (hhops : hops.toNat = inner.length + 1) (shape : Shape) :
    (∀ client : List HeaderValue, shape.Admits client →
      fromRequestParts ⟨peer, deliver (outermost :: inner) client⟩ hops =
        outermost.address.chars) ↔
    (shape.legible = true ∧ AllOnFirst shape.lines (outermost :: inner)) ∨
      (peer.map IpAddr.display = some outermost.address.chars ∧
        (shape = .silent ∨ shape.legible = false)) := by
  rw [← peerIp_eq_iff]
  cases shape with
  | silent =>
    have hclient : ∀ client, Shape.silent.Admits client ↔ client = [] := by
      intro client
      constructor
      · intro h
        exact List.eq_nil_of_length_eq_zero h.1
      · rintro rfl
        exact ⟨rfl, by simp⟩
    simp only [hclient, forall_eq, fromRequestParts_silent peer outermost inner hhops,
      Shape.lines, Shape.legible, allOnFirst_silent, true_and, true_or, and_true]
    split <;> simp_all
  | sends legible more =>
    simp only [Shape.lines, Shape.legible, reduceCtorEq, false_or]
    constructor
    · intro h
      cases legible with
      | false =>
        have hresolved := h (illegibleLine :: List.replicate more illegibleLine)
          ⟨by simp [Shape.lines], by simp [Shape.legible]; decide⟩
        have hnone : illegibleLine.toStr = none := by decide
        rw [fromRequestParts_cons, hnone, Option.map_none, resolveClientIp_none] at hresolved
        exact Or.inr ⟨hresolved, rfl⟩
      | true =>
        refine Or.inl ⟨rfl, ?_⟩
        by_contra hall
        obtain ⟨forged, hforged⟩ := exists_ne_address outermost.address
        have hresolved := h _ (admits_forgedClient forged (outermost :: inner) more)
        exact hforged ((fromRequestParts_forged peer hhops forged more hall).symm.trans hresolved)
    · intro h client hadmits
      obtain ⟨first, rest, rfl⟩ := List.exists_cons_of_length_eq_add_one hadmits.1
      have hrest : rest.length = more := Nat.succ.inj hadmits.1
      have hfirst : first.toStr.isSome = legible := hadmits.2 first rfl
      subst hrest
      rcases h with ⟨hlegible, hall⟩ | ⟨hpeer, hlegible⟩
      · exact fromRequestParts_allOnFirst peer hhops (hfirst.trans hlegible) hall
      · have hnone : first.toStr = none := by
          rw [hlegible, Option.isSome_eq_false_iff, Option.isNone_iff_eq_none] at hfirst
          exact hfirst
        rw [fromRequestParts_cons, hnone, Option.map_none, resolveClientIp_none, hpeer]

/-- One proxy that extends the line of a client behind it. -/
theorem resolves_outermost_extended :
    (1 : UInt8).toNat = ([] : List Hop).length + 1 ∧
      ∀ client : List HeaderValue, (Shape.sends true 0).Admits client →
        fromRequestParts ⟨some (.v4 ⟨10, 0, 0, 1⟩),
          deliver [⟨.existing 0, documentationTwo⟩] client⟩ 1 = documentationTwo.chars :=
  ⟨rfl, (resolves_outermost_iff (some (.v4 ⟨10, 0, 0, 1⟩)) ⟨.existing 0, documentationTwo⟩ [] 1
    rfl (.sends true 0)).mpr (Or.inl ⟨rfl, by decide⟩)⟩

/-- One proxy that adds a line of its own: the server reads the client's. -/
theorem resolves_forged_further :
    fromRequestParts ⟨some (.v4 ⟨10, 0, 0, 1⟩),
        deliver [⟨.further, documentationTwo⟩] [documentationOne.line]⟩ 1 =
      documentationOne.chars ∧
    documentationOne.chars ≠ documentationTwo.chars := by
  decide +kernel

end BikesNest.Web
