import Mathlib.Data.List.Basic

/-!
# The text of JSON values

A writer of compact JSON and a reader of JSON.  How the writer puts a character into a
string is a table, since several tables are in use for different places, and how numbers are
written and read is left to the program.

`parse_write` says that the reader gives back the value that was written, whatever the table,
as long as each entry reads as its character.  `write_flatMap` and `forall_mem_write` are for
texts that are escaped once more after they were written.
-/

namespace JsonText

-- Facts about the characters of a text are decided along the text, not over all characters.
attribute [local instance (high)] List.decidableBAll

/-- A JSON value with numbers of a type. -/
inductive Value (ν : Type) where
  | null
  | bool (b : Bool)
  | num (n : ν)
  | str (s : List Char)
  | arr (items : List (Value ν))
  | obj (fields : List (List Char × Value ν))

/-- How numbers are written and read. -/
structure Numbers (ν : Type) where
  write : ν → List Char
  read : List Char → Option ν

/-! ## Writing -/

section Writer

variable {ν : Type} (N : Numbers ν) (esc : Char → List Char)

/-- A string in its quotes. -/
def quote (s : List Char) : List Char := '"' :: (s.flatMap esc ++ ['"'])

mutual

/-- The text of a value. -/
def write : Value ν → List Char
  | .null => "null".toList
  | .bool true => "true".toList
  | .bool false => "false".toList
  | .num n => N.write n
  | .str s => quote esc s
  | .arr [] => ['[', ']']
  | .arr (v :: items) => '[' :: (write v ++ writeMore items)
  | .obj [] => ['{', '}']
  | .obj ((k, v) :: fields) => '{' :: (quote esc k ++ ':' :: (write v ++ writeMoreFields fields))

/-- The items behind the first one, and the end of the array. -/
def writeMore : List (Value ν) → List Char
  | [] => [']']
  | v :: items => ',' :: (write v ++ writeMore items)

/-- The fields behind the first one, and the end of the object. -/
def writeMoreFields : List (List Char × Value ν) → List Char
  | [] => ['}']
  | (k, v) :: fields => ',' :: (quote esc k ++ ':' :: (write v ++ writeMoreFields fields))

end

end Writer

/-! ## Reading -/

/-- White space between tokens. -/
def isBlank (c : Char) : Bool := c = ' ' || c = '\t' || c = '\n' || c = '\r'

def skipBlanks (s : List Char) : List Char := s.dropWhile isBlank

/-- The value of a hexadecimal digit. -/
def hexValue (c : Char) : Option Nat :=
  if '0'.toNat ≤ c.toNat ∧ c.toNat ≤ '9'.toNat then some (c.toNat - 48)
  else if 'a'.toNat ≤ c.toNat ∧ c.toNat ≤ 'f'.toNat then some (c.toNat - 87)
  else if 'A'.toNat ≤ c.toNat ∧ c.toNat ≤ 'F'.toNat then some (c.toNat - 55)
  else none

/-- Four hexadecimal digits. -/
def readUnit : List Char → Option (Nat × List Char)
  | a :: b :: c :: d :: rest => do
    let a ← hexValue a
    let b ← hexValue b
    let c ← hexValue c
    let d ← hexValue d
    return (((a * 16 + b) * 16 + c) * 16 + d, rest)
  | _ => none

/-- The character of a code unit, or of a pair of them. -/
def readCodePoint (s : List Char) : Option (Char × List Char) := do
  let (unit, rest) ← readUnit s
  if 0xD800 ≤ unit ∧ unit < 0xDC00 then
    match rest with
    | '\\' :: 'u' :: rest => do
      let (low, rest) ← readUnit rest
      if 0xDC00 ≤ low ∧ low < 0xE000 then
        return (Char.ofNat (0x10000 + (unit - 0xD800) * 0x400 + (low - 0xDC00)), rest)
      else none
    | _ => none
  else if 0xDC00 ≤ unit ∧ unit < 0xE000 then none
  else return (Char.ofNat unit, rest)

/-- The character at the front of what is left of a string. -/
def readChar : List Char → Option (Char × List Char)
  | [] => none
  | '"' :: _ => none
  | '\\' :: 'u' :: rest => readCodePoint rest
  | '\\' :: 'b' :: rest => some (Char.ofNat 8, rest)
  | '\\' :: 't' :: rest => some ('\t', rest)
  | '\\' :: 'n' :: rest => some ('\n', rest)
  | '\\' :: 'f' :: rest => some (Char.ofNat 12, rest)
  | '\\' :: 'r' :: rest => some ('\r', rest)
  | '\\' :: c :: rest => if c = '"' ∨ c = '\\' ∨ c = '/' then some (c, rest) else none
  | '\\' :: [] => none
  | c :: rest => if c.toNat < 0x20 then none else some (c, rest)

/-- What is left of a string up to its quote.  Each character uses up one of the text. -/
def readStringIn : Nat → List Char → Option (List Char × List Char)
  | 0, _ => none
  | steps + 1, s =>
    if s.head? = some '"' then some ([], s.tail)
    else
      match readChar s with
      | none => none
      | some (c, rest) => (readStringIn steps rest).map fun p => (c :: p.1, p.2)

def readString (s : List Char) : Option (List Char × List Char) := readStringIn (s.length + 1) s

/-- What is behind a token. -/
def expect (token : Char) (s : List Char) : Option (List Char) :=
  match skipBlanks s with
  | [] => none
  | c :: rest => if c = token then some rest else none

/-- A key and its colon. -/
def readKey (s : List Char) : Option (List Char × List Char) := do
  let rest ← expect '"' s
  let (key, rest) ← readString rest
  let rest ← expect ':' rest
  return (key, rest)

/-- Is the character part of a number? -/
def isNumberChar (c : Char) : Bool :=
  c.isDigit || c = '-' || c = '+' || c = '.' || c = 'e' || c = 'E'

section Reader

variable {ν : Type} (N : Numbers ν)

/-- A value that is one word. -/
def readWord (s : List Char) : Option (Value ν × List Char) :=
  if "null".toList.isPrefixOf s then some (.null, s.drop 4)
  else if "true".toList.isPrefixOf s then some (.bool true, s.drop 4)
  else if "false".toList.isPrefixOf s then some (.bool false, s.drop 5)
  else (N.read (s.takeWhile isNumberChar)).map fun n => (.num n, s.dropWhile isNumberChar)

mutual

/-- The value at the front.  Each token uses up a step. -/
def readValue : Nat → List Char → Option (Value ν × List Char)
  | 0, _ => none
  | steps + 1, s =>
    match skipBlanks s with
    | [] => none
    | c :: rest =>
      if c = '"' then (readString rest).map fun p => (.str p.1, p.2)
      else if c = '[' then
        match expect ']' rest with
        | some rest => some (.arr [], rest)
        | none => do
          let (v, rest) ← readValue steps rest
          let (items, rest) ← readMore steps rest
          return (.arr (v :: items), rest)
      else if c = '{' then
        match expect '}' rest with
        | some rest => some (.obj [], rest)
        | none => do
          let (k, rest) ← readKey rest
          let (v, rest) ← readValue steps rest
          let (fields, rest) ← readMoreFields steps rest
          return (.obj ((k, v) :: fields), rest)
      else readWord N (c :: rest)

/-- The items behind the first one, up to the end of the array. -/
def readMore : Nat → List Char → Option (List (Value ν) × List Char)
  | 0, _ => none
  | steps + 1, s =>
    match expect ']' s with
    | some rest => some ([], rest)
    | none => do
      let rest ← expect ',' s
      let (v, rest) ← readValue steps rest
      let (items, rest) ← readMore steps rest
      return (v :: items, rest)

/-- The fields behind the first one, up to the end of the object. -/
def readMoreFields : Nat → List Char → Option (List (List Char × Value ν) × List Char)
  | 0, _ => none
  | steps + 1, s =>
    match expect '}' s with
    | some rest => some ([], rest)
    | none => do
      let rest ← expect ',' s
      let (k, rest) ← readKey rest
      let (v, rest) ← readValue steps rest
      let (fields, rest) ← readMoreFields steps rest
      return ((k, v) :: fields, rest)

end

/-- A text that is one value. -/
def parse (s : List Char) : Option (Value ν) :=
  match readValue N s.length s with
  | none => none
  | some (v, rest) => if skipBlanks rest = [] then some v else none

end Reader

/-- Tokens come without white space. -/
theorem expect_cons {c token : Char} (h : isBlank c = false) (rest : List Char) :
    expect token (c :: rest) = if c = token then some rest else none := by
  simp [expect, skipBlanks, h]

/-! ## Strings -/

/-- Each entry of the table reads as its character. -/
def Escapes (esc : Char → List Char) : Prop :=
  ∀ c rest, readChar (esc c ++ rest) = some (c, rest)

section Strings

variable {esc : Char → List Char} (hesc : Escapes esc)

include hesc

theorem Escapes.length_pos (c : Char) : 0 < (esc c).length := by
  cases hc : esc c with
  | nil =>
    have hread := hesc c []
    rw [hc] at hread
    cases hread
  | cons d ds => exact Nat.succ_pos _

/-- An entry does not begin with a quote, so reading goes on. -/
theorem readStringIn_cons (steps : Nat) (c : Char) (rest : List Char) :
    readStringIn (steps + 1) (esc c ++ rest) =
      (readStringIn steps rest).map fun p => (c :: p.1, p.2) := by
  have hread := hesc c rest
  have hquote : (esc c ++ rest).head? ≠ some '"' := by
    intro hhead
    obtain ⟨tail, htail⟩ := List.head?_eq_some_iff.mp hhead
    rw [htail] at hread
    cases hread
  rw [readStringIn, if_neg hquote, hread]

theorem readStringIn_flatMap (s rest : List Char) {steps : Nat} (h : s.length < steps) :
    readStringIn steps (s.flatMap esc ++ '"' :: rest) = some (s, rest) := by
  induction s generalizing steps with
  | nil =>
    cases steps with
    | zero => exact absurd h (Nat.not_lt_zero _)
    | succ steps => rfl
  | cons c s ih =>
    cases steps with
    | zero => exact absurd h (Nat.not_lt_zero _)
    | succ steps =>
      have hrest := ih (Nat.lt_of_succ_lt_succ h)
      rw [List.flatMap_cons, List.append_assoc, readStringIn_cons hesc, hrest]
      rfl

theorem length_le_flatMap (s : List Char) : s.length ≤ (s.flatMap esc).length := by
  induction s with
  | nil => exact Nat.le_refl _
  | cons c s ih =>
    have hc := Escapes.length_pos hesc c
    rw [List.flatMap_cons, List.length_append, List.length_cons]
    omega

/-- The inside of a string reads as the string. -/
theorem readString_flatMap (s rest : List Char) :
    readString (s.flatMap esc ++ '"' :: rest) = some (s, rest) := by
  have hlength := length_le_flatMap hesc s
  apply readStringIn_flatMap hesc
  rw [List.length_append]
  omega

/-- A key reads as it is written. -/
theorem readKey_quote (key rest : List Char) :
    readKey (quote esc key ++ ':' :: rest) = some (key, rest) := by
  have hstart : expect '"' (quote esc key ++ ':' :: rest) =
      some (key.flatMap esc ++ '"' :: ':' :: rest) := by
    simp [quote, expect_cons (show isBlank '"' = false from rfl)]
  simp only [readKey, hstart, readString_flatMap hesc, Option.bind_eq_bind, Option.bind_some,
    expect_cons (show isBlank ':' = false from rfl), if_true, Option.pure_def]

end Strings

/-! ## Values -/

section Values

variable {ν : Type} {N : Numbers ν} {esc : Char → List Char}

mutual

/-- The numbers in a value. -/
def Value.numbers : Value ν → List ν
  | .null | .bool _ | .str _ => []
  | .num n => [n]
  | .arr items => itemNumbers items
  | .obj fields => fieldNumbers fields

def itemNumbers : List (Value ν) → List ν
  | [] => []
  | v :: items => v.numbers ++ itemNumbers items

def fieldNumbers : List (List Char × Value ν) → List ν
  | [] => []
  | (_, v) :: fields => v.numbers ++ fieldNumbers fields

end

/-- A number is written as one token and read as it is written. -/
structure Numbers.Faithful (N : Numbers ν) (n : ν) : Prop where
  chars : ∀ c ∈ N.write n, isNumberChar c = true
  nonempty : N.write n ≠ []
  read_write : N.read (N.write n) = some n

/-- A number ends here. -/
def Stops (rest : List Char) : Prop := ∀ c ∈ rest.head?, isNumberChar c = false

theorem takeWhile_append_of_stops {s rest : List Char} (hs : ∀ c ∈ s, isNumberChar c = true)
    (hrest : Stops rest) :
    (s ++ rest).takeWhile isNumberChar = s ∧ (s ++ rest).dropWhile isNumberChar = rest := by
  induction s with
  | nil =>
    cases rest with
    | nil => exact ⟨rfl, rfl⟩
    | cons c rest =>
      have hc := hrest c rfl
      simp [hc]
  | cons c s ih =>
    have hc := hs c List.mem_cons_self
    have ih := ih fun d hd => hs d (List.mem_cons_of_mem _ hd)
    simp [hc, ih.1, ih.2]

/-- The beginning of a number is none of the other tokens. -/
theorem ne_of_isNumberChar {c : Char} (h : isNumberChar c = true) :
    ∀ d ∈ ['"', '[', ']', '{', '}', 'n', 't', 'f', ' ', '\t', '\n', '\r'], c ≠ d := by
  have hall : ∀ d ∈ ['"', '[', ']', '{', '}', 'n', 't', 'f', ' ', '\t', '\n', '\r'],
      isNumberChar d = false := by decide
  intro d hd hc
  rw [hc, hall d hd] at h
  cases h

/-- A value begins with a token of its own. -/
theorem write_eq_cons (esc : Char → List Char) (v : Value ν)
    (hnum : ∀ n ∈ v.numbers, N.Faithful n) :
    ∃ c rest, write N esc v = c :: rest ∧ isBlank c = false ∧ c ≠ ']' := by
  cases v with
  | null => exact ⟨'n', _, rfl, rfl, by decide⟩
  | bool b =>
    cases b with
    | true => exact ⟨'t', _, rfl, rfl, by decide⟩
    | false => exact ⟨'f', _, rfl, rfl, by decide⟩
  | num n =>
    have hn := hnum n List.mem_cons_self
    cases hwrite : N.write n with
    | nil => exact absurd hwrite hn.nonempty
    | cons c rest =>
      have hc := ne_of_isNumberChar (hn.chars c (by rw [hwrite]; exact List.mem_cons_self))
      refine ⟨c, rest, by rw [write, hwrite], ?_, hc ']' (by simp)⟩
      simp [isBlank, hc]
  | str s => exact ⟨'"', _, by rw [write, quote], rfl, by decide⟩
  | arr items =>
    cases items with
    | nil => exact ⟨'[', _, by rw [write], rfl, by decide⟩
    | cons v items => exact ⟨'[', _, by rw [write], rfl, by decide⟩
  | obj fields =>
    cases fields with
    | nil => exact ⟨'{', _, by rw [write], rfl, by decide⟩
    | cons field fields =>
      obtain ⟨k, v⟩ := field
      exact ⟨'{', _, by rw [write], rfl, by decide⟩

theorem write_length_pos (esc : Char → List Char) (v : Value ν)
    (hnum : ∀ n ∈ v.numbers, N.Faithful n) :
    0 < (write N esc v).length := by
  obtain ⟨c, rest, h, -⟩ := write_eq_cons esc v hnum
  rw [h]
  exact Nat.succ_pos _

theorem readWord_number {n : ν} (h : N.Faithful n) {rest : List Char} (hrest : Stops rest) :
    readWord N (N.write n ++ rest) = some (.num n, rest) := by
  have hsplit := takeWhile_append_of_stops h.chars hrest
  have hword : ∀ (d : Char) (word : List Char), d ∈ ['n', 't', 'f'] →
      (d :: word).isPrefixOf (N.write n ++ rest) = false := by
    intro d word hd
    cases hwrite : N.write n with
    | nil => exact absurd hwrite h.nonempty
    | cons c cs =>
      have hc := ne_of_isNumberChar (h.chars c (by rw [hwrite]; exact List.mem_cons_self)) d
        (by simp only [List.mem_cons, List.not_mem_nil, or_false] at hd ⊢; tauto)
      show (d == c && word.isPrefixOf (cs ++ rest)) = false
      rw [beq_false_of_ne (Ne.symm hc), Bool.false_and]
  have hnull : "null".toList.isPrefixOf (N.write n ++ rest) = false := hword 'n' _ (by simp)
  have htrue : "true".toList.isPrefixOf (N.write n ++ rest) = false := hword 't' _ (by simp)
  have hfalse : "false".toList.isPrefixOf (N.write n ++ rest) = false := hword 'f' _ (by simp)
  rw [readWord, hnull, htrue, hfalse, hsplit.1, hsplit.2, h.read_write]
  rfl

theorem stops_cons {c : Char} (h : isNumberChar c = false) (rest : List Char) :
    Stops (c :: rest) := by
  intro d hd
  obtain rfl : c = d := by simpa using hd
  exact h

/-- What comes behind an item ends a number. -/
theorem stops_writeMore (N : Numbers ν) (esc : Char → List Char) (items : List (Value ν))
    (rest : List Char) :
    Stops (writeMore N esc items ++ rest) := by
  cases items with
  | nil => exact stops_cons rfl _
  | cons v items => exact stops_cons rfl _

theorem stops_writeMoreFields (N : Numbers ν) (esc : Char → List Char)
    (fields : List (List Char × Value ν)) (rest : List Char) :
    Stops (writeMoreFields N esc fields ++ rest) := by
  cases fields with
  | nil => exact stops_cons rfl _
  | cons field fields => exact stops_cons rfl _

theorem readValue_cons {c : Char} (h : isBlank c = false) (steps : Nat) (rest : List Char) :
    readValue N (steps + 1) (c :: rest) =
      if c = '"' then (readString rest).map fun p => (.str p.1, p.2)
      else if c = '[' then
        match expect ']' rest with
        | some rest => some (.arr [], rest)
        | none => do
          let (v, rest) ← readValue N steps rest
          let (items, rest) ← readMore N steps rest
          return (.arr (v :: items), rest)
      else if c = '{' then
        match expect '}' rest with
        | some rest => some (.obj [], rest)
        | none => do
          let (k, rest) ← readKey rest
          let (v, rest) ← readValue N steps rest
          let (fields, rest) ← readMoreFields N steps rest
          return (.obj ((k, v) :: fields), rest)
      else readWord N (c :: rest) := by
  have hskip : skipBlanks (c :: rest) = c :: rest := by simp [skipBlanks, h]
  rw [readValue, hskip]

mutual

/-- The reader gives back a value that was written, and what comes behind it.  Each bracket and
each comma takes one step and one character. -/
theorem readValue_write (hesc : Escapes esc) (v : Value ν) (hnum : ∀ n ∈ v.numbers, N.Faithful n)
    {rest : List Char} (hrest : Stops rest) (steps : Nat)
    (hsteps : (write N esc v).length ≤ steps) :
    readValue N steps (write N esc v ++ rest) = some (v, rest) := by
  have hpos := write_length_pos esc v hnum
  obtain ⟨steps, rfl⟩ : ∃ k, steps = k + 1 := ⟨steps - 1, by omega⟩
  cases v with
  | null => rfl
  | bool b =>
    cases b with
    | true => rfl
    | false => rfl
  | num n =>
    have hn := hnum n List.mem_cons_self
    rw [write]
    cases hwrite : N.write n with
    | nil => exact absurd hwrite hn.nonempty
    | cons c cs =>
      have hc := ne_of_isNumberChar (hn.chars c (by rw [hwrite]; exact List.mem_cons_self))
      have hblank : isBlank c = false := by simp [isBlank, hc]
      rw [List.cons_append, readValue_cons hblank, if_neg (hc '"' (by simp)),
        if_neg (hc '[' (by simp)), if_neg (hc '{' (by simp)), ← List.cons_append, ← hwrite]
      exact readWord_number hn hrest
  | str s =>
    have hquote : write N esc (.str s) ++ rest = '"' :: (s.flatMap esc ++ '"' :: rest) := by
      simp [write, quote]
    rw [hquote, readValue_cons rfl, if_pos rfl, readString_flatMap hesc]
    rfl
  | arr items =>
    cases items with
    | nil => rfl
    | cons v items =>
      have hv : ∀ n ∈ v.numbers, N.Faithful n := fun n hn =>
        hnum n (List.mem_append_left _ hn)
      have hitems : ∀ n ∈ itemNumbers items, N.Faithful n := fun n hn =>
        hnum n (List.mem_append_right _ hn)
      have hlength : (write N esc v).length + (writeMore N esc items).length ≤ steps := by
        simp only [write, List.length_cons, List.length_append] at hsteps
        omega
      obtain ⟨c, cs, hcons, hblank, hclose⟩ := write_eq_cons esc v hv
      have hfirst : expect ']' (write N esc v ++ (writeMore N esc items ++ rest)) = none := by
        rw [hcons, List.cons_append, expect_cons hblank, if_neg hclose]
      have hvalue := readValue_write hesc v hv (stops_writeMore N esc items rest) steps
        (by omega)
      have hmore := readMore_write hesc items hitems rest steps (by omega)
      rw [write, List.cons_append, List.append_assoc, readValue_cons rfl, if_neg (by decide),
        if_pos rfl, hfirst]
      simp only [hvalue, hmore, Option.bind_eq_bind, Option.bind_some, Option.pure_def]
  | obj fields =>
    cases fields with
    | nil => rfl
    | cons field fields =>
      obtain ⟨k, v⟩ := field
      have hv : ∀ n ∈ v.numbers, N.Faithful n := fun n hn =>
        hnum n (List.mem_append_left _ hn)
      have hfields : ∀ n ∈ fieldNumbers fields, N.Faithful n := fun n hn =>
        hnum n (List.mem_append_right _ hn)
      have hlength : (write N esc v).length + (writeMoreFields N esc fields).length ≤ steps := by
        simp only [write, List.length_cons, List.length_append] at hsteps
        omega
      have hfirst : ∀ more, expect '}' (quote esc k ++ more) = none := by
        intro more
        rw [quote, List.cons_append, expect_cons rfl, if_neg (by decide)]
      have hvalue := readValue_write hesc v hv
        (stops_writeMoreFields N esc fields rest) steps (by omega)
      have hmore := readMoreFields_write hesc fields hfields rest steps (by omega)
      rw [write, List.cons_append, List.append_assoc, List.cons_append, List.append_assoc,
        readValue_cons rfl, if_neg (by decide), if_neg (by decide), if_pos rfl, hfirst]
      simp only [readKey_quote hesc, hvalue, hmore, Option.bind_eq_bind, Option.bind_some,
        Option.pure_def]

theorem readMore_write (hesc : Escapes esc) (items : List (Value ν))
    (hnum : ∀ n ∈ itemNumbers items, N.Faithful n) (rest : List Char) (steps : Nat)
    (hsteps : (writeMore N esc items).length ≤ steps) :
    readMore N steps (writeMore N esc items ++ rest) = some (items, rest) := by
  cases items with
  | nil =>
    obtain ⟨steps, rfl⟩ : ∃ k, steps = k + 1 := ⟨steps - 1, by
      simp only [writeMore, List.length_singleton] at hsteps
      omega⟩
    rfl
  | cons v items =>
    have hv : ∀ n ∈ v.numbers, N.Faithful n := fun n hn => hnum n (List.mem_append_left _ hn)
    have hitems : ∀ n ∈ itemNumbers items, N.Faithful n := fun n hn =>
      hnum n (List.mem_append_right _ hn)
    have hlength : (write N esc v).length + (writeMore N esc items).length + 1 ≤ steps := by
      simp only [writeMore, List.length_cons, List.length_append] at hsteps
      omega
    obtain ⟨steps, rfl⟩ : ∃ k, steps = k + 1 := ⟨steps - 1, by omega⟩
    have hvalue := readValue_write hesc v hv (stops_writeMore N esc items rest) steps
      (by omega)
    have hmore := readMore_write hesc items hitems rest steps (by omega)
    rw [writeMore, List.cons_append, List.append_assoc, readMore, expect_cons rfl,
      if_neg (by decide)]
    simp only [expect_cons (show isBlank ',' = false from rfl), if_true, hvalue, hmore,
      Option.bind_eq_bind, Option.bind_some, Option.pure_def]

theorem readMoreFields_write (hesc : Escapes esc) (fields : List (List Char × Value ν))
    (hnum : ∀ n ∈ fieldNumbers fields, N.Faithful n) (rest : List Char) (steps : Nat)
    (hsteps : (writeMoreFields N esc fields).length ≤ steps) :
    readMoreFields N steps (writeMoreFields N esc fields ++ rest) = some (fields, rest) := by
  cases fields with
  | nil =>
    obtain ⟨steps, rfl⟩ : ∃ k, steps = k + 1 := ⟨steps - 1, by
      simp only [writeMoreFields, List.length_singleton] at hsteps
      omega⟩
    rfl
  | cons field fields =>
    obtain ⟨k, v⟩ := field
    have hv : ∀ n ∈ v.numbers, N.Faithful n := fun n hn => hnum n (List.mem_append_left _ hn)
    have hfields : ∀ n ∈ fieldNumbers fields, N.Faithful n := fun n hn =>
      hnum n (List.mem_append_right _ hn)
    have hlength : (write N esc v).length + (writeMoreFields N esc fields).length + 1 ≤ steps := by
      simp only [writeMoreFields, List.length_cons, List.length_append] at hsteps
      omega
    obtain ⟨steps, rfl⟩ : ∃ k, steps = k + 1 := ⟨steps - 1, by omega⟩
    have hvalue := readValue_write hesc v hv
      (stops_writeMoreFields N esc fields rest) steps (by omega)
    have hmore := readMoreFields_write hesc fields hfields rest steps (by omega)
    rw [writeMoreFields, List.cons_append, List.append_assoc, List.cons_append, List.append_assoc,
      readMoreFields, expect_cons rfl, if_neg (by decide)]
    simp only [expect_cons (show isBlank ',' = false from rfl), if_true, readKey_quote hesc,
      hvalue, hmore, Option.bind_eq_bind, Option.bind_some, Option.pure_def]

end

/-- Reading undoes writing. -/
theorem parse_write (hesc : Escapes esc) (v : Value ν) (hnum : ∀ n ∈ v.numbers, N.Faithful n) :
    parse N (write N esc v) = some v := by
  have hstops : Stops [] := fun c hc => by cases hc
  have hread := readValue_write hesc v hnum hstops _ (Nat.le_refl _)
  rw [List.append_nil] at hread
  rw [parse, hread]
  rfl

/-! ## Texts that are escaped once more -/

/-- The characters that a writer puts outside of strings, and the quotes. -/
def isTokenChar (c : Char) : Bool :=
  isNumberChar c ||
    ['"', '[', ']', '{', '}', ',', ':', 'n', 'u', 'l', 't', 'r', 'f', 'a', 's'].contains c

theorem isTokenChar_of_isNumberChar {c : Char} (h : isNumberChar c = true) :
    isTokenChar c = true := by
  rw [isTokenChar, h, Bool.true_or]

theorem flatMap_fixed {g : Char → List Char} {s : List Char} (h : ∀ c ∈ s, g c = [c]) :
    s.flatMap g = s := by
  induction s with
  | nil => rfl
  | cons c s ih =>
    have hc := h c List.mem_cons_self
    have hs := ih fun d hd => h d (List.mem_cons_of_mem _ hd)
    rw [List.flatMap_cons, hc, hs]
    rfl

section Again

variable {g : Char → List Char} (hg : ∀ c, isTokenChar c = true → g c = [c])

include hg

theorem flatMap_tokens {s : List Char} (h : s.all isTokenChar = true) : s.flatMap g = s :=
  flatMap_fixed fun c hc => hg c (List.all_eq_true.mp h c hc)

theorem quote_flatMap (s : List Char) :
    (quote esc s).flatMap g = quote (fun c => (esc c).flatMap g) s := by
  have hquote := hg '"' rfl
  simp only [quote, List.flatMap_cons, List.flatMap_append, List.flatMap_nil, hquote,
    List.flatMap_assoc, List.singleton_append, List.append_nil]

mutual

/-- Escaping a text once more is writing it with the entries escaped once more, if the second
table leaves alone what is outside of strings. -/
theorem write_flatMap (v : Value ν) (hnum : ∀ n ∈ v.numbers, N.Faithful n) :
    (write N esc v).flatMap g = write N (fun c => (esc c).flatMap g) v := by
  cases v with
  | null => exact flatMap_tokens hg rfl
  | bool b =>
    cases b with
    | true => exact flatMap_tokens hg rfl
    | false => exact flatMap_tokens hg rfl
  | num n =>
    have hn := (hnum n List.mem_cons_self).chars
    rw [write, write]
    exact flatMap_fixed fun c hc => hg c (isTokenChar_of_isNumberChar (hn c hc))
  | str s =>
    rw [write, write]
    exact quote_flatMap hg s
  | arr items =>
    cases items with
    | nil => exact flatMap_tokens hg rfl
    | cons v items =>
      have hv := write_flatMap v fun n hn => hnum n (List.mem_append_left _ hn)
      have hitems := writeMore_flatMap items fun n hn => hnum n (List.mem_append_right _ hn)
      rw [write, write, List.flatMap_cons, List.flatMap_append, hg '[' rfl, hv, hitems]
      rfl
  | obj fields =>
    cases fields with
    | nil => exact flatMap_tokens hg rfl
    | cons field fields =>
      obtain ⟨k, v⟩ := field
      have hv := write_flatMap v fun n hn => hnum n (List.mem_append_left _ hn)
      have hfields := writeMoreFields_flatMap fields fun n hn =>
        hnum n (List.mem_append_right _ hn)
      rw [write, write, List.flatMap_cons, List.flatMap_append, List.flatMap_cons,
        List.flatMap_append, hg '{' rfl, hg ':' rfl, quote_flatMap hg, hv, hfields]
      rfl

theorem writeMore_flatMap (items : List (Value ν)) (hnum : ∀ n ∈ itemNumbers items, N.Faithful n) :
    (writeMore N esc items).flatMap g = writeMore N (fun c => (esc c).flatMap g) items := by
  cases items with
  | nil => exact flatMap_tokens hg rfl
  | cons v items =>
    have hv := write_flatMap v fun n hn => hnum n (List.mem_append_left _ hn)
    have hitems := writeMore_flatMap items fun n hn => hnum n (List.mem_append_right _ hn)
    rw [writeMore, writeMore, List.flatMap_cons, List.flatMap_append, hg ',' rfl, hv, hitems]
    rfl

theorem writeMoreFields_flatMap (fields : List (List Char × Value ν))
    (hnum : ∀ n ∈ fieldNumbers fields, N.Faithful n) :
    (writeMoreFields N esc fields).flatMap g =
      writeMoreFields N (fun c => (esc c).flatMap g) fields := by
  cases fields with
  | nil => exact flatMap_tokens hg rfl
  | cons field fields =>
    obtain ⟨k, v⟩ := field
    have hv := write_flatMap v fun n hn => hnum n (List.mem_append_left _ hn)
    have hfields := writeMoreFields_flatMap fields fun n hn =>
      hnum n (List.mem_append_right _ hn)
    rw [writeMoreFields, writeMoreFields, List.flatMap_cons, List.flatMap_append,
      List.flatMap_cons, List.flatMap_append, hg ',' rfl, hg ':' rfl, quote_flatMap hg, hv,
      hfields]
    rfl

end

end Again

/-- A character of a written text. -/
def Written (esc : Char → List Char) (c : Char) : Prop := isTokenChar c = true ∨ ∃ d, c ∈ esc d

theorem written_quote {s : List Char} : ∀ c ∈ quote esc s, Written esc c := by
  intro c hc
  rcases List.mem_cons.mp hc with rfl | hc
  · exact .inl rfl
  · rcases List.mem_append.mp hc with hc | hc
    · obtain ⟨d, -, hd⟩ := List.mem_flatMap.mp hc
      exact .inr ⟨d, hd⟩
    · rw [List.mem_singleton.mp hc]
      exact .inl rfl

theorem written_append {s t : List Char} (hs : ∀ c ∈ s, Written esc c)
    (ht : ∀ c ∈ t, Written esc c) : ∀ c ∈ s ++ t, Written esc c := fun c hc =>
  (List.mem_append.mp hc).elim (hs c) (ht c)

theorem written_cons {d : Char} (hd : isTokenChar d = true) {s : List Char}
    (hs : ∀ c ∈ s, Written esc c) : ∀ c ∈ d :: s, Written esc c := by
  intro c hc
  rcases List.mem_cons.mp hc with rfl | hc
  · exact .inl hd
  · exact hs c hc

theorem written_tokens {s : List Char} (h : s.all isTokenChar = true) :
    ∀ c ∈ s, Written esc c := fun c hc => .inl (List.all_eq_true.mp h c hc)

mutual

/-- Each character of a text is outside of the strings or in an entry of the table. -/
theorem forall_mem_write (v : Value ν) (hnum : ∀ n ∈ v.numbers, N.Faithful n) :
    ∀ c ∈ write N esc v, Written esc c := by
  cases v with
  | null => exact written_tokens rfl
  | bool b =>
    cases b with
    | true => exact written_tokens rfl
    | false => exact written_tokens rfl
  | num n =>
    intro c hc
    exact .inl (isTokenChar_of_isNumberChar ((hnum n List.mem_cons_self).chars c hc))
  | str s => exact written_quote
  | arr items =>
    cases items with
    | nil => exact written_tokens rfl
    | cons v items =>
      exact written_cons rfl (written_append
        (forall_mem_write v fun n hn => hnum n (List.mem_append_left _ hn))
        (forall_mem_writeMore items fun n hn => hnum n (List.mem_append_right _ hn)))
  | obj fields =>
    cases fields with
    | nil => exact written_tokens rfl
    | cons field fields =>
      obtain ⟨k, v⟩ := field
      exact written_cons rfl (written_append written_quote (written_cons rfl (written_append
        (forall_mem_write v fun n hn => hnum n (List.mem_append_left _ hn))
        (forall_mem_writeMoreFields fields fun n hn =>
          hnum n (List.mem_append_right _ hn)))))

theorem forall_mem_writeMore (items : List (Value ν))
    (hnum : ∀ n ∈ itemNumbers items, N.Faithful n) :
    ∀ c ∈ writeMore N esc items, Written esc c := by
  cases items with
  | nil => exact written_tokens rfl
  | cons v items =>
    exact written_cons rfl (written_append
      (forall_mem_write v fun n hn => hnum n (List.mem_append_left _ hn))
      (forall_mem_writeMore items fun n hn => hnum n (List.mem_append_right _ hn)))

theorem forall_mem_writeMoreFields (fields : List (List Char × Value ν))
    (hnum : ∀ n ∈ fieldNumbers fields, N.Faithful n) :
    ∀ c ∈ writeMoreFields N esc fields, Written esc c := by
  cases fields with
  | nil => exact written_tokens rfl
  | cons field fields =>
    obtain ⟨k, v⟩ := field
    exact written_cons rfl (written_append written_quote (written_cons rfl (written_append
      (forall_mem_write v fun n hn => hnum n (List.mem_append_left _ hn))
      (forall_mem_writeMoreFields fields fun n hn => hnum n (List.mem_append_right _ hn)))))

end

end Values

end JsonText
