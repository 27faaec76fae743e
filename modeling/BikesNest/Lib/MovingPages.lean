import BikesNest.Lib.Keyset
import Mathlib.Order.WellFoundedSet

/-!
# Pages of a list that changes

A reader follows the links of pages.  Between two pages the store may be in any other
state: rows come, go and change.  What makes the reading well defined is that every link
asks for the rows behind the last key that was seen (`Lists`).

* `Seen` is what the reader is owed: keys in order and none twice, every row as the store
  had it when its page was read, and every key that was in the list at each page.
  `Lists.seen` proves it of every reading.
* `Lists.ends` says that the reading ends where the keys cannot go up for ever.
-/

namespace MovingPages

open Keyset (isAfter)

variable {σ β α Q : Type}

/-- What a reader sees who follows the links, with the state of the store at each page. -/
inductive Follows (answer : σ → Q → Option (List β × Option Q)) :
    List σ → Q → List (List β) → Prop where
  | last {s : σ} {q : Q} {page : List β} (h : answer s q = some (page, none)) :
      Follows answer [s] q [page]
  | more {s : σ} {q next : Q} {page : List β} {states : List σ} {pages : List (List β)}
      (h : answer s q = some (page, some next)) (rest : Follows answer states next pages) :
      Follows answer (s :: states) q (page :: pages)

variable [LinearOrder α]

/-- The first `n` rows behind a cursor. -/
def pageOf (key : β → α) (n : Nat) (rows : List β) (cursor : Option α) : List β :=
  (rows.filter (isAfter key cursor)).take n

/-- Answers list the rows of the store in the order of a key: a question that asks for the
rows from a cursor on is answered with the next ones, and with a link that asks for those
behind them.  A page without a link is short. -/
structure Lists (answer : σ → Q → Option (List β × Option Q)) (valid : σ → Prop)
    (rows : σ → List β) (key : β → α) (n : Nat) (Asks : Q → Option α → Prop) : Prop where
  sorted : ∀ s, (rows s).Pairwise fun a b => key a < key b
  answers : ∀ {s : σ} {q : Q} {cursor : Option α}, valid s → Asks q cursor →
    ∃ link, answer s q = some (pageOf key n (rows s) cursor, link) ∧
      (link = none → (pageOf key n (rows s) cursor).length < n) ∧
      ∀ next, link = some next →
        ∃ x, (pageOf key n (rows s) cursor).getLast? = some x ∧ Asks next (some (key x))

/-- What a reader is owed of the rows behind a cursor. -/
structure Seen (rows : σ → List β) (key : β → α) (cursor : Option α) (states : List σ)
    (pages : List (List β)) : Prop where
  current : List.Forall₂ (fun s page => ∀ x ∈ page, x ∈ rows s) states pages
  behind : ∀ x ∈ pages.flatten, isAfter key cursor x = true
  ordered : pages.flatten.Pairwise fun a b => key a < key b
  complete : ∀ a, cursor.all (· < a) = true → (∀ s ∈ states, ∃ x ∈ rows s, key x = a) →
    ∃ x ∈ pages.flatten, key x = a

variable {answer : σ → Q → Option (List β × Option Q)} {valid : σ → Prop} {rows : σ → List β}
  {key : β → α} {n : Nat} {Asks : Q → Option α → Prop} {states : List σ} {pages : List (List β)}
  {cursor : Option α} {l : List β}

theorem mem_of_mem_pageOf {x : β} (h : x ∈ pageOf key n l cursor) :
    x ∈ l ∧ isAfter key cursor x = true :=
  List.mem_filter.mp (List.mem_of_mem_take h)

theorem pairwise_pageOf (h : l.Pairwise fun a b => key a < key b) :
    (pageOf key n l cursor).Pairwise fun a b => key a < key b :=
  (h.filter _).sublist (List.take_sublist n _)

/-- No row of a page is behind its last one. -/
theorem le_of_getLast? (h : l.Pairwise fun a b => key a < key b) {x y : β}
    (hlast : l.getLast? = some x) (hy : y ∈ l) : key y ≤ key x := by
  obtain ⟨front, rfl⟩ := List.getLast?_eq_some_iff.mp hlast
  rcases List.mem_append.mp hy with hy | hy
  · exact le_of_lt ((List.pairwise_append.mp h).2.2 y hy x (List.mem_singleton_self x))
  · rw [List.mem_singleton.mp hy]

/-- A row that is not on the page is behind the whole of it, and the page is full. -/
theorem full_of_notMem (h : l.Pairwise fun a b => key a < key b) {x : β} (hx : x ∈ l)
    (hafter : isAfter key cursor x = true) (hnot : x ∉ pageOf key n l cursor) :
    n ≤ (pageOf key n l cursor).length ∧ ∀ y ∈ pageOf key n l cursor, key y < key x := by
  have hfilter : x ∈ l.filter (isAfter key cursor) := List.mem_filter.mpr ⟨hx, hafter⟩
  have hsorted := h.filter (isAfter key cursor)
  rw [← List.take_append_drop n (l.filter (isAfter key cursor))] at hfilter hsorted
  have hdrop : x ∈ (l.filter (isAfter key cursor)).drop n := by
    rcases List.mem_append.mp hfilter with htake | hdrop
    · exact absurd htake hnot
    · exact hdrop
  constructor
  · have hlength := List.length_pos_of_mem hdrop
    rw [List.length_drop] at hlength
    rw [pageOf, List.length_take]
    omega
  · intro y hy
    exact (List.pairwise_append.mp hsorted).2.2 y hy x hdrop

theorem isAfter_of_all {x : β} (h : cursor.all (· < key x) = true) :
    isAfter key cursor x = true := by
  cases cursor with
  | none => rfl
  | some c => exact h

/-- A short page is all there is. -/
theorem Seen.short {s : σ} (hsorted : (rows s).Pairwise fun a b => key a < key b)
    (hshort : (pageOf key n (rows s) cursor).length < n) :
    Seen rows key cursor [s] [pageOf key n (rows s) cursor] := by
  constructor
  · exact .cons (fun x hx => (mem_of_mem_pageOf hx).1) .nil
  · intro x hx
    rw [List.flatten_singleton] at hx
    exact (mem_of_mem_pageOf hx).2
  · rw [List.flatten_singleton]
    exact pairwise_pageOf hsorted
  · intro a hcursor hall
    obtain ⟨x, hx, rfl⟩ := hall s List.mem_cons_self
    refine ⟨x, ?_, rfl⟩
    rw [List.flatten_singleton]
    -- A row that is left out would have filled the page.
    by_contra hnot
    have hfull := (full_of_notMem hsorted hx (isAfter_of_all hcursor) hnot).1
    omega

section Front

variable {last : β} (hsorted : l.Pairwise fun a b => key a < key b)
  (hlast : (pageOf key n l cursor).getLast? = some last)
  (hrest : Seen rows key (some (key last)) states pages)
include hsorted hlast hrest

/-- A page of one list, and then what is behind its last row in another. -/
theorem Seen.ordered_front :
    (pageOf key n l cursor ++ pages.flatten).Pairwise fun a b => key a < key b := by
  rw [List.pairwise_append]
  refine ⟨pairwise_pageOf hsorted, hrest.ordered, ?_⟩
  intro x hx y hy
  have hbehind : key last < key y := by simpa [isAfter] using hrest.behind y hy
  exact lt_of_le_of_lt (le_of_getLast? (pairwise_pageOf hsorted) hlast hx) hbehind

/-- A row of the first list that the other has in each of its states is in both readings. -/
theorem Seen.complete_front {x : β} (hx : x ∈ l) (hafter : isAfter key cursor x = true)
    (hall : ∀ s ∈ states, ∃ y ∈ rows s, key y = key x) :
    ∃ y ∈ pageOf key n l cursor ++ pages.flatten, key y = key x := by
  by_cases hpage : x ∈ pageOf key n l cursor
  · exact ⟨x, List.mem_append_left _ hpage, rfl⟩
  · -- It is behind the last row of the page, so the rest of the reading has it.
    have hlt := (full_of_notMem hsorted hx hafter hpage).2 last (List.mem_of_getLast? hlast)
    obtain ⟨y, hy, hkey⟩ := hrest.complete (key x) (by simpa using hlt) hall
    exact ⟨y, List.mem_append_right _ hy, hkey⟩

end Front

/-- A page, and then what is behind its last row. -/
theorem Seen.cons {s : σ} (hsorted : (rows s).Pairwise fun a b => key a < key b) {last : β}
    (hlast : (pageOf key n (rows s) cursor).getLast? = some last)
    (hrest : Seen rows key (some (key last)) states pages) :
    Seen rows key cursor (s :: states) (pageOf key n (rows s) cursor :: pages) := by
  have hmem := List.mem_of_getLast? hlast
  constructor
  · exact .cons (fun x hx => (mem_of_mem_pageOf hx).1) hrest.current
  · intro x hx
    rw [List.flatten_cons, List.mem_append] at hx
    rcases hx with hx | hx
    · exact (mem_of_mem_pageOf hx).2
    · have hlt : key last < key x := by simpa [isAfter] using hrest.behind x hx
      have hafter := (mem_of_mem_pageOf hmem).2
      cases cursor with
      | none => rfl
      | some c =>
        have hc : c < key last := by simpa [isAfter] using hafter
        simpa [isAfter] using hc.trans hlt
  · rw [List.flatten_cons]
    exact hrest.ordered_front hsorted hlast
  · intro a hcursor hall
    obtain ⟨x, hx, rfl⟩ := hall s List.mem_cons_self
    rw [List.flatten_cons]
    exact hrest.complete_front hsorted hlast hx (isAfter_of_all hcursor) fun s hs =>
      hall s (List.mem_cons_of_mem _ hs)

/-- Whoever follows the links gets what a reader is owed. -/
theorem Lists.seen (h : Lists answer valid rows key n Asks) {q : Q}
    (hfollows : Follows answer states q pages) (hvalid : ∀ s ∈ states, valid s)
    (hasks : Asks q cursor) : Seen rows key cursor states pages := by
  induction hfollows generalizing cursor with
  | last hpage =>
    obtain ⟨link, hanswer, hshort, -⟩ := h.answers (hvalid _ List.mem_cons_self) hasks
    rw [hpage] at hanswer
    cases hanswer
    exact .short (h.sorted _) (hshort rfl)
  | more hpage rest ih =>
    obtain ⟨link, hanswer, -, hlink⟩ := h.answers (hvalid _ List.mem_cons_self) hasks
    rw [hpage] at hanswer
    cases hanswer
    obtain ⟨last, hlast, hnext⟩ := hlink _ rfl
    exact .cons (h.sorted _) hlast (ih (fun s hs => hvalid s (List.mem_cons_of_mem _ hs)) hnext)

/-- A reading ends where the keys cannot go up for ever, whatever happens meanwhile. -/
theorem Lists.ends (h : Lists answer valid rows key n Asks) {s : Nat → σ}
    (hvalid : ∀ k, valid (s k)) {K : Set α} (hK : K.WellFoundedOn (· > ·))
    (hrows : ∀ k, ∀ x ∈ rows (s k), key x ∈ K) {q : Q} (hasks : Asks q cursor) :
    ∃ m pages, Follows answer ((List.range m).map s) q pages := by
  -- One page, and a reading of the rest where its link leads to a later cursor.
  have hstep : ∀ (s : Nat → σ) (q : Q) (cursor : Option α), (∀ k, valid (s k)) →
      (∀ k, ∀ x ∈ rows (s k), key x ∈ K) → Asks q cursor →
      (∀ next x, x ∈ rows (s 0) → isAfter key cursor x = true → Asks next (some (key x)) →
        ∃ m pages, Follows answer ((List.range m).map fun k => s (k + 1)) next pages) →
      ∃ m pages, Follows answer ((List.range m).map s) q pages := by
    intro s q cursor hvalid hrows hasks hrest
    obtain ⟨link, hanswer, -, hlink⟩ := h.answers (hvalid 0) hasks
    cases link with
    | none => exact ⟨1, _, .last hanswer⟩
    | some next =>
      obtain ⟨x, hlast, hnext⟩ := hlink next rfl
      have hx := mem_of_mem_pageOf (List.mem_of_getLast? hlast)
      obtain ⟨m, pages, hfollows⟩ := hrest next x hx.1 hx.2 hnext
      refine ⟨m + 1, pageOf key n (rows (s 0)) cursor :: pages, ?_⟩
      rw [List.range_succ_eq_map, List.map_cons, List.map_map]
      exact .more hanswer hfollows
  -- Induction on the cursor, from later ones to earlier ones.
  have hcursor : ∀ a ∈ K, ∀ (s : Nat → σ) (q : Q), (∀ k, valid (s k)) →
      (∀ k, ∀ x ∈ rows (s k), key x ∈ K) → Asks q (some a) →
      ∃ m pages, Follows answer ((List.range m).map s) q pages := by
    intro a ha
    apply hK.induction (P := fun a => ∀ (s : Nat → σ) (q : Q), (∀ k, valid (s k)) →
      (∀ k, ∀ x ∈ rows (s k), key x ∈ K) → Asks q (some a) →
      ∃ m pages, Follows answer ((List.range m).map s) q pages) ha
    intro a ha ih s q hvalid hrows hasks
    apply hstep s q (some a) hvalid hrows hasks
    intro next x hx hafter hnext
    have hlt : a < key x := by simpa [isAfter] using hafter
    exact ih (key x) (hrows 0 x hx) hlt _ next (fun k => hvalid (k + 1))
      (fun k => hrows (k + 1)) hnext
  apply hstep s q cursor hvalid hrows hasks
  intro next x hx _ hnext
  exact hcursor (key x) (hrows 0 x hx) _ next (fun k => hvalid (k + 1)) (fun k => hrows (k + 1))
    hnext

end MovingPages
