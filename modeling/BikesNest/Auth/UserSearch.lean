import BikesNest.Auth.Accounts
import BikesNest.Lib.Like

/-!
# The search for users

`search_users` of the account repository: the list of the admin pages, filtered
by a text that stands in the address or in the display name.  `escape_like` puts
an exclamation mark in front of what a `LIKE` pattern would read as a wildcard.

`like_containsPattern` says that the pattern is never malformed and matches the
texts that contain the search term, and `searchUsers_eq` what the list has
therefore.
-/

namespace BikesNest.Auth

open Domain Store Relational

/-- `str::replace` of a character. -/
def replaceChar (c : Char) (instead : List Char) (s : List Char) : List Char :=
  s.flatMap fun d => if d = c then instead else [d]

/-- `escape_like`. -/
def escapeLike (term : List Char) : List Char :=
  replaceChar '_' ['!', '_'] (replaceChar '%' ['!', '%'] (replaceChar '!' ['!', '!'] term))

/-- The pattern that `search_users` binds. -/
def containsPattern (term : List Char) : List Char := '%' :: (escapeLike term ++ ['%'])

/-! ## The escaped term -/

/-- What the three replacements make of one character. -/
def escapeChar (c : Char) : List Char :=
  if c = '!' ∨ c = '%' ∨ c = '_' then ['!', c] else [c]

/-- The replacements do not touch what an earlier one has written, because the
escape itself is replaced first. -/
theorem escapeLike_eq (term : List Char) : escapeLike term = term.flatMap escapeChar := by
  unfold escapeLike replaceChar
  rw [List.flatMap_assoc, List.flatMap_assoc]
  congr 1
  funext c
  by_cases hbang : c = '!'
  · subst hbang
    rfl
  · by_cases hpercent : c = '%'
    · subst hpercent
      rfl
    · by_cases hunder : c = '_'
      · subst hunder
        rfl
      · simp [escapeChar, hbang, hpercent, hunder]

theorem parse_escapeChar (c : Char) (rest : List Char) :
    Like.parse '!' (escapeChar c ++ rest) = (Like.parse '!' rest).map (.lit c :: ·) := by
  unfold escapeChar
  split_ifs with hspecial
  · exact Like.parse_escape '!' c rest
  · simp only [not_or] at hspecial
    exact Like.parse_lit hspecial.1 hspecial.2.1 hspecial.2.2 rest

/-- An escaped term is read as its characters. -/
theorem parse_escapeLike (term rest : List Char) :
    Like.parse '!' (escapeLike term ++ rest) =
      (Like.parse '!' rest).map (term.map Like.Token.lit ++ ·) := by
  rw [escapeLike_eq]
  induction term with
  | nil => simp
  | cons c term ih =>
    rw [List.flatMap_cons, List.append_assoc, parse_escapeChar, ih, Option.map_map]
    rfl

theorem parse_containsPattern (term : List Char) :
    Like.parse '!' (containsPattern term) =
      some (.any :: (term.map Like.Token.lit ++ [.any])) := by
  have hend : Like.parse '!' ['%'] = some [.any] := by decide
  rw [containsPattern, Like.parse_any (by decide), parse_escapeLike, hend]
  rfl

/-- The pattern is well formed, and matches the texts that contain the term. -/
theorem like_containsPattern (fold : Char → Char) (term s : List Char) :
    (∃ tokens, Like.parse '!' (containsPattern term) = some tokens) ∧
      (Like.like fold '!' (containsPattern term) s = some true ↔
        term.map fold <:+: s.map fold) := by
  refine ⟨⟨_, parse_containsPattern term⟩, ?_⟩
  rw [Like.like, parse_containsPattern, Option.map_some, Option.some.injEq]
  exact Like.likes_contains

/-! ## The list -/

/-- `UserSearch`. -/
structure UserSearch where
  query : Option String
  afterId : Option Int
  limit : Int

/-- `i64::clamp(1, 200)` -/
def UserSearch.pageSize (search : UserSearch) : Nat := (max 1 (min search.limit 200)).toNat

/-- `ORDER BY id DESC LIMIT` on the rows that a filter keeps. -/
def userPage (db : Db) (search : UserSearch) (keep : User → Bool) : List (UserId × User) :=
  ((db.users.select fun id r =>
    keep r && search.afterId.all fun afterId => (id : Int) < afterId).reverse).take search.pageSize

/-- The rows of `search_users`; none is the error of a malformed pattern. -/
def searchUsers (fold : Char → Char) (db : Db) (search : UserSearch) :
    Option (List (UserId × User)) :=
  match search.query with
  | none => some (userPage db search fun _ => true)
  | some q =>
    (Like.parse '!' (containsPattern q.toList)).map fun tokens =>
      userPage db search fun r =>
        Like.likes fold tokens r.email.toList ||
          r.displayName.any fun name => Like.likes fold tokens name.toList

/-- The term stands in the address or in the display name. -/
def Mentions (fold : Char → Char) (term : String) (r : User) : Prop :=
  term.toList.map fold <:+: r.email.toList.map fold ∨
    ∃ name, r.displayName = some name ∧ term.toList.map fold <:+: name.toList.map fold

/-- A search term finds the users that it literally stands in, and the pattern
is never an error. -/
theorem searchUsers_eq (fold : Char → Char) (db : Db) (search : UserSearch) {term : String}
    (hterm : search.query = some term) :
    ∃ keep, searchUsers fold db search = some (userPage db search keep) ∧
      ∀ r, keep r = true ↔ Mentions fold term r := by
  have hpattern := parse_containsPattern term.toList
  refine ⟨_, by rw [searchUsers, hterm]; dsimp only; rw [hpattern]; rfl, ?_⟩
  intro r
  simp only [Bool.or_eq_true, Like.likes_contains, Option.any_eq_true, Mentions]

end BikesNest.Auth
