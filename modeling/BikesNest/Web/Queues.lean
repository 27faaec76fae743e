import BikesNest.Lib.MovingPages
import BikesNest.Store.Schema
import BikesNest.Web.Query

/-!
# The queues of the moderators

`/moderation/reports` and `/moderation/proposals` list what waits for a decision, fifty
rows a page and the oldest first, and a full page carries a link behind its last row.

While a moderator reads, others claim and decide what is listed and more is submitted.
`reports_read` and `proposals_read` say that this does not disturb the reading: no row comes
twice, and none that waits all the time is left out.
-/

namespace BikesNest.Web

open BikesNest.Domain Store Relational MovingPages

-- Facts about the characters of a text are decided along the text, not over all characters.
attribute [local instance (high)] List.decidableBAll

/-! ## Queues -/

/-- `DEFAULT_PAGE_LIMIT`. -/
def defaultPageLimit : Int := 50

/-- `parse_after_id`. -/
def parseAfterId (afterId : Int) : Option Int := if 0 < afterId then some afterId else none

/-- `WHERE … AND id > after ORDER BY id ASC LIMIT`, with a limit from 1 to 200. -/
def queuePage {ρ : Type} (table : Table ρ) (keep : ρ → Bool) (afterId : Option Int)
    (limit : Int) : List (Nat × ρ) :=
  (table.select fun id r => keep r && afterId.all fun after => after < (id : Int)).take
    (max 1 (min limit 200)).toNat

/-- The last id of a full page. -/
def lastOfFull {ρ : Type} (page : List (Nat × ρ)) : Option Nat :=
  if (page.length : Int) = defaultPageLimit then page.getLast?.map Prod.fst else none

/-- The ids of the rows are those of a `bigserial` column. -/
def SerialIds {ρ : Type} (table : Table ρ) : Prop :=
  ∀ id r, table.row id = some r → 0 < id ∧ id < 9223372036854775808

theorem queuePage_eq {ρ : Type} (table : Table ρ) (keep : ρ → Bool) (cursor : Option Nat) :
    queuePage table keep (cursor.map Int.ofNat) defaultPageLimit =
      pageOf Prod.fst 50 (table.select fun _ r => keep r) cursor := by
  have hlimit : (max 1 (min defaultPageLimit 200)).toNat = 50 := rfl
  rw [queuePage, pageOf, hlimit, Table.select, Table.select, List.filter_filter]
  congr 2
  funext x
  cases cursor with
  | none => simp [Keyset.isAfter]
  | some c => simp [Keyset.isAfter, Bool.and_comm]

/-- A queue whose links ask for what is behind them lists its rows. -/
theorem queue_lists {ρ Q : Type} {table : Db → Table ρ} {keep : Db → ρ → Bool}
    {answer : Db → Q → Option (List (Nat × ρ) × Option Q)} {Asks : Q → Option Nat → Prop}
    (link : Nat → Q) (hlink : ∀ id, 0 < id → id < 9223372036854775808 → Asks (link id) (some id))
    (hanswer : ∀ db q cursor, Asks q cursor →
      answer db q =
        some (queuePage (table db) (keep db) (cursor.map Int.ofNat) defaultPageLimit,
          (lastOfFull (queuePage (table db) (keep db) (cursor.map Int.ofNat)
            defaultPageLimit)).map link)) :
    Lists answer (fun db => SerialIds (table db))
      (fun db => (table db).select fun _ r => keep db r) Prod.fst 50 Asks where
  sorted db := Table.pairwise_select _ _
  answers := by
    intro db q cursor hserial hasks
    have hpage := hanswer db q cursor hasks
    rw [queuePage_eq] at hpage
    refine ⟨_, hpage, ?_, ?_⟩
    · intro hnone
      have hlength : (pageOf Prod.fst 50 ((table db).select fun _ r => keep db r) cursor).length ≤
          50 := List.length_take_le _ _
      rw [Option.map_eq_none_iff] at hnone
      unfold lastOfFull at hnone
      split at hnone
      · rename_i hfull
        rw [Option.map_eq_none_iff, List.getLast?_eq_none_iff] at hnone
        rw [hnone]
        exact Nat.zero_lt_succ 49
      · rename_i hfull
        have hne : ((pageOf Prod.fst 50 ((table db).select fun _ r => keep db r)
          cursor).length : Int) ≠ 50 := hfull
        omega
    · intro next hnext
      have hlast := Option.map_eq_some_iff.mp hnext
      obtain ⟨id, hid, rfl⟩ := hlast
      unfold lastOfFull at hid
      split at hid
      · obtain ⟨x, hx, rfl⟩ := Option.map_eq_some_iff.mp hid
        have hrow := (mem_of_mem_pageOf (List.mem_of_getLast? hx)).1
        have hbounds := hserial x.1 x.2 (Table.mem_select.mp hrow).1
        exact ⟨x, hx, hlink x.1 hbounds.1 hbounds.2⟩
      · cases hid

/-! ## Reports -/

/-- `ReportState::as_code`. -/
def reportStateCode : ReportState → List Char
  | .opened => "OPEN".toList
  | .underReview => "UNDER_REVIEW".toList
  | .resolved => "RESOLVED".toList
  | .dismissed => "DISMISSED".toList

/-- `ReportState::from_code`. -/
def reportStateOf (code : List Char) : Option ReportState :=
  if code = "OPEN".toList then some .opened
  else if code = "UNDER_REVIEW".toList then some .underReview
  else if code = "RESOLVED".toList then some .resolved
  else if code = "DISMISSED".toList then some .dismissed
  else none

/-- `list` of the report repository. -/
def listReports (db : Db) (state : Option ReportState) (afterId : Option Int) (limit : Int) :
    List (Nat × Report) :=
  queuePage db.report (fun r => state.all fun s => r.state = s) afterId limit

/-- `ReportFilterQuery`. -/
structure ReportFilterQuery where
  state : List Char
  done : List Char
  afterId : Int
deriving DecidableEq

/-- A field of `i64` that defaults to 0. -/
def readId : Option (List Char) → Option Int
  | none => some 0
  | some text => parseI64 text

/-- `Query<ReportFilterQuery>`. -/
def ReportFilterQuery.read (query : Option (List Char)) : Option ReportFilterQuery := do
  let pairs := queryPairs query
  let state ← field pairs "state".toList
  let done ← field pairs "done".toList
  let afterId ← (field pairs "after_id".toList).bind readId
  return { state := state.getD [], done := done.getD [], afterId }

/-- The link of a full page. -/
def reportsLink (state : List Char) (id : Nat) : List Char :=
  "/moderation/reports?state=".toList ++ state ++ "&after_id=".toList ++ Nat.toDigits 10 id

/-- `moderation_reports` for a moderator, of which only the rows and the link are kept.
No page answers a query that is refused. -/
def moderationReports (db : Db) (query : Option (List Char)) :
    Option (List (Nat × Report) × Option (List Char)) :=
  (ReportFilterQuery.read query).map fun q =>
    let filter := if q.state = [] then none else reportStateOf q.state
    let reports := listReports db filter (parseAfterId q.afterId) defaultPageLimit
    (reports, (lastOfFull reports).map (reportsLink q.state))

/-- The query of a link. -/
def linkedQuery (link : List Char) : Option (List Char) := (splitAtFirst '?' link).map Prod.snd

/-- What a browser gets: the rows, and the query of the next request. -/
def followed {ρ : Type} (answer : Option (List (Nat × ρ) × Option (List Char))) :
    Option (List (Nat × ρ) × Option (Option (List Char))) :=
  answer.map fun a => (a.1, a.2.map linkedQuery)

/-- The text of a filter. -/
def filterText : Option ReportState → List Char
  | none => []
  | some s => reportStateCode s

/-- The query asks for the reports that a filter keeps, from a cursor on. -/
def AsksReports (filter : Option ReportState) (query : Option (List Char))
    (cursor : Option Nat) : Prop :=
  ∃ q, ReportFilterQuery.read query = some q ∧ q.state = filterText filter ∧
    parseAfterId q.afterId = cursor.map Int.ofNat

theorem reportStateOf_filterText (filter : Option ReportState) :
    (if filterText filter = [] then none else reportStateOf (filterText filter)) = filter := by
  cases filter with
  | none => rfl
  | some s => cases s <;> decide +kernel

theorem isUnreservedText_filterText (filter : Option ReportState) :
    IsUnreservedText (filterText filter) := by
  unfold IsUnreservedText
  cases filter with
  | none => decide +kernel
  | some s => cases s <;> decide +kernel

/-- The link of a page asks for the reports behind it. -/
theorem asksReports_link (filter : Option ReportState) {id : Nat} (hpos : 0 < id)
    (hlt : id < 9223372036854775808) :
    AsksReports filter (linkedQuery (reportsLink (filterText filter) id)) (some id) := by
  let fields : List (List Char × Option (List Char)) :=
    [("state".toList, some (filterText filter)), ("after_id".toList, some (Nat.toDigits 10 id)),
      ("done".toList, none)]
  have hlink : linkedQuery (reportsLink (filterText filter) id) =
      some (joined ((given fields).map fun p => assigned p.1 p.2)) := by
    show some ("state=".toList ++ filterText filter ++ "&after_id=".toList ++ Nat.toDigits 10 id) =
      _
    simp [fields, given, assigned, joined, List.intercalate]
  have hpairs : queryPairs (linkedQuery (reportsLink (filterText filter) id)) = given fields := by
    rw [hlink]
    apply queryPairs_given
    · have hnames : ∀ name ∈ ["state".toList, "after_id".toList, "done".toList], ∀ c ∈ name,
          c.toNat < 128 ∧ isUnreserved (.ofNat c.toNat) = true := by decide +kernel
      exact hnames
    · intro p hp
      have hp : p ∈
          [("state".toList, filterText filter), ("after_id".toList, Nat.toDigits 10 id)] :=
        hp
      rcases List.mem_pair.mp hp with rfl | rfl
      · exact isUnreservedText_filterText filter
      · exact isUnreservedText_toDigits id
  have hnodup : (fields.map Prod.fst).Nodup := by
    show ["state".toList, "after_id".toList, "done".toList].Nodup
    decide +kernel
  have hstate : field (given fields) "state".toList = some (some (filterText filter)) :=
    field_given hnodup (.head _)
  have hafter : field (given fields) "after_id".toList = some (some (Nat.toDigits 10 id)) :=
    field_given hnodup (.tail _ (.head _))
  have hdone : field (given fields) "done".toList = some none :=
    field_given hnodup (.tail _ (.tail _ (.head _)))
  refine ⟨⟨filterText filter, [], id⟩, ?_, rfl, ?_⟩
  · simp only [ReportFilterQuery.read, hpairs, hstate, hafter, hdone, readId,
      parseI64_toDigits hlt, Option.bind_some, Option.bind_eq_bind, Option.pure_def,
      Option.getD_some, Option.getD_none]
  · have hpos : (0 : Int) < id := by omega
    rw [parseAfterId, if_pos hpos]
    rfl

theorem reports_lists (filter : Option ReportState) :
    Lists (fun db query => followed (moderationReports db query)) (fun db => SerialIds db.report)
      (fun db => db.report.select fun _ r => filter.all fun s => r.state = s) Prod.fst 50
      (AsksReports filter) := by
  apply queue_lists fun id => linkedQuery (reportsLink (filterText filter) id)
  · exact fun id hpos hlt => asksReports_link filter hpos hlt
  · intro db query cursor hasks
    obtain ⟨q, hread, hstate, hafter⟩ := hasks
    simp only [followed, moderationReports, hread, Option.map_some, hstate, hafter,
      reportStateOf_filterText, Option.map_map]
    rfl

/-- A moderator follows the links of the reports of one state, or of all, from the first page
on, and the reports are in any state at each of the pages.  Each page shows the reports as
they are, the ids go up over all pages, and a report that has the state at each page is shown.
The reading ends if the submissions do. -/
theorem reports_read (filter : Option ReportState) {query : Option (List Char)}
    (hquery : AsksReports filter query none) :
    (∀ dbs pages, (∀ db ∈ dbs, SerialIds db.report) →
      Follows (fun db query => followed (moderationReports db query)) dbs query pages →
      List.Forall₂ (fun db page => ∀ x ∈ page,
          db.report.row x.1 = some x.2 ∧ filter.all (fun s => x.2.state = s) = true) dbs pages ∧
        pages.flatten.Pairwise (fun a b => a.1 < b.1) ∧
        ∀ id, (∀ db ∈ dbs, ∃ r, db.report.row id = some r ∧
          filter.all (fun s => r.state = s) = true) → ∃ x ∈ pages.flatten, x.1 = id) ∧
      ∀ (db : Nat → Db) (bound : Nat), (∀ k, SerialIds (db k).report) →
        (∀ k id, bound ≤ id → (db k).report.row id = none) →
        ∃ m pages, Follows (fun db query => followed (moderationReports db query))
          ((List.range m).map db) query pages := by
  constructor
  · intro dbs pages hserial hfollows
    have hseen := (reports_lists filter).seen hfollows hserial hquery
    refine ⟨hseen.current.imp fun db page hpage x hx => ?_, hseen.ordered, ?_⟩
    · exact Table.mem_select.mp (hpage x hx)
    · intro id hall
      apply hseen.complete id rfl
      intro db hdb
      obtain ⟨r, hr⟩ := hall db hdb
      exact ⟨(id, r), Table.mem_select.mpr hr, rfl⟩
  · intro db bound hserial hbound
    have hfinite : (Set.Iio bound).WellFoundedOn (· > ·) := (Set.finite_Iio bound).wellFoundedOn
    apply (reports_lists filter).ends hserial hfinite _ hquery
    intro k x hx
    have hrow := (Table.mem_select.mp hx).1
    by_contra hle
    rw [hbound k x.1 (not_lt.mp hle)] at hrow
    cases hrow

/-- A report that waits. -/
def waitingReport : Report where
  reporterId := some 1
  targetType := .parking
  targetId := 1
  reason := "WRONG_LOCATION"
  description := none
  createdAt := 0

/-- Two reports that wait. -/
def twoReports : Db :=
  { Db.empty 0 with report := (Table.empty.insert waitingReport).insert waitingReport }

theorem reports_read_twoReports :
    ∃ m pages, Follows (fun db query => followed (moderationReports db query))
      ((List.range m).map fun _ => twoReports) (some "state=OPEN".toList) pages := by
  have hids : ∀ id r, twoReports.report.row id = some r → 0 < id ∧ id < 3 := by
    intro id r h
    have hlt : id < 3 := Table.lt_next h
    have hpos : id ≠ 0 := by
      intro hzero
      rw [hzero] at h
      cases h
    omega
  apply (reports_read (some .opened) ⟨⟨"OPEN".toList, [], 0⟩, by decide +kernel, rfl, rfl⟩).2
    (fun _ => twoReports) 3
  · intro _ id r h
    have hbounds := hids id r h
    omega
  · intro _ id hle
    cases h : twoReports.report.row id with
    | none => rfl
    | some r =>
      have hbounds := hids id r h
      omega

/-! ## Proposals -/

/-- `list_pending_proposals`.  The columns that are joined from the location are left out. -/
def listPendingProposals (db : Db) (afterId : Option Int) (limit : Int) :
    List (Nat × ParkingProposal) :=
  queuePage db.parkingProposal
    (fun r => r.status = .pending && (db.parkingLocation.row r.locationId).isSome) afterId limit

/-- `ModerationNotice`. -/
structure ModerationNotice where
  done : List Char
  afterAt : List Char
  afterId : Int
deriving DecidableEq

/-- `Query<ModerationNotice>`. -/
def ModerationNotice.read (query : Option (List Char)) : Option ModerationNotice := do
  let pairs := queryPairs query
  let done ← field pairs "done".toList
  let afterAt ← field pairs "after_at".toList
  let afterId ← (field pairs "after_id".toList).bind readId
  return { done := done.getD [], afterAt := afterAt.getD [], afterId }

/-- The link of a full page. -/
def proposalsLink (id : Nat) : List Char :=
  "/moderation/proposals?after_id=".toList ++ Nat.toDigits 10 id

/-- `moderation_proposals` for a moderator, of which only the rows and the link are kept. -/
def moderationProposals (db : Db) (query : Option (List Char)) :
    Option (List (Nat × ParkingProposal) × Option (List Char)) :=
  (ModerationNotice.read query).map fun q =>
    let proposals := listPendingProposals db (parseAfterId q.afterId) defaultPageLimit
    (proposals, (lastOfFull proposals).map proposalsLink)

/-- The query asks for the proposals from a cursor on. -/
def AsksProposals (query : Option (List Char)) (cursor : Option Nat) : Prop :=
  ∃ q, ModerationNotice.read query = some q ∧ parseAfterId q.afterId = cursor.map Int.ofNat

/-- The link of a page asks for the proposals behind it. -/
theorem asksProposals_link {id : Nat} (hpos : 0 < id) (hlt : id < 9223372036854775808) :
    AsksProposals (linkedQuery (proposalsLink id)) (some id) := by
  let fields : List (List Char × Option (List Char)) :=
    [("after_id".toList, some (Nat.toDigits 10 id)), ("done".toList, none),
      ("after_at".toList, none)]
  have hlink : linkedQuery (proposalsLink id) =
      some (joined ((given fields).map fun p => assigned p.1 p.2)) := by
    show some ("after_id=".toList ++ Nat.toDigits 10 id) = _
    simp [fields, given, assigned, joined]
  have hpairs : queryPairs (linkedQuery (proposalsLink id)) = given fields := by
    rw [hlink]
    apply queryPairs_given
    · have hnames : ∀ name ∈ ["after_id".toList, "done".toList, "after_at".toList], ∀ c ∈ name,
          c.toNat < 128 ∧ isUnreserved (.ofNat c.toNat) = true := by decide +kernel
      exact hnames
    · intro p hp
      have hp : p ∈ [("after_id".toList, Nat.toDigits 10 id)] := hp
      rw [List.mem_singleton.mp hp]
      exact isUnreservedText_toDigits id
  have hnodup : (fields.map Prod.fst).Nodup := by
    show ["after_id".toList, "done".toList, "after_at".toList].Nodup
    decide +kernel
  have hafter : field (given fields) "after_id".toList = some (some (Nat.toDigits 10 id)) :=
    field_given hnodup (.head _)
  have hdone : field (given fields) "done".toList = some none :=
    field_given hnodup (.tail _ (.head _))
  have hat : field (given fields) "after_at".toList = some none :=
    field_given hnodup (.tail _ (.tail _ (.head _)))
  refine ⟨⟨[], [], id⟩, ?_, ?_⟩
  · simp only [ModerationNotice.read, hpairs, hat, hafter, hdone, readId,
      parseI64_toDigits hlt, Option.bind_some, Option.bind_eq_bind, Option.pure_def,
      Option.getD_none]
  · have hpos : (0 : Int) < id := by omega
    rw [parseAfterId, if_pos hpos]
    rfl

theorem proposals_lists :
    Lists (fun db query => followed (moderationProposals db query))
      (fun db => SerialIds db.parkingProposal)
      (fun db => db.parkingProposal.select fun _ r =>
        r.status = .pending && (db.parkingLocation.row r.locationId).isSome) Prod.fst 50
      AsksProposals := by
  apply queue_lists fun id => linkedQuery (proposalsLink id)
  · exact fun id hpos hlt => asksProposals_link hpos hlt
  · intro db query cursor hasks
    obtain ⟨q, hread, hafter⟩ := hasks
    simp only [followed, moderationProposals, hread, Option.map_some, hafter, Option.map_map]
    rfl

/-- A moderator who follows the links of the pending proposals sees, in the order in which they
came in, every one that is pending at each page, and none twice. -/
theorem proposals_read {dbs : List Db} {query : Option (List Char)}
    {pages : List (List (Nat × ParkingProposal))} (hquery : AsksProposals query none)
    (hserial : ∀ db ∈ dbs, SerialIds db.parkingProposal)
    (hfollows : Follows (fun db query => followed (moderationProposals db query)) dbs query pages) :
    pages.flatten.Pairwise (fun a b => a.1 < b.1) ∧
      ∀ id, (∀ db ∈ dbs, ∃ r, db.parkingProposal.row id = some r ∧ r.status = .pending ∧
        (db.parkingLocation.row r.locationId).isSome = true) → ∃ x ∈ pages.flatten, x.1 = id := by
  have hseen := proposals_lists.seen hfollows hserial hquery
  refine ⟨hseen.ordered, ?_⟩
  intro id hall
  apply hseen.complete id rfl
  intro db hdb
  obtain ⟨r, hrow, hpending, hlocation⟩ := hall db hdb
  exact ⟨(id, r), Table.mem_select.mpr ⟨hrow, by simp [hpending, hlocation]⟩, rfl⟩

end BikesNest.Web
